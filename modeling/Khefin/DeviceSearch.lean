import Khefin.DeviceTurns
import Khefin.FirstVerdict
import Khefin.KeyfileAgreement

/-! # Which device of the list answers

Over devices without PINs the loop is a search for the first verdict: a device that
holds the credential prints its secret, one that is not FIDO2 ends the process, and
every other one is passed over. -/

namespace Khefin
open CLibrary ExitingPrograms FirstVerdict

/-- What a device does to the search. -/
inductive Verdict
  | secret (s : Bytes)
  | notFido2
  deriving DecidableEq

def Authenticator.verdict (c : DeserializedCleartext) (request : AssertionRequest)
    (a : Authenticator) : Option Verdict :=
  if a.fidoDevIsFido2 = false then some .notFido2
  else if a.Matches c ∧ deviceSupportsHmacSecret a.cborInfo = true then
    if (a.fidoDevGetAssert request).1 = fidoOk then some (.secret (a.fidoDevGetAssert request).2)
    else none
  else none

/-- A device without a PIN that answers with a secret. -/
structure Authenticator.Holds (a : Authenticator) (c : DeserializedCleartext)
    (request : AssertionRequest) (secret : Bytes) : Prop where
  responds : a.Responds
  fido2 : a.fidoDevIsFido2 = true
  supports : deviceSupportsHmacSecret a.cborInfo = true
  matched : a.Matches c
  no_pin : a.fidoDevHasPin = false
  answers : a.Answers request fidoOk secret
  secret_ne_nil : secret ≠ []

/-- A device that is not FIDO2, is of another kind, lacks the extension, or has no PIN
and knows no such credential. -/
def Authenticator.Unrelated (a : Authenticator) (c : DeserializedCleartext)
    (request : AssertionRequest) : Prop :=
  a.Responds ∧ (a.fidoDevIsFido2 = false ∨ ¬a.Matches c ∨
    deviceSupportsHmacSecret a.cborInfo = false ∨
    a.fidoDevHasPin = false ∧ ∃ secret, a.Answers request fidoErrNoCredentials secret)

section Verdicts

variable {a : Authenticator} {c : DeserializedCleartext} {request : AssertionRequest}
  {secret : Bytes}

theorem Authenticator.Holds.verdict_eq (h : a.Holds c request secret) :
    a.verdict c request = some (.secret secret) := by
  simp [Authenticator.verdict, h.fido2, h.matched, h.supports, h.answers.fidoDevGetAssert]

theorem Authenticator.Unrelated.verdict_ne (h : a.Unrelated c request) :
    a.verdict c request ≠ some (.secret secret) := by
  unfold Authenticator.verdict
  rcases h with ⟨-, h | h | h | ⟨-, s, h⟩⟩
  · simp [h]
  · split <;> simp_all
  · split <;> simp_all
  · split
    · simp
    · simp [h.fidoDevGetAssert, fidoErrNoCredentials, fidoOk]

theorem Authenticator.Unrelated.verdict_eq_none_iff (h : a.Unrelated c request) :
    a.verdict c request = none ↔ a.fidoDevIsFido2 = true := by
  constructor
  · intro hv
    by_contra hf
    simp [Authenticator.verdict, Bool.eq_false_of_not_eq_true hf] at hv
  · intro hf
    cases hv : a.verdict c request with
    | none => rfl
    | some v =>
      cases v with
      | secret s => exact absurd hv h.verdict_ne
      | notFido2 =>
        unfold Authenticator.verdict at hv
        rw [if_neg (by simp [hf])] at hv
        split at hv
        · split at hv <;> simp at hv
        · simp at hv

end Verdicts

/-! ## One turn and the whole loop -/

section Loop

variable {P : Platform} {invocation : InvocationState} {c : DeserializedCleartext}
  {params : AuthenticatorParameters} {secret : Bytes}

/-- How a turn or a search ends, by the verdict that ends it. -/
def EndsWith {α : Type} (w : World) (returned printed : α) (r : EStateM.Result Halt World α) :
    Option Verdict → Prop
  | none => ∃ w', r = .ok returned w' ∧ w'.stdout = w.stdout
  | some (.secret s) => ∃ w', r = .ok printed w' ∧ w'.stdout = w.stdout ++ hexLine s
  | some .notFido2 => ∃ m w', r = .error (.exit .authenticatorError m) w'

/-- A device the search can be followed through. -/
def Authenticator.Settled (a : Authenticator) (c : DeserializedCleartext)
    (request : AssertionRequest) (secret : Bytes) : Prop :=
  a.Holds c request secret ∨ a.Unrelated c request

theorem tryDevice_of_holds (hc : params.credentialId ≠ []) (hs : params.salt ≠ [])
    (haaguid : P.malloc c.deviceAaguid.length = true) (hstruct : P.malloc sizeofSecret = true)
    (hsecret : P.malloc secret.length = true) {a : Authenticator}
    (h : a.Holds c params.assertionRequest secret) (slot : ℕ) (w : World) :
    ∃ w', tryDevice P invocation c ⟨slot, a⟩ params w = .ok none w' ∧
      w'.stdout = w.stdout ++ hexLine secret := by
  rw [tryDevice_of_candidate h.responds h.fido2 haaguid h.matched h.supports,
    tryCandidate_of_no_pin h.no_pin,
    askDevice_of_secret hc hs h.answers h.secret_ne_nil hstruct hsecret]
  exact ⟨_, rfl, by simp⟩

/-- A FIDO2 device that is not concerned leaves the parameters and the output alone. -/
theorem tryDevice_of_unrelated (hc : params.credentialId ≠ []) (hs : params.salt ≠ [])
    (haaguid : P.malloc c.deviceAaguid.length = true) (hstruct : P.malloc sizeofSecret = true)
    {a : Authenticator} (h : a.Unrelated c params.assertionRequest)
    (hf : a.fidoDevIsFido2 = true) (slot : ℕ) (w : World) :
    ∃ w', tryDevice P invocation c ⟨slot, a⟩ params w = .ok (some params) w' ∧
      w'.stdout = w.stdout := by
  obtain ⟨hr, h⟩ := h
  by_cases hm : a.Matches c
  · cases hsup : deviceSupportsHmacSecret a.cborInfo with
    | false => exact ⟨_, tryDevice_of_unsupported hr hf haaguid hm hsup, closed_stdout _ _⟩
    | true =>
      obtain ⟨hpin, s, hans⟩ : a.fidoDevHasPin = false ∧
          ∃ s, a.Answers params.assertionRequest fidoErrNoCredentials s := by
        simpa [hf, hm, hsup] using h
      rw [tryDevice_of_candidate hr hf haaguid hm hsup, tryCandidate_of_no_pin hpin,
        askDevice_of_no_credentials hc hs hans hstruct]
      exact ⟨_, rfl, by simp⟩
  · exact ⟨_, tryDevice_of_mismatch hr hf haaguid hm, rfl⟩

theorem tryDevice_endsWith (hc : params.credentialId ≠ []) (hs : params.salt ≠ [])
    (haaguid : P.malloc c.deviceAaguid.length = true) (hstruct : P.malloc sizeofSecret = true)
    (hsecret : P.malloc secret.length = true) {a : Authenticator}
    (h : a.Settled c params.assertionRequest secret) (slot : ℕ) (w : World) :
    EndsWith w (some params) none (tryDevice P invocation c ⟨slot, a⟩ params w)
      (a.verdict c params.assertionRequest) := by
  rcases h with h | h
  · rw [h.verdict_eq]
    exact tryDevice_of_holds hc hs haaguid hstruct hsecret h slot w
  · cases hf : a.fidoDevIsFido2 with
    | true =>
      rw [h.verdict_eq_none_iff.mpr hf]
      exact tryDevice_of_unrelated hc hs haaguid hstruct h hf slot w
    | false =>
      have hv : a.verdict c params.assertionRequest = some .notFido2 := by
        simp [Authenticator.verdict, hf]
      rw [hv]
      exact ⟨_, _, tryDevice_of_not_fido2 h.1 hf⟩

/-- The loop ends as the search for the first verdict does. -/
theorem searchDevices_endsWith (hc : params.credentialId ≠ []) (hs : params.salt ≠ [])
    (haaguid : P.malloc c.deviceAaguid.length = true) (hstruct : P.malloc sizeofSecret = true)
    (hsecret : P.malloc secret.length = true) {devices : List Authenticator}
    (h : ∀ a ∈ devices, a.Settled c params.assertionRequest secret) (slot : ℕ) (w : World) :
    EndsWith w false true (searchDevices P invocation c slot devices params w)
      (devices.findSome? (Authenticator.verdict c params.assertionRequest)) := by
  induction devices generalizing slot w with
  | nil => exact ⟨w, rfl, rfl⟩
  | cons a devices ih =>
    have hturn : EndsWith w (some params) none (tryDevice P invocation c ⟨slot, a⟩ params w) _ :=
      tryDevice_endsWith hc hs haaguid hstruct hsecret (h a List.mem_cons_self) slot w
    rw [List.findSome?_cons]
    cases hv : a.verdict c params.assertionRequest with
    | none =>
      rw [hv] at hturn
      obtain ⟨w', hr, hw⟩ := hturn
      have hrest := ih (fun x hx => h x (List.mem_cons_of_mem a hx)) (slot + 1) w'
      rw [searchDevices, bind_of_ok hr]
      unfold EndsWith at hrest ⊢
      rw [hw] at hrest
      exact hrest
    | some v =>
      rw [hv] at hturn
      cases v with
      | secret s =>
        obtain ⟨w', hr, hw⟩ := hturn
        exact ⟨w', by rw [searchDevices, bind_of_ok hr]; rfl, hw⟩
      | notFido2 =>
        obtain ⟨m, w', hr⟩ := hturn
        exact ⟨m, w', by rw [searchDevices, bind_of_error hr]⟩

end Loop

/-! ## Parameters that no request can be made with -/

/-- A request needs a credential id and a salt. -/
def AuthenticatorParameters.Usable (params : AuthenticatorParameters) : Prop :=
  params.credentialId ≠ [] ∧ params.salt ≠ []

section Usable

variable {P : Platform} {invocation : InvocationState} {c : DeserializedCleartext}
  {device : FidoDev} {params params' : AuthenticatorParameters} {w w' : World}

theorem usable_of_askDevice {r : Option AuthenticatorParameters}
    (h : askDevice P device params w = .ok r w') : params.Usable := by
  simp only [askDevice, bind_eq_ok] at h
  obtain ⟨_, _, -, ⟨_, _⟩, _, hsecret, -⟩ := h
  exact (getSecret_spec hsecret).1

theorem usable_of_withPin {pin : Option CString} (h : params' = { params with authenticatorPin := pin })
    (hu : params'.Usable) : params.Usable := by
  rw [h] at hu
  exact hu

theorem usable_of_tryDevice (h : tryDevice P invocation c device params w = .ok none w') :
    params.Usable := by
  simp only [tryDevice, bind_eq_ok] at h
  obtain ⟨_, _, -, _, _, -, _, _, -, h⟩ := h
  split at h
  · simp at h
  split at h
  · simp only [bind_eq_ok] at h
    obtain ⟨_, _, -, h⟩ := h
    simp at h
  simp only [tryCandidate, bind_eq_ok] at h
  obtain ⟨params₁, w₁, hpin, h⟩ := h
  split at h
  · simp only [bind_eq_ok] at h
    obtain ⟨_, _, -, _, _, -, h⟩ := h
    simp at h
  · exact usable_of_withPin (pinForGeneration_spec hpin) (usable_of_askDevice h)

/-- No secret is printed without them. -/
theorem usable_of_searchDevices {devices : List Authenticator} {slot : ℕ}
    (h : searchDevices P invocation c slot devices params w = .ok true w') : params.Usable := by
  induction devices generalizing slot params w with
  | nil => simp [searchDevices] at h
  | cons a devices ih =>
    simp only [searchDevices, bind_eq_ok] at h
    obtain ⟨r, w₁, hturn, h⟩ := h
    cases r with
    | none => exact usable_of_tryDevice hturn
    | some params' => exact usable_of_withPin (tryDevice_params hturn) (ih h)

end Usable

/-! ## The whole command -/

/-- The secret is printed and the command succeeds. -/
def Finds (P : Platform) (invocation : InvocationState) (w : World)
    (devices : List Authenticator) (secret : Bytes) : Prop :=
  ∃ w', printSecretConsumingInvocation P invocation devices w = .ok .success w' ∧
    w'.stdout = w.stdout ++ hexLine secret

/-- The request made of a device without a PIN for opened parameters. -/
def AuthenticatorParameters.requestWithoutPin (params : AuthenticatorParameters) :
    AssertionRequest := { params.assertionRequest with pin := none }

theorem usable_of_finds {P : Platform} {invocation : InvocationState} {w w₁ : World}
    {c : DeserializedCleartext} {params : AuthenticatorParameters} {secret : Bytes}
    (hopen : openKeyfile P invocation w = .ok (c, params) w₁) {devices : List Authenticator}
    (h : Finds P invocation w devices secret) : params.Usable := by
  obtain ⟨w', hrun, -⟩ := h
  cases hs : searchDevices P invocation c 0 devices params w₁ with
  | error e w₂ => simp [printSecret_of_search_error hopen hs] at hrun
  | ok found w₂ =>
    cases found with
    | true => exact usable_of_searchDevices hs
    | false =>
      rw [printSecret_of_search_ok hopen hs] at hrun
      have hstatus := (EStateM.Result.ok.inj hrun).1
      simp only [Bool.false_eq_true, ↓reduceIte] at hstatus
      split at hstatus <;> simp at hstatus

theorem finds_iff_findSome? {P : Platform} {invocation : InvocationState} {w w₁ : World}
    {c : DeserializedCleartext} {params : AuthenticatorParameters} {secret : Bytes}
    (hopen : openKeyfile P invocation w = .ok (c, params) w₁) (hu : params.Usable)
    (haaguid : P.malloc c.deviceAaguid.length = true) (hstruct : P.malloc sizeofSecret = true)
    (hsecret : P.malloc secret.length = true) {devices : List Authenticator}
    (h : ∀ a ∈ devices, a.Settled c params.assertionRequest secret)
    (hfound : ∃ a ∈ devices, a.Holds c params.assertionRequest secret) :
    Finds P invocation w devices secret ↔
      devices.findSome? (Authenticator.verdict c params.assertionRequest) =
        some (.secret secret) := by
  obtain ⟨-, hout, -⟩ := (quietly_openKeyfile P invocation).of_ok hopen
  have hsearch : EndsWith w₁ false true (searchDevices P invocation c 0 devices params w₁) _ :=
    searchDevices_endsWith hu.1 hu.2 haaguid hstruct hsecret h 0 w₁
  cases hv : devices.findSome? (Authenticator.verdict c params.assertionRequest) with
  | none =>
    obtain ⟨a, ha, hholds⟩ := hfound
    exact absurd (List.findSome?_eq_none_iff.mp hv a ha) (by simp [hholds.verdict_eq])
  | some v =>
    rw [hv] at hsearch
    cases v with
    | secret s =>
      obtain ⟨w', hr, hw⟩ := hsearch
      have hall : printSecretConsumingInvocation P invocation devices w = .ok .success w' :=
        printSecret_of_search_ok hopen hr
      obtain ⟨a, ha, hva⟩ := List.exists_of_findSome?_eq_some hv
      rcases h a ha with hh | hh
      · obtain rfl : secret = s := by simpa [hh.verdict_eq] using hva
        simp only [iff_true]
        exact ⟨w', hall, by rw [hw, hout]⟩
      · exact absurd hva hh.verdict_ne
    | notFido2 =>
      obtain ⟨m, w', hr⟩ := hsearch
      have hall : printSecretConsumingInvocation P invocation devices w =
          .error (.exit .authenticatorError m) w' := printSecret_of_search_error hopen hr
      simp [Finds, hall]

/-- With one device that holds the credential and others that are unrelated, and parameters a
request can be made with, the secret is found in a given order exactly when every device before
the one that holds it is FIDO2, and in every order exactly when all devices are. What
`free_parameters` wipes behind the search is treated with the buffers of the parameters. -/
theorem finds_iff_fido2_before {P : Platform} {invocation : InvocationState} {w w₁ : World}
    {c : DeserializedCleartext} {params : AuthenticatorParameters} {secret : Bytes}
    (hopen : openKeyfile P invocation w = .ok (c, params) w₁)
    (haaguid : P.malloc c.deviceAaguid.length = true) (hstruct : P.malloc sizeofSecret = true)
    (hsecret : P.malloc secret.length = true) (before after : List Authenticator)
    {a : Authenticator} (ha : a.Holds c params.requestWithoutPin secret)
    (hothers : ∀ x ∈ before ++ after, x.Unrelated c params.requestWithoutPin) :
    (Finds P invocation w (before ++ a :: after) secret ↔
      params.Usable ∧ ∀ x ∈ before, x.fidoDevIsFido2 = true) ∧
    ((∀ devices : List Authenticator, devices.Perm (before ++ a :: after) →
      Finds P invocation w devices secret) ↔
        params.Usable ∧ ∀ x ∈ before ++ after, x.fidoDevIsFido2 = true) := by
  have hreq : params.requestWithoutPin = params.assertionRequest := by
    rw [AuthenticatorParameters.requestWithoutPin, AuthenticatorParameters.assertionRequest,
      no_pin_of_openKeyfile hopen]
  rw [hreq] at ha hothers
  by_cases hu : params.Usable
  swap
  · refine ⟨⟨fun h => absurd (usable_of_finds hopen h) hu, fun h => absurd h.1 hu⟩,
      ⟨fun h => ?_, fun h => absurd h.1 hu⟩⟩
    exact absurd (usable_of_finds hopen (h _ (List.Perm.refl _))) hu
  simp only [hu, true_and]
  have hsettled : ∀ devices : List Authenticator, devices.Perm (a :: (before ++ after)) →
      (Finds P invocation w devices secret ↔
        devices.findSome? (Authenticator.verdict c params.assertionRequest) =
          some (.secret secret)) := by
    intro devices hperm
    refine finds_iff_findSome? hopen hu haaguid hstruct hsecret ?_
      ⟨a, hperm.mem_iff.mpr List.mem_cons_self, ha⟩
    intro x hx
    rcases List.mem_cons.mp (hperm.mem_iff.mp hx) with rfl | hx
    · exact Or.inl ha
    · exact Or.inr (hothers x hx)
  have hne : ∀ x ∈ before ++ after,
      x.verdict c params.assertionRequest ≠ some (.secret secret) :=
    fun x hx => (hothers x hx).verdict_ne
  have hnone : ∀ x ∈ before ++ after,
      (x.verdict c params.assertionRequest = none ↔ x.fidoDevIsFido2 = true) :=
    fun x hx => (hothers x hx).verdict_eq_none_iff
  constructor
  · rw [hsettled _ List.perm_middle, findSome?_append_cons_iff ha.verdict_eq
      fun x hx => hne x (List.mem_append_left after hx)]
    exact forall₂_congr fun x hx => hnone x (List.mem_append_left after hx)
  · have hperms := forall_perm_findSome?_iff ha.verdict_eq hne
    rw [forall₂_congr hnone] at hperms
    rw [← hperms]
    refine forall_congr' fun devices => ?_
    rw [List.perm_middle.congr_right]
    exact forall_congr' fun hperm => hsettled devices hperm

/-- A first-generation key, which knows no extensions. -/
def u2fDevice : Authenticator :=
  { referenceDevice with fidoDevIsFido2 := false, fidoDevGetCborInfo := fidoErrInternal }

def otherDevice : Authenticator := { referenceDevice with cborInfo := ⟨[literal "hmac-secret"], [1]⟩ }

theorem holds_reference (request : AssertionRequest) :
    referenceDevice.Holds referenceKeyfile request [0x5e, 0xc3] where
  responds := ⟨rfl, rfl, rfl, fun _ => rfl⟩
  fido2 := rfl
  supports := by rfl
  matched := Or.inr rfl
  no_pin := rfl
  answers := ⟨rfl, rfl, rfl⟩
  secret_ne_nil := by decide

theorem unrelated_u2f (request : AssertionRequest) : u2fDevice.Unrelated referenceKeyfile request :=
  ⟨⟨rfl, rfl, rfl, by decide⟩, Or.inl rfl⟩

theorem unrelated_other (request : AssertionRequest) :
    otherDevice.Unrelated referenceKeyfile request :=
  ⟨⟨rfl, rfl, rfl, fun _ => rfl⟩, Or.inr (Or.inl (by decide))⟩

theorem finds_between_other_and_u2f :
    ∃ w, Finds (referenceHost referenceDevice) (referenceOpening (literal "correct horse")) w
      [otherDevice, referenceDevice, u2fDevice] [0x5e, 0xc3] := by
  obtain ⟨data, params, w₁, hopen, hc, hs⟩ := exists_openedReference
  refine ⟨_, (finds_iff_fido2_before hopen (by decide) (by decide) (by decide) [otherDevice]
    [u2fDevice] (holds_reference _) ?_).1.mpr ⟨⟨hc, hs⟩, ?_⟩⟩
  · intro x hx
    rcases List.mem_pair.mp hx with rfl | rfl
    · exact unrelated_other _
    · exact unrelated_u2f _
  · intro x hx
    rw [List.mem_singleton.mp hx]
    rfl

/-- A key that is not FIDO2 in front of the right one ends the process. -/
theorem not_finds_behind_u2f : ∃ data params w₁,
    openKeyfile (referenceHost referenceDevice) (referenceOpening (literal "correct horse"))
      (storedWorld data) = .ok (referenceKeyfile, params) w₁ ∧
    referenceDevice.Holds referenceKeyfile params.requestWithoutPin [0x5e, 0xc3] ∧
    u2fDevice.Unrelated referenceKeyfile params.requestWithoutPin ∧
    Finds (referenceHost referenceDevice) (referenceOpening (literal "correct horse"))
      (storedWorld data) [referenceDevice, u2fDevice] [0x5e, 0xc3] ∧
    ¬Finds (referenceHost referenceDevice) (referenceOpening (literal "correct horse"))
      (storedWorld data) [u2fDevice, referenceDevice] [0x5e, 0xc3] := by
  obtain ⟨data, params, w₁, hopen, hc, hs⟩ := exists_openedReference
  have hsettled : ∀ devices : List Authenticator, devices.Perm [referenceDevice, u2fDevice] →
      (Finds (referenceHost referenceDevice) (referenceOpening (literal "correct horse"))
        (storedWorld data) devices [0x5e, 0xc3] ↔
      devices.findSome? (Authenticator.verdict referenceKeyfile params.assertionRequest) =
        some (.secret [0x5e, 0xc3])) := by
    intro devices hperm
    refine finds_iff_findSome? hopen ⟨hc, hs⟩ (by decide) (by decide) (by decide) ?_
      ⟨referenceDevice, hperm.mem_iff.mpr List.mem_cons_self, holds_reference _⟩
    intro x hx
    rcases List.mem_pair.mp (hperm.mem_iff.mp hx) with rfl | rfl
    · exact Or.inl (holds_reference _)
    · exact Or.inr (unrelated_u2f _)
  refine ⟨data, params, w₁, hopen, holds_reference _, unrelated_u2f _, ?_, ?_⟩
  · rw [hsettled _ (List.Perm.refl _), List.findSome?_cons, (holds_reference _).verdict_eq]
  · rw [hsettled _ (List.Perm.swap _ _ _), List.findSome?_cons]
    simp [Authenticator.verdict, u2fDevice]

end Khefin
