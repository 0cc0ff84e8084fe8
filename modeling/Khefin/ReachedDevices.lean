import Khefin.AssertionRequests
import Khefin.DeviceSearch

/-! # Devices that the search gets to

A device with a PIN is asked with the one that was given, and one without with whatever the devices
before it have left. The search ends at the first device that has the secret, whatever is connected
behind it. -/

namespace Khefin
open CLibrary ExitingPrograms

/-! ## What a device may be asked with -/

/-- A PIN that the device may be asked with, if this one was given. -/
def Authenticator.MayGet (a : Authenticator) (given pin : Option CString) : Prop :=
  pin = given ∨ a.fidoDevHasPin = false ∧ pin = none

/-- For a device with a PIN one was given, and it is passed on as it is. -/
def Authenticator.PinGiven (a : Authenticator) (given : Option CString) : Prop :=
  a.fidoDevHasPin = true → (literal promptFormatString).length + a.productString.length +
      a.path.length + 1 ≤ largestValidPayloadSizeBytes ∧
    ∃ pin, given = some pin ∧ pin.length ≠ 0 ∧ pin.length < longestValidPin

/-- The device is of the keyfile's kind, and answers with the secret. -/
structure Authenticator.Gives (a : Authenticator) (c : DeserializedCleartext)
    (request : AssertionRequest) (given : Option CString) (secret : Bytes) : Prop where
  responds : a.Responds
  fido2 : a.fidoDevIsFido2 = true
  matched : a.Matches c
  supports : deviceSupportsHmacSecret a.cborInfo = true
  pinGiven : a.PinGiven given
  answers : ∀ pin, a.MayGet given pin → a.Answers { request with pin } fidoOk secret
  secret_ne_nil : secret ≠ []

/-- A FIDO2 device of another kind, without the extension, or that has no secret for the request;
its PIN may be another one. -/
structure Authenticator.PassesOn (a : Authenticator) (c : DeserializedCleartext)
    (request : AssertionRequest) (given : Option CString) : Prop where
  responds : a.Responds
  fido2 : a.fidoDevIsFido2 = true
  cause : ¬a.Matches c ∨ deviceSupportsHmacSecret a.cborInfo = false ∨ a.PinGiven given ∧
    ∀ pin, a.MayGet given pin → ∃ r secret, isSoftError r = true ∧
      a.Answers { request with pin } r secret

/-! ## Turns -/

section Turns

variable {P : Platform} {invocation : InvocationState} {c : DeserializedCleartext} {slot : ℕ}
  {a : Authenticator} {params shared : AuthenticatorParameters} {w : World} {secret : Bytes}

/-- What the turns have in common: the parameters of the first, but for the PIN. -/
def SharesPin (invocation : InvocationState) (params shared : AuthenticatorParameters) : Prop :=
  shared = { params with authenticatorPin := shared.authenticatorPin } ∧
    (shared.authenticatorPin = none ∨ shared.authenticatorPin = invocation.authenticatorPin)

theorem SharesPin.assertionRequest_eq (h : SharesPin invocation params shared) :
    shared.assertionRequest = { params.assertionRequest with pin := shared.authenticatorPin } := by
  rw [h.1]
  rfl

theorem ne_fidoOk_of_isSoftError {r : ℤ} (h : isSoftError r = true) : r ≠ fidoOk := by
  rintro rfl
  exact absurd h (by decide)

/-- A device that has no secret for the request leaves the parameters and the output alone. -/
theorem askDevice_of_soft_error (hc : params.credentialId ≠ []) (hs : params.salt ≠ []) {r : ℤ}
    (hsoft : isSoftError r = true) (h : a.Answers params.assertionRequest r secret)
    (hm : P.malloc sizeofSecret = true) (slot : ℕ) (w : World) : ∃ w',
      askDevice P ⟨slot, a⟩ params w = .ok (some params) w' ∧ w'.stdout = w.stdout := by
  have hne := ne_fidoOk_of_isSoftError hsoft
  have hasked := getSecret_of_answers P slot w hc hs h
  rw [if_pos hne, if_pos hsoft] at hasked
  have hclosed := closeAndFreeDeviceIgnoringErrors_apply ⟨slot, a⟩
    (w.record (.fidoDevGetAssert slot params.assertionRequest))
  obtain ⟨w', hwarned, hout⟩ : ∃ w', warnAboutResult ⟨slot, a⟩ r
      ((w.record (.fidoDevGetAssert slot params.assertionRequest)).closed ⟨slot, a⟩) = .ok () w' ∧
        w'.stdout = w.stdout := by
    unfold warnAboutResult
    split_ifs
    · exact ⟨_, rfl, by simp⟩
    · exact ⟨_, record_apply _ _, by simp⟩
    · exact ⟨_, record_apply _ _, by simp⟩
  refine ⟨w', ?_, hout⟩
  rw [askDevice, bind_of_ok (lift_eq_ok.mpr ⟨mallocOrExit_of hm _, rfl⟩), bind_of_ok hasked]
  simp only [bind_of_ok hclosed, if_neg hne, bind_of_ok hwarned]
  rfl

/-- A candidate is asked with a PIN that it may get. -/
theorem exists_tryCandidate_eq (hshares : SharesPin invocation params shared)
    (hmemory : P.Allocates largestValidPayloadSizeBytes)
    (hpin : a.PinGiven invocation.authenticatorPin) (slot : ℕ) (w : World) :
    ∃ shared', SharesPin invocation params shared' ∧
      a.MayGet invocation.authenticatorPin shared'.authenticatorPin ∧
      tryCandidate P invocation ⟨slot, a⟩ shared w = askDevice P ⟨slot, a⟩ shared' w := by
  cases hhas : a.fidoDevHasPin with
  | false =>
    refine ⟨shared, hshares, ?_, tryCandidate_of_no_pin hhas⟩
    rcases hshares.2 with hnone | hgiven
    · exact .inr ⟨hhas, hnone⟩
    · exact .inl hgiven
  | true =>
    obtain ⟨hprompt, pin, hgiven, hne, hshort⟩ := hpin hhas
    refine ⟨{ shared with authenticatorPin := some pin }, ⟨?_, .inr hgiven.symm⟩, .inl hgiven.symm, ?_⟩
    · rw [hshares.1]
    · exact tryCandidate_of_given_pin hhas hgiven hshort hne (hmemory _ (by decide))
        (hmemory _ hprompt)

theorem SharesPin.usable (h : SharesPin invocation params shared) (hu : params.Usable) :
    shared.Usable := by
  rw [h.1]
  exact hu

variable (hshares : SharesPin invocation params shared) (hu : params.Usable)
  (haaguid : P.malloc c.deviceAaguid.length = true)
  (hmemory : P.Allocates largestValidPayloadSizeBytes)
include hshares hu haaguid hmemory

theorem tryDevice_of_gives (hsecret : secret.length ≤ largestValidPayloadSizeBytes)
    (h : a.Gives c params.assertionRequest invocation.authenticatorPin secret) (slot : ℕ) (w : World) :
    ∃ w', tryDevice P invocation c ⟨slot, a⟩ shared w = .ok none w' ∧
      w'.stdout = w.stdout ++ hexLine secret := by
  obtain ⟨shared', hshares', hget, hasked⟩ := exists_tryCandidate_eq hshares hmemory h.pinGiven slot
    (w.record (.fidoDevOpen slot))
  have hanswers := h.answers _ hget
  rw [← hshares'.assertionRequest_eq] at hanswers
  have husable := hshares'.usable hu
  rw [tryDevice_of_candidate h.responds h.fido2 haaguid h.matched h.supports, hasked,
    askDevice_of_secret husable.1 husable.2 hanswers h.secret_ne_nil (hmemory _ (by decide))
      (hmemory _ hsecret)]
  exact ⟨_, rfl, by simp⟩

theorem tryDevice_of_passesOn
    (h : a.PassesOn c params.assertionRequest invocation.authenticatorPin) (slot : ℕ) (w : World) :
    ∃ shared' w', SharesPin invocation params shared' ∧
      tryDevice P invocation c ⟨slot, a⟩ shared w = .ok (some shared') w' ∧
        w'.stdout = w.stdout := by
  by_cases hm : a.Matches c
  swap
  · exact ⟨shared, _, hshares, tryDevice_of_mismatch h.responds h.fido2 haaguid hm, rfl⟩
  cases hs : deviceSupportsHmacSecret a.cborInfo with
  | false =>
    exact ⟨shared, _, hshares, tryDevice_of_unsupported h.responds h.fido2 haaguid hm hs,
      closed_stdout _ _⟩
  | true =>
    obtain ⟨hpin, hanswers⟩ := (h.cause.resolve_left (not_not_intro hm)).resolve_left (by simp [hs])
    obtain ⟨shared', hshares', hget, hasked⟩ := exists_tryCandidate_eq hshares hmemory hpin slot
      (w.record (.fidoDevOpen slot))
    obtain ⟨r, secret, hsoft, hanswers⟩ := hanswers _ hget
    rw [← hshares'.assertionRequest_eq] at hanswers
    have husable := hshares'.usable hu
    obtain ⟨w', hnothing, hout⟩ := askDevice_of_soft_error husable.1 husable.2 hsoft hanswers
      (hmemory _ (by decide)) slot (w.record (.fidoDevOpen slot))
    refine ⟨shared', w', hshares', ?_, hout⟩
    rw [tryDevice_of_candidate h.responds h.fido2 haaguid hm hs, hasked, hnothing]

/-- The search passes on until it gets to the secret. -/
theorem searchDevices_of_reached (hsecret : secret.length ≤ largestValidPayloadSizeBytes)
    {before : List Authenticator}
    (hbefore : ∀ b ∈ before, b.PassesOn c params.assertionRequest invocation.authenticatorPin)
    (h : a.Gives c params.assertionRequest invocation.authenticatorPin secret)
    (after : List Authenticator) (slot : ℕ) (w : World) :
    ∃ w', searchDevices P invocation c slot (before ++ a :: after) shared w = .ok true w' ∧
      w'.stdout = w.stdout ++ hexLine secret := by
  induction before generalizing shared slot w with
  | nil =>
    obtain ⟨w', hturn, hout⟩ := tryDevice_of_gives hshares hu haaguid hmemory hsecret h slot w
    refine ⟨w', ?_, hout⟩
    rw [List.nil_append, searchDevices, bind_of_ok hturn]
    rfl
  | cons b before ih =>
    obtain ⟨shared', w₁, hshares', hturn, hquiet⟩ := tryDevice_of_passesOn hshares hu haaguid hmemory
      (hbefore b List.mem_cons_self) slot w
    obtain ⟨w', hrest, hout⟩ := ih hshares' (fun x hx => hbefore x (List.mem_cons_of_mem b hx))
      (slot + 1) w₁
    refine ⟨w', ?_, by rw [hout, hquiet]⟩
    rw [List.cons_append, searchDevices, bind_of_ok hturn]
    exact hrest

end Turns

/-- A device of the list that has the secret is found, if all in front of it pass on. -/
theorem finds_of_reached {P : Platform} {invocation : InvocationState} {w w₁ : World}
    {c : DeserializedCleartext} {params : AuthenticatorParameters} {secret : Bytes}
    (hopen : openKeyfile P invocation w = .ok (c, params) w₁) (hu : params.Usable)
    (haaguid : P.malloc c.deviceAaguid.length = true)
    (hmemory : P.Allocates largestValidPayloadSizeBytes)
    (hsecret : secret.length ≤ largestValidPayloadSizeBytes) {before : List Authenticator}
    (hbefore : ∀ b ∈ before, b.PassesOn c params.assertionRequest invocation.authenticatorPin)
    {a : Authenticator}
    (h : a.Gives c params.assertionRequest invocation.authenticatorPin secret)
    (after : List Authenticator) : Finds P invocation w (before ++ a :: after) secret := by
  obtain ⟨-, hout, -⟩ := (quietly_openKeyfile P invocation).of_ok hopen
  have hshares : SharesPin invocation params params := ⟨rfl, .inl (no_pin_of_openKeyfile hopen)⟩
  obtain ⟨w', hsearch, hprinted⟩ := searchDevices_of_reached hshares hu haaguid hmemory hsecret
    hbefore h after 0 w₁
  exact ⟨w', printSecret_of_search_ok hopen hsearch, by rw [hprinted, hout]⟩

end Khefin
