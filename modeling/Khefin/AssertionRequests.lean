import Khefin.Histories
import Khefin.KeyfileTampering
import Khefin.SearchRuns

/-! # What a device is asked

The parameters of a search are shared by all of its turns. Only the PIN in them
changes, and a device without one is asked with the PIN of a device before it. -/

namespace Khefin
open CLibrary ExitingPrograms Histories

/-! ## The PIN supplied for a device -/

/-- The secret typed in since a device was last opened. -/
def enteredPin (trace : List Event) : Option CString :=
  trace.foldl (fun entered e => match e with
    | .fidoDevOpen _ => none
    | .secretEntered secret => some secret
    | _ => entered) none

@[simp] theorem enteredPin_secretEntered (trace : List Event) (secret : CString) :
    enteredPin (trace ++ [.secretEntered secret]) = some secret := by
  simp [enteredPin]

/-- The PIN given for the device that is open: with the invocation, or when asked for. -/
def suppliedPin (invocation : InvocationState) (trace : List Event) : Option CString :=
  match invocation.authenticatorPin with
  | some pin => some pin
  | none => enteredPin trace

/-- The request that is made of a device on its own account. -/
def ownRequest (params : AuthenticatorParameters) (a : Authenticator) (supplied : Option CString) :
    AssertionRequest :=
  { params.assertionRequest with pin := if a.fidoDevHasPin = true then supplied else none }

/-- A PIN for the device is in the parameters once it has had its turn. -/
def Authenticator.LeavesPin (a : Authenticator) (c : DeserializedCleartext) : Prop :=
  a.Matches c ∧ deviceSupportsHmacSecret a.cborInfo = true ∧ a.fidoDevHasPin = true

/-- The byte behind the longest PIN ends it. -/
def Authenticator.TerminatesPin (a : Authenticator) : Prop :=
  (a.pinMemory.drop longestValidPin).headD 0 = 0

/-- The PIN in a request to the device, behind these others, is the one supplied for it. -/
def PinKept (invocation : InvocationState) (c : DeserializedCleartext)
    (before : List Authenticator) (a : Authenticator) : Prop :=
  if a.fidoDevHasPin = true then
    ∀ pin, invocation.authenticatorPin = some pin → pin.length < longestValidPin ∨ a.TerminatesPin
  else ∀ x ∈ before, ¬x.LeavesPin c

/-- A PIN of full length is cut at the terminator it happens to find. -/
theorem cString_strncpy_eq_iff (memory : Bytes) {s : CString} {n : ℕ} (h : s.length ≤ n) :
    cString (strncpy memory s n) = s ↔ s.length < n ∨ (memory.drop n).headD 0 = 0 := by
  rcases Nat.lt_or_eq_of_le h with hlt | heq
  · simp [cString_strncpy_of_lt hlt, hlt]
  · rw [CString.ext_iff, cString_strncpy_of_length_eq heq]
    cases hd : memory.drop n with
    | nil => simp
    | cons b rest =>
      by_cases hb : b = 0
      · simp [hb]
      · simp [hb, heq]

/-! ## The PIN in the parameters -/

section Pins

variable {P : Platform} {invocation : InvocationState} {c : DeserializedCleartext}
  {device : FidoDev} {params params' : AuthenticatorParameters} {w w' : World}

theorem promptForSecret_spec {description : CString} {maximumSize : ℕ} {secret : CString}
    (h : promptForSecret P description maximumSize w = .ok secret w') :
    ∃ trace, w'.trace = trace ++ [.secretEntered secret] := by
  have hread : ∀ (line : Bytes) (w₁ : World), readSecret line w₁ = .ok secret w' →
      ∃ trace, w'.trace = trace ++ [.secretEntered secret] := by
    intro line w₁ hr
    obtain ⟨rfl, rfl⟩ := EStateM.Result.ok.inj hr
    exact ⟨w₁.trace, rfl⟩
  simp only [promptForSecret, bind_eq_ok] at h
  obtain ⟨_, w₀, -, h⟩ := h
  cases hinput : P.standardInput with
  | terminal tcgetattr tcsetattr tcsetattrBack =>
    simp only [hinput, bind_eq_ok] at h
    obtain ⟨_, _, -, _, _, -, line, w₁, -, _, w₂, -, h⟩ := h
    exact hread line w₂ h
  | notTerminal =>
    simp only [hinput, bind_eq_ok] at h
    obtain ⟨line, w₁, -, _, w₂, -, h⟩ := h
    exact hread line w₂ h
  | unusable => simp [hinput] at h

/-- A device with a PIN gets a new one; for one without, the last one stays. -/
theorem pinForGeneration_pin
    (h : pinForGeneration P device invocation params w = .ok params' w') :
    params'.authenticatorPin =
      if device.authenticator.fidoDevHasPin = true then
        match invocation.authenticatorPin with
        | none => enteredPin w'.trace
        | some pin => some (cString (strncpy device.authenticator.pinMemory pin longestValidPin))
      else params.authenticatorPin := by
  unfold pinForGeneration at h
  split at h
  · next hpin =>
    rw [if_pos hpin]
    simp only [bind_eq_ok, lift_eq_ok] at h
    obtain ⟨_, _, -, _, _, -, entered, w₁, hentered, h⟩ := h
    obtain ⟨rfl, rfl⟩ := EStateM.Result.ok.inj h
    unfold authenticatorPin at hentered
    cases hgiven : invocation.authenticatorPin with
    | none =>
      rw [hgiven] at hentered
      obtain ⟨trace, ht⟩ := promptForSecret_spec hentered
      simp [ht]
    | some pin =>
      rw [hgiven] at hentered
      rw [← (EStateM.Result.ok.inj hentered).1]
  · next hpin =>
    rw [if_neg hpin]
    rw [← (EStateM.Result.ok.inj h).1]

theorem tryCandidate_pin
    (h : tryCandidate P invocation device params w = .ok (some params') w') :
    params'.authenticatorPin = none ↔
      params.authenticatorPin = none ∧ device.authenticator.fidoDevHasPin = false := by
  simp only [tryCandidate, bind_eq_ok] at h
  obtain ⟨params₁, w₁, hpin, h⟩ := h
  have hafter : params₁ = params' := by
    split at h
    · simp only [bind_eq_ok] at h
      obtain ⟨_, _, -, _, _, -, h⟩ := h
      exact Option.some.inj (EStateM.Result.ok.inj h).1
    · exact (askDevice_params h).symm
  subst hafter
  unfold pinForGeneration at hpin
  split at hpin
  · next hhas =>
    simp only [bind_eq_ok] at hpin
    obtain ⟨_, _, -, _, _, -, _, _, -, hpin⟩ := hpin
    obtain rfl := (EStateM.Result.ok.inj hpin).1
    simp [hhas]
  · next hhas =>
    obtain rfl := (EStateM.Result.ok.inj hpin).1
    simp [Bool.not_eq_true _ ▸ hhas]

/-- After a turn there is a PIN in the parameters when there was one, or the device left one. -/
theorem tryDevice_pin {slot : ℕ} {a : Authenticator}
    (h : tryDevice P invocation c ⟨slot, a⟩ params w = .ok (some params') w') :
    params'.authenticatorPin = none ↔ params.authenticatorPin = none ∧ ¬a.LeavesPin c := by
  simp only [tryDevice, bind_eq_ok, lift_eq_ok] at h
  obtain ⟨_, _, -, info, w₁, hinfo, matched, _, ⟨hmatched, -⟩, h⟩ := h
  obtain ⟨rfl, -⟩ := getDeviceInfo_eq_ok hinfo
  rw [deviceAaguidMatches_eq_ok hmatched] at h
  by_cases hm : a.Matches c
  · simp only [hm, decide_true, Bool.true_eq_false, ↓reduceIte] at h
    cases hs : deviceSupportsHmacSecret a.cborInfo with
    | false =>
      simp only [hs, ↓reduceIte, bind_eq_ok] at h
      obtain ⟨_, _, -, h⟩ := h
      obtain rfl := Option.some.inj (EStateM.Result.ok.inj h).1
      simp [Authenticator.LeavesPin, hs]
    | true =>
      simp only [hs, Bool.true_eq_false, ↓reduceIte] at h
      have hpin := tryCandidate_pin h
      simpa [Authenticator.LeavesPin, hm, hs] using hpin
  · simp only [hm, decide_false, ↓reduceIte] at h
    obtain rfl := Option.some.inj (EStateM.Result.ok.inj h).1
    simp [Authenticator.LeavesPin, hm]

end Pins

/-- A PIN given beforehand is used for every device that has one. -/
theorem tryCandidate_of_given_pin {P : Platform} {invocation : InvocationState} {slot : ℕ}
    {a : Authenticator} {params : AuthenticatorParameters} {w : World} {pin : CString}
    (hhas : a.fidoDevHasPin = true) (hgiven : invocation.authenticatorPin = some pin)
    (hl : pin.length < longestValidPin) (hne : pin.length ≠ 0)
    (hpin : P.malloc (longestValidPin + 1) = true)
    (hprompt : P.malloc ((literal promptFormatString).length + a.productString.length +
      a.path.length + 1) = true) :
    tryCandidate P invocation ⟨slot, a⟩ params w =
      askDevice P ⟨slot, a⟩ { params with authenticatorPin := some pin } w := by
  simp [tryCandidate, pinForGeneration, authenticatorPin, hhas, hgiven, mallocOrExit_of hpin,
    mallocOrExit_of hprompt, cString_strncpy_of_lt hl, hne, bind_apply]

/-! ## Requests -/

/-- The trace grows by events that meet `Q` with what precedes them. -/
def Follows (Q : List Event → Event → Prop) (w w' : World) : Prop := Continues Q w.trace w'.trace

section Follows

variable {Q : List Event → Event → Prop}

instance : IsPreorder World (Follows Q) where
  refl w := refl_of (Continues Q) w.trace
  trans _ _ _ h h' := trans_of (Continues Q) h h'

theorem frames_follows (hidle : ∀ past e, e.IsIdle → Q past e) : Frames (Follows Q) where
  idle := by
    rintro w w' ⟨-, -, events, ht, he⟩
    exact ⟨events, ht, atEach_of_forall fun e hm past => hidle past e (he e hm)⟩
  printed w _ := refl_of (Follows Q) w

end Follows

/-- What is required of a request, given the trace before it and the devices searched. -/
def IsOwnRequest (invocation : InvocationState) (c : DeserializedCleartext)
    (params : AuthenticatorParameters) (devices : List Authenticator) (past : List Event) :
    Event → Prop
  | .fidoDevGetAssert slot request => ∃ a, devices[slot]? = some a ∧
      request = { params.assertionRequest with pin := request.pin } ∧
      (request = ownRequest params a (suppliedPin invocation past) ↔
        PinKept invocation c (devices.take slot) a)
  | _ => True

/-- The parameters are the opened ones, with a PIN when a device already tried has left one. -/
def SharedParameters (c : DeserializedCleartext) (params : AuthenticatorParameters)
    (before : List Authenticator) (shared : AuthenticatorParameters) : Prop :=
  shared = { params with authenticatorPin := shared.authenticatorPin } ∧
    (shared.authenticatorPin = none ↔ ∀ x ∈ before, ¬x.LeavesPin c)

section Requests

variable {P : Platform} {invocation : InvocationState} {c : DeserializedCleartext}
  {params shared shared' : AuthenticatorParameters} {before after : List Authenticator}
  {a : Authenticator} {w w' : World}

theorem sharedParameters_step (hI : SharedParameters c params before shared) {slot : ℕ}
    (h : tryDevice P invocation c ⟨slot, a⟩ shared w = .ok (some shared') w') :
    SharedParameters c params (before ++ [a]) shared' := by
  obtain ⟨heq, hpin⟩ := hI
  refine ⟨?_, ?_⟩
  · rw [tryDevice_params h, heq]
  · rw [tryDevice_pin h, hpin]
    simp only [List.mem_append, List.mem_singleton]
    constructor
    · rintro ⟨hb, ha⟩ x (hx | rfl)
      · exact hb x hx
      · exact ha
    · exact fun hall => ⟨fun x hx => hall x (Or.inl hx), hall a (Or.inr rfl)⟩

theorem pin_eq_iff {pin : Option CString} {supplied : Option CString} :
    { params.assertionRequest with pin } = ownRequest params a supplied ↔
      pin = if a.fidoDevHasPin = true then supplied else none := by
  simp [ownRequest]

/-- A request made in a turn carries the PIN of its own device as long as that PIN is kept. -/
theorem isOwnRequest_step
    (hfits : ∀ pin, invocation.authenticatorPin = some pin → pin.length ≤ longestValidPin)
    (hI : SharedParameters c params before shared)
    (hpin : pinForGeneration P ⟨before.length, a⟩ invocation shared w = .ok shared' w') :
    IsOwnRequest invocation c params (before ++ a :: after) w'.trace
      (.fidoDevGetAssert before.length shared'.assertionRequest) := by
  obtain ⟨heq, hnone⟩ := hI
  have hparams : shared' = { params with authenticatorPin := shared'.authenticatorPin } := by
    rw [pinForGeneration_spec hpin, heq]
  have hreq : shared'.assertionRequest =
      { params.assertionRequest with pin := shared'.authenticatorPin } := by
    rw [hparams]
    rfl
  refine ⟨a, by simp, hreq, ?_⟩
  rw [List.take_left, hreq, pin_eq_iff, pinForGeneration_pin hpin, PinKept]
  cases hhas : a.fidoDevHasPin with
  | false => simpa [hhas] using hnone
  | true =>
    cases hgiven : invocation.authenticatorPin with
    | none => simp [suppliedPin, hgiven]
    | some pin =>
      have hcopy := cString_strncpy_eq_iff a.pinMemory (hfits pin hgiven)
      simpa [suppliedPin, hgiven, hhas, Authenticator.TerminatesPin] using hcopy

theorem searchInvariant_sharedParameters (P : Platform) (c : DeserializedCleartext)
    (hfits : ∀ pin, invocation.authenticatorPin = some pin → pin.length ≤ longestValidPin)
    (params : AuthenticatorParameters) (devices : List Authenticator) :
    SearchInvariant P invocation c devices (Follows (IsOwnRequest invocation c params devices))
      (SharedParameters c params) where
  asked _ _ _ _ _ _ _ hd hI hpin :=
    continues_snoc (hd ▸ isOwnRequest_step hfits hI hpin)
  passed _ _ _ _ _ _ _ _ hI hturn := sharedParameters_step hI hturn

end Requests

/-- Each request that a device receives is the one made on its own account exactly when its PIN,
or the lack of one, has been kept; and it never differs from that one but in the PIN. -/
theorem request_own_iff {P : Platform} {invocation : InvocationState} {w w₁ : World}
    {c : DeserializedCleartext} {params : AuthenticatorParameters}
    (hopen : openKeyfile P invocation w = .ok (c, params) w₁)
    (hfits : ∀ pin, invocation.authenticatorPin = some pin → pin.length ≤ longestValidPin)
    (devices : List Authenticator) {before after : List Event} {slot : ℕ}
    {request : AssertionRequest}
    (htrace : (finalState (printSecretConsumingInvocation P invocation devices w)).trace =
      w₁.trace ++ before ++ .fidoDevGetAssert slot request :: after) :
    ∃ a, devices[slot]? = some a ∧
      request = { params.assertionRequest with pin := request.pin } ∧
      (request = ownRequest params a (suppliedPin invocation (w₁.trace ++ before)) ↔
        PinKept invocation c (devices.take slot) a) := by
  have hfirst : SharedParameters c params [] params :=
    ⟨rfl, by simp [no_pin_of_openKeyfile hopen]⟩
  have hframes : Frames (Follows (IsOwnRequest invocation c params devices)) :=
    frames_follows fun past e he => by cases e <;> trivial
  have hsearch := (searchInvariant_sharedParameters P c hfits params devices).keeps hframes hfirst w₁
  have hend : finalState (printSecretConsumingInvocation P invocation devices w) =
      finalState (searchDevices P invocation c 0 devices params w₁) := by
    cases hs : searchDevices P invocation c 0 devices params w₁ with
    | error h w' => rw [printSecret_of_search_error hopen hs, finalState_error, finalState_error]
    | ok found w' => rw [printSecret_of_search_ok hopen hs, finalState_ok, finalState_ok]
  rw [hend] at htrace
  exact hsearch.at htrace

/-- A PIN is given on the command line. -/
def openingWithPin : InvocationState :=
  { referenceOpening (literal "correct horse") with authenticatorPin := some (literal "1234") }

/-- A device with a PIN that belongs to another keyfile. -/
def foreignPinDevice : Authenticator :=
  { referenceDevice with fidoDevHasPin := true, cborInfo := ⟨[literal "hmac-secret"], [1]⟩ }

/-- The PIN that was given for a device of another kind is not sent to the one behind it. -/
theorem request_own_eager : ∃ data params w₁ before request after,
    openKeyfile (referenceHost referenceDevice) openingWithPin (storedWorld data) =
      .ok (referenceKeyfile, params) w₁ ∧
    (finalState (printSecretConsumingInvocation (referenceHost referenceDevice) openingWithPin
      [foreignPinDevice, eagerDevice referenceKeyfile] (storedWorld data))).trace =
      w₁.trace ++ before ++ .fidoDevGetAssert 1 request :: after ∧
    request = ownRequest params (eagerDevice referenceKeyfile)
      (suppliedPin openingWithPin (w₁.trace ++ before)) ∧ request.pin = none := by
  obtain ⟨data, params, w₁, hopen, hc, hs⟩ := exists_openedReference
  have hm : (referenceHost referenceDevice).Allocates largestValidPayloadSizeBytes :=
    referencePlatform_allocates_payload _ _
  have hopen' : openKeyfile (referenceHost referenceDevice) openingWithPin (storedWorld data) =
    .ok (referenceKeyfile, params) w₁ := hopen
  have hforeign : ¬foreignPinDevice.Matches referenceKeyfile := by decide
  have hturn : tryDevice (referenceHost referenceDevice) openingWithPin referenceKeyfile
      ⟨0, foreignPinDevice⟩ params w₁ = _ :=
    tryDevice_of_mismatch ⟨rfl, rfl, rfl, fun _ => rfl⟩ rfl (by decide) hforeign
  obtain ⟨w', after, hsearch, ht⟩ := asked_of_searchDevices (c := referenceKeyfile) params hm
    (by decide) hc hs openingWithPin 1 (w₁.record (.fidoDevOpen 0))
  have hall : searchDevices (referenceHost referenceDevice) openingWithPin referenceKeyfile 0
      [foreignPinDevice, eagerDevice referenceKeyfile] params w₁ = .ok true w' :=
    (bind_of_ok hturn _).trans hsearch
  have htrace : (finalState (printSecretConsumingInvocation (referenceHost referenceDevice)
      openingWithPin [foreignPinDevice, eagerDevice referenceKeyfile] (storedWorld data))).trace =
      w₁.trace ++ [.fidoDevOpen 0, .fidoDevOpen 1] ++
        .fidoDevGetAssert 1 params.assertionRequest :: after := by
    rw [printSecret_of_search_ok hopen' hall, finalState_ok, ht]
    simp
  have hfits : ∀ pin, openingWithPin.authenticatorPin = some pin → pin.length ≤ longestValidPin := by
    intro pin hpin
    obtain rfl := Option.some.inj hpin
    decide
  obtain ⟨a, ha, -, hown⟩ := request_own_iff hopen' hfits _ htrace
  obtain rfl : eagerDevice referenceKeyfile = a := by simpa using ha
  have hkept : PinKept openingWithPin referenceKeyfile [foreignPinDevice]
      (eagerDevice referenceKeyfile) := by
    intro x hx hleaves
    rw [List.mem_singleton.mp hx] at hleaves
    exact hforeign hleaves.1
  exact ⟨data, params, w₁, _, _, after, hopen', htrace, hown.mpr hkept,
    no_pin_of_openKeyfile hopen'⟩

/-- A device with a PIN that does not hold the credential. -/
def pinDevice : Authenticator :=
  { referenceDevice with fidoDevHasPin := true, fidoDevGetAssert := fun _ => (fidoErrNoCredentials, []) }

/-- The PIN of a device that did not hold the credential is sent to the one behind it,
which has none. -/
theorem request_not_own_behind_pin : ∃ data params w₁ before request after,
    openKeyfile (referenceHost referenceDevice) openingWithPin (storedWorld data) =
      .ok (referenceKeyfile, params) w₁ ∧
    (finalState (printSecretConsumingInvocation (referenceHost referenceDevice) openingWithPin
      [pinDevice, eagerDevice referenceKeyfile] (storedWorld data))).trace =
      w₁.trace ++ before ++ .fidoDevGetAssert 1 request :: after ∧
    (eagerDevice referenceKeyfile).fidoDevHasPin = false ∧
    request.pin = some (literal "1234") ∧
    request ≠ ownRequest params (eagerDevice referenceKeyfile)
      (suppliedPin openingWithPin (w₁.trace ++ before)) := by
  obtain ⟨data, params, w₁, hopen, hc, hs⟩ := exists_openedReference
  have hm : (referenceHost referenceDevice).Allocates largestValidPayloadSizeBytes :=
    referencePlatform_allocates_payload _ _
  have hopen' : openKeyfile (referenceHost referenceDevice) openingWithPin (storedWorld data) =
    .ok (referenceKeyfile, params) w₁ := hopen
  let shared : AuthenticatorParameters :=
    { params with authenticatorPin := some (literal "1234") }
  have hturn : tryDevice (referenceHost referenceDevice) openingWithPin referenceKeyfile
      ⟨0, pinDevice⟩ params w₁ = _ :=
    tryDevice_of_candidate ⟨rfl, rfl, rfl, fun _ => rfl⟩ rfl (by decide) (Or.inr rfl)
      (by rfl)
  have hanswers : pinDevice.Answers shared.assertionRequest fidoErrNoCredentials [] :=
    ⟨rfl, rfl, rfl⟩
  have hask : askDevice (referenceHost referenceDevice) ⟨0, pinDevice⟩ shared
      (w₁.record (.fidoDevOpen 0)) = _ :=
    askDevice_of_no_credentials hc hs hanswers (hm sizeofSecret (by decide))
  rw [tryCandidate_of_given_pin rfl rfl (by decide) (by decide) (by decide)
    (by rfl), hask] at hturn
  obtain ⟨-, -, events, hevents, -⟩ := idly_closed ⟨0, pinDevice⟩
    ((w₁.record (.fidoDevOpen 0)).record (.fidoDevGetAssert 0 shared.assertionRequest))
  obtain ⟨w', after, hsearch, ht⟩ := asked_of_searchDevices (c := referenceKeyfile) shared hm
    (by decide) hc hs openingWithPin 1 _
  have hall : searchDevices (referenceHost referenceDevice) openingWithPin referenceKeyfile 0
      [pinDevice, eagerDevice referenceKeyfile] params w₁ = .ok true w' :=
    (bind_of_ok hturn _).trans hsearch
  refine ⟨data, params, w₁, [.fidoDevOpen 0, .fidoDevGetAssert 0 shared.assertionRequest] ++
    events ++ [.fidoDevOpen 1], shared.assertionRequest, after, hopen', ?_, rfl, rfl, ?_⟩
  · rw [printSecret_of_search_ok hopen' hall, finalState_ok, ht, hevents]
    simp
  · intro h
    have hpin : some (literal "1234") = none := congrArg AssertionRequest.pin h
    simp at hpin

end Khefin
