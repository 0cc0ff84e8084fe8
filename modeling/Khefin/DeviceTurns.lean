import Khefin.Generate

/-! # What one turn of the device loop does

A turn is determined by a few facts about the device: whether it can be opened, is
FIDO2 and answers, whether it matches the keyfile and has the extension, and how
it answers the request. -/

namespace Khefin
open CLibrary ExitingPrograms

/-! ## Facts about a device -/

/-- The device can be opened, and a FIDO2 device answers when asked for its details. -/
structure Authenticator.Responds (a : Authenticator) : Prop where
  fidoDevNew : a.fidoDevNew = true
  fidoDevOpen : a.fidoDevOpen = fidoOk
  fidoCborInfoNew : a.fidoCborInfoNew = true
  fidoDevGetCborInfo : a.fidoDevIsFido2 = true → a.fidoDevGetCborInfo = fidoOk

/-- The keyfile names no kind of device or this one's. -/
def Authenticator.Matches (a : Authenticator) (c : DeserializedCleartext) : Prop :=
  c.deviceAaguid = [] ∨ a.cborInfo.aaguid = c.deviceAaguid

instance (a : Authenticator) (c : DeserializedCleartext) : Decidable (a.Matches c) :=
  inferInstanceAs (Decidable (_ ∨ _))

/-- The request can be made and is answered so. -/
structure Authenticator.Answers (a : Authenticator) (request : AssertionRequest) (r : ℤ)
    (secret : Bytes) : Prop where
  fidoAssertNew : a.fidoAssertNew = true
  assertionSetup : a.assertionSetup = {}
  fidoDevGetAssert : a.fidoDevGetAssert request = (r, secret)

theorem zip_all_beq {l m : Bytes} (h : l.length = m.length) :
    ((l.zip m).all fun p => p.1 == p.2) = true ↔ l = m := by
  induction l generalizing m with
  | nil => simp_all [eq_comm]
  | cons a l ih =>
    cases m with
    | nil => simp at h
    | cons b m => simp [ih (Nat.succ.inj h)]

theorem deviceAaguidMatches_of {P : Platform} {c : DeserializedCleartext}
    (hm : P.malloc c.deviceAaguid.length = true) (a : Authenticator) :
    deviceAaguidMatches P c a.cborInfo = .ok (decide (a.Matches c)) := by
  unfold deviceAaguidMatches Authenticator.Matches
  by_cases he : c.deviceAaguid = []
  · simp [he]
  · by_cases hl : a.cborInfo.aaguid.length = c.deviceAaguid.length
    · have hz := zip_all_beq hl.symm
      have hd : ((c.deviceAaguid.zip a.cborInfo.aaguid).all fun p => p.1 == p.2) =
          decide (a.cborInfo.aaguid = c.deviceAaguid) := by
        rw [Bool.eq_iff_iff, hz, decide_eq_true_iff, eq_comm]
      simp [he, hl, mallocOrExit_of hm, hd]
    · have hne : a.cborInfo.aaguid ≠ c.deviceAaguid := fun e => hl (e ▸ rfl)
      simp [he, hl, hne]

theorem deviceAaguidMatches_eq_ok {P : Platform} {c : DeserializedCleartext} {a : Authenticator}
    {matched : Bool}
    (h : deviceAaguidMatches P c a.cborInfo = .ok matched) : matched = decide (a.Matches c) := by
  by_cases hm : P.malloc c.deviceAaguid.length = true
  · exact (Except.ok.inj ((deviceAaguidMatches_of hm a).symm.trans h)).symm
  · by_cases he : c.deviceAaguid = []
    · simpa [deviceAaguidMatches, Authenticator.Matches, he, eq_comm] using h
    · by_cases hl : a.cborInfo.aaguid.length = c.deviceAaguid.length
      · simp [deviceAaguidMatches, he, hl, except_bind_eq_ok, mallocOrExit_eq_ok, hm] at h
      · have hne : a.cborInfo.aaguid ≠ c.deviceAaguid := fun e => hl (e ▸ rfl)
        simpa [deviceAaguidMatches, Authenticator.Matches, he, hl, hne, eq_comm] using h

/-- FIDO2, of the kind the keyfile names, and with the extension. -/
structure Authenticator.IsCandidate (a : Authenticator) (c : DeserializedCleartext) : Prop where
  isFido2 : a.fidoDevIsFido2 = true
  agrees : a.Matches c
  supportsHmacSecret : deviceSupportsHmacSecret a.cborInfo = true

/-! ## Closing -/

/-- The world once a device has been closed. -/
def World.closed (w : World) (device : FidoDev) : World :=
  finalState (closeAndFreeDeviceIgnoringErrors device w)

@[simp] theorem closeAndFreeDeviceIgnoringErrors_apply (device : FidoDev) (w : World) :
    closeAndFreeDeviceIgnoringErrors device w = .ok () (w.closed device) := by
  simp only [World.closed, closeAndFreeDeviceIgnoringErrors, bind_apply, record_apply]
  split <;> rfl

theorem idly_closed (device : FidoDev) (w : World) : Idly w (w.closed device) :=
  idly_closeAndFreeDeviceIgnoringErrors device w

@[simp] theorem closed_stdout (device : FidoDev) (w : World) : (w.closed device).stdout = w.stdout :=
  (idly_closed device w).2.1

/-! ## Turns -/

section Turns

variable {P : Platform} {invocation : InvocationState} {c : DeserializedCleartext} {slot : ℕ}
  {a : Authenticator} {params : AuthenticatorParameters} {w : World}

theorem getDevice_of_fido2 (h : a.Responds) (hf : a.fidoDevIsFido2 = true) :
    getDevice ⟨slot, a⟩ w = .ok () (w.record (.fidoDevOpen slot)) := by
  simp [getDevice, getDeviceEvenIfNotFido2, stopIf, h.fidoDevNew, h.fidoDevOpen, hf, bind_apply]

/-- A device that is not FIDO2 ends the whole run. -/
theorem tryDevice_of_not_fido2 (h : a.Responds) (hf : a.fidoDevIsFido2 = false) :
    tryDevice P invocation c ⟨slot, a⟩ params w = .error (.exit .authenticatorError
      ⟨"Device at %s is not a FIDO2 authenticator", [.string a.path]⟩)
      (w.record (.fidoDevOpen slot)) := by
  refine bind_of_error ?_ _
  simp [getDevice, getDeviceEvenIfNotFido2, stopIf, h.fidoDevNew, h.fidoDevOpen, hf, bind_apply]

theorem tryDevice_of_fido2 (h : a.Responds) (hf : a.fidoDevIsFido2 = true)
    (hm : P.malloc c.deviceAaguid.length = true) :
    tryDevice P invocation c ⟨slot, a⟩ params w =
      (if ¬a.Matches c then (return some params)
      else if deviceSupportsHmacSecret a.cborInfo = false then do
        closeAndFreeDeviceIgnoringErrors ⟨slot, a⟩
        return some params
      else tryCandidate P invocation ⟨slot, a⟩ params :
        Program (Option AuthenticatorParameters)) (w.record (.fidoDevOpen slot)) := by
  have hi : getDeviceInfo ⟨slot, a⟩ (w.record (.fidoDevOpen slot)) =
      .ok a.cborInfo (w.record (.fidoDevOpen slot)) := by
    simp [getDeviceInfo, stopIf, h.fidoCborInfoNew, h.fidoDevGetCborInfo hf]
  rw [tryDevice, bind_of_ok (getDevice_of_fido2 h hf), bind_of_ok hi, deviceAaguidMatches_of hm]
  by_cases hmatch : a.Matches c <;> simp [hmatch]

theorem tryCandidate_of_no_pin (hpin : a.fidoDevHasPin = false) :
    tryCandidate P invocation ⟨slot, a⟩ params w = askDevice P ⟨slot, a⟩ params w := by
  simp [tryCandidate, pinForGeneration, hpin]

/-! ## Asking -/

theorem getSecret_of_answers (P : Platform) (slot : ℕ) (w : World) (hc : params.credentialId ≠ [])
    (hs : params.salt ≠ []) {r : ℤ} {secret : Bytes}
    (h : a.Answers params.assertionRequest r secret) :
    getSecretFromAuthenticatorParams P ⟨slot, a⟩ params w =
      (if r ≠ fidoOk then
        if isSoftError r then return (r, [])
        else closeAndExit ⟨slot, a⟩ .authenticatorError "Unable to get secret from device: %s (0x%x)"
          [.fidoStrerr r, .number r]
      else if secret = [] then
        closeAndExit ⟨slot, a⟩ .authenticatorError "Unable to read credential ID"
      else do
        lift (mallocOrExit P secret.length "secret")
        return (fidoOk, secret) : Program (ℤ × Bytes))
      (w.record (.fidoDevGetAssert slot params.assertionRequest)) := by
  simp [getSecretFromAuthenticatorParams, hc, hs, h.fidoAssertNew, h.assertionSetup, requireOk,
    h.fidoDevGetAssert, bind_apply]

theorem askDevice_of_secret (hc : params.credentialId ≠ []) (hs : params.salt ≠ []) {secret : Bytes}
    (h : a.Answers params.assertionRequest fidoOk secret) (hne : secret ≠ [])
    (hm : P.malloc sizeofSecret = true) (hms : P.malloc secret.length = true) :
    askDevice P ⟨slot, a⟩ params w = .ok none
      (((w.record (.fidoDevGetAssert slot params.assertionRequest)).closed ⟨slot, a⟩).printf
        (hexLine secret)) := by
  have hg := getSecret_of_answers P slot w hc hs h
  simp only [ne_eq, not_true_eq_false, ↓reduceIte, hne] at hg
  simp [askDevice, mallocOrExit_of hm, bind_apply, map_apply, hg, mallocOrExit_of hms]

theorem askDevice_of_no_credentials (hc : params.credentialId ≠ []) (hs : params.salt ≠ [])
    {secret : Bytes} (h : a.Answers params.assertionRequest fidoErrNoCredentials secret)
    (hm : P.malloc sizeofSecret = true) :
    askDevice P ⟨slot, a⟩ params w = .ok (some params)
      ((w.record (.fidoDevGetAssert slot params.assertionRequest)).closed ⟨slot, a⟩) := by
  have hg := getSecret_of_answers P slot w hc hs h
  simp [askDevice, mallocOrExit_of hm, bind_apply, hg, warnAboutResult, isSoftError,
    fidoErrNoCredentials, fidoOk]

/-! ## Whole turns -/

theorem tryDevice_of_mismatch (h : a.Responds) (hf : a.fidoDevIsFido2 = true)
    (hm : P.malloc c.deviceAaguid.length = true) (hmatch : ¬a.Matches c) :
    tryDevice P invocation c ⟨slot, a⟩ params w =
      .ok (some params) (w.record (.fidoDevOpen slot)) := by
  rw [tryDevice_of_fido2 h hf hm, if_pos hmatch]
  rfl

theorem tryDevice_of_unsupported (h : a.Responds) (hf : a.fidoDevIsFido2 = true)
    (hm : P.malloc c.deviceAaguid.length = true) (hmatch : a.Matches c)
    (hs : deviceSupportsHmacSecret a.cborInfo = false) :
    tryDevice P invocation c ⟨slot, a⟩ params w =
      .ok (some params) ((w.record (.fidoDevOpen slot)).closed ⟨slot, a⟩) := by
  rw [tryDevice_of_fido2 h hf hm, if_neg (not_not.mpr hmatch), if_pos hs]
  simp [map_apply]

theorem tryDevice_of_candidate (h : a.Responds) (hf : a.fidoDevIsFido2 = true)
    (hm : P.malloc c.deviceAaguid.length = true) (hmatch : a.Matches c)
    (hs : deviceSupportsHmacSecret a.cborInfo = true) :
    tryDevice P invocation c ⟨slot, a⟩ params w =
      tryCandidate P invocation ⟨slot, a⟩ params (w.record (.fidoDevOpen slot)) := by
  rw [tryDevice_of_fido2 h hf hm, if_neg (not_not.mpr hmatch), if_neg (by simp [hs])]

/-! ## What a turn leaves in the parameters -/

variable {params' : AuthenticatorParameters} {w' : World} {device : FidoDev}

theorem pinForGeneration_spec (h : pinForGeneration P device invocation params w = .ok params' w') :
    params' = { params with authenticatorPin := params'.authenticatorPin } := by
  unfold pinForGeneration at h
  split at h
  · simp only [bind_eq_ok, lift_eq_ok] at h
    obtain ⟨_, _, -, _, _, -, _, _, -, h⟩ := h
    obtain ⟨rfl, -⟩ := EStateM.Result.ok.inj h
    rfl
  · obtain ⟨rfl, -⟩ := EStateM.Result.ok.inj h
    rfl

theorem askDevice_params (h : askDevice P device params w = .ok (some params') w') :
    params' = params := by
  simp only [askDevice, bind_eq_ok, lift_eq_ok] at h
  obtain ⟨_, _, -, r, _, -, _, _, -, h⟩ := h
  split at h
  · simp only [bind_eq_ok] at h
    obtain ⟨_, _, -, h⟩ := h
    exact absurd (EStateM.Result.ok.inj h).1 (by simp)
  · simp only [bind_eq_ok] at h
    obtain ⟨_, _, -, h⟩ := h
    exact (Option.some.inj (EStateM.Result.ok.inj h).1).symm

theorem tryCandidate_params (h : tryCandidate P invocation device params w = .ok (some params') w') :
    params' = { params with authenticatorPin := params'.authenticatorPin } := by
  simp only [tryCandidate, bind_eq_ok] at h
  obtain ⟨params₁, w₁, hpin, h⟩ := h
  have hp := pinForGeneration_spec hpin
  split at h
  · simp only [bind_eq_ok] at h
    obtain ⟨_, _, -, _, _, -, h⟩ := h
    obtain rfl := Option.some.inj (EStateM.Result.ok.inj h).1
    exact hp
  · rw [askDevice_params h]
    exact hp

/-- Only the PIN changes from one device to the next. -/
theorem tryDevice_params (h : tryDevice P invocation c device params w = .ok (some params') w') :
    params' = { params with authenticatorPin := params'.authenticatorPin } := by
  simp only [tryDevice, bind_eq_ok] at h
  obtain ⟨_, _, -, _, _, -, _, _, -, h⟩ := h
  split at h
  · obtain rfl := Option.some.inj (EStateM.Result.ok.inj h).1
    rfl
  · split at h
    · simp only [bind_eq_ok] at h
      obtain ⟨_, _, -, h⟩ := h
      obtain rfl := Option.some.inj (EStateM.Result.ok.inj h).1
      rfl
    · exact tryCandidate_params h

end Turns

end Khefin
