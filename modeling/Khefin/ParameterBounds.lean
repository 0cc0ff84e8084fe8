import Khefin.OpeningRuns
import Khefin.ParameterBuffers
import Khefin.ReferencePlatform

/-! # The bounds of the parameters

Blobs of any lengths are loaded and copied within the buffers allocated for them. What is
not safe is a blob without a relying party id, and wiping one that is shorter than the
constant it is wiped with. -/

namespace Khefin.OnBuffers
open CLibrary ExitingPrograms BufferAccesses

variable {P : Platform} {decrypted : Bytes} {mixin : Option CString}
  {secrets : DeserializedSecrets} {authenticatorPin : Pointer}

/-! ## Giving the parameters back -/

/-- The PIN is wiped up to its terminator. -/
def pinAccesses : Pointer → List Access
  | none => []
  | some memory => [.string (some memory), .extent (some memory) (cString memory).length]

/-- The accesses of `free_parameters`. -/
def freeAccesses (params : ParametersBuffers) : List Access :=
  (if params.relyingPartyId ≠ none then [.extent params.relyingPartyId relyingPartyIdSize] else []) ++
  (if params.credentialId ≠ none then [.extent params.credentialId params.credentialIdSize] else []) ++
  (if params.salt ≠ none then [.extent params.salt params.saltSize] else []) ++
  pinAccesses params.authenticatorPin

theorem freeParameters_apply (params : ParametersBuffers) (s : List Access) :
    freeParameters params s = .ok () (s ++ freeAccesses params) := by
  obtain ⟨_, _, _, _, _, relyingPartyId, credentialId, _, salt, _, pin⟩ := params
  cases relyingPartyId <;> cases credentialId <;> cases salt <;> cases pin <;>
    simp [freeParameters, freeAccesses, pinAccesses, sodiumMemzero, access, stringAt]

/-- A terminated string, or none. -/
def IsTerminated (p : Pointer) : Prop := ∀ memory, p = some memory → 0 ∈ memory

/-- A pointer that is only wiped where it is not NULL. -/
theorem safe_wipe_iff {p : Pointer} {size : ℕ} :
    (∀ a ∈ (if p ≠ none then [Access.extent p size] else []), a.IsSafe) ↔
      (p ≠ none → (Access.extent p size).IsSafe) := by
  split <;> simp_all

theorem safe_pinAccesses_iff (p : Pointer) :
    (∀ a ∈ pinAccesses p, a.IsSafe) ↔ IsTerminated p := by
  cases p with
  | none => simp [pinAccesses, IsTerminated]
  | some memory =>
    simpa [pinAccesses, IsTerminated, Access.IsSafe] using fun _ => cString_length_le memory

theorem safe_freeAccesses_iff (params : AuthenticatorParameters) (authenticatorPin : Pointer) :
    (∀ a ∈ freeAccesses { buffersOf params with authenticatorPin }, a.IsSafe) ↔
      relyingPartyIdSize ≤ params.relyingPartyId.length + 1 ∧ IsTerminated authenticatorPin := by
  unfold freeAccesses
  rw [List.forall_mem_append, List.forall_mem_append, List.forall_mem_append, safe_wipe_iff,
    safe_wipe_iff, safe_wipe_iff, safe_pinAccesses_iff]
  constructor
  · rintro ⟨⟨⟨hrelyingPartyId, -⟩, -⟩, hterminated⟩
    have hwiped := hrelyingPartyId (Option.some_ne_none _)
    exact ⟨by simpa [buffersOf, stringBuffer, Access.IsSafe, CString.length] using hwiped, hterminated⟩
  · rintro ⟨hrelyingPartyId, hterminated⟩
    refine ⟨⟨⟨fun _ => ?_, fun _ => isSafe_dataBuffer _⟩, fun _ => isSafe_dataBuffer _⟩, hterminated⟩
    simpa [buffersOf, stringBuffer, Access.IsSafe, CString.length] using hrelyingPartyId

/-! ## Building them -/

theorem follows_parametersOfDecrypted {r : CString}
    (hload : Khefin.loadSecretsFromBytes P decrypted = .ok secrets)
    (hr : secrets.relyingPartyId = some r) (h : P.malloc 2 = true) (mixin : Option CString) :
    SafelyFollows (fun buffers params => buffers = buffersOf params)
      (parametersOfDecrypted P decrypted mixin)
      (Khefin.parametersOfDecrypted P decrypted mixin) := by
  have htext := relyingPartyId_eq hload
  rw [hr, relyingPartyIdOf] at htext
  have hne : relyingPartyText P decrypted ≠ [] := by
    intro hempty
    simp [hempty] at htext
  rw [if_neg hne] at htext
  unfold parametersOfDecrypted Khefin.parametersOfDecrypted
  rw [hload, except_ok_bind]
  refine follows_bind (g := fun _ => Khefin.parametersOfSecrets P secrets >>= fun params =>
    Khefin.mixIntoSalt P params mixin) (y := .ok ()) (follows_loadSecretsFromBytes hload) ?_
  intro buffers _ hholds
  refine follows_bind (follows_parametersOfSecrets h hholds hne hr (Option.some.inj htext).symm) ?_
  rintro _ params rfl
  exact follows_mixIntoSalt params mixin

/-- What is accessed when the parameters have been built. -/
theorem safe_buildAndFree_of_ok {r : CString} {params : AuthenticatorParameters}
    (hload : Khefin.loadSecretsFromBytes P decrypted = .ok secrets)
    (hr : secrets.relyingPartyId = some r) (h : P.malloc 2 = true)
    (hbuilt : Khefin.parametersOfDecrypted P decrypted mixin = .ok params) :
    (∀ a ∈ accesses (buildAndFreeParameters P decrypted mixin authenticatorPin), a.IsSafe) ↔
      relyingPartyIdSize ≤ params.relyingPartyId.length + 1 ∧ IsTerminated authenticatorPin := by
  obtain ⟨s, hsafe, hends⟩ := follows_parametersOfDecrypted hload hr h mixin []
  rw [hbuilt] at hends
  obtain ⟨_, hrun, rfl⟩ := hends
  rw [accesses, buildAndFreeParameters, bind_of_ok hrun, freeParameters_apply, finalState_ok,
    List.forall_mem_append, safe_freeAccesses_iff]
  exact and_iff_right (safe_of_safely hsafe)

/-- The allocations for the parameters succeed. -/
structure ParametersAllocated (P : Platform) (secrets : DeserializedSecrets) : Prop where
  parameters : P.malloc sizeofAuthenticatorParameters = true
  credentialId : secrets.credentialId.length = 0 ∨ P.malloc secrets.credentialId.length = true
  salt : secrets.salt.length = 0 ∨ P.malloc secrets.salt.length = true
  clientDataHash : P.malloc clientDataHashSizeBytes = true

theorem parametersMemory_eq_ok_iff :
    parametersMemory P secrets.credentialId.length secrets.salt.length = .ok () ↔
      ParametersAllocated P secrets := by
  simp only [parametersMemory, except_bind_eq_ok, mallocOrExit_eq_ok, mallocUnlessEmpty_eq_ok]
  constructor
  · rintro ⟨_, h₁, _, h₂, _, h₃, h₄⟩
    exact ⟨h₁, h₂, h₃, h₄⟩
  · rintro ⟨h₁, h₂, h₃, h₄⟩
    exact ⟨(), h₁, (), h₂, (), h₃, h₄⟩

/-- A mixin can be hashed to the size of the salt. -/
def MixinHashed (P : Platform) (secrets : DeserializedSecrets) (mixin : Option CString) : Prop :=
  ∀ m, mixin = some m → P.malloc secrets.salt.length = true ∧
    (P.sodium.cryptoGenerichash secrets.salt.length m.bytes).isSome = true

theorem parametersOfSecrets_returns_iff {r : CString} (hr : secrets.relyingPartyId = some r)
    (hallocated : ParametersAllocated P secrets) (h : P.malloc 2 = true) :
    (∃ params, Khefin.parametersOfSecrets P secrets = .ok params) ↔
      P.malloc (r.length + 1) = true := by
  rw [Khefin.parametersOfSecrets, allocateParametersExceptRpid_eq,
    parametersMemory_eq_ok_iff.mpr hallocated, hr]
  simp [stopIf, h, dereference, except_bind_eq_ok, strdupOrExit_eq_ok]

theorem mixIntoSalt_returns_iff (params : AuthenticatorParameters) :
    (∃ params', Khefin.mixIntoSalt P params mixin = .ok params') ↔
      ∀ m, mixin = some m → P.malloc params.salt.length = true ∧
        (P.sodium.cryptoGenerichash params.salt.length m.bytes).isSome = true := by
  cases mixin with
  | none => simp [Khefin.mixIntoSalt]
  | some m =>
    simp only [Khefin.mixIntoSalt, except_bind_eq_ok, mallocOrExit_eq_ok]
    cases hhash : P.sodium.cryptoGenerichash params.salt.length m.bytes with
    | none => simp [errx, hhash]
    | some hash => simp [hhash]

theorem parametersOfDecrypted_returns_iff {r : CString}
    (hload : Khefin.loadSecretsFromBytes P decrypted = .ok secrets)
    (hr : secrets.relyingPartyId = some r) (hallocated : ParametersAllocated P secrets)
    (h : P.malloc 2 = true) :
    (∃ params, Khefin.parametersOfDecrypted P decrypted mixin = .ok params) ↔
      P.malloc (r.length + 1) = true ∧ MixinHashed P secrets mixin := by
  rw [← parametersOfSecrets_returns_iff hr hallocated h]
  simp only [Khefin.parametersOfDecrypted, hload, except_ok_bind, except_bind_eq_ok]
  constructor
  · rintro ⟨params', params, hparams, hmixed⟩
    obtain ⟨-, -, hsalt, -⟩ := parametersOfSecrets_spec hparams
    have hhashed := (mixIntoSalt_returns_iff params).mp ⟨params', hmixed⟩
    rw [hsalt] at hhashed
    exact ⟨⟨params, hparams⟩, hhashed⟩
  · rintro ⟨⟨params, hparams⟩, hhashed⟩
    obtain ⟨-, -, hsalt, -⟩ := parametersOfSecrets_spec hparams
    rw [MixinHashed, ← hsalt] at hhashed
    obtain ⟨params', hmixed⟩ := (mixIntoSalt_returns_iff params).mpr hhashed
    exact ⟨params', params, hparams, hmixed⟩

theorem relyingPartyId_of_built {r : CString} {params : AuthenticatorParameters}
    (hload : Khefin.loadSecretsFromBytes P decrypted = .ok secrets)
    (hr : secrets.relyingPartyId = some r)
    (hbuilt : Khefin.parametersOfDecrypted P decrypted mixin = .ok params) :
    params.relyingPartyId = r := by
  simp only [Khefin.parametersOfDecrypted, hload, except_ok_bind, except_bind_eq_ok] at hbuilt
  obtain ⟨params', hparams, hmixed⟩ := hbuilt
  rw [mixIntoSalt_spec hmixed]
  exact Option.some.inj ((parametersOfSecrets_spec hparams).1.symm.trans hr)

/-! ## Runs that stop before the parameters are built -/

section Stops

variable {buffers : SecretsBuffers} {s s' : List Access} {e : Halt}

theorem accesses_of_stop (hrun : loadSecretsFromBytes P decrypted [] = .ok buffers s)
    (hstops : parametersOfSecrets P buffers s = .error e s') :
    accesses (buildAndFreeParameters P decrypted mixin authenticatorPin) = s' := by
  have hbuilding : parametersOfDecrypted P decrypted mixin [] = .error e s' := by
    rw [parametersOfDecrypted, bind_of_ok hrun, bind_of_error hstops]
  rw [accesses, buildAndFreeParameters, bind_of_error hbuilding, finalState_error]

/-- Where memory is short the run ends in time. -/
theorem safe_of_not_allocated (hload : Khefin.loadSecretsFromBytes P decrypted = .ok secrets)
    (hshort : ¬ParametersAllocated P secrets) :
    ∀ a ∈ accesses (buildAndFreeParameters P decrypted mixin authenticatorPin), a.IsSafe := by
  obtain ⟨s, hsafe, buffers, hrun, hholds⟩ := follows_loadSecretsFromBytes hload []
  obtain ⟨s', hsafe', hends⟩ := follows_allocateBuffers P buffers.credentialIdSize buffers.saltSize s
  rw [hholds.credentialIdSize, hholds.saltSize] at hends
  cases hmemory : parametersMemory P secrets.credentialId.length secrets.salt.length with
  | ok u => exact absurd (parametersMemory_eq_ok_iff.mp hmemory) hshort
  | error e =>
    rw [hmemory] at hends
    have hstops : allocateBuffers P buffers.credentialIdSize buffers.saltSize s = .error e s' := by
      rw [hholds.credentialIdSize, hholds.saltSize]
      exact hends
    rw [accesses_of_stop hrun (bind_of_error (bind_of_error hstops _) _)]
    exact safe_of_safely (trans_of Safely hsafe hsafe')

/-- The first placeholder is written through NULL. -/
theorem not_safe_of_no_placeholder
    (hload : Khefin.loadSecretsFromBytes P decrypted = .ok secrets)
    (hallocated : ParametersAllocated P secrets) (h : P.malloc 2 ≠ true) :
    ¬∀ a ∈ accesses (buildAndFreeParameters P decrypted mixin authenticatorPin), a.IsSafe := by
  obtain ⟨s, -, buffers, hrun, hholds⟩ := follows_loadSecretsFromBytes hload []
  obtain ⟨s', -, hends⟩ := follows_allocateBuffers P buffers.credentialIdSize buffers.saltSize s
  rw [hholds.credentialIdSize, hholds.saltSize, parametersMemory_eq_ok_iff.mpr hallocated] at hends
  obtain ⟨params, hallocating, -⟩ := hends
  have hplaceholder : placeholder P s' =
      .error (.fault "user_name[0]") (s' ++ [.extent none 1]) := by
    rw [placeholder, calloc, if_neg h]
    rfl
  have hstops : allocateParametersExceptRpid P buffers.credentialIdSize buffers.saltSize s =
      .error (.fault "user_name[0]") (s' ++ [.extent none 1]) := by
    rw [allocateParametersExceptRpid, hholds.credentialIdSize, hholds.saltSize,
      bind_of_ok hallocating, bind_of_error hplaceholder]
  rw [accesses_of_stop hrun (bind_of_error hstops _)]
  intro hsafe
  have hnull := hsafe (.extent none 1) (by simp)
  exact absurd hnull Nat.one_ne_zero

/-- Without a relying party id NULL is duplicated. -/
theorem not_safe_of_no_relyingPartyId
    (hload : Khefin.loadSecretsFromBytes P decrypted = .ok secrets)
    (hallocated : ParametersAllocated P secrets) (h : P.malloc 2 = true)
    (hnone : secrets.relyingPartyId = none) :
    ¬∀ a ∈ accesses (buildAndFreeParameters P decrypted mixin authenticatorPin), a.IsSafe := by
  obtain ⟨s, -, buffers, hrun, hholds⟩ := follows_loadSecretsFromBytes hload []
  obtain ⟨s₁, -, hends⟩ := follows_allocateParametersExceptRpid h buffers.credentialIdSize
    buffers.saltSize s
  have hreturns : Khefin.allocateParametersExceptRpid P buffers.credentialIdSize buffers.saltSize =
      .ok (allocated P buffers.credentialIdSize buffers.saltSize) := by
    rw [allocateParametersExceptRpid_eq, hholds.credentialIdSize, hholds.saltSize,
      parametersMemory_eq_ok_iff.mpr hallocated, except_ok_bind, stopIf_neg (by simp [h])]
    rfl
  rw [hreturns] at hends
  obtain ⟨params, hallocating, -⟩ := hends
  have htext := relyingPartyId_eq hload
  have hempty : relyingPartyText P decrypted = [] := by
    rw [hnone, relyingPartyIdOf] at htext
    by_contra hne
    simp [hne] at htext
  have hnull : buffers.relyingPartyId = none := by
    have hrelyingPartyId := hholds.relyingPartyId
    rwa [if_pos hempty] at hrelyingPartyId
  let copied : List Access := s₁ ++ [.extent params.credentialId buffers.credentialIdSize] ++
    [.extent buffers.credentialId buffers.credentialIdSize]
  have hstops : parametersOfSecrets P buffers s =
      .error (.fault "strdup") (copied ++ [.string none]) := by
    rw [parametersOfSecrets, bind_of_ok hallocating, hnull]
    rfl
  rw [accesses_of_stop hrun hstops]
  intro hsafe
  exact hsafe (.string none) (by simp)

end Stops

/-! ## All blobs -/

/-- Parameters built from an accepted blob, and given back with a PIN that was set meanwhile, are
handled within their bounds exactly when the following holds, should the checked allocations for
them succeed: the two bytes of the unchecked one are there as well, the blob has a relying party
id, and where its copy and the hash of a mixin do not end the run, the id before its first NUL
fills the constant it is wiped with and the PIN is terminated. -/
theorem safe_buildAndFree_iff (hload : Khefin.loadSecretsFromBytes P decrypted = .ok secrets) :
    (∀ a ∈ accesses (buildAndFreeParameters P decrypted mixin authenticatorPin), a.IsSafe) ↔
      (ParametersAllocated P secrets → P.malloc 2 = true ∧
        ∃ r, secrets.relyingPartyId = some r ∧
          (P.malloc (r.length + 1) = true → MixinHashed P secrets mixin →
            relyingPartyIdSize ≤ r.length + 1 ∧ IsTerminated authenticatorPin)) := by
  by_cases hallocated : ParametersAllocated P secrets
  case neg =>
    exact iff_of_true (safe_of_not_allocated hload hallocated) fun h => absurd h hallocated
  by_cases h : P.malloc 2 = true
  case neg =>
    exact iff_of_false (not_safe_of_no_placeholder hload hallocated h)
      fun hall => h (hall hallocated).1
  cases hr : secrets.relyingPartyId with
  | none =>
    refine iff_of_false (not_safe_of_no_relyingPartyId hload hallocated h hr) fun hall => ?_
    obtain ⟨-, r, hsome, -⟩ := hall hallocated
    simp at hsome
  | some r =>
    have hreturns : (∃ params, Khefin.parametersOfDecrypted P decrypted mixin = .ok params) ↔ _ :=
      parametersOfDecrypted_returns_iff hload hr hallocated h
    cases hbuilt : Khefin.parametersOfDecrypted P decrypted mixin with
    | ok params =>
      obtain ⟨hcopied, hmixed⟩ := hreturns.mp ⟨params, hbuilt⟩
      rw [safe_buildAndFree_of_ok hload hr h hbuilt, relyingPartyId_of_built hload hr hbuilt]
      simp [hallocated, h, hcopied, hmixed]
    | error e =>
      have hsafe : ∀ a ∈ accesses (buildAndFreeParameters P decrypted mixin authenticatorPin),
          a.IsSafe := by
        obtain ⟨s, hsafe, hstops⟩ := follows_parametersOfDecrypted hload hr h mixin []
        rw [hbuilt] at hstops
        have hrun : parametersOfDecrypted P decrypted mixin [] = .error e s := hstops
        rw [accesses, buildAndFreeParameters, bind_of_error hrun]
        exact safe_of_safely hsafe
      refine iff_of_true hsafe fun _ => ⟨h, r, rfl, fun hcopied hmixed => ?_⟩
      obtain ⟨params, hok⟩ := hreturns.mpr ⟨hcopied, hmixed⟩
      exact absurd (hbuilt.symm.trans hok) (by simp)

/-! ## Two blobs -/

/-- The secrets of the reference device under another relying party id. -/
def blobFor (relyingPartyId : CString) : Bytes :=
  Cbor.encode (.array true
    (secretsItems 1 relyingPartyId [0xc1, 0xc2] referenceEntropy.hmacSalt.toList))

def secretsFor (relyingPartyId : CString) : DeserializedSecrets where
  version := 1
  relyingPartyId := some relyingPartyId
  credentialId := [0xc1, 0xc2]
  salt := referenceEntropy.hmacSalt.toList

theorem loadSecretsFromBytes_blobFor {r : CString} (hne : r.bytes ≠ []) (hascii : IsAscii r)
    (hlength : (blobFor r).length ≤ ptrdiffMax) :
    Khefin.loadSecretsFromBytes (referenceHost referenceDevice) (blobFor r) = .ok (secretsFor r) :=
  loadSecretsFromBytes_encode referenceCbor_followsFormat hne hascii
    (referencePlatform_allocates _ _) (by decide) (by decide) hlength

def longRelyingPartyId : CString := literal "aaaaaaaaaaaaaaaaaaaaaaaaaaaaaaaa"

theorem parametersAllocated_reference (r : CString) :
    ParametersAllocated (referenceHost referenceDevice) (secretsFor r) :=
  ⟨by decide, Or.inr rfl, Or.inr rfl, by decide⟩

/-- A relying party id as long as the constant. -/
theorem safe_buildAndFree_reference :
    Khefin.loadSecretsFromBytes (referenceHost referenceDevice) (blobFor longRelyingPartyId) =
      .ok (secretsFor longRelyingPartyId) ∧
    ∀ a ∈ accesses (buildAndFreeParameters (referenceHost referenceDevice)
      (blobFor longRelyingPartyId) none none), a.IsSafe := by
  have hload := loadSecretsFromBytes_blobFor (r := longRelyingPartyId) (by decide)
    (by unfold IsAscii; decide +kernel) (by decide)
  refine ⟨hload, (safe_buildAndFree_iff hload).mpr fun _ => ⟨by decide, _, rfl, fun _ _ => ?_⟩⟩
  exact ⟨by decide, by simp [IsTerminated]⟩

/-- A relying party id of one letter is wiped with 32 bytes, in a buffer of two. -/
theorem not_safe_buildAndFree_short :
    Khefin.loadSecretsFromBytes (referenceHost referenceDevice) (blobFor letterA) =
      .ok (secretsFor letterA) ∧
    ¬∀ a ∈ accesses (buildAndFreeParameters (referenceHost referenceDevice) (blobFor letterA)
      none none), a.IsSafe := by
  have hload := loadSecretsFromBytes_blobFor (r := letterA) (by decide)
    (by unfold IsAscii; decide +kernel) (by decide)
  obtain ⟨params, hbuilt⟩ : ∃ params, Khefin.parametersOfDecrypted
      (referenceHost referenceDevice) (blobFor letterA) none = .ok params :=
    (parametersOfDecrypted_returns_iff hload rfl (parametersAllocated_reference letterA)
      (by decide)).mpr ⟨by decide, by simp [MixinHashed]⟩
  refine ⟨hload, fun hsafe => ?_⟩
  have hwiped := ((safe_buildAndFree_of_ok hload rfl (by decide) hbuilt).mp hsafe).1
  rw [relyingPartyId_of_built hload rfl hbuilt] at hwiped
  exact absurd hwiped (by decide)

end Khefin.OnBuffers
