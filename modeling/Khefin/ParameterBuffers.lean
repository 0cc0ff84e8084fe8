import Khefin.BufferAccesses
import Khefin.SecretsCodec

/-! # The buffers of the parameters

The secrets of a keyfile and the parameters built from them once more, as the source keeps
them: each field a pointer with the size beside it, and every access to the memory behind it
listed. The checks of the blob and the allocations are those of the program over values. -/

namespace Khefin.OnBuffers
open CLibrary ExitingPrograms BufferAccesses

abbrev BufferProgram := AccessProgram Halt

structure SecretsBuffers where
  relyingPartyId : Pointer
  credentialId : Pointer
  credentialIdSize : ℕ
  salt : Pointer
  saltSize : ℕ

structure ParametersBuffers where
  userId : Pointer
  clientDataHash : Pointer
  userName : Pointer
  userDisplayName : Pointer
  relyingPartyName : Pointer
  relyingPartyId : Pointer
  credentialId : Pointer
  credentialIdSize : ℕ
  salt : Pointer
  saltSize : ℕ
  authenticatorPin : Pointer

/-! ## Allocating -/

def malloc (P : Platform) (n : ℕ) (what : String) : BufferProgram Pointer := do
  lift (mallocOrExit P n what)
  return some (List.replicate n 0)

def mallocUnlessEmpty (P : Platform) (n : ℕ) (what : String) : BufferProgram Pointer :=
  if n > 0 then malloc P n what else return none

/-- The result is not checked by its callers. -/
def calloc (P : Platform) (n : ℕ) : Pointer :=
  if P.malloc n = true then some (List.replicate n 0) else none

def strdup (P : Platform) (p : Pointer) (what : String) : BufferProgram Pointer := do
  let s ← stringAt (.fault "strdup") p
  lift (mallocOrExit P (s.length + 1) what)
  return stringBuffer s

def sodiumMemzero (p : Pointer) (size : ℕ) : BufferProgram Unit := access (.extent p size)

/-! ## The secrets of a blob -/

/-- The content of the text field. -/
def relyingPartyText (P : Platform) (decrypted : Bytes) : Bytes :=
  match P.cbor.cborLoad decrypted with
  | .ok (.array _ items) =>
    match items[encryptedFieldRpId]? with
    | some (.text data) => data
    | _ => []
  | _ => []

/-- A terminator is added explicitly. -/
def copyText (data : Bytes) : BufferProgram Pointer :=
  if data.length > 0 then do
    let p ← strncpyTo (some (List.replicate (data.length + 1) 0)) (some data) data.length
    storeAt (.fault "relying_party_id[relying_party_size]") p data.length 0
  else return none

def copyBytestring (data : Bytes) : BufferProgram Pointer :=
  if data.length > 0 then memcpy (some (List.replicate data.length 0)) (some data) data.length
  else return none

def loadSecretsFromBytes (P : Platform) (decrypted : Bytes) : BufferProgram SecretsBuffers := do
  let secrets ← lift (Khefin.loadSecretsFromBytes P decrypted)
  let relyingPartyId ← copyText (relyingPartyText P decrypted)
  let credentialId ← copyBytestring secrets.credentialId
  let salt ← copyBytestring secrets.salt
  return {
    relyingPartyId
    credentialId
    credentialIdSize := secrets.credentialId.length
    salt
    saltSize := secrets.salt.length }

/-- The bytes that are not NULL are wiped before they are freed. -/
def freeSecrets (secret : SecretsBuffers) : BufferProgram Unit := do
  let relyingPartyId ← stringAt (.fault "strlen") secret.relyingPartyId
  sodiumMemzero secret.relyingPartyId relyingPartyId.length
  sodiumMemzero secret.credentialId secret.credentialIdSize
  sodiumMemzero secret.salt secret.saltSize

/-! ## The parameters -/

/-- A string of two bytes, the first of which is set through an unchecked pointer. -/
def placeholder (P : Platform) : BufferProgram Pointer :=
  storeAt (.fault "user_name[0]") (calloc P 2) 0 0x41

/-- The parameters before the placeholders, and without a relying party id. -/
def allocateBuffers (P : Platform) (credentialIdSize saltSize : ℕ) :
    BufferProgram ParametersBuffers := do
  lift (mallocOrExit P sizeofAuthenticatorParameters "authenticator parameters")
  let credentialId ← mallocUnlessEmpty P credentialIdSize "credential id in authenticator parameters"
  let salt ← mallocUnlessEmpty P saltSize "salt in authenticator parameters"
  let clientDataHash ← malloc P clientDataHashSizeBytes
    "client data hash in authenticator parameters"
  access (.extent clientDataHash clientDataHashSizeBytes)
  return {
    userId := calloc P 1
    clientDataHash := some (List.replicate clientDataHashSizeBytes 0x41)
    userName := none
    userDisplayName := none
    relyingPartyName := none
    relyingPartyId := none
    credentialId
    credentialIdSize
    salt
    saltSize
    authenticatorPin := none }

def allocateParametersExceptRpid (P : Platform) (credentialIdSize saltSize : ℕ) :
    BufferProgram ParametersBuffers := do
  let params ← allocateBuffers P credentialIdSize saltSize
  let userName ← placeholder P
  let userDisplayName ← placeholder P
  let relyingPartyName ← placeholder P
  return { params with userName, userDisplayName, relyingPartyName }

def parametersOfSecrets (P : Platform) (secrets : SecretsBuffers) :
    BufferProgram ParametersBuffers := do
  let params ← allocateParametersExceptRpid P secrets.credentialIdSize secrets.saltSize
  let credentialId ← memcpy params.credentialId secrets.credentialId secrets.credentialIdSize
  let relyingPartyId ← strdup P secrets.relyingPartyId
    "relying party id in authenticator parameters"
  let salt ← memcpy params.salt secrets.salt secrets.saltSize
  freeSecrets secrets
  return { params with credentialId, relyingPartyId, salt }

/-- The loop goes over the whole salt and as many bytes of the hash. -/
def mixIntoSalt (P : Platform) (params : ParametersBuffers) :
    Option CString → BufferProgram ParametersBuffers
  | none => return params
  | some mixin => do
    let hashedMixin ← malloc P params.saltSize "mixin salt"
    let content ← stringAt (.fault "strlen") (stringBuffer mixin)
    access (.extent (stringBuffer mixin) content.length)
    access (.extent hashedMixin params.saltSize)
    match P.sodium.cryptoGenerichash params.saltSize content.bytes with
    | none => lift (errx .cryptographyError "Unable to hash mixin data")
    | some hash => do
      access (.extent params.salt params.saltSize)
      access (.extent hashedMixin params.saltSize)
      return { params with
        salt := params.salt.map fun memory => List.zipWith (· ^^^ ·) memory hash.toList }

def parametersOfDecrypted (P : Platform) (decrypted : Bytes) (mixin : Option CString) :
    BufferProgram ParametersBuffers := do
  let secrets ← loadSecretsFromBytes P decrypted
  let params ← parametersOfSecrets P secrets
  mixIntoSalt P params mixin

/-- What is not secret is only freed. -/
def freeParameters (params : ParametersBuffers) : BufferProgram Unit := do
  if params.relyingPartyId ≠ none then sodiumMemzero params.relyingPartyId relyingPartyIdSize
  if params.credentialId ≠ none then sodiumMemzero params.credentialId params.credentialIdSize
  if params.salt ≠ none then sodiumMemzero params.salt params.saltSize
  if params.authenticatorPin ≠ none then do
    let pin ← stringAt (.fault "strlen") params.authenticatorPin
    sodiumMemzero params.authenticatorPin pin.length

/-- The parameters of a blob, built and given back with what their PIN has become by then. -/
def buildAndFreeParameters (P : Platform) (decrypted : Bytes) (mixin : Option CString)
    (authenticatorPin : Pointer) : BufferProgram Unit := do
  let params ← parametersOfDecrypted P decrypted mixin
  freeParameters { params with authenticatorPin }

/-! ## What the buffers hold -/

/-- The buffers of secrets whose text field has this content. -/
structure HoldsSecrets (text : Bytes) (buffers : SecretsBuffers) (secrets : DeserializedSecrets) :
    Prop where
  relyingPartyId : if text = [] then buffers.relyingPartyId = none else
    ∃ memory, buffers.relyingPartyId = some memory ∧ cString memory = cString text ∧
      memory.length = text.length + 1 ∧ 0 ∈ memory
  credentialId : buffers.credentialId = dataBuffer secrets.credentialId
  credentialIdSize : buffers.credentialIdSize = secrets.credentialId.length
  salt : buffers.salt = dataBuffer secrets.salt
  saltSize : buffers.saltSize = secrets.salt.length

/-- The buffers of parameters. -/
def buffersOf (params : AuthenticatorParameters) : ParametersBuffers where
  userId := dataBuffer params.userId
  clientDataHash := some params.clientDataHash
  userName := stringBuffer params.userName
  userDisplayName := stringBuffer params.userDisplayName
  relyingPartyName := stringBuffer params.relyingPartyName
  relyingPartyId := stringBuffer params.relyingPartyId
  credentialId := dataBuffer params.credentialId
  credentialIdSize := params.credentialId.length
  salt := dataBuffer params.salt
  saltSize := params.salt.length
  authenticatorPin := params.authenticatorPin.bind stringBuffer

section Follows

variable {P : Platform} {data text decrypted : Bytes} {secrets : DeserializedSecrets}

theorem isSafe_dataBuffer (data : Bytes) : (Access.extent (dataBuffer data) data.length).IsSafe := by
  unfold dataBuffer
  split
  · next hempty => exact List.length_eq_zero_iff.mpr hempty
  · exact Nat.le_refl _

theorem follows_copyBytestring (data : Bytes) :
    SafelyFollows (fun p _ => p = dataBuffer data) (copyBytestring data) (.ok ()) := by
  unfold copyBytestring dataBuffer
  cases data with
  | nil => exact follows_pure rfl
  | cons b data =>
    have hcopied : SafelyFollows _ (memcpy (some (List.replicate (b :: data).length 0))
        (some (b :: data)) (b :: data).length : BufferProgram Pointer) (.ok ()) :=
      follows_memcpy (by simp [Access.IsSafe]) (by simp [Access.IsSafe])
    simpa using hcopied

theorem follows_copyText (data : Bytes) :
    SafelyFollows (fun p _ => if data = [] then p = none else
      ∃ memory, p = some memory ∧ cString memory = cString data ∧
        memory.length = data.length + 1 ∧ 0 ∈ memory) (copyText data) (.ok ()) := by
  unfold copyText
  by_cases hempty : data = []
  · rw [if_neg (by simp [hempty])]
    exact follows_pure (by rw [if_pos hempty])
  · let copied := strncpy (List.replicate (data.length + 1) 0) (cString data) data.length
    have hcopied : SafelyFollows (fun p _ => p = some copied) (strncpyTo (some
        (List.replicate (data.length + 1) 0)) (some data) data.length : BufferProgram Pointer)
        (.ok ()) :=
      follows_strncpyTo (by simp [Access.IsSafe]) (by simp [Access.IsSafe])
    have hlength : copied.length = data.length + 1 := by simp [copied, strncpy]
    have hlt : data.length < copied.length := hlength ▸ Nat.lt_succ_self _
    rw [if_pos (List.length_pos_iff.mpr hempty)]
    apply follows_step hcopied
    apply (follows_storeAt hlt _ 0).mono
    intro p _ hp
    rw [if_neg hempty]
    exact ⟨_, hp, cString_terminated data, by rw [List.length_set, hlength], zero_mem_set hlt⟩

theorem relyingPartyId_eq (h : Khefin.loadSecretsFromBytes P decrypted = .ok secrets) :
    secrets.relyingPartyId = relyingPartyIdOf (relyingPartyText P decrypted) := by
  obtain ⟨definite, version, text, hload, -, -, htext, -⟩ := loadSecretsFromBytes_eq_ok.mp h
  rw [htext, relyingPartyText, hload]
  rfl

/-- A blob is loaded into buffers that hold its secrets. -/
theorem follows_loadSecretsFromBytes (h : Khefin.loadSecretsFromBytes P decrypted = .ok secrets) :
    SafelyFollows (fun buffers _ => HoldsSecrets (relyingPartyText P decrypted) buffers secrets)
      (loadSecretsFromBytes P decrypted) (.ok ()) := by
  have hchecked : SafelyFollows (fun s _ => s = secrets)
      (lift (Khefin.loadSecretsFromBytes P decrypted) : BufferProgram DeserializedSecrets)
      (.ok ()) := by
    rw [h]
    exact follows_pure rfl
  apply follows_step hchecked
  apply follows_bind (g := fun _ => .ok ()) (follows_copyText (relyingPartyText P decrypted))
  intro relyingPartyId _ hrelyingPartyId
  apply follows_step (follows_copyBytestring secrets.credentialId)
  apply follows_step (follows_copyBytestring secrets.salt)
  exact follows_pure ⟨hrelyingPartyId, rfl, rfl, rfl, rfl⟩

theorem follows_sodiumMemzero {p : Pointer} {size : ℕ} (h : (Access.extent p size).IsSafe) :
    SafelyFollows (fun _ _ => True) (sodiumMemzero p size) (.ok ()) :=
  follows_access (f := fun _ => pure ()) h (follows_pure trivial)

section Secrets

variable {buffers : SecretsBuffers} (hholds : HoldsSecrets text buffers secrets)
include hholds

theorem HoldsSecrets.isSafe_credentialId :
    (Access.extent buffers.credentialId buffers.credentialIdSize).IsSafe := by
  rw [hholds.credentialId, hholds.credentialIdSize]
  exact isSafe_dataBuffer _

theorem HoldsSecrets.isSafe_salt : (Access.extent buffers.salt buffers.saltSize).IsSafe := by
  rw [hholds.salt, hholds.saltSize]
  exact isSafe_dataBuffer _

theorem follows_freeSecrets (htext : text ≠ []) :
    SafelyFollows (fun _ _ => True) (freeSecrets buffers) (.ok ()) := by
  have hrelyingPartyId := hholds.relyingPartyId
  rw [if_neg htext] at hrelyingPartyId
  obtain ⟨memory, hmemory, hstring, hlength, hzero⟩ := hrelyingPartyId
  unfold freeSecrets
  rw [hmemory]
  apply follows_step (follows_stringAt hzero _)
  apply follows_access (a := .extent (some memory) _) (cString_length_le memory)
  apply follows_access hholds.isSafe_credentialId
  exact follows_sodiumMemzero hholds.isSafe_salt

end Secrets

/-! ## Allocating -/

theorem dataBuffer_replicate {n : ℕ} (h : n > 0) (b : UInt8) :
    dataBuffer (List.replicate n b) = some (List.replicate n b) := by
  apply if_neg
  simpa using Nat.ne_of_gt h

theorem follows_malloc (P : Platform) (n : ℕ) (what : String) :
    SafelyFollows (fun p _ => p = some (List.replicate n 0)) (malloc P n what)
      (mallocOrExit P n what) :=
  follows_then (follows_lift _) fun _ _ _ => follows_pure rfl

theorem follows_mallocUnlessEmpty (P : Platform) (n : ℕ) (what : String) :
    SafelyFollows (fun p _ => p = dataBuffer (List.replicate n 0)) (mallocUnlessEmpty P n what)
      (Khefin.mallocUnlessEmpty P n what) := by
  unfold mallocUnlessEmpty Khefin.mallocUnlessEmpty
  by_cases hn : n > 0
  · rw [if_pos hn, if_neg (Nat.ne_of_gt hn), dataBuffer_replicate hn]
    exact follows_malloc P n what
  · obtain rfl : n = 0 := by omega
    exact follows_pure rfl

theorem follows_placeholder (h : P.malloc 2 = true) :
    SafelyFollows (fun p _ => p = stringBuffer letterA) (placeholder P) (.ok ()) := by
  unfold placeholder calloc
  rw [if_pos h]
  apply (follows_storeAt (by simp) _ _).mono
  rintro p _ rfl
  rfl

/-- The allocations that are checked. -/
def parametersMemory (P : Platform) (credentialIdSize saltSize : ℕ) : Except Halt Unit := do
  mallocOrExit P sizeofAuthenticatorParameters "authenticator parameters"
  Khefin.mallocUnlessEmpty P credentialIdSize "credential id in authenticator parameters"
  Khefin.mallocUnlessEmpty P saltSize "salt in authenticator parameters"
  mallocOrExit P clientDataHashSizeBytes "client data hash in authenticator parameters"

/-- The parameters over values that have been allocated. -/
def allocated (P : Platform) (credentialIdSize saltSize : ℕ) : AuthenticatorParameters where
  userId := if P.malloc 1 then [0] else []
  clientDataHash := List.replicate clientDataHashSizeBytes 0x41
  userName := letterA
  userDisplayName := letterA
  relyingPartyId := literal ""
  relyingPartyName := letterA
  credentialId := List.replicate credentialIdSize 0
  salt := List.replicate saltSize 0
  authenticatorPin := none

theorem allocateParametersExceptRpid_eq (P : Platform) (credentialIdSize saltSize : ℕ) :
    Khefin.allocateParametersExceptRpid P credentialIdSize saltSize =
      parametersMemory P credentialIdSize saltSize >>= fun _ =>
        stopIf (P.malloc 2 = false) (.fault "user_name[0]") >>= fun _ =>
          .ok (allocated P credentialIdSize saltSize) := by
  simp only [Khefin.allocateParametersExceptRpid, parametersMemory, bind_assoc]
  rfl

theorem follows_allocateBuffers (P : Platform) (credentialIdSize saltSize : ℕ) :
    SafelyFollows (fun params _ => params =
        { buffersOf (allocated P credentialIdSize saltSize) with
          userName := none, userDisplayName := none, relyingPartyName := none,
          relyingPartyId := none })
      (allocateBuffers P credentialIdSize saltSize)
      (parametersMemory P credentialIdSize saltSize) := by
  refine follows_bind (follows_lift _) fun _ _ _ => ?_
  refine follows_bind (follows_mallocUnlessEmpty P _ _) fun _ _ hcredentialId => ?_
  refine follows_bind (follows_mallocUnlessEmpty P _ _) fun _ _ hsalt => ?_
  refine follows_then (follows_malloc P _ _) fun _ _ hclientDataHash => ?_
  subst hcredentialId hsalt hclientDataHash
  apply follows_access (by simp [Access.IsSafe])
  refine follows_pure ?_
  simp only [buffersOf, allocated, calloc, List.length_replicate, dataBuffer]
  split <;> rfl

/-- The parameters are allocated safely when the two bytes of the placeholders are there. -/
theorem follows_allocateParametersExceptRpid (h : P.malloc 2 = true) (credentialIdSize saltSize : ℕ) :
    SafelyFollows (fun buffers params => buffers = { buffersOf params with relyingPartyId := none } ∧
        params = allocated P credentialIdSize saltSize)
      (allocateParametersExceptRpid P credentialIdSize saltSize)
      (Khefin.allocateParametersExceptRpid P credentialIdSize saltSize) := by
  rw [allocateParametersExceptRpid_eq]
  refine follows_bind (follows_allocateBuffers P _ _) fun _ _ hbuffers => ?_
  rw [stopIf_neg (by simp [h]), except_ok_bind, hbuffers]
  apply follows_step (follows_placeholder h)
  apply follows_step (follows_placeholder h)
  apply follows_step (follows_placeholder h)
  exact follows_pure ⟨rfl, rfl⟩

/-! ## Filling -/

theorem follows_copyData {data : Bytes} {size : ℕ} (hsize : size = data.length) :
    SafelyFollows (fun p _ => p = dataBuffer data)
      (memcpy (dataBuffer (List.replicate size 0)) (dataBuffer data) size : BufferProgram Pointer)
      (.ok ()) := by
  subst hsize
  have hdestination : (Access.extent (dataBuffer (List.replicate data.length 0)) data.length).IsSafe := by
    have hsafe := isSafe_dataBuffer (List.replicate data.length 0)
    rwa [List.length_replicate] at hsafe
  apply (follows_memcpy hdestination (isSafe_dataBuffer data)).mono
  rintro p _ rfl
  cases data with
  | nil => rfl
  | cons b data =>
    rw [dataBuffer_replicate (n := (b :: data).length) (Nat.succ_pos _)]
    simp [dataBuffer]

theorem follows_strdup {memory : Bytes} {s : CString} (hzero : 0 ∈ memory)
    (hstring : cString memory = s) (what : String) :
    SafelyFollows (fun p s' => p = stringBuffer s ∧ s' = s) (strdup P (some memory) what)
      (strdupOrExit P s what) := by
  unfold strdup strdupOrExit
  apply follows_step (follows_stringAt hzero _)
  rw [hstring]
  exact follows_bind (follows_lift _) fun _ _ _ => follows_pure ⟨rfl, rfl⟩

/-- Secrets with a relying party id become parameters safely. -/
theorem follows_parametersOfSecrets {buffers : SecretsBuffers} {r : CString} (h : P.malloc 2 = true)
    (hholds : HoldsSecrets text buffers secrets) (htext : text ≠ [])
    (hr : secrets.relyingPartyId = some r) (hstring : cString text = r) :
    SafelyFollows (fun buffers params => buffers = buffersOf params)
      (parametersOfSecrets P buffers) (Khefin.parametersOfSecrets P secrets) := by
  have hrelyingPartyId := hholds.relyingPartyId
  rw [if_neg htext] at hrelyingPartyId
  obtain ⟨memory, hmemory, hsame, -, hzero⟩ := hrelyingPartyId
  unfold parametersOfSecrets Khefin.parametersOfSecrets
  rw [hholds.credentialIdSize, hholds.saltSize, hholds.credentialId, hholds.salt, hmemory, hr]
  refine follows_bind (follows_allocateParametersExceptRpid h _ _) ?_
  rintro _ _ ⟨rfl, rfl⟩
  apply follows_step (follows_copyData rfl)
  rw [show dereference "strdup" (some r) = .ok r from rfl, except_ok_bind]
  refine follows_bind (follows_strdup hzero (hsame.trans hstring) _) ?_
  rintro _ _ ⟨rfl, rfl⟩
  apply follows_step (follows_copyData rfl)
  refine follows_bind (g := fun _ => .ok _) (follows_freeSecrets hholds htext) fun _ _ _ => ?_
  refine follows_pure ?_
  simp [buffersOf, allocated]

theorem map_dataBuffer {f : Bytes → Bytes} {data : Bytes} (hf : (f data).length = data.length) :
    (dataBuffer data).map f = dataBuffer (f data) := by
  unfold dataBuffer
  have hempty : f data = [] ↔ data = [] := by
    rw [← List.length_eq_zero_iff, hf, List.length_eq_zero_iff]
  simp only [hempty]
  split <;> rfl

theorem follows_mixIntoSalt (params : AuthenticatorParameters) (mixin : Option CString) :
    SafelyFollows (fun buffers params => buffers = buffersOf params)
      (mixIntoSalt P (buffersOf params) mixin) (Khefin.mixIntoSalt P params mixin) := by
  cases mixin with
  | none => exact follows_pure rfl
  | some mixin =>
    have hcontent : cString (mixin.bytes ++ [0]) = mixin :=
      CString.ext (cString_append_nul mixin.noNul [])
    refine follows_bind (follows_malloc P _ _) fun _ _ hhashed => ?_
    subst hhashed
    apply follows_step (follows_stringAt (by simp) _)
    rw [hcontent]
    apply follows_access (by simp [Access.IsSafe, stringBuffer, CString.length])
    apply follows_access (by simp [Access.IsSafe])
    dsimp only [buffersOf]
    cases P.sodium.cryptoGenerichash params.salt.length mixin.bytes with
    | none => exact follows_stop _
    | some hash =>
      apply follows_access (isSafe_dataBuffer params.salt)
      apply follows_access (by simp [Access.IsSafe])
      refine follows_pure ?_
      have hmixed : (List.zipWith (· ^^^ ·) params.salt hash.toList).length = params.salt.length := by
        simp
      rw [map_dataBuffer hmixed]
      simp

end Follows

end Khefin.OnBuffers
