import Khefin.Cryptography
import Mathlib.Algebra.Group.Int.Defs

/-! # Version 1 of the keyfile format

Both the file and the secrets inside it are arrays whose fields have a fixed type
at a fixed position. One getter reads an integer of a given width and one a byte
string; each field names its own position and messages. -/

namespace Khefin
open CLibrary ExitingPrograms

def serializationVersion : UInt8 := 1

def clearFieldVersion : ℕ := 0
def clearFieldDeviceAaguid : ℕ := 1
def clearFieldKdfSalt : ℕ := 2
def clearFieldOpslimit : ℕ := 3
def clearFieldMemlimit : ℕ := 4
def clearFieldAlgorithm : ℕ := 5
def clearFieldNonce : ℕ := 6
def clearFieldEncryptedData : ℕ := 7
def clearCountOfFields : ℕ := 8

def encryptedFieldVersion : ℕ := 0
def encryptedFieldRpId : ℕ := 1
def encryptedFieldCredentialId : ℕ := 2
def encryptedFieldHmacSalt : ℕ := 3
def encryptedCountOfFields : ℕ := 4

/-- A NULL relying party id stands for an empty string. -/
structure DeserializedSecrets where
  version : UInt8
  relyingPartyId : Option CString
  credentialId : Bytes
  salt : Bytes
  deriving DecidableEq

def sizeofDeserializedCleartext : ℕ := 96
def sizeofDeserializedSecrets : ℕ := 48

/-! ## Fields -/

def cborArrayGet (items : List Cbor.Item) (index : ℕ) : Except Halt Cbor.Item :=
  dereference "cbor_array_get" items[index]?

/-- A field that must be an unsigned integer of the given width. -/
def uintField (items : List Cbor.Item) (field : ℕ) (width : Cbor.Width) (wrong : Halt) :
    Except Halt ℕ := do
  let item ← cborArrayGet items field
  match item with
  | .uint w n => do
    stopIf (w ≠ width) wrong
    return n
  | _ => .error wrong

/-- A field that must be a definite byte string; no memory is allocated for an empty one. -/
def bytestringField (P : Platform) (items : List Cbor.Item) (field : ℕ) (what : String)
    (wrong : Halt) : Except Halt Bytes := do
  let item ← cborArrayGet items field
  match item with
  | .bytes data => do
    mallocUnlessEmpty P data.length what
    return data
  | _ => .error wrong

/-- The error for a field of the wrong type names the field. -/
def wrongFormat (format : String) (field : ℕ) : Halt :=
  .exit .deserializationError ⟨format, [.number field]⟩

/-! ## Cleartext -/

def deserializeCleartextFromCborV1 (P : Platform) (items : List Cbor.Item) :
    Except Halt DeserializedCleartext := do
  mallocOrExit P sizeofDeserializedCleartext "keyfile"
  stopIf (items.length ≠ clearCountOfFields)
    (.exit .deserializationError
      ⟨"File has the wrong format for v1 (should be a CBOR array with %d elements at root)",
        [.number clearCountOfFields]⟩)
  let version ← uintField items clearFieldVersion .w8
    (wrongFormat "File has the wrong format (field %d should be a version number stored as an 8-bit unsigned integer)"
      clearFieldVersion)
  stopIf (UInt8.ofNat version ≠ serializationVersion)
    (.exit .programmerError
      ⟨"BUG (%s:%d): deserialize_cleartext_from_cbor_v1() called when file version is not %d (version is %d)",
        [.text "deserialize_cleartext_from_cbor_v1", .number 36,
          .number serializationVersion.toNat, .number version]⟩)
  let deviceAaguid ← bytestringField P items clearFieldDeviceAaguid "device AAGUID in keyfile"
    (wrongFormat "File has the wrong format (field %d should be a AAGUID as a definite bytestring)"
      clearFieldDeviceAaguid)
  let kdfSalt ← bytestringField P items clearFieldKdfSalt "salt in keyfile"
    (wrongFormat "File has the wrong format (field %d should be a salt as a definite bytestring)"
      clearFieldKdfSalt)
  let opslimit ← uintField items clearFieldOpslimit .w64
    (wrongFormat "File has the wrong format (field %d should be a 64-bit unsigned integer)"
      clearFieldOpslimit)
  let memlimit ← uintField items clearFieldMemlimit .w64
    (wrongFormat "File has the wrong format (field %d should be a 64-bit unsigned integer)"
      clearFieldMemlimit)
  let algorithm ← uintField items clearFieldAlgorithm .w16
    (wrongFormat "File has the wrong format (field %d should be a 16-bit unsigned integer)"
      clearFieldAlgorithm)
  let nonce ← bytestringField P items clearFieldNonce "nonce in keyfile"
    (wrongFormat "File has the wrong format (field %d should be a nonce as a definite bytestring)"
      clearFieldNonce)
  let encryptedData ← bytestringField P items clearFieldEncryptedData
    "encrypted data blob in keyfile"
    (wrongFormat "File has the wrong format (field %d should be encrypted data as a definite bytestring)"
      clearFieldEncryptedData)
  return {
    version := UInt8.ofNat version
    deviceAaguid
    kdfSalt
    opslimit := UInt64.ofNat opslimit
    memlimit := UInt64.ofNat memlimit
    algorithm
    nonce
    encryptedData }

/-- The conversion of an `int` to `uint16_t`. -/
def uint16OfInt (n : ℤ) : ℕ := (n % 2 ^ 16).toNat

def cleartextItems (clear : DeserializedCleartext) : List Cbor.Item :=
  [.uint .w8 clear.version.toNat,
    .bytes clear.deviceAaguid,
    .bytes clear.kdfSalt,
    .uint .w64 clear.opslimit.toNat,
    .uint .w64 clear.memlimit.toNat,
    .uint .w16 (uint16OfInt clear.algorithm),
    .bytes clear.nonce,
    .bytes clear.encryptedData]

def serializeCleartextToCborV1 (clear : DeserializedCleartext) : Cbor.Item :=
  .array true (cleartextItems clear)

/-! ## Secrets -/

/-- The text is copied with `strncpy`, which stops at a NUL. -/
def deserializeRelyingPartyId (P : Platform) (items : List Cbor.Item) :
    Except Halt (Option CString) := do
  let item ← cborArrayGet items encryptedFieldRpId
  match item with
  | .text data => do
    if data = [] then return none
    else do
      mallocOrExit P (data.length + 1) "relying party id in decrypted secret blob"
      return some (cString data)
  | _ => .error (wrongFormat
      "Decrypted blob has the wrong format (field %d should be a relying party ID as a definite UTF-8 string)"
      encryptedFieldRpId)

def deserializeSecretsFromCborV1 (P : Platform) (items : List Cbor.Item) :
    Except Halt DeserializedSecrets := do
  mallocOrExit P sizeofDeserializedSecrets "decrypted secret blob"
  stopIf (items.length ≠ encryptedCountOfFields)
    (.exit .deserializationError
      ⟨"Decrypted blob has the wrong format for v1 (should be a CBOR array with %d elements at root)",
        [.number encryptedCountOfFields]⟩)
  let version ← uintField items encryptedFieldVersion .w8
    (wrongFormat "Decrypted blob has the wrong format (field %d should be a version number stored as an 8-bit unsigned integer)"
      encryptedFieldVersion)
  stopIf (UInt8.ofNat version ≠ serializationVersion)
    (.exit .programmerError
      ⟨"BUG (%s:%d): deserialize_secrets_from_cbor_v1() called when file version is not %d (version is %d)",
        [.text "deserialize_secrets_from_cbor_v1", .number 245,
          .number serializationVersion.toNat, .number version]⟩)
  let relyingPartyId ← deserializeRelyingPartyId P items
  let credentialId ← bytestringField P items encryptedFieldCredentialId
    "credential id in decrypted secret blob"
    (wrongFormat "Decrypted blob has the wrong format (field %d should be a credential ID as a definite bytestring)"
      encryptedFieldCredentialId)
  let salt ← bytestringField P items encryptedFieldHmacSalt "salt in decrypted secret blob"
    (wrongFormat "Decrypted blob has the wrong format (field %d should be a HMAC salt as a definite bytestring)"
      encryptedFieldHmacSalt)
  return { version := UInt8.ofNat version, relyingPartyId, credentialId, salt }

def secretsItems (version : UInt8) (relyingPartyId : CString) (credentialId salt : Bytes) :
    List Cbor.Item :=
  [.uint .w8 version.toNat, .text relyingPartyId.bytes, .bytes credentialId, .bytes salt]

/-- `cbor_build_string` measures its argument with `strlen`. -/
def serializeSecretsToCborV1 (secrets : DeserializedSecrets) : Except Halt Cbor.Item := do
  let relyingPartyId ← dereference "strlen" secrets.relyingPartyId
  return .array true
    (secretsItems secrets.version relyingPartyId secrets.credentialId secrets.salt)

/-! ## What the getters accept -/

theorem cborArrayGet_eq_ok {items : List Cbor.Item} {index : ℕ} {i : Cbor.Item} :
    cborArrayGet items index = .ok i ↔ items[index]? = some i := by
  unfold cborArrayGet
  cases items[index]? <;> simp [dereference]

theorem uintField_eq_ok {items : List Cbor.Item} {field : ℕ} {width : Cbor.Width} {wrong : Halt}
    {n : ℕ} : uintField items field width wrong = .ok n ↔ items[field]? = some (.uint width n) := by
  simp only [uintField, except_bind_eq_ok, cborArrayGet_eq_ok]
  constructor
  · rintro ⟨i, hi, h⟩
    cases i <;> simp only [except_bind_eq_ok, stopIf_eq_ok, except_pure, Except.ok.injEq,
      reduceCtorEq] at h
    obtain ⟨_, hw, rfl⟩ := h
    rw [hi, not_not.mp hw]
  · intro h
    exact ⟨_, h, by simp [stopIf]⟩

theorem bytestringField_eq_ok {P : Platform} {items : List Cbor.Item} {field : ℕ} {what : String}
    {wrong : Halt} {data : Bytes} : bytestringField P items field what wrong = .ok data ↔
      items[field]? = some (.bytes data) ∧ (data.length = 0 ∨ P.malloc data.length = true) := by
  simp only [bytestringField, except_bind_eq_ok, cborArrayGet_eq_ok]
  constructor
  · rintro ⟨i, hi, h⟩
    cases i <;> simp only [except_bind_eq_ok, except_pure, Except.ok.injEq, reduceCtorEq,
      mallocUnlessEmpty_eq_ok] at h
    obtain ⟨u, hm, rfl⟩ := h
    exact ⟨hi, hm⟩
  · rintro ⟨hi, hm⟩
    have hu : mallocUnlessEmpty P data.length what = .ok () := mallocUnlessEmpty_eq_ok.mpr hm
    exact ⟨_, hi, by simp [hu]⟩

/-! ## What the getters refuse -/

section Refusals

variable {S : Halt → Prop} {P : Platform} {items : List Cbor.Item} {field : ℕ} {wrong : Halt}

theorem failsIn_cborArrayGet (h : field < items.length) : FailsIn S (cborArrayGet items field) := by
  intro e he
  rw [cborArrayGet, List.getElem?_eq_getElem h] at he
  simp [dereference] at he

theorem failsIn_uintField {width : Cbor.Width} (hget : FailsIn S (cborArrayGet items field))
    (hw : S wrong) : FailsIn S (uintField items field width wrong) := by
  refine failsIn_bind hget fun i _ => ?_
  cases i with
  | uint w n => exact failsIn_bind (failsIn_stopIf fun _ => hw) fun _ _ => failsIn_ok _
  | _ => exact failsIn_error hw

theorem failsIn_bytestringField {what : String} (hget : FailsIn S (cborArrayGet items field))
    (hm : ∀ data, .bytes data ∈ items → FailsIn S (mallocUnlessEmpty P data.length what))
    (hw : S wrong) : FailsIn S (bytestringField P items field what wrong) := by
  refine failsIn_bind hget fun i hi => ?_
  have hmem : i ∈ items := List.mem_of_getElem? (cborArrayGet_eq_ok.mp hi)
  cases i with
  | bytes data => exact failsIn_bind (hm data hmem) fun _ _ => failsIn_ok _
  | _ => exact failsIn_error hw

end Refusals

end Khefin
