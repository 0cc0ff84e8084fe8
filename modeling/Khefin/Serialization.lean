import Khefin.Authenticator
import Khefin.SerializationV1

/-! # Between keyfiles and authenticator parameters -/

namespace Khefin
open CLibrary ExitingPrograms

def serializationMaxVersion : ℕ := 1

/-! ## Loading -/

def CborErrorCode.number : CborErrorCode → ℤ
  | .notenoughdata => 1
  | .nodata => 2
  | .malformated => 3
  | .memerror => 4
  | .syntaxerror => 5

def getCborErrorString : CborErrorCode → String
  | .malformated => "malformed data (CBOR_ERR_MALFORMATED)"
  | .memerror => "memory error (CBOR_ERR_MEMERROR)"
  | .nodata => "no data (CBOR_ERR_NODATA)"
  | .notenoughdata => "not enough data (CBOR_ERR_NOTENOUGHDATA)"
  | .syntaxerror => "syntax error in data (CBOR_ERR_SYNTAXERROR)"

/-- The elements of the array that the input starts with. -/
def loadArray (P : Platform) (data : Bytes) (source : List Argument) (undecodable notArray : String) :
    Except Halt (List Cbor.Item) :=
  match P.cbor.cborLoad data with
  | .error code => errx .deserializationError undecodable
      (source ++ [.number code.number, .text (getCborErrorString code)])
  | .ok (.array _ items) => .ok items
  | .ok _ => errx .deserializationError notArray source

theorem loadArray_eq_ok {P : Platform} {data : Bytes} {source : List Argument}
    {undecodable notArray : String} {items : List Cbor.Item} :
    loadArray P data source undecodable notArray = .ok items ↔
      ∃ definite, P.cbor.cborLoad data = .ok (.array definite items) := by
  unfold loadArray
  split <;> simp_all [errx]

def loadSecretsFromBytes (P : Platform) (decrypted : Bytes) : Except Halt DeserializedSecrets := do
  let items ← loadArray P decrypted []
    "Unable to deserialize secrets; is the data not CBOR-encoded? CBOR error code %d: %s"
    "Secrets have the wrong format (should be a CBOR array at root)"
  let version ← uintField items 0 .w8 (.exit .deserializationError
    ⟨"Secrets have the wrong format (first field should be a version number stored as an 8-bit unsigned integer)",
      []⟩)
  stopIf (UInt8.ofNat version ≠ 1) (.exit .deserializationError
    ⟨"Unrecognized secrets version (we only support up to %d, got version %d)",
      [.number serializationMaxVersion, .number version]⟩)
  deserializeSecretsFromCborV1 P items

def loadCleartext (P : Platform) (file : EncodedFile) : Except Halt DeserializedCleartext := do
  let items ← loadArray P file.data [.string file.path]
    "Unable to deserialize %s; is it not CBOR-encoded? CBOR error code %d: %s"
    "%s has the wrong format (should be a CBOR array at root)"
  let version ← uintField items 0 .w8 (.exit .deserializationError
    ⟨"%s has the wrong format (first field should be a version number stored as an 8-bit unsigned integer)",
      [.string file.path]⟩)
  stopIf (UInt8.ofNat version ≠ 1) (.exit .deserializationError
    ⟨"Unrecognized data version (we only support up to %d, got version %d)",
      [.number serializationMaxVersion, .number version]⟩)
  deserializeCleartextFromCborV1 P items

def writeCleartext (P : Platform) (cleartext : DeserializedCleartext) (path : CString) :
    Except Halt EncodedFile := do
  mallocOrExit P sizeofEncodedFile "encoded file structure"
  let path ← strdupOrExit P path "encoded file path"
  match P.cbor.cborSerializeAlloc (serializeCleartextToCborV1 cleartext) with
  | none => errx .outOfMemory "Unable to serialize cleartext"
  | some data => return { path, data }

/-! ## Opening -/

/-- The bytes libsodium reads at a nonce buffer, whatever the size of the buffer. -/
def nonceRead (P : Platform) (nonce : Bytes) : Bytes :=
  (nonce ++ P.behindNonce).take cryptoSecretboxNoncebytes

/-- The nonce pointer is NULL for an empty nonce, and used unless the box is too short. -/
def openEncryptedData (P : Platform) (cleartext : DeserializedCleartext) (keyBytes : Bytes) :
    Program Bytes := do
  lift (mallocOrExit P (sizeSub cleartext.encryptedData.length cryptoSecretboxMacbytes)
    "encrypted data")
  record (.cryptoSecretboxOpenEasy cleartext.nonce cleartext.encryptedData.length)
  lift (stopIf (cleartext.nonce = [] ∧ cryptoSecretboxMacbytes ≤ cleartext.encryptedData.length)
    (.fault "crypto_secretbox_open_easy"))
  match P.sodium.cryptoSecretboxOpenEasy cleartext.encryptedData (nonceRead P cleartext.nonce)
      keyBytes with
  | none => lift (errx .badPassphrase
      "Could not decrypt secrets; this likely means the passphrase was wrong")
  | some decrypted => return decrypted

theorem keeps_openEncryptedData {R : World → World → Prop} [IsPreorder World R]
    (hR : Tolerates Event.IsKeyWork R) (P : Platform) (cleartext : DeserializedCleartext)
    (keyBytes : Bytes) : Keeps R (openEncryptedData P cleartext keyBytes) := by
  refine keeps_bind (keeps_lift _) fun _ => keeps_bind (keeps_record hR trivial) fun _ => ?_
  refine keeps_bind (keeps_lift _) fun _ => ?_
  split
  · exact keeps_lift _
  · exact keeps_pure _

def parametersOfSecrets (P : Platform) (secrets : DeserializedSecrets) :
    Except Halt AuthenticatorParameters := do
  let params ← allocateParametersExceptRpid P secrets.credentialId.length secrets.salt.length
  let relyingPartyId ← dereference "strdup" secrets.relyingPartyId
  let relyingPartyId ← strdupOrExit P relyingPartyId
    "relying party id in authenticator parameters"
  return { params with
    relyingPartyId, credentialId := secrets.credentialId, salt := secrets.salt }

/-- The salt is combined with a hash of its own size of the mixin. -/
def mixIntoSalt (P : Platform) (params : AuthenticatorParameters) :
    Option CString → Except Halt AuthenticatorParameters
  | none => .ok params
  | some mixin => do
    mallocOrExit P params.salt.length "mixin salt"
    match P.sodium.cryptoGenerichash params.salt.length mixin.bytes with
    | none => errx .cryptographyError "Unable to hash mixin data"
    | some hashedMixin =>
      return { params with salt := List.zipWith (· ^^^ ·) params.salt hashedMixin.toList }

def parametersOfDecrypted (P : Platform) (decrypted : Bytes) (mixin : Option CString) :
    Except Halt AuthenticatorParameters := do
  let secrets ← loadSecretsFromBytes P decrypted
  let params ← parametersOfSecrets P secrets
  mixIntoSalt P params mixin

def buildAuthenticatorParametersFromDeserializedCleartextAndKeyAndMixin (P : Platform)
    (cleartext : DeserializedCleartext) (keyBytes : Bytes) (mixin : Option CString) :
    Program AuthenticatorParameters := do
  let decrypted ← openEncryptedData P cleartext keyBytes
  lift (parametersOfDecrypted P decrypted mixin)

/-! ## Sealing -/

/-- The secrets of a new keyfile, with the allocations for both of its structures. -/
def secretsToSeal (P : Platform) (authenticatorParams : AuthenticatorParameters)
    (keySpec : KeySpec) : Except Halt Bytes := do
  mallocOrExit P sizeofDeserializedCleartext "encrypted keyfile"
  mallocOrExit P keySpec.kdfSalt.length "salt in encrypted keyfile"
  mallocOrExit P cryptoBoxNoncebytes "nonce in encrypted keyfile"
  mallocOrExit P sizeofDeserializedSecrets "secrets"
  let relyingPartyId ← strdupOrExit P authenticatorParams.relyingPartyId
    "relying party id in encrypted keyfile"
  mallocOrExit P authenticatorParams.credentialId.length "credential id in encrypted keyfile"
  mallocOrExit P authenticatorParams.salt.length "encrypted secret in encrypted keyfile"
  let cborEncodedSecrets ← serializeSecretsToCborV1
    { version := UInt8.ofNat serializationMaxVersion
      relyingPartyId := some relyingPartyId
      credentialId := authenticatorParams.credentialId
      salt := authenticatorParams.salt }
  match P.cbor.cborSerializeAlloc cborEncodedSecrets with
  | none => errx .outOfMemory "Unable to serialize secrets"
  | some serialized => do
    mallocOrExit P (serialized.length + cryptoSecretboxMacbytes)
      "encrypted data blob in encrypted keyfile"
    return serialized

/-- The device AAGUID is left for the caller to fill in. -/
def buildDeserializedCleartextFromAuthenticatorParametersAndKeySpec (P : Platform)
    (authenticatorParams : AuthenticatorParameters) (keySpec : KeySpec) :
    Program DeserializedCleartext := do
  let serialized ← lift (secretsToSeal P authenticatorParams keySpec)
  let keyBytes ← deriveKey P keySpec
  match P.sodium.cryptoSecretboxEasy serialized P.entropy.nonce.toList keyBytes with
  | none => lift (errx .cryptographyError "Could not encrypt secrets")
  | some encryptedData => return {
      version := UInt8.ofNat serializationMaxVersion
      deviceAaguid := []
      kdfSalt := keySpec.kdfSalt
      opslimit := keySpec.opslimit
      memlimit := keySpec.memlimit
      algorithm := keySpec.algorithm
      nonce := P.entropy.nonce.toList
      encryptedData }

theorem secretsToSeal_spec {P : Platform} {params : AuthenticatorParameters} {keySpec : KeySpec}
    {serialized : Bytes} (h : secretsToSeal P params keySpec = .ok serialized) :
    P.cbor.cborSerializeAlloc (.array true (secretsItems (UInt8.ofNat serializationMaxVersion)
      params.relyingPartyId params.credentialId params.salt)) = some serialized := by
  simp only [secretsToSeal, except_bind_eq_ok, strdupOrExit_eq_ok] at h
  obtain ⟨_, -, _, -, _, -, _, -, _, ⟨-, rfl⟩, _, -, _, -, i, hi, h⟩ := h
  obtain rfl : _ = i := by simpa [serializeSecretsToCborV1, dereference] using hi
  split at h
  · simp [errx] at h
  · next d hd =>
    simp only [except_bind_eq_ok, except_pure, Except.ok.injEq] at h
    obtain ⟨_, -, rfl⟩ := h
    exact hd

/-- The box of a new keyfile is sealed under the key derived from its own KDF parameters. -/
theorem buildDeserializedCleartext_spec {P : Platform} {params : AuthenticatorParameters}
    {keySpec : KeySpec} {c : DeserializedCleartext} {w w' : World}
    (h : buildDeserializedCleartextFromAuthenticatorParametersAndKeySpec P params keySpec w =
      .ok c w') :
    ∃ serialized key,
      P.cbor.cborSerializeAlloc (.array true (secretsItems (UInt8.ofNat serializationMaxVersion)
        params.relyingPartyId params.credentialId params.salt)) = some serialized ∧
      P.sodium.cryptoPwhash keySpec.pwhashInput = some key ∧
      P.sodium.cryptoSecretboxEasy serialized P.entropy.nonce.toList key = some c.encryptedData ∧
      c = { version := UInt8.ofNat serializationMaxVersion, deviceAaguid := [],
            kdfSalt := keySpec.kdfSalt, opslimit := keySpec.opslimit,
            memlimit := keySpec.memlimit, algorithm := keySpec.algorithm,
            nonce := P.entropy.nonce.toList, encryptedData := c.encryptedData } := by
  simp only [buildDeserializedCleartextFromAuthenticatorParametersAndKeySpec, bind_eq_ok,
    lift_eq_ok] at h
  obtain ⟨serialized, _, ⟨hs, rfl⟩, key, w₁, hk, h⟩ := h
  have hkey := (deriveKey_spec hk).2.1
  cases he : P.sodium.cryptoSecretboxEasy serialized P.entropy.nonce.toList key with
  | none => simp [he, errx] at h
  | some e =>
    rw [he] at h
    obtain ⟨rfl, -⟩ := EStateM.Result.ok.inj h
    exact ⟨serialized, key, secretsToSeal_spec hs, hkey, he, rfl⟩

theorem keeps_buildDeserializedCleartext {R : World → World → Prop} [IsPreorder World R]
    (hR : Tolerates Event.IsKeyWork R) (P : Platform)
    (authenticatorParams : AuthenticatorParameters) (keySpec : KeySpec) :
    Keeps R (buildDeserializedCleartextFromAuthenticatorParametersAndKeySpec P
      authenticatorParams keySpec) := by
  refine keeps_bind (keeps_lift _) fun _ => keeps_bind (keeps_deriveKey hR _ _) fun _ => ?_
  split
  · exact keeps_lift _
  · exact keeps_pure _

end Khefin
