import Khefin.Enrol
import Khefin.Generate
import Khefin.MemoryTraces
import Khefin.RecordingPrograms

/-! # The buffers of the secrets

Enrolment and generation once more, with what happens to the buffers that a secret is copied
to. A buffer goes by the pointer of the source that owns it, and the bytes of a string that
are secret are those before its terminator. What a run releases on its way out of a call
that stops is left out. -/

namespace Khefin.OnHeap
open CLibrary ExitingPrograms RecordingPrograms MemoryTraces

inductive SecretBuffer
  | invocationPassphrase | invocationPin | keySpecPassphrase | keyBytes
  | serializedUnencryptedSecrets | decrypted | authenticatorPin | secret
  deriving DecidableEq

abbrev SecretEvent := MemoryEvent SecretBuffer

abbrev HeapProgram := EStateM Halt (Recorded World SecretEvent)

/-- Memory that is filled right away. -/
def filled (b : SecretBuffer) (size content : ℕ) : List SecretEvent :=
  [.allocate b size, .write b content]

/-! ## The destructors -/

def freeKeySpec (keySpec : KeySpec) : HeapProgram Unit :=
  emit [.wipe .keySpecPassphrase keySpec.passphrase.length, .free .keySpecPassphrase]

def freeKey : HeapProgram Unit := emit [.wipe .keyBytes keySize, .free .keyBytes]

def freeParameters (params : AuthenticatorParameters) : HeapProgram Unit :=
  match params.authenticatorPin with
  | none => pure ()
  | some pin => emit [.wipe .authenticatorPin pin.length, .free .authenticatorPin]

/-- Only the memory is given back. -/
def freeSecret (secret : Bytes) : HeapProgram Unit :=
  if secret = [] then pure () else emit [.free .secret]

/-- The PIN is not looked at. -/
def freeInvocation (invocation : InvocationState) : HeapProgram Unit :=
  match invocation.passphrase with
  | none => pure ()
  | some passphrase =>
    emit [.wipe .invocationPassphrase passphrase.length, .free .invocationPassphrase]

/-! ## Keys -/

def deriveKey (P : Platform) (keySpec : KeySpec) : HeapProgram Bytes := do
  let keyBytes ← plain (Khefin.deriveKey P keySpec)
  emit (filled .keyBytes keySize keySize)
  return keyBytes

def strdupPassphrase (keySpec : KeySpec) : HeapProgram Unit :=
  emit (filled .keySpecPassphrase (keySpec.passphrase.length + 1) keySpec.passphrase.length)

def makeKeySpecFromPassphraseAndCleartext (P : Platform) (passphrase : Option CString)
    (cleartext : DeserializedCleartext) : HeapProgram KeySpec := do
  let keySpec ← plain (lift (Khefin.makeKeySpecFromPassphraseAndCleartext P passphrase cleartext))
  strdupPassphrase keySpec
  return keySpec

def makeNewKeySpecFromInvocation (P : Platform) (invocation : InvocationState) :
    HeapProgram KeySpec := do
  let keySpec ← plain (lift (Khefin.makeNewKeySpecFromInvocation P invocation))
  strdupPassphrase keySpec
  return keySpec

/-! ## Enrolment -/

/-- The PIN buffer, first allocated and then filled by a prompt or a copy. -/
def authenticatorPin (P : Platform) (device : FidoDev) (invocation : InvocationState)
    (description : CString) : HeapProgram CString := do
  let pin ← plain (Khefin.authenticatorPin P device invocation description)
  emit [.write .authenticatorPin pin.length]
  return pin

def pinForEnrolment (P : Platform) (device : FidoDev) (invocation : InvocationState)
    (params : AuthenticatorParameters) : HeapProgram AuthenticatorParameters :=
  if device.authenticator.fidoDevHasPin = true then do
    plain (lift (mallocOrExit P (longestValidPin + 1) "authenticator PIN in enrol_device"))
    emit [.allocate .authenticatorPin (longestValidPin + 1)]
    let pin ← authenticatorPin P device invocation (literal "authenticator PIN")
    plain (lift (stopIf (pin.length = 0)
      (.exit .badPin ⟨"No PIN specified, unable to continue.", []⟩)))
    return { params with authenticatorPin := some pin }
  else return params

def enrolCredential (P : Platform) (invocation : InvocationState) :
    HeapProgram (AuthenticatorParameters × CborInfo) := do
  let path ← plain (lift (dereference "fido_dev_open" invocation.device))
  let device : FidoDev := ⟨0, P.authenticatorAt path⟩
  plain (getDevice device)
  let deviceInfo ← plain (getDeviceInfo device)
  plain (lift (stopIf (deviceSupportsHmacSecret deviceInfo = false)
    (.exit .authenticatorError
      ⟨"Device at %s does not support the required hmac-secret extension", [.string path]⟩)))
  let params ← plain (lift (newAuthenticatorParameters P))
  let params ← pinForEnrolment P device invocation params
  let params ← plain (createCredential P device params)
  plain (closeAndFreeDeviceIgnoringErrors device)
  return (params, deviceInfo)

def buildDeserializedCleartextFromAuthenticatorParametersAndKeySpec (P : Platform)
    (authenticatorParams : AuthenticatorParameters) (keySpec : KeySpec) :
    HeapProgram DeserializedCleartext := do
  let serialized ← plain (lift (secretsToSeal P authenticatorParams keySpec))
  emit (filled .serializedUnencryptedSecrets serialized.length serialized.length)
  let keyBytes ← deriveKey P keySpec
  match P.sodium.cryptoSecretboxEasy serialized P.entropy.nonce.toList keyBytes with
  | none => plain (lift (errx .cryptographyError "Could not encrypt secrets"))
  | some encryptedData => do
    -- not by way of `free_key`
    emit [.free .keyBytes]
    emit [.wipe .serializedUnencryptedSecrets serialized.length, .free .serializedUnencryptedSecrets]
    return {
      version := UInt8.ofNat serializationMaxVersion
      deviceAaguid := []
      kdfSalt := keySpec.kdfSalt
      opslimit := keySpec.opslimit
      memlimit := keySpec.memlimit
      algorithm := keySpec.algorithm
      nonce := P.entropy.nonce.toList
      encryptedData }

/-- The strings of the invocation are set to zero, and stay where they are. -/
def wipeInvocation (invocation : InvocationState) : HeapProgram Unit := do
  emit (invocation.passphrase.elim [] fun s => [.wipe .invocationPassphrase s.length])
  emit (invocation.authenticatorPin.elim [] fun s => [.wipe .invocationPin s.length])

/-- A string that has been set to zero is an empty one. -/
def zeroed (invocation : InvocationState) : InvocationState :=
  { invocation with
    passphrase := invocation.passphrase.map fun _ => literal ""
    authenticatorPin := invocation.authenticatorPin.map fun _ => literal "" }

def sealKeyfile (P : Platform) (invocation : InvocationState) (params : AuthenticatorParameters)
    (deviceInfo : CborInfo) : HeapProgram EncodedFile := do
  let keySpec ← makeNewKeySpecFromInvocation P invocation
  let cleartext ← buildDeserializedCleartextFromAuthenticatorParametersAndKeySpec P params keySpec
  freeKeySpec keySpec
  plain (lift (mallocOrExit P deviceInfo.aaguid.length "device AAGUID"))
  freeParameters params
  wipeInvocation invocation
  let path ← plain (lift (dereference "strdup" invocation.file))
  plain (lift (writeCleartext P { cleartext with deviceAaguid := deviceInfo.aaguid } path))

def enrolDevice (P : Platform) (invocation : InvocationState) : HeapProgram Unit := do
  let (params, deviceInfo) ← enrolCredential P invocation
  let f ← sealKeyfile P invocation params deviceInfo
  plain (writeFile P f)

/-- What `main` does for the subcommand. -/
def enrolDeviceAndFreeInvocation (P : Platform) (invocation : InvocationState) :
    HeapProgram Unit := do
  enrolDevice P invocation
  freeInvocation (zeroed invocation)

/-! ## Generation -/

def buildAuthenticatorParametersFromDeserializedCleartextAndKeyAndMixin (P : Platform)
    (cleartext : DeserializedCleartext) (keyBytes : Bytes) (mixin : Option CString) :
    HeapProgram AuthenticatorParameters := do
  let decrypted ← plain (openEncryptedData P cleartext keyBytes)
  emit (filled .decrypted (sizeSub cleartext.encryptedData.length cryptoSecretboxMacbytes)
    decrypted.length)
  let secrets ← plain (lift (loadSecretsFromBytes P decrypted))
  emit [.free .decrypted]
  plain (lift (do
    let params ← parametersOfSecrets P secrets
    mixIntoSalt P params mixin))

def openKeyfile (P : Platform) (invocation : InvocationState) :
    HeapProgram (DeserializedCleartext × AuthenticatorParameters) := do
  let path ← plain (lift (dereference "fopen" invocation.file))
  let f ← plain (readFile P path)
  let cleartext ← plain (lift (loadCleartext P f))
  let keySpec ← makeKeySpecFromPassphraseAndCleartext P invocation.passphrase cleartext
  let keyBytes ← deriveKey P keySpec
  freeKeySpec keySpec
  let params ← buildAuthenticatorParametersFromDeserializedCleartextAndKeyAndMixin P cleartext
    keyBytes invocation.mixin
  freeKey
  return (cleartext, params)

/-- The parameters may still own the PIN buffer of an earlier device. -/
def pinForGeneration (P : Platform) (device : FidoDev) (invocation : InvocationState)
    (params : AuthenticatorParameters) : HeapProgram AuthenticatorParameters :=
  if device.authenticator.fidoDevHasPin = true then do
    plain (lift (mallocOrExit P (longestValidPin + 1) "authenticator PIN in enrol_device"))
    emit (params.authenticatorPin.elim [] fun _ => [.overwrite .authenticatorPin])
    emit [.allocate .authenticatorPin (longestValidPin + 1)]
    plain (lift (mallocOrExit P ((literal promptFormatString).length +
      device.authenticator.productString.length + device.authenticator.path.length + 1)
      "PIN prompt"))
    let pin ← authenticatorPin P device invocation (pinPrompt device.authenticator)
    return { params with authenticatorPin := some pin }
  else return params

def getSecretFromAuthenticatorParams (P : Platform) (device : FidoDev)
    (params : AuthenticatorParameters) : HeapProgram (ℤ × Bytes) := do
  let (result, secret) ← plain (Khefin.getSecretFromAuthenticatorParams P device params)
  emit (if secret = [] then [] else filled .secret secret.length secret.length)
  return (result, secret)

def askDevice (P : Platform) (device : FidoDev) (params : AuthenticatorParameters) :
    HeapProgram (Option AuthenticatorParameters) := do
  plain (lift (mallocOrExit P sizeofSecret "secret"))
  let (result, secret) ← getSecretFromAuthenticatorParams P device params
  plain (closeAndFreeDeviceIgnoringErrors device)
  if result = fidoOk then do
    plain (modify (World.printf (hexLine secret)))
    freeParameters params
    freeSecret secret
    return none
  else do
    freeSecret secret
    plain (warnAboutResult device result)
    return some params

def tryCandidate (P : Platform) (invocation : InvocationState) (device : FidoDev)
    (params : AuthenticatorParameters) : HeapProgram (Option AuthenticatorParameters) := do
  let params ← pinForGeneration P device invocation params
  if device.authenticator.fidoDevHasPin = true ∧
      params.authenticatorPin.map CString.length = some 0 then do
    plain (record (.diagnostic ⟨"No PIN entered; skipping this authenticator.\n", []⟩))
    plain (closeAndFreeDeviceIgnoringErrors device)
    return some params
  else askDevice P device params

def tryDevice (P : Platform) (invocation : InvocationState) (cleartext : DeserializedCleartext)
    (device : FidoDev) (params : AuthenticatorParameters) :
    HeapProgram (Option AuthenticatorParameters) := do
  plain (getDevice device)
  let deviceInfo ← plain (getDeviceInfo device)
  let matched ← plain (lift (deviceAaguidMatches P cleartext deviceInfo))
  if matched = false then return some params
  else if deviceSupportsHmacSecret deviceInfo = false then do
    plain (closeAndFreeDeviceIgnoringErrors device)
    return some params
  else tryCandidate P invocation device params

/-- A search that prints nothing ends with the destructors behind the loop. -/
def searchDevices (P : Platform) (invocation : InvocationState)
    (cleartext : DeserializedCleartext) :
    ℕ → List Authenticator → AuthenticatorParameters → HeapProgram Bool
  | _, [], params => do
    freeInvocation invocation
    freeParameters params
    return false
  | slot, authenticator :: devices, params => do
    match ← tryDevice P invocation cleartext ⟨slot, authenticator⟩ params with
    | none => return true
    | some params => searchDevices P invocation cleartext (slot + 1) devices params

def printSecretConsumingInvocation (P : Platform) (invocation : InvocationState)
    (devicesList : List Authenticator) : HeapProgram ExitStatus := do
  let (cleartext, params) ← openKeyfile P invocation
  let found ← searchDevices P invocation cleartext 0 devicesList params
  if found = true then return .success
  else if devicesList.length > 0 then return .noValidAuthenticator
  else return .noDevices

/-! ## The same runs as before -/

theorem erases_freeParameters (params : AuthenticatorParameters) :
    Erases (freeParameters params) (pure ()) := by
  unfold freeParameters
  split
  · exact erases_pure ()
  · exact erases_emit _

theorem erases_freeSecret (secret : Bytes) : Erases (freeSecret secret) (pure ()) :=
  erases_ite_self (erases_pure ()) (erases_emit _)

theorem erases_freeInvocation (invocation : InvocationState) :
    Erases (freeInvocation invocation) (pure ()) := by
  unfold freeInvocation
  split
  · exact erases_pure ()
  · exact erases_emit _

theorem erases_deriveKey (P : Platform) (keySpec : KeySpec) :
    Erases (deriveKey P keySpec) (Khefin.deriveKey P keySpec) :=
  erases_then (erases_plain _) fun _ => erases_note (erases_emit _) (erases_pure _)

theorem erases_makeKeySpec (P : Platform) (passphrase : Option CString)
    (cleartext : DeserializedCleartext) :
    Erases (makeKeySpecFromPassphraseAndCleartext P passphrase cleartext)
      (lift (Khefin.makeKeySpecFromPassphraseAndCleartext P passphrase cleartext)) :=
  erases_then (erases_plain _) fun _ => erases_note (erases_emit _) (erases_pure _)

theorem erases_makeNewKeySpec (P : Platform) (invocation : InvocationState) :
    Erases (makeNewKeySpecFromInvocation P invocation)
      (lift (Khefin.makeNewKeySpecFromInvocation P invocation)) :=
  erases_then (erases_plain _) fun _ => erases_note (erases_emit _) (erases_pure _)

theorem erases_authenticatorPin (P : Platform) (device : FidoDev) (invocation : InvocationState)
    (description : CString) :
    Erases (authenticatorPin P device invocation description)
      (Khefin.authenticatorPin P device invocation description) :=
  erases_then (erases_plain _) fun _ => erases_note (erases_emit _) (erases_pure _)

theorem erases_pinForEnrolment (P : Platform) (device : FidoDev) (invocation : InvocationState)
    (params : AuthenticatorParameters) :
    Erases (pinForEnrolment P device invocation params)
      (Khefin.pinForEnrolment P device invocation params) := by
  apply erases_ite
  · apply erases_bind (erases_plain _)
    intro _
    apply erases_note (erases_emit _)
    apply erases_bind (erases_authenticatorPin P device invocation _)
    intro pin
    exact erases_bind (erases_plain _) fun _ => erases_pure _
  · exact erases_pure _

theorem erases_enrolCredential (P : Platform) (invocation : InvocationState) :
    Erases (enrolCredential P invocation) (Khefin.enrolCredential P invocation) := by
  apply erases_bind (erases_plain _)
  intro path
  apply erases_bind (erases_plain _)
  intro _
  apply erases_bind (erases_plain _)
  intro deviceInfo
  apply erases_bind (erases_plain _)
  intro _
  apply erases_bind (erases_plain _)
  intro params
  apply erases_bind (erases_pinForEnrolment P _ invocation params)
  intro params
  apply erases_bind (erases_plain _)
  intro params
  exact erases_bind (erases_plain _) fun _ => erases_pure _

theorem erases_buildDeserializedCleartext (P : Platform) (params : AuthenticatorParameters)
    (keySpec : KeySpec) :
    Erases (buildDeserializedCleartextFromAuthenticatorParametersAndKeySpec P params keySpec)
      (Khefin.buildDeserializedCleartextFromAuthenticatorParametersAndKeySpec P params keySpec) := by
  apply erases_bind (erases_plain _)
  intro serialized
  apply erases_note (erases_emit _)
  apply erases_bind (erases_deriveKey P keySpec)
  intro keyBytes
  cases P.sodium.cryptoSecretboxEasy serialized P.entropy.nonce.toList keyBytes with
  | none => exact erases_plain _
  | some encryptedData =>
    exact erases_note (erases_emit _) (erases_note (erases_emit _) (erases_pure _))

theorem erases_wipeInvocation (invocation : InvocationState) :
    Erases (wipeInvocation invocation) (pure ()) :=
  erases_note (erases_emit _) (erases_emit _)

theorem erases_sealKeyfile (P : Platform) (invocation : InvocationState)
    (params : AuthenticatorParameters) (deviceInfo : CborInfo) :
    Erases (sealKeyfile P invocation params deviceInfo)
      (Khefin.sealKeyfile P invocation params deviceInfo) := by
  apply erases_bind (erases_makeNewKeySpec P invocation)
  intro keySpec
  apply erases_bind (erases_buildDeserializedCleartext P params keySpec)
  intro cleartext
  apply erases_note (erases_emit _)
  apply erases_bind (erases_plain _)
  intro _
  apply erases_note (erases_freeParameters params)
  apply erases_note (erases_wipeInvocation invocation)
  exact erases_bind (erases_plain _) fun _ => erases_plain _

theorem erases_enrolDevice (P : Platform) (invocation : InvocationState) :
    Erases (enrolDeviceAndFreeInvocation P invocation) (Khefin.enrolDevice P invocation) := by
  have henrol : Erases (enrolDevice P invocation) (Khefin.enrolDevice P invocation) := by
    apply erases_bind (erases_enrolCredential P invocation)
    intro r
    exact erases_bind (erases_sealKeyfile P invocation r.1 r.2) fun _ => erases_plain _
  exact erases_then henrol fun _ => erases_freeInvocation _

theorem erases_buildAuthenticatorParameters (P : Platform) (cleartext : DeserializedCleartext)
    (keyBytes : Bytes) (mixin : Option CString) :
    Erases (buildAuthenticatorParametersFromDeserializedCleartextAndKeyAndMixin P cleartext
        keyBytes mixin)
      (Khefin.buildAuthenticatorParametersFromDeserializedCleartextAndKeyAndMixin P cleartext
        keyBytes mixin) := by
  apply erases_bind (erases_plain _)
  intro decrypted
  apply erases_note (erases_emit _)
  rw [parametersOfDecrypted, lift_bind]
  apply erases_bind (erases_plain _)
  intro secrets
  exact erases_note (erases_emit _) (erases_plain _)

theorem erases_openKeyfile (P : Platform) (invocation : InvocationState) :
    Erases (openKeyfile P invocation) (Khefin.openKeyfile P invocation) := by
  apply erases_bind (erases_plain _)
  intro path
  apply erases_bind (erases_plain _)
  intro f
  apply erases_bind (erases_plain _)
  intro cleartext
  apply erases_bind (erases_makeKeySpec P _ cleartext)
  intro keySpec
  apply erases_bind (erases_deriveKey P keySpec)
  intro keyBytes
  apply erases_note (erases_emit _)
  apply erases_bind (erases_buildAuthenticatorParameters P cleartext keyBytes _)
  intro params
  exact erases_note (erases_emit _) (erases_pure _)

theorem erases_pinForGeneration (P : Platform) (device : FidoDev) (invocation : InvocationState)
    (params : AuthenticatorParameters) :
    Erases (pinForGeneration P device invocation params)
      (Khefin.pinForGeneration P device invocation params) := by
  apply erases_ite
  · apply erases_bind (erases_plain _)
    intro _
    apply erases_note (erases_emit _)
    apply erases_note (erases_emit _)
    apply erases_bind (erases_plain _)
    intro _
    exact erases_bind (erases_authenticatorPin P device invocation _) fun _ => erases_pure _
  · exact erases_pure _

theorem erases_getSecret (P : Platform) (device : FidoDev) (params : AuthenticatorParameters) :
    Erases (getSecretFromAuthenticatorParams P device params)
      (Khefin.getSecretFromAuthenticatorParams P device params) :=
  erases_then (erases_plain _) fun _ => erases_note (erases_emit _) (erases_pure _)

theorem erases_askDevice (P : Platform) (device : FidoDev) (params : AuthenticatorParameters) :
    Erases (askDevice P device params) (Khefin.askDevice P device params) := by
  apply erases_bind (erases_plain _)
  intro _
  apply erases_bind (erases_getSecret P device params)
  intro r
  apply erases_bind (erases_plain _)
  intro _
  apply erases_ite
  · apply erases_bind (erases_plain _)
    intro _
    apply erases_note (erases_freeParameters params)
    exact erases_note (erases_freeSecret r.2) (erases_pure _)
  · apply erases_note (erases_freeSecret r.2)
    exact erases_bind (erases_plain _) fun _ => erases_pure _

theorem erases_tryCandidate (P : Platform) (invocation : InvocationState) (device : FidoDev)
    (params : AuthenticatorParameters) :
    Erases (tryCandidate P invocation device params)
      (Khefin.tryCandidate P invocation device params) := by
  apply erases_bind (erases_pinForGeneration P device invocation params)
  intro params'
  apply erases_ite
  · apply erases_bind (erases_plain _)
    intro _
    exact erases_bind (erases_plain _) fun _ => erases_pure _
  · exact erases_askDevice P device params'

theorem erases_tryDevice (P : Platform) (invocation : InvocationState)
    (cleartext : DeserializedCleartext) (device : FidoDev) (params : AuthenticatorParameters) :
    Erases (tryDevice P invocation cleartext device params)
      (Khefin.tryDevice P invocation cleartext device params) := by
  apply erases_bind (erases_plain _)
  intro _
  apply erases_bind (erases_plain _)
  intro deviceInfo
  apply erases_bind (erases_plain _)
  intro matched
  apply erases_ite (erases_pure _)
  apply erases_ite
  · exact erases_bind (erases_plain _) fun _ => erases_pure _
  · exact erases_tryCandidate P invocation device params

theorem erases_searchDevices (P : Platform) (invocation : InvocationState)
    (cleartext : DeserializedCleartext) (devices : List Authenticator) (slot : ℕ)
    (params : AuthenticatorParameters) :
    Erases (searchDevices P invocation cleartext slot devices params)
      (Khefin.searchDevices P invocation cleartext slot devices params) := by
  induction devices generalizing slot params with
  | nil =>
    apply erases_note (erases_freeInvocation invocation)
    exact erases_note (erases_freeParameters params) (erases_pure _)
  | cons a devices ih =>
    apply erases_bind (erases_tryDevice P invocation cleartext ⟨slot, a⟩ params)
    intro r
    cases r with
    | none => exact erases_pure _
    | some params' => exact ih (slot + 1) params'

theorem erases_printSecret (P : Platform) (invocation : InvocationState)
    (devicesList : List Authenticator) :
    Erases (printSecretConsumingInvocation P invocation devicesList)
      (Khefin.printSecretConsumingInvocation P invocation devicesList) := by
  apply erases_bind (erases_openKeyfile P invocation)
  intro r
  apply erases_bind (erases_searchDevices P invocation r.1 devicesList 0 r.2)
  intro found
  apply erases_ite (erases_pure _)
  exact erases_ite (erases_pure _) (erases_pure _)

end Khefin.OnHeap
