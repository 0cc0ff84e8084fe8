import Khefin.Serialization

/-! # Generating a secret -/

namespace Khefin
open CLibrary ExitingPrograms

def sizeofSecret : ℕ := 16

/-! ## Opening the keyfile -/

/-- Everything before the search for a device. -/
def openKeyfile (P : Platform) (invocation : InvocationState) :
    Program (DeserializedCleartext × AuthenticatorParameters) := do
  let path ← lift (dereference "fopen" invocation.file)
  let f ← readFile P path
  let cleartext ← lift (loadCleartext P f)
  let keySpec ← lift (makeKeySpecFromPassphraseAndCleartext P invocation.passphrase cleartext)
  let keyBytes ← deriveKey P keySpec
  let params ← buildAuthenticatorParametersFromDeserializedCleartextAndKeyAndMixin P cleartext
    keyBytes invocation.mixin
  return (cleartext, params)

theorem keeps_openKeyfile {R : World → World → Prop} [IsPreorder World R]
    (hR : Tolerates Event.IsKeyWork R) (P : Platform) (invocation : InvocationState) :
    Keeps R (openKeyfile P invocation) := by
  refine keeps_bind (keeps_lift _) fun _ => keeps_bind (keeps_readFile _ _) fun _ => ?_
  refine keeps_bind (keeps_lift _) fun _ => keeps_bind (keeps_lift _) fun _ => ?_
  refine keeps_bind (keeps_deriveKey hR _ _) fun _ => keeps_bind ?_ fun _ => keeps_pure _
  exact keeps_bind (keeps_openEncryptedData hR _ _ _) fun _ => keeps_lift _

/-- No device is asked for anything while the keyfile is opened. -/
theorem quietly_openKeyfile (P : Platform) (invocation : InvocationState) :
    Keeps Quietly (openKeyfile P invocation) := keeps_openKeyfile tolerates_quietly P invocation

/-! ## One device -/

def deviceAaguidMatches (P : Platform) (cleartext : DeserializedCleartext) (deviceInfo : CborInfo) :
    Except Halt Bool :=
  if cleartext.deviceAaguid = [] then return true
  else if deviceInfo.aaguid.length ≠ cleartext.deviceAaguid.length then return false
  else do
    mallocOrExit P cleartext.deviceAaguid.length "device AAGUID"
    return (cleartext.deviceAaguid.zip deviceInfo.aaguid).all fun p => p.1 == p.2

def promptFormatString : String := "authenticator PIN for %s at %s"

def pinPrompt (authenticator : Authenticator) : CString :=
  literal "authenticator PIN for " ++ authenticator.productString ++ literal " at " ++
    authenticator.path

/-- The PIN stays in the parameters when the search goes on. -/
def pinForGeneration (P : Platform) (device : FidoDev) (invocation : InvocationState)
    (params : AuthenticatorParameters) : Program AuthenticatorParameters :=
  if device.authenticator.fidoDevHasPin = true then do
    lift (mallocOrExit P (longestValidPin + 1) "authenticator PIN in enrol_device")
    lift (mallocOrExit P ((literal promptFormatString).length +
      device.authenticator.productString.length + device.authenticator.path.length + 1)
      "PIN prompt")
    let pin ← authenticatorPin P device invocation (pinPrompt device.authenticator)
    return { params with authenticatorPin := some pin }
  else return params

def hexDigit (n : UInt8) : UInt8 := if n < 10 then 0x30 + n else 0x57 + n

/-- The secret as it is printed. -/
def hexLine (secret : Bytes) : Bytes :=
  secret.flatMap (fun b => [hexDigit (b / 16), hexDigit (b % 16)]) ++ [newline]

def warnAboutResult (device : FidoDev) (result : ℤ) : Program Unit :=
  if result = fidoErrNoCredentials then pure ()
  else if result = fidoErrPinInvalid then
    record (.diagnostic ⟨"Invalid PIN for %s at %s",
      [.string device.authenticator.productString, .string device.authenticator.path]⟩)
  else
    record (.diagnostic ⟨"%s at %s did not return a valid secret: %s (0x%x)",
      [.string device.authenticator.productString, .string device.authenticator.path,
        .fidoStrerr result, .number result]⟩)

/-- Ask a matching device; `none` once its secret is printed. -/
def askDevice (P : Platform) (device : FidoDev) (params : AuthenticatorParameters) :
    Program (Option AuthenticatorParameters) := do
  lift (mallocOrExit P sizeofSecret "secret")
  let (result, secret) ← getSecretFromAuthenticatorParams P device params
  closeAndFreeDeviceIgnoringErrors device
  if result = fidoOk then do
    modify (World.printf (hexLine secret))
    return none
  else do
    warnAboutResult device result
    return some params

/-- The rest of a turn for a device that matches and has the extension. -/
def tryCandidate (P : Platform) (invocation : InvocationState) (device : FidoDev)
    (params : AuthenticatorParameters) : Program (Option AuthenticatorParameters) := do
  let params ← pinForGeneration P device invocation params
  if device.authenticator.fidoDevHasPin = true ∧
      params.authenticatorPin.map CString.length = some 0 then do
    record (.diagnostic ⟨"No PIN entered; skipping this authenticator.\n", []⟩)
    closeAndFreeDeviceIgnoringErrors device
    return some params
  else askDevice P device params

/-- One turn of the loop, with the parameters for the next one unless a secret was printed. -/
def tryDevice (P : Platform) (invocation : InvocationState) (cleartext : DeserializedCleartext)
    (device : FidoDev) (params : AuthenticatorParameters) :
    Program (Option AuthenticatorParameters) := do
  getDevice device
  let deviceInfo ← getDeviceInfo device
  let matched ← lift (deviceAaguidMatches P cleartext deviceInfo)
  -- a device that does not match stays open
  if matched = false then return some params
  else if deviceSupportsHmacSecret deviceInfo = false then do
    closeAndFreeDeviceIgnoringErrors device
    return some params
  else tryCandidate P invocation device params

/-! ## The search -/

/-- The loop over the devices from position `slot` on; true once a secret is printed. -/
def searchDevices (P : Platform) (invocation : InvocationState)
    (cleartext : DeserializedCleartext) :
    ℕ → List Authenticator → AuthenticatorParameters → Program Bool
  | _, [], _ => return false
  | slot, authenticator :: devices, params => do
    match ← tryDevice P invocation cleartext ⟨slot, authenticator⟩ params with
    | none => return true
    | some params => searchDevices P invocation cleartext (slot + 1) devices params

def printSecretConsumingInvocation (P : Platform) (invocation : InvocationState)
    (devicesList : List Authenticator) : Program ExitStatus := do
  let (cleartext, params) ← openKeyfile P invocation
  let found ← searchDevices P invocation cleartext 0 devicesList params
  if found = true then return .success
  else if devicesList.length > 0 then return .noValidAuthenticator
  else return .noDevices

theorem printSecret_of_error {P : Platform} {invocation : InvocationState} {w w' : World} {h : Halt}
    (ho : openKeyfile P invocation w = .error h w') (devicesList : List Authenticator) :
    printSecretConsumingInvocation P invocation devicesList w = .error h w' := bind_of_error ho _

section Opened

variable {P : Platform} {invocation : InvocationState} {w w₁ w' : World}
  {cleartext : DeserializedCleartext} {params : AuthenticatorParameters}
  (ho : openKeyfile P invocation w = .ok (cleartext, params) w₁) {devicesList : List Authenticator}
include ho

theorem printSecret_of_search_error {h : Halt}
    (hs : searchDevices P invocation cleartext 0 devicesList params w₁ = .error h w') :
    printSecretConsumingInvocation P invocation devicesList w = .error h w' :=
  (bind_of_ok ho _).trans (bind_of_error hs _)

theorem printSecret_of_search_ok {found : Bool}
    (hs : searchDevices P invocation cleartext 0 devicesList params w₁ = .ok found w') :
    printSecretConsumingInvocation P invocation devicesList w =
      .ok (if found = true then .success
        else if devicesList.length > 0 then .noValidAuthenticator else .noDevices) w' := by
  refine (bind_of_ok ho _).trans ((bind_of_ok hs _).trans ?_)
  cases found
  · cases devicesList <;> rfl
  · rfl

end Opened

end Khefin
