import Khefin.Invocation

/-! # Talking to an authenticator -/

namespace Khefin
open CLibrary ExitingPrograms

def clientDataHashSizeBytes : ℕ := 32
def maxDevicesToList : ℕ := 64

structure AuthenticatorParameters where
  userId : Bytes
  clientDataHash : Bytes
  userName : CString
  userDisplayName : CString
  relyingPartyId : CString
  relyingPartyName : CString
  credentialId : Bytes
  salt : Bytes
  authenticatorPin : Option CString
  deriving DecidableEq

def sizeofDevicesList : ℕ := 16
def sizeofAuthenticatorParameters : ℕ := 104

/-! ## Devices -/

/-- A manifest that fails internally counts as an empty one. -/
def listDevices (P : Platform) : Except Halt (List Authenticator) := do
  mallocOrExit P sizeofDevicesList "list of devices"
  stopIf (P.fidoDevInfoNew = false) (.exit .outOfMemory ⟨"Unable to create new list of devices", []⟩)
  if P.fidoDevInfoManifest = fidoOk then return P.connected.take maxDevicesToList
  else do
    stopIf (P.fidoDevInfoManifest ≠ fidoErrInternal)
      (.exit .authenticatorError ⟨"Unable to get devices manifest: %s (0x%x)",
        [.fidoStrerr P.fidoDevInfoManifest, .number P.fidoDevInfoManifest]⟩)
    return []

def getDeviceEvenIfNotFido2 (device : FidoDev) : Program Unit := do
  let r := device.authenticator.fidoDevOpen
  lift (stopIf (device.authenticator.fidoDevNew = false)
    (.exit .outOfMemory ⟨"Unable to create device structure (out of memory?)", []⟩))
  lift (stopIf (r ≠ fidoOk)
    (.exit .authenticatorError ⟨"Unable to access device at %s: %s (0x%x)",
      [.string device.authenticator.path, .fidoStrerr r, .number r]⟩))
  record (.fidoDevOpen device.slot)

def getDevice (device : FidoDev) : Program Unit := do
  getDeviceEvenIfNotFido2 device
  lift (stopIf (device.authenticator.fidoDevIsFido2 = false)
    (.exit .authenticatorError ⟨"Device at %s is not a FIDO2 authenticator",
      [.string device.authenticator.path]⟩))

def deviceSupportsHmacSecret (deviceInfo : CborInfo) : Bool :=
  deviceInfo.extensions.any (· == literal "hmac-secret")

def getDeviceInfo (device : FidoDev) : Program CborInfo := do
  let r := device.authenticator.fidoDevGetCborInfo
  lift (stopIf (device.authenticator.fidoCborInfoNew = false)
    (.exit .outOfMemory ⟨"Unable to create device info structure (out of memory?)", []⟩))
  lift (stopIf (r ≠ fidoOk)
    (.exit .authenticatorError ⟨"Unable to get info from device: %s (0x%x)",
      [.fidoStrerr r, .number r]⟩))
  return device.authenticator.cborInfo

def closeAndFreeDeviceIgnoringErrors (device : FidoDev) : Program Unit := do
  let r := device.authenticator.fidoDevClose
  record (.fidoDevClose device.slot)
  if r = fidoOk then pure ()
  else record (.diagnostic ⟨"Unable to close device: %s (0x%x)", [.fidoStrerr r, .number r]⟩)

/-- Close the device and leave. -/
def closeAndExit {α : Type} (device : FidoDev) (status : ExitStatus) (format : String)
    (arguments : List Argument := []) : Program α := do
  closeAndFreeDeviceIgnoringErrors device
  lift (errx status format arguments)

/-- The check behind each call that sets up a credential or an assertion. -/
def requireOk (device : FidoDev) (r : ℤ) (format : String) : Program Unit :=
  if r = fidoOk then pure ()
  else closeAndExit device .authenticatorError format [.fidoStrerr r, .number r]

section Routine

variable {R : World → World → Prop} [IsPreorder World R] (hR : Tolerates Event.IsRoutine R)
include hR

theorem keeps_getDevice (device : FidoDev) : Keeps R (getDevice device) := by
  refine keeps_bind ?_ fun _ => keeps_lift _
  refine keeps_bind (keeps_lift _) fun _ => keeps_bind (keeps_lift _) fun _ => ?_
  exact keeps_record hR trivial

theorem keeps_closeAndFreeDeviceIgnoringErrors (device : FidoDev) :
    Keeps R (closeAndFreeDeviceIgnoringErrors device) :=
  keeps_bind (keeps_record hR trivial) fun _ =>
    keeps_ite (fun _ => keeps_pure _) fun _ => keeps_record hR trivial

theorem keeps_closeAndExit {α : Type} (device : FidoDev) (status : ExitStatus) (format : String)
    (arguments : List Argument) :
    Keeps R (closeAndExit (α := α) device status format arguments) :=
  keeps_bind (keeps_closeAndFreeDeviceIgnoringErrors hR device) fun _ => keeps_lift _

theorem keeps_requireOk (device : FidoDev) (r : ℤ) (format : String) :
    Keeps R (requireOk device r format) :=
  keeps_ite (fun _ => keeps_pure _) fun _ => keeps_closeAndExit hR _ _ _ _

end Routine

theorem keeps_getDeviceInfo {R : World → World → Prop} [IsPreorder World R] (device : FidoDev) :
    Keeps R (getDeviceInfo device) :=
  keeps_bind (keeps_lift _) fun _ => keeps_bind (keeps_lift _) fun _ => keeps_pure _

theorem getDevice_eq_ok {device : FidoDev} {w w' : World} {u : Unit}
    (h : getDevice device w = .ok u w') :
    device.authenticator.fidoDevIsFido2 = true ∧ w' = w.record (.fidoDevOpen device.slot) := by
  simp only [getDevice, getDeviceEvenIfNotFido2, bind_eq_ok, lift_eq_ok, record_apply] at h
  obtain ⟨_, _, ⟨_, _, ⟨-, rfl⟩, _, _, ⟨-, rfl⟩, hrecord⟩, hfido2, rfl⟩ := h
  obtain ⟨-, rfl⟩ := EStateM.Result.ok.inj hrecord
  exact ⟨by simpa using hfido2, rfl⟩

theorem getDeviceInfo_eq_ok {device : FidoDev} {info : CborInfo} {w w' : World}
    (h : getDeviceInfo device w = .ok info w') :
    info = device.authenticator.cborInfo ∧ w' = w := by
  simp only [getDeviceInfo, bind_eq_ok, lift_eq_ok] at h
  obtain ⟨_, _, ⟨-, rfl⟩, _, _, ⟨-, rfl⟩, h⟩ := h
  obtain ⟨rfl, rfl⟩ := EStateM.Result.ok.inj h
  exact ⟨rfl, rfl⟩

theorem idly_closeAndFreeDeviceIgnoringErrors (device : FidoDev) :
    Keeps Idly (closeAndFreeDeviceIgnoringErrors device) :=
  keeps_closeAndFreeDeviceIgnoringErrors tolerates_idly device

/-- Leaving closes the device first. -/
theorem closeAndExit_run {α : Type} (device : FidoDev) (status : ExitStatus) (format : String)
    (arguments : List Argument) (w : World) :
    ∃ w', closeAndExit (α := α) device status format arguments w =
      .error (.exit status ⟨format, arguments⟩) w' := by
  obtain ⟨w', h⟩ : ∃ w', closeAndFreeDeviceIgnoringErrors device w = .ok () w' := by
    simp only [closeAndFreeDeviceIgnoringErrors, bind_apply, record_apply]
    split <;> exact ⟨_, rfl⟩
  exact ⟨w', by rw [closeAndExit, bind_of_ok h]; rfl⟩

theorem closeAndExit_ne_ok {α : Type} {device : FidoDev} {status : ExitStatus} {format : String}
    {arguments : List Argument} {w w' : World} {a : α} :
    closeAndExit device status format arguments w ≠ .ok a w' := by
  obtain ⟨w'', h⟩ := closeAndExit_run (α := α) device status format arguments w
  simp [h]

theorem requireOk_eq_ok {device : FidoDev} {r : ℤ} {format : String} {w w' : World} {u : Unit} :
    requireOk device r format w = .ok u w' ↔ r = fidoOk ∧ w' = w := by
  unfold requireOk
  split
  · simp_all [eq_comm]
  · simp_all [closeAndExit_ne_ok]

/-! ## Parameters -/

/-- Placeholders of the structure that no authenticator uses. -/
def letterA : CString := literal "A"

/-- The buffers allocated here are filled by the callers, the relying party id as well. -/
def allocateParametersExceptRpid (P : Platform) (credentialIdSize saltSize : ℕ) :
    Except Halt AuthenticatorParameters := do
  mallocOrExit P sizeofAuthenticatorParameters "authenticator parameters"
  mallocUnlessEmpty P credentialIdSize "credential id in authenticator parameters"
  mallocUnlessEmpty P saltSize "salt in authenticator parameters"
  let userId := if P.malloc 1 then [0] else []
  mallocOrExit P clientDataHashSizeBytes "client data hash in authenticator parameters"
  -- the results of calloc are written to unchecked
  stopIf (P.malloc 2 = false) (.fault "user_name[0]")
  return {
    userId
    clientDataHash := List.replicate clientDataHashSizeBytes 0x41
    userName := letterA
    userDisplayName := letterA
    relyingPartyId := literal ""
    relyingPartyName := letterA
    credentialId := List.replicate credentialIdSize 0
    salt := List.replicate saltSize 0
    authenticatorPin := none }

/-! ## PINs -/

/-- The PIN in the buffer of a device: one given beforehand is copied without a terminator
when it fills the buffer. -/
def authenticatorPin (P : Platform) (device : FidoDev) (invocation : InvocationState)
    (description : CString) : Program CString :=
  match invocation.authenticatorPin with
  | none => promptForSecret P description longestValidPin
  | some pin => return cString (strncpy device.authenticator.pinMemory pin longestValidPin)

theorem keeps_authenticatorPin {R : World → World → Prop} [IsPreorder World R] {P : Platform}
    {description : CString} (hprompt : Keeps R (promptForSecret P description longestValidPin))
    (device : FidoDev) (invocation : InvocationState) :
    Keeps R (authenticatorPin P device invocation description) := by
  unfold authenticatorPin
  split
  · exact hprompt
  · exact keeps_pure _

/-! ## Credentials and assertions -/

def AuthenticatorParameters.credentialRequest (params : AuthenticatorParameters) :
    CredentialRequest where
  relyingPartyId := params.relyingPartyId
  relyingPartyName := params.relyingPartyName
  userId := params.userId
  userName := params.userName
  userDisplayName := params.userDisplayName
  clientDataHash := params.clientDataHash
  pin := params.authenticatorPin

def AuthenticatorParameters.assertionRequest (params : AuthenticatorParameters) :
    AssertionRequest where
  salt := params.salt
  relyingPartyId := params.relyingPartyId
  clientDataHash := params.clientDataHash
  credentialId := params.credentialId
  pin := params.authenticatorPin

def createCredential (P : Platform) (device : FidoDev) (params : AuthenticatorParameters) :
    Program AuthenticatorParameters := do
  let setup := device.authenticator.credentialSetup
  lift (stopIf (device.authenticator.fidoCredNew = false)
    (.exit .outOfMemory ⟨"Unable to create credential structure (out of memory?)", []⟩))
  requireOk device setup.setExtensions "Unable to set extension to hmac-secret: %s (0x%x)"
  requireOk device setup.setRp "Unable to set relying party: %s (0x%x)"
  requireOk device setup.setType "Unable to set credential type: %s (0x%x)"
  requireOk device setup.setUser "Unable to set user info: %s (0x%x)"
  requireOk device setup.setClientdataHash "Unable to set client data hash: %s (0x%x)"
  requireOk device setup.setRk "Unable to disable use of resident key: %s (0x%x)"
  record (.fidoDevMakeCred device.slot params.credentialRequest)
  let (r, credentialId) := device.authenticator.fidoDevMakeCred params.credentialRequest
  if r ≠ fidoOk then
    if r = fidoErrPinInvalid then closeAndExit device .badPin "Invalid authenticator PIN"
    else
      closeAndExit device .authenticatorError "Unable to create credential on FIDO2 device: %s (0x%x)"
        [.fidoStrerr r, .number r]
  else if credentialId = [] then
    closeAndExit device .authenticatorError "Unable to read credential ID"
  else do
    lift (mallocOrExit P credentialId.length "credential id in authenticator parameters")
    return { params with credentialId }

/-- The one call that makes the credential is made of a world that nothing has happened to. -/
theorem related_createCredential {R : World → World → Prop} [IsPreorder World R]
    (hR : Tolerates Event.IsRoutine R) (P : Platform) {device : FidoDev}
    {params : AuthenticatorParameters} {w : World}
    (h : R w (w.record (.fidoDevMakeCred device.slot params.credentialRequest))) :
    R w (finalState (createCredential P device params w)) := by
  have hexit : ∀ status format arguments,
      Keeps R (closeAndExit (α := AuthenticatorParameters) device status format arguments) :=
    fun _ _ _ => keeps_closeAndExit hR _ _ _ _
  refine related_bind (keeps_lift _ w) fun _ w₁ hw₁ => ?_
  obtain ⟨-, rfl⟩ := lift_eq_ok.mp hw₁
  iterate 6
    refine related_bind (keeps_requireOk hR _ _ _ _) fun _ _ hw => ?_
    obtain ⟨-, rfl⟩ := requireOk_eq_ok.mp hw
  refine related_bind h fun _ w₁ _ => ?_
  refine keeps_ite (fun _ => keeps_ite (fun _ => hexit _ _ _) fun _ => hexit _ _ _) (fun _ => ?_) w₁
  refine keeps_ite (fun _ => hexit _ _ _) fun _ => ?_
  exact keeps_bind (keeps_lift _) fun _ => keeps_pure _

/-- All that creating a credential can return. -/
theorem createCredential_spec {P : Platform} {device : FidoDev}
    {params params' : AuthenticatorParameters} {w w' : World}
    (h : createCredential P device params w = .ok params' w') :
    params'.credentialId ≠ [] ∧ params' = { params with credentialId := params'.credentialId } ∧
      device.authenticator.fidoDevMakeCred params.credentialRequest =
        (fidoOk, params'.credentialId) ∧
      w' = w.record (.fidoDevMakeCred device.slot params.credentialRequest) := by
  simp only [createCredential, bind_eq_ok, lift_eq_ok, requireOk_eq_ok, record_apply] at h
  obtain ⟨_, _, ⟨-, rfl⟩, _, _, ⟨-, rfl⟩, _, _, ⟨-, rfl⟩, _, _, ⟨-, rfl⟩, _, _, ⟨-, rfl⟩,
    _, _, ⟨-, rfl⟩, _, _, ⟨-, rfl⟩, _, _, hw, h⟩ := h
  obtain rfl := (EStateM.Result.ok.inj hw).2
  split at h
  · split at h <;> exact absurd h closeAndExit_ne_ok
  · next hr =>
    split at h
    · exact absurd h closeAndExit_ne_ok
    · next hid =>
      simp only [bind_eq_ok, lift_eq_ok] at h
      obtain ⟨_, _, ⟨-, rfl⟩, h⟩ := h
      obtain ⟨rfl, rfl⟩ := EStateM.Result.ok.inj h
      exact ⟨hid, rfl, Prod.ext (not_not.mp hr) rfl, rfl⟩

/-- Answers after which the search goes on with the next device. -/
def isSoftError (r : ℤ) : Bool :=
  r == fidoErrInvalidCredential || r == fidoErrUserActionPending || r == fidoErrNoCredentials ||
    r == fidoErrActionTimeout || r == fidoErrPinInvalid

/-- The return value of the assertion, with the secret when it is `FIDO_OK`. -/
def getSecretFromAuthenticatorParams (P : Platform) (device : FidoDev)
    (params : AuthenticatorParameters) : Program (ℤ × Bytes) := do
  let setup := device.authenticator.assertionSetup
  if params.credentialId = [] then
    (closeAndExit device .programmerError "BUG (%s:%d): No credential ID supplied"
      [.text "get_secret_from_authenticator_params", .number 343])
  else if params.salt = [] then
    (closeAndExit device .programmerError "BUG (%s:%d): No salt supplied"
      [.text "get_secret_from_authenticator_params", .number 349])
  else if device.authenticator.fidoAssertNew = false then
    closeAndExit device .outOfMemory "Unable to create assertion structure (out of memory?)"
  else do
    requireOk device setup.setHmacSalt "Unable to set extension to HMAC salt: %s (0x%x)"
    requireOk device setup.setExtensions "Unable to set extension to hmac-secret: %s (0x%x)"
    requireOk device setup.setRp "Unable to set relying party: %s (0x%x)"
    requireOk device setup.setClientdataHash "Unable to set client data hash: %s (0x%x)"
    requireOk device setup.allowCred "Unable to set credential ID: %s (0x%x)"
    requireOk device setup.setUp "Unable to run assert_set_up(): %s (0x%x)"
    record (.fidoDevGetAssert device.slot params.assertionRequest)
    let (r, secret) := device.authenticator.fidoDevGetAssert params.assertionRequest
    if r ≠ fidoOk then
      if isSoftError r then return (r, [])
      else
        closeAndExit device .authenticatorError "Unable to get secret from device: %s (0x%x)"
          [.fidoStrerr r, .number r]
    else if secret = [] then
      closeAndExit device .authenticatorError "Unable to read credential ID"
    else do
      lift (mallocOrExit P secret.length "secret")
      return (fidoOk, secret)

/-- An answer that is returned is the device's own, with a secret exactly when it is `FIDO_OK`. -/
theorem getSecret_spec {P : Platform} {device : FidoDev} {params : AuthenticatorParameters}
    {w w' : World} {r : ℤ} {secret : Bytes}
    (h : getSecretFromAuthenticatorParams P device params w = .ok (r, secret) w') :
    (params.credentialId ≠ [] ∧ params.salt ≠ []) ∧
      w' = w.record (.fidoDevGetAssert device.slot params.assertionRequest) ∧
      r = (device.authenticator.fidoDevGetAssert params.assertionRequest).1 ∧
      (r = fidoOk ↔ secret ≠ []) ∧
      (r = fidoOk →
        secret = (device.authenticator.fidoDevGetAssert params.assertionRequest).2) := by
  unfold getSecretFromAuthenticatorParams at h
  split at h
  · exact absurd h closeAndExit_ne_ok
  next hid =>
  split at h
  · exact absurd h closeAndExit_ne_ok
  next hsalt =>
  split at h
  · exact absurd h closeAndExit_ne_ok
  simp only [bind_eq_ok, requireOk_eq_ok, record_apply] at h
  obtain ⟨_, _, ⟨-, rfl⟩, _, _, ⟨-, rfl⟩, _, _, ⟨-, rfl⟩, _, _, ⟨-, rfl⟩, _, _, ⟨-, rfl⟩,
    _, _, ⟨-, rfl⟩, _, _, hw, h⟩ := h
  obtain rfl := (EStateM.Result.ok.inj hw).2
  split at h
  · next hr =>
    split at h
    · obtain ⟨hpair, rfl⟩ := EStateM.Result.ok.inj h
      obtain ⟨rfl, rfl⟩ := Prod.mk.inj hpair
      exact ⟨⟨hid, hsalt⟩, rfl, rfl, by simpa using hr, fun hok => absurd hok hr⟩
    · exact absurd h closeAndExit_ne_ok
  · next hr =>
    split at h
    · exact absurd h closeAndExit_ne_ok
    · next hsecret =>
      simp only [bind_eq_ok, lift_eq_ok] at h
      obtain ⟨_, _, ⟨-, rfl⟩, h⟩ := h
      obtain ⟨hpair, rfl⟩ := EStateM.Result.ok.inj h
      obtain ⟨rfl, rfl⟩ := Prod.mk.inj hpair
      exact ⟨⟨hid, hsalt⟩, rfl, (not_not.mp hr).symm, by simpa using hsecret, fun _ => rfl⟩

end Khefin
