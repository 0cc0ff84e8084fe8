import Khefin.Serialization

/-! # Enrolment -/

namespace Khefin
open CLibrary ExitingPrograms

def rpidEncodingTable : Vector UInt8 rpidEncodingTableSize := #v[
  0x61, 0x62, 0x63, 0x64, 0x65, 0x66, 0x67, 0x68,
  0x69, 0x6a, 0x6b, 0x6c, 0x6d, 0x6e, 0x6f, 0x70,
  0x71, 0x72, 0x73, 0x74, 0x75, 0x76, 0x77, 0x78,
  0x79, 0x7a, 0x32, 0x33, 0x34, 0x35, 0x36, 0x37]

def relyingPartySuffix : CString := literal ".v1.fido2-hmac-secret.localhost"

def newRelyingPartyId (P : Platform) : CString :=
  cString (P.entropy.relyingPartyId.toList.map fun i => rpidEncodingTable[i]) ++ relyingPartySuffix

/-- Parameters with a random salt and relying party id, and no credential yet. -/
def newAuthenticatorParameters (P : Platform) : Except Halt AuthenticatorParameters := do
  let params ← allocateParametersExceptRpid P 0 saltSizeBytes
  mallocOrExit P (relyingPartyIdSize + relyingPartySuffix.length + 1)
    "relying party id in authenticator parameters"
  return { params with
    salt := P.entropy.hmacSalt.toList, relyingPartyId := newRelyingPartyId P }

def pinForEnrolment (P : Platform) (device : FidoDev) (invocation : InvocationState)
    (params : AuthenticatorParameters) : Program AuthenticatorParameters :=
  if device.authenticator.fidoDevHasPin = true then do
    lift (mallocOrExit P (longestValidPin + 1) "authenticator PIN in enrol_device")
    let pin ← authenticatorPin P device invocation (literal "authenticator PIN")
    lift (stopIf (pin.length = 0) (.exit .badPin ⟨"No PIN specified, unable to continue.", []⟩))
    return { params with authenticatorPin := some pin }
  else return params

/-- The part of `enrol_device` that talks to the device. -/
def enrolCredential (P : Platform) (invocation : InvocationState) :
    Program (AuthenticatorParameters × CborInfo) := do
  let path ← lift (dereference "fido_dev_open" invocation.device)
  let device : FidoDev := ⟨0, P.authenticatorAt path⟩
  getDevice device
  let deviceInfo ← getDeviceInfo device
  lift (stopIf (deviceSupportsHmacSecret deviceInfo = false)
    (.exit .authenticatorError
      ⟨"Device at %s does not support the required hmac-secret extension", [.string path]⟩))
  let params ← lift (newAuthenticatorParameters P)
  let params ← pinForEnrolment P device invocation params
  let params ← createCredential P device params
  closeAndFreeDeviceIgnoringErrors device
  return (params, deviceInfo)

/-- The part of `enrol_device` that makes the keyfile. -/
def sealKeyfile (P : Platform) (invocation : InvocationState) (params : AuthenticatorParameters)
    (deviceInfo : CborInfo) : Program EncodedFile := do
  let keySpec ← lift (makeNewKeySpecFromInvocation P invocation)
  let cleartext ← buildDeserializedCleartextFromAuthenticatorParametersAndKeySpec P params keySpec
  lift (mallocOrExit P deviceInfo.aaguid.length "device AAGUID")
  let path ← lift (dereference "strdup" invocation.file)
  lift (writeCleartext P { cleartext with deviceAaguid := deviceInfo.aaguid } path)

def enrolDevice (P : Platform) (invocation : InvocationState) : Program Unit := do
  let (params, deviceInfo) ← enrolCredential P invocation
  let f ← sealKeyfile P invocation params deviceInfo
  writeFile P f

/-! ## What a credential is made with -/

theorem newAuthenticatorParameters_spec {P : Platform} {params : AuthenticatorParameters}
    (h : newAuthenticatorParameters P = .ok params) :
    params.salt = P.entropy.hmacSalt.toList ∧ params.relyingPartyId = newRelyingPartyId P := by
  simp only [newAuthenticatorParameters, except_bind_eq_ok, except_pure, Except.ok.injEq] at h
  obtain ⟨_, -, _, -, rfl⟩ := h
  exact ⟨rfl, rfl⟩

/-- Only the PIN is filled in. -/
theorem pinForEnrolment_spec {P : Platform} {device : FidoDev} {invocation : InvocationState}
    {params params' : AuthenticatorParameters} {w w' : World}
    (h : pinForEnrolment P device invocation params w = .ok params' w') :
    params' = { params with authenticatorPin := params'.authenticatorPin } := by
  unfold pinForEnrolment at h
  split at h
  · simp only [bind_eq_ok, lift_eq_ok] at h
    obtain ⟨_, _, -, _, _, -, _, _, -, h⟩ := h
    obtain ⟨rfl, -⟩ := EStateM.Result.ok.inj h
    rfl
  · obtain ⟨rfl, -⟩ := EStateM.Result.ok.inj h
    rfl

/-- The parameters that come back are those the credential was made with, and its id. -/
theorem enrolCredential_spec {P : Platform} {invocation : InvocationState}
    {params : AuthenticatorParameters} {deviceInfo : CborInfo} {w w' : World}
    (h : enrolCredential P invocation w = .ok (params, deviceInfo) w') :
    params.salt = P.entropy.hmacSalt.toList ∧ params.relyingPartyId = newRelyingPartyId P ∧
      params.credentialId ≠ [] ∧
      ∃ path, invocation.device = some path ∧ deviceInfo = (P.authenticatorAt path).cborInfo ∧
        (P.authenticatorAt path).fidoDevMakeCred params.credentialRequest =
          (fidoOk, params.credentialId) ∧
        .fidoDevMakeCred 0 params.credentialRequest ∈ w'.trace := by
  simp only [enrolCredential, bind_eq_ok, lift_eq_ok] at h
  obtain ⟨path, _, ⟨hp, rfl⟩, _, _, -, info, _, hi, _, _, ⟨-, rfl⟩, p₁, _, ⟨h₁, rfl⟩, p₂, _, h₂,
    p₃, w₃, h₃, _, w₄, h₄, h⟩ := h
  obtain ⟨he, rfl⟩ := EStateM.Result.ok.inj h
  obtain ⟨rfl, rfl⟩ := Prod.mk.inj he
  obtain ⟨hs, hr⟩ := newAuthenticatorParameters_spec h₁
  have e₂ := pinForEnrolment_spec h₂
  obtain ⟨hid, e₃, hmake, rfl⟩ := createCredential_spec h₃
  have hinfo : info = (P.authenticatorAt path).cborInfo := (getDeviceInfo_eq_ok hi).1
  have hpath : invocation.device = some path := dereference_eq_ok.mp hp
  have hreq : p₃.credentialRequest = p₂.credentialRequest := by rw [e₃]; rfl
  obtain ⟨-, -, events, htrace, -⟩ := (idly_closeAndFreeDeviceIgnoringErrors _).of_ok h₄
  refine ⟨by rw [e₃, e₂, hs], by rw [e₃, e₂, hr], hid, path, hpath, hinfo, ?_, ?_⟩
  · rw [hreq]
    exact hmake
  · rw [hreq, htrace]
    simp

/-! ## Nothing is written before the end -/

theorem keeps_pinForEnrolment {R : World → World → Prop} [IsPreorder World R] {P : Platform}
    (hprompt : Keeps R (promptForSecret P (literal "authenticator PIN") longestValidPin))
    (device : FidoDev) (invocation : InvocationState) (params : AuthenticatorParameters) :
    Keeps R (pinForEnrolment P device invocation params) := by
  refine keeps_ite (fun _ => ?_) fun _ => keeps_pure _
  refine keeps_bind (keeps_lift _) fun _ => ?_
  refine keeps_bind (keeps_authenticatorPin hprompt _ _) fun _ => ?_
  exact keeps_bind (keeps_lift _) fun _ => keeps_pure _

/-- What is kept by asking for the PIN and by the one credential is kept by all of it. -/
theorem related_enrolCredential {R : World → World → Prop} [IsPreorder World R]
    (hR : Tolerates Event.IsRoutine R) {P : Platform} {invocation : InvocationState} {w : World}
    (hpin : ∀ path params, invocation.device = some path →
      R (w.record (.fidoDevOpen 0)) (finalState (pinForEnrolment P ⟨0, P.authenticatorAt path⟩
        invocation params (w.record (.fidoDevOpen 0)))))
    (hmake : ∀ path params params' w', invocation.device = some path →
      pinForEnrolment P ⟨0, P.authenticatorAt path⟩ invocation params (w.record (.fidoDevOpen 0)) =
        .ok params' w' →
      R w' (w'.record (.fidoDevMakeCred 0 params'.credentialRequest))) :
    R w (finalState (enrolCredential P invocation w)) := by
  refine related_bind (keeps_lift _ w) fun path w₀ hpath => ?_
  obtain ⟨hdereference, rfl⟩ := lift_eq_ok.mp hpath
  have hdevice := dereference_eq_ok.mp hdereference
  refine related_bind (keeps_getDevice hR _ w₀) fun _ w₁ hopened => ?_
  obtain ⟨-, rfl⟩ := getDevice_eq_ok hopened
  refine related_bind (keeps_getDeviceInfo _ _) fun info w₁ hinfo => ?_
  obtain ⟨-, rfl⟩ := getDeviceInfo_eq_ok hinfo
  refine related_bind (keeps_lift _ _) fun _ w₁ hsupported => ?_
  obtain ⟨-, rfl⟩ := lift_eq_ok.mp hsupported
  refine related_bind (keeps_lift _ _) fun params w₁ hparams => ?_
  obtain ⟨-, rfl⟩ := lift_eq_ok.mp hparams
  refine related_bind (hpin path params hdevice) fun params' w₂ hpinned => ?_
  refine related_bind (related_createCredential hR P ?_) fun _ w₃ _ => ?_
  · exact hmake path params params' w₂ hdevice hpinned
  · exact keeps_bind (keeps_closeAndFreeDeviceIgnoringErrors hR _) (fun _ => keeps_pure _) w₃

theorem idly_enrolCredential (P : Platform) (invocation : InvocationState) :
    Keeps Idly (enrolCredential P invocation) := by
  intro w
  refine related_enrolCredential tolerates_idly (fun path params _ => ?_) ?_
  · exact keeps_pinForEnrolment (idly_promptForSecret P _ _) _ _ _ _
  · exact fun _ _ _ w' _ _ => silently_record trivial w'

theorem keeps_sealKeyfile {R : World → World → Prop} [IsPreorder World R]
    (hR : Tolerates Event.IsKeyWork R) (P : Platform) (invocation : InvocationState)
    (params : AuthenticatorParameters) (deviceInfo : CborInfo) :
    Keeps R (sealKeyfile P invocation params deviceInfo) := by
  refine keeps_bind (keeps_lift _) fun _ => ?_
  refine keeps_bind (keeps_buildDeserializedCleartext hR _ _ _) fun _ => ?_
  refine keeps_bind (keeps_lift _) fun _ => keeps_bind (keeps_lift _) fun _ => ?_
  exact keeps_lift _

theorem quietly_sealKeyfile (P : Platform) (invocation : InvocationState)
    (params : AuthenticatorParameters) (deviceInfo : CborInfo) :
    Keeps Quietly (sealKeyfile P invocation params deviceInfo) :=
  keeps_sealKeyfile tolerates_quietly P invocation params deviceInfo

end Khefin
