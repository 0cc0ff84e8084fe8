import Khefin.CleartextCodec
import Khefin.Enrol
import Khefin.ReferencePlatform

/-! # Enrolments that reach the writing of the file

Such a run is a structure with its intermediate values. What it writes is the
encoding of a version 1 keyfile whose box holds the parameters the credential
was made with. -/

namespace Khefin
open CLibrary ExitingPrograms

structure EnrolRun (P : Platform) (invocation : InvocationState) where
  start : World
  afterDevice : World
  finish : World
  params : AuthenticatorParameters
  deviceInfo : CborInfo
  keySpec : KeySpec
  key : Bytes
  cleartext : DeserializedCleartext
  path : CString
  file : EncodedFile
  credential : enrolCredential P invocation start = .ok (params, deviceInfo) afterDevice
  keySpecMade : makeNewKeySpecFromInvocation P invocation = .ok keySpec
  derived : P.sodium.cryptoPwhash keySpec.pwhashInput = some key
  boxed : buildDeserializedCleartextFromAuthenticatorParametersAndKeySpec P params keySpec
    afterDevice = .ok cleartext finish
  aaguidAllocated : P.malloc deviceInfo.aaguid.length = true
  fileNamed : invocation.file = some path
  written : writeCleartext P { cleartext with deviceAaguid := deviceInfo.aaguid } path = .ok file

namespace EnrolRun

variable {P : Platform} {invocation : InvocationState}

/-! ## The runs of `enrol_device` -/

theorem sealKeyfile_eq (run : EnrolRun P invocation) :
    sealKeyfile P invocation run.params run.deviceInfo run.afterDevice = .ok run.file run.finish := by
  simp only [sealKeyfile, bind_eq_ok, lift_eq_ok, mallocOrExit_eq_ok, dereference_eq_ok]
  exact ⟨_, _, ⟨run.keySpecMade, rfl⟩, _, _, run.boxed, (), _, ⟨run.aaguidAllocated, rfl⟩, _, _,
    ⟨run.fileNamed, rfl⟩, run.written, rfl⟩

theorem of_sealKeyfile {w w₁ w₂ : World} {params : AuthenticatorParameters}
    {deviceInfo : CborInfo} {f : EncodedFile}
    (hc : enrolCredential P invocation w = .ok (params, deviceInfo) w₁)
    (hs : sealKeyfile P invocation params deviceInfo w₁ = .ok f w₂) :
    ∃ run : EnrolRun P invocation, run.start = w ∧ run.params = params ∧
      run.deviceInfo = deviceInfo ∧ run.file = f ∧ run.finish = w₂ := by
  simp only [sealKeyfile, bind_eq_ok, lift_eq_ok, mallocOrExit_eq_ok, dereference_eq_ok] at hs
  obtain ⟨keySpec, _, ⟨hk, rfl⟩, c, _, hb, _, _, ⟨ha, rfl⟩, path, _, ⟨hp, rfl⟩, hw, rfl⟩ := hs
  obtain ⟨-, key, -, hkey, -, -⟩ := buildDeserializedCleartext_spec hb
  exact ⟨⟨w, _, _, params, deviceInfo, keySpec, key, c, path, f, hc, hk, hkey, hb, ha, hp, hw⟩,
    rfl, rfl, rfl, rfl, rfl⟩

theorem enrolDevice_eq (run : EnrolRun P invocation) :
    enrolDevice P invocation run.start = writeFile P run.file run.finish := by
  rw [enrolDevice, bind_of_ok run.credential]
  exact bind_of_ok run.sealKeyfile_eq _

theorem quietly (run : EnrolRun P invocation) : Quietly run.start run.finish :=
  trans_of Quietly ((quietly_of_idly (idly_enrolCredential P invocation)).of_ok run.credential)
    ((quietly_sealKeyfile P invocation _ _).of_ok run.sealKeyfile_eq)

end EnrolRun

/-- Enrolling either stops before any file is touched or comes down to writing one file. -/
theorem enrolDevice_cases (P : Platform) (invocation : InvocationState) (w : World) :
    (∃ h w', enrolDevice P invocation w = .error h w' ∧ Quietly w w') ∨
      ∃ run : EnrolRun P invocation, run.start = w ∧
        enrolDevice P invocation w = writeFile P run.file run.finish := by
  cases hc : enrolCredential P invocation w with
  | error h w' =>
    exact Or.inl ⟨h, w', bind_of_error hc _, (quietly_of_idly (idly_enrolCredential P invocation)).of_error hc⟩
  | ok r w₁ =>
    obtain ⟨params, deviceInfo⟩ := r
    cases hs : sealKeyfile P invocation params deviceInfo w₁ with
    | error h w' =>
      refine Or.inl ⟨h, w', ?_, trans_of Quietly ((quietly_of_idly (idly_enrolCredential P invocation)).of_ok hc)
        ((quietly_sealKeyfile P invocation params deviceInfo).of_error hs)⟩
      rw [enrolDevice, bind_of_ok hc]
      exact bind_of_error hs _
    | ok f w₂ =>
      obtain ⟨run, rfl, -⟩ := EnrolRun.of_sealKeyfile hc hs
      exact Or.inr ⟨run, rfl, run.enrolDevice_eq⟩

namespace EnrolRun

variable {P : Platform} {invocation : InvocationState} (run : EnrolRun P invocation)

/-! ## What is written -/

/-- The structure that is written. -/
def keyfile : DeserializedCleartext :=
  { run.cleartext with deviceAaguid := run.deviceInfo.aaguid }

/-- The plaintext of the box. -/
def secrets : List Cbor.Item :=
  secretsItems (UInt8.ofNat serializationMaxVersion) run.params.relyingPartyId
    run.params.credentialId run.params.salt

theorem passphrase_eq : invocation.passphrase = some run.keySpec.passphrase :=
  (makeNewKeySpecFromInvocation_spec run.keySpecMade).1

/-- The details are those of the device named, so what all devices share is in them. -/
theorem deviceInfo_of_forall {info : CborInfo}
    (h : ∀ path, (P.authenticatorAt path).cborInfo = info) : run.deviceInfo = info := by
  obtain ⟨-, -, -, path, -, hinfo, -⟩ := enrolCredential_spec run.credential
  exact hinfo.trans (h path)

theorem path_eq (hf : P.cbor.FollowsFormat) : run.file.path = run.path :=
  (writeCleartext_spec hf run.written).1

theorem data_eq (hf : P.cbor.FollowsFormat) :
    run.file.data = Cbor.encode (serializeCleartextToCborV1 run.keyfile) :=
  (writeCleartext_spec hf run.written).2

theorem keyfile_eq : run.keyfile =
    { version := UInt8.ofNat serializationMaxVersion
      deviceAaguid := run.deviceInfo.aaguid
      kdfSalt := P.entropy.kdfSalt.toList
      opslimit := run.keySpec.opslimit
      memlimit := run.keySpec.memlimit
      algorithm := cryptoPwhashAlgArgon2i13
      nonce := P.entropy.nonce.toList
      encryptedData := run.cleartext.encryptedData } := by
  obtain ⟨-, hsalt, -, halg⟩ := makeNewKeySpecFromInvocation_spec run.keySpecMade
  obtain ⟨-, -, -, -, -, hc⟩ := buildDeserializedCleartext_spec run.boxed
  rw [keyfile, hc, hsalt, halg]

theorem keyfile_isV1 : run.keyfile.IsV1 := by
  rw [keyfile_eq]
  exact ⟨rfl, (by decide : 0 ≤ cryptoPwhashAlgArgon2i13),
    (by decide : cryptoPwhashAlgArgon2i13 < 65536)⟩

@[simp] theorem keyfile_deviceAaguid : run.keyfile.deviceAaguid = run.deviceInfo.aaguid := rfl

theorem keyfile_kdfSalt_length : run.keyfile.kdfSalt.length = cryptoPwhashSaltbytes := by
  simp [keyfile_eq]

theorem keyfile_nonce : run.keyfile.nonce = P.entropy.nonce.toList := by rw [keyfile_eq]

theorem keyfile_nonce_length : run.keyfile.nonce.length = cryptoSecretboxNoncebytes := by
  rw [keyfile_nonce, Vector.length_toList]
  rfl

theorem keyfile_pwhashInput :
    run.keyfile.pwhashInput run.keySpec.passphrase = run.keySpec.pwhashInput := by
  obtain ⟨-, hsalt, -, halg⟩ := makeNewKeySpecFromInvocation_spec run.keySpecMade
  rw [keyfile_eq, DeserializedCleartext.pwhashInput, KeySpec.pwhashInput, hsalt, halg]

/-- The box was sealed with the run's own nonce and key. -/
theorem easy_eq (hf : P.cbor.FollowsFormat) :
    P.sodium.cryptoSecretboxEasy (Cbor.encode (.array true run.secrets)) run.keyfile.nonce run.key =
      some run.keyfile.encryptedData := by
  obtain ⟨serialized, key, hs, hk, he, -⟩ := buildDeserializedCleartext_spec run.boxed
  obtain rfl : run.key = key := Option.some.inj (run.derived.symm.trans hk)
  rw [hf.serialize_sound hs] at he
  rw [keyfile_nonce]
  exact he

/-! ## Sizes -/

theorem length_le_data (hf : P.cbor.FollowsFormat) {b : Bytes} (hb : b ∈ run.keyfile.byteStrings) :
    b.length ≤ run.file.data.length := by
  rw [run.data_eq hf]
  exact length_le_encode hb

theorem keyfile_sized (hf : P.cbor.FollowsFormat) (h : run.file.data.length < sizeModulus) :
    run.keyfile.Sized := fun _ hb => (run.length_le_data hf hb).trans_lt h

theorem keyfile_fits (hf : P.cbor.FollowsFormat) {P' : Platform}
    (hm : P'.Allocates largestValidPayloadSizeBytes)
    (h : run.file.data.length ≤ largestValidPayloadSizeBytes) : run.keyfile.Fits P' :=
  ⟨hm _ (by decide), fun _ hb => Or.inr (hm _ ((run.length_le_data hf hb).trans h))⟩

/-- The file loads as the structure that was written. -/
theorem loadCleartext_eq (hf : P.cbor.FollowsFormat) {P' : Platform} (hf' : P'.cbor.FollowsFormat)
    (hm : P'.Allocates largestValidPayloadSizeBytes)
    (h : run.file.data.length ≤ largestValidPayloadSizeBytes) (path : CString) :
    loadCleartext P' { path, data := run.file.data } = .ok run.keyfile := by
  have hsized := run.keyfile_sized hf (h.trans_lt (by decide))
  rw [run.data_eq hf]
  exact loadCleartext_encode hf' run.keyfile_isV1 hsized (run.keyfile_fits hf hm h) path

end EnrolRun

/-! ## Such a run -/

/-- The bytes an enrolment would write, when it gets that far. -/
def enrolledData (P : Platform) (invocation : InvocationState) (w : World) : Option Bytes :=
  match enrolCredential P invocation w with
  | .ok (params, deviceInfo) w₁ => match sealKeyfile P invocation params deviceInfo w₁ with
    | .ok f _ => some f.data
    | .error _ _ => none
  | .error _ _ => none

theorem exists_run_of_enrolledData {P : Platform} {invocation : InvocationState} {w : World}
    {data : Bytes} (h : enrolledData P invocation w = some data) :
    ∃ run : EnrolRun P invocation, run.start = w ∧ run.file.data = data := by
  unfold enrolledData at h
  split at h
  · next hc =>
    split at h
    · next hs =>
      obtain ⟨run, hstart, -, -, rfl, -⟩ := EnrolRun.of_sealKeyfile hc hs
      exact ⟨run, hstart, Option.some.inj h⟩
    · simp at h
  · simp at h

theorem exists_run_of_enrolledData_le {P : Platform} {invocation : InvocationState} {w : World}
    {bound : ℕ} (h : (enrolledData P invocation w).any (fun data => decide (data.length ≤ bound)) =
      true) :
    ∃ run : EnrolRun P invocation, run.start = w ∧ run.file.data.length ≤ bound := by
  obtain ⟨data, hd, hl⟩ := (Option.any_eq_true _ _).mp h
  obtain ⟨run, hs, rfl⟩ := exists_run_of_enrolledData hd
  exact ⟨run, hs, of_decide_eq_true hl⟩

theorem exists_referenceRun :
    ∃ run : EnrolRun (referenceHost referenceDevice) referenceInvocation,
      run.start = emptyWorld ∧ run.file.data.length ≤ largestValidPayloadSizeBytes :=
  exists_run_of_enrolledData_le (by decide +kernel)

/-- The keyfile of every such run. -/
def referenceKeyfile : DeserializedCleartext where
  version := 1
  deviceAaguid := referenceDevice.cborInfo.aaguid
  kdfSalt := referenceEntropy.kdfSalt.toList
  opslimit := 3
  memlimit := cryptoPwhashMemlimitInteractive
  algorithm := cryptoPwhashAlgArgon2i13
  nonce := referenceEntropy.nonce.toList
  encryptedData := referenceBox.ciphertext

theorem keyfile_reference (run : EnrolRun (referenceHost referenceDevice) referenceInvocation) :
    run.keyfile = referenceKeyfile := by
  obtain ⟨path, -, hinfo, -⟩ := (enrolCredential_spec run.credential).2.2.2
  obtain ⟨hops, hmem⟩ := referenceBox.limits_of_derived run.derived
  have henc : run.cleartext.encryptedData = referenceBox.ciphertext :=
    referenceBox.ciphertext_of_easy (run.easy_eq referenceCbor_followsFormat)
  have hops' : run.keySpec.opslimit = 3 := hops
  have hmem' : run.keySpec.memlimit = cryptoPwhashMemlimitInteractive := hmem
  rw [run.keyfile_eq, hops', hmem', henc, hinfo]
  rfl

end Khefin
