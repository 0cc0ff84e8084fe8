import Khefin.CommandLines
import Khefin.KeyfileStorage

/-! # The device AAGUID in a keyfile

The parser records that the AAGUID is to be left out, and enrolment writes it all the same. -/

namespace Khefin
open CLibrary ExitingPrograms

/-- Every device has this AAGUID, and nothing else is different. -/
def Platform.withAaguid (P : Platform) (aaguid : Bytes) : Platform :=
  { P with
    authenticatorAt := fun path => { P.authenticatorAt path with
      cborInfo := { (P.authenticatorAt path).cborInfo with aaguid } } }

/-- What is required of an enrolment whose file loads as `c`. -/
structure ObfuscationExact {P : Platform} {invocation : InvocationState}
    (run : EnrolRun P invocation) (c : DeserializedCleartext) : Prop where
  empty_iff : c.deviceAaguid = [] ↔ invocation.obfuscateDeviceInfo = true
  kept : invocation.obfuscateDeviceInfo = false → c.deviceAaguid = run.deviceInfo.aaguid
  indistinguishable : invocation.obfuscateDeviceInfo = true →
    ∀ aaguid, ∀ run' : EnrolRun (P.withAaguid aaguid) invocation, run'.start = run.start →
      run'.file.data = run.file.data
  matchesAll : invocation.obfuscateDeviceInfo = true →
    ∀ P' deviceInfo, deviceAaguidMatches P' c deviceInfo = .ok true

/-- The AAGUID of the device is the one in the file. -/
theorem EnrolRun.deviceAaguid_of_load {P P' : Platform} {invocation : InvocationState}
    (run : EnrolRun P invocation) (hf : P.cbor.FollowsFormat) (hf' : P'.cbor.FollowsFormat)
    (hsize : run.file.data.length < sizeModulus) {path : CString} {c : DeserializedCleartext}
    (hload : loadCleartext P' { path, data := run.file.data } = .ok c) :
    c.deviceAaguid = run.deviceInfo.aaguid := by
  obtain ⟨⟨definite, r, hdecode⟩, -⟩ := (loadCleartext_eq_ok hf').mp hload
  have hencodable := encodable_serializeCleartextToCborV1.mpr (run.keyfile_sized hf hsize)
  have hown := Cbor.decode_encode hencodable []
  rw [List.append_nil, ← run.data_eq hf] at hown
  have hitems : cleartextItems c = cleartextItems run.keyfile := by
    obtain ⟨hitem, -⟩ := Prod.mk.inj (Option.some.inj (hdecode.symm.trans hown))
    exact (Cbor.Item.array.inj hitem).2
  have hfield : (cleartextItems c)[1]? = (cleartextItems run.keyfile)[1]? := by rw [hitems]
  simpa [cleartextItems] using hfield

/-- The AAGUID is left out exactly as requested when and only when it was not requested. -/
theorem obfuscationExact_iff {P P' : Platform} {argv : List CString} {w : World}
    {invocation : InvocationState} (run : EnrolRun P invocation)
    (hparse : parseArgumentsAndGetPassphrase P argv w = .ok invocation run.start)
    (hf : P.cbor.FollowsFormat) (hf' : P'.cbor.FollowsFormat)
    (hsize : run.file.data.length < sizeModulus) (haaguid : run.deviceInfo.aaguid ≠ [])
    {path : CString} {c : DeserializedCleartext}
    (hload : loadCleartext P' { path, data := run.file.data } = .ok c) :
    ObfuscationExact run c ↔ ∀ o ∈ (P.getoptLong argv).options, o.letter ≠ 'o' := by
  have hc := run.deviceAaguid_of_load hf hf' hsize hload
  have hflag := parseArguments_obfuscateDeviceInfo P argv _ _ _ hparse
  have hoptions : invocation.obfuscateDeviceInfo = false ↔
      ∀ o ∈ (P.getoptLong argv).options, o.letter ≠ 'o' := by
    rw [hflag]
    simp
  rw [← hoptions]
  constructor
  · intro h
    by_contra hset
    exact haaguid (hc.symm.trans (h.empty_iff.mpr (by simpa using hset)))
  · intro hset
    refine ⟨?_, fun _ => hc, fun h => ?_, fun h => ?_⟩
    · simp [hc, haaguid, hset]
    · simp [hset] at h
    · simp [hset] at h

/-- Every device of these hosts has an AAGUID. -/
theorem EnrolRun.deviceInfo_aaguid_of_reference {P : Platform} {invocation : InvocationState}
    (run : EnrolRun P invocation) (hdevice : ∀ path, P.authenticatorAt path = referenceDevice) :
    run.deviceInfo.aaguid = List.replicate 16 0x2f := by
  have hinfo : run.deviceInfo = referenceDevice.cborInfo :=
    run.deviceInfo_of_forall fun path => congrArg Authenticator.cborInfo (hdevice path)
  rw [hinfo]
  rfl

theorem obfuscationExact_unobfuscated :
    ∃ run : EnrolRun (enrolHost ⟨true, true, 4096, 0, 4096⟩) referenceInvocation,
      ObfuscationExact run run.keyfile := by
  obtain ⟨run, hstart, hsize⟩ : ∃ run : EnrolRun (enrolHost ⟨true, true, 4096, 0, 4096⟩)
      referenceInvocation, run.start = emptyWorld ∧
        run.file.data.length ≤ largestValidPayloadSizeBytes :=
    exists_run_of_enrolledData_le (by decide +kernel)
  have hf := referenceCbor_followsFormat
  have hparse : parseArgumentsAndGetPassphrase (enrolHost ⟨true, true, 4096, 0, 4096⟩)
      enrolArguments emptyWorld = .ok referenceInvocation run.start := by
    rw [hstart, parse_enrolArguments]
  have hallocates := referencePlatform_allocates_payload referenceBox.sodium referenceDevice
  have hload := run.loadCleartext_eq hf hf hallocates hsize run.path
  have haaguid := run.deviceInfo_aaguid_of_reference fun _ => rfl
  refine ⟨run, (obfuscationExact_iff run hparse hf hf (hsize.trans_lt (by decide)) ?_ hload).mpr ?_⟩
  · rw [haaguid]
    exact List.cons_ne_nil _ _
  · decide

/-- The command line with `-o` behind it. -/
def obfuscatingArguments : List CString := enrolArguments ++ [literal "-o"]

def obfuscatingHost : Platform :=
  { enrolHost ⟨true, true, 4096, 0, 4096⟩ with
    getoptLong := fun _ => ⟨[⟨'d', literal "/dev/hidraw0"⟩, ⟨'f', literal "keyfile"⟩,
      ⟨'p', literal "correct horse"⟩, ⟨'k', literal "low"⟩, ⟨'o', literal ""⟩], [literal "enrol"]⟩ }

/-- With `-o` the AAGUID of the device is in the file. -/
theorem not_obfuscationExact_obfuscated :
    ∃ run : EnrolRun obfuscatingHost { referenceInvocation with obfuscateDeviceInfo := true },
      parseArgumentsAndGetPassphrase obfuscatingHost obfuscatingArguments emptyWorld =
        .ok { referenceInvocation with obfuscateDeviceInfo := true } run.start ∧
      loadCleartext obfuscatingHost run.file = .ok run.keyfile ∧
      run.keyfile.deviceAaguid = List.replicate 16 0x2f ∧ ¬ObfuscationExact run run.keyfile := by
  obtain ⟨run, hstart, hsize⟩ : ∃ run : EnrolRun obfuscatingHost
      { referenceInvocation with obfuscateDeviceInfo := true }, run.start = emptyWorld ∧
        run.file.data.length ≤ largestValidPayloadSizeBytes :=
    exists_run_of_enrolledData_le (by decide +kernel)
  have hf := referenceCbor_followsFormat
  have hallocates : obfuscatingHost.Allocates largestValidPayloadSizeBytes :=
    referencePlatform_allocates_payload referenceBox.sodium referenceDevice
  have haaguid := run.deviceInfo_aaguid_of_reference fun _ => rfl
  refine ⟨run, ?_, ?_, haaguid, fun h => ?_⟩
  · rw [hstart]
    rfl
  · exact run.loadCleartext_eq hf hf hallocates hsize run.file.path
  · have hempty : run.deviceInfo.aaguid = [] := h.empty_iff.mpr rfl
    rw [haaguid] at hempty
    exact List.cons_ne_nil _ _ hempty

end Khefin
