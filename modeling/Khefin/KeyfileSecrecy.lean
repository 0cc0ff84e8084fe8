import Khefin.KeyfileAgreement

/-! # What a keyfile gives away

Two enrolments with the same salt, nonce, hardness and kind of device write the same
file up to the encrypted data, and how long that is follows from the length of the
credential id. -/

namespace Khefin
open CLibrary ExitingPrograms

/-- The bytes of a file before its last field. -/
def clearPart (c : DeserializedCleartext) : Bytes :=
  Cbor.encodeHead 4 clearCountOfFields ++ Cbor.encodeAll (cleartextItems c).dropLast

/-- The length of the encrypted data for a credential id of `n` bytes. -/
def encryptedDataLength (n : ℕ) : ℕ :=
  133 + (Cbor.encodeHead 2 n).length + n + cryptoSecretboxMacbytes

/-- Characters of the table followed by the suffix. -/
def IsNewRelyingPartyId (id : CString) : Prop :=
  ∃ characters : Bytes, characters.length = relyingPartyIdSize ∧
    (∀ b ∈ characters, b ∈ rpidEncodingTable.toList) ∧
    id.bytes = characters ++ relyingPartySuffix.bytes

/-! ## Sizes -/

theorem isNew_newRelyingPartyId (P : Platform) : IsNewRelyingPartyId (newRelyingPartyId P) := by
  have hmem : ∀ i : Fin rpidEncodingTableSize, rpidEncodingTable[i] ∈ rpidEncodingTable.toList := by
    decide
  have hne : ∀ i : Fin rpidEncodingTableSize, rpidEncodingTable[i] ≠ 0 := by decide
  refine ⟨P.entropy.relyingPartyId.toList.map fun i => rpidEncodingTable[i], by simp, ?_, ?_⟩
  · intro b hb
    obtain ⟨i, -, rfl⟩ := List.mem_map.mp hb
    exact hmem i
  · have hnul : (0 : UInt8) ∉ P.entropy.relyingPartyId.toList.map fun i => rpidEncodingTable[i] := by
      intro h
      obtain ⟨i, -, hi⟩ := List.mem_map.mp h
      exact hne i hi
    exact congrArg (· ++ relyingPartySuffix.bytes) (cString_of_noNul hnul)

theorem IsNewRelyingPartyId.length_eq {id : CString} (h : IsNewRelyingPartyId id) :
    id.bytes.length = 63 := by
  obtain ⟨characters, hlength, -, hbytes⟩ := h
  have hsuffix : relyingPartySuffix.bytes.length = 31 := by rfl
  rw [hbytes, List.length_append, hlength, hsuffix]
  rfl

theorem length_encode_secretsItems {id : CString} {credentialId salt : Bytes}
    (hid : IsNewRelyingPartyId id) (hsalt : salt.length = saltSizeBytes) :
    (Cbor.encode (.array true (secretsItems 1 id credentialId salt))).length +
      cryptoSecretboxMacbytes = encryptedDataLength credentialId.length := by
  have hl := hid.length_eq
  have harray : (Cbor.encodeHead 4 4).length = 1 := by decide
  have hversion : (Cbor.encodeWide 0 .w8 1).length = 1 := by decide
  have htext : (Cbor.encodeHead 3 63).length = 2 := by decide
  have hbytes : (Cbor.encodeHead 2 saltSizeBytes).length = 2 := by decide
  have hsize : saltSizeBytes = 64 := rfl
  simp only [secretsItems, Cbor.encode, Cbor.encodeAll, Cbor.encodeString, List.length_append,
    List.length_cons, List.length_nil, hl, hsalt, encryptedDataLength]
  change (Cbor.encodeHead 4 4).length + ((Cbor.encodeWide 0 .w8 1).length + _) + _ = _
  omega

theorem encode_serializeCleartext (c : DeserializedCleartext) :
    Cbor.encode (serializeCleartextToCborV1 c) =
      clearPart c ++ Cbor.encodeString 2 c.encryptedData := by
  simp [serializeCleartextToCborV1, cleartextItems, clearPart, Cbor.encode, Cbor.encodeAll,
    clearCountOfFields]

theorem clearPart_withEncryptedData (c : DeserializedCleartext) (encryptedData : Bytes) :
    clearPart { c with encryptedData } = clearPart c := rfl

namespace EnrolRun

variable {P P' : Platform} {invocation invocation' : InvocationState}
  (run : EnrolRun P invocation) (run' : EnrolRun P' invocation')

/-- What a run has put into the box. -/
theorem sealed_spec : IsNewRelyingPartyId run.params.relyingPartyId ∧
    run.params.salt.length = saltSizeBytes := by
  obtain ⟨hsalt, hid, -⟩ := enrolCredential_spec run.credential
  rw [hsalt, hid]
  exact ⟨isNew_newRelyingPartyId P, Vector.length_toList⟩

theorem length_encryptedData (hf : P.cbor.FollowsFormat)
    (hlength : ∀ m n k c, P.sodium.cryptoSecretboxEasy m n k = some c →
      c.length = m.length + cryptoSecretboxMacbytes) :
    run.keyfile.encryptedData.length = encryptedDataLength run.params.credentialId.length := by
  obtain ⟨hid, hsalt⟩ := run.sealed_spec
  rw [hlength _ _ _ _ (run.easy_eq hf)]
  exact length_encode_secretsItems hid hsalt

theorem data_eq_clearPart (hf : P.cbor.FollowsFormat) : run.file.data =
    clearPart run.keyfile ++ Cbor.encodeString 2 run.keyfile.encryptedData := by
  rw [run.data_eq hf, encode_serializeCleartext]

/-- The limits of a keyfile are those of the hardness it was enrolled with. -/
theorem limits_eq (hhardness : invocation'.kdfHardness = invocation.kdfHardness) :
    run'.keySpec.opslimit = run.keySpec.opslimit ∧
      run'.keySpec.memlimit = run.keySpec.memlimit := by
  obtain ⟨limits, hlimits, hops, hmem⟩ := makeNewKeySpecFromInvocation_limits run.keySpecMade
  obtain ⟨limits', hlimits', hops', hmem'⟩ := makeNewKeySpecFromInvocation_limits run'.keySpecMade
  rw [hhardness, hlimits] at hlimits'
  obtain rfl := Except.ok.inj hlimits'
  rw [hops, hmem, hops', hmem']
  exact ⟨rfl, rfl⟩

end EnrolRun

/-- The files of two runs differ in the encrypted data alone, and its length is a function of
the length of the credential id. -/
structure AgreeInClear {P P' : Platform} {invocation invocation' : InvocationState}
    (run : EnrolRun P invocation) (run' : EnrolRun P' invocation') : Prop where
  fields : run'.keyfile = { run.keyfile with encryptedData := run'.keyfile.encryptedData }
  written : run.file.data = Cbor.encode (serializeCleartextToCborV1 run.keyfile) ∧
    run'.file.data = Cbor.encode (serializeCleartextToCborV1 run'.keyfile)
  bytes : ∃ clear : Bytes,
    run.file.data = clear ++ Cbor.encodeString 2 run.keyfile.encryptedData ∧
      run'.file.data = clear ++ Cbor.encodeString 2 run'.keyfile.encryptedData
  length : run.keyfile.encryptedData.length = encryptedDataLength run.params.credentialId.length ∧
    run'.keyfile.encryptedData.length = encryptedDataLength run'.params.credentialId.length
  relyingPartyId : IsNewRelyingPartyId run.params.relyingPartyId ∧
    IsNewRelyingPartyId run'.params.relyingPartyId
  salt : run.params.salt.length = saltSizeBytes ∧ run'.params.salt.length = saltSizeBytes

/-- Whatever the passphrases, PINs, relying party ids, HMAC salts and credential ids, two
enrolments with the same hardness, AAGUID, KDF salt and nonce agree in the clear. -/
theorem enrolments_agree_in_clear {P P' : Platform} {invocation invocation' : InvocationState}
    (run : EnrolRun P invocation) (run' : EnrolRun P' invocation')
    (hf : P.cbor.FollowsFormat) (hf' : P'.cbor.FollowsFormat)
    (hlength : ∀ m n k c, P.sodium.cryptoSecretboxEasy m n k = some c →
      c.length = m.length + cryptoSecretboxMacbytes)
    (hlength' : ∀ m n k c, P'.sodium.cryptoSecretboxEasy m n k = some c →
      c.length = m.length + cryptoSecretboxMacbytes)
    (hhardness : invocation'.kdfHardness = invocation.kdfHardness)
    (haaguid : run'.deviceInfo.aaguid = run.deviceInfo.aaguid)
    (hsalt : P'.entropy.kdfSalt = P.entropy.kdfSalt) (hnonce : P'.entropy.nonce = P.entropy.nonce) :
    AgreeInClear run run' := by
  obtain ⟨hops, hmem⟩ := run.limits_eq run' hhardness
  have hfields : run'.keyfile =
      { run.keyfile with encryptedData := run'.keyfile.encryptedData } := by
    have henc : run'.keyfile.encryptedData = run'.cleartext.encryptedData := rfl
    rw [henc, run.keyfile_eq, run'.keyfile_eq, haaguid, hsalt, hnonce, hops, hmem]
  have hclear : clearPart run'.keyfile = clearPart run.keyfile := by
    rw [hfields, clearPart_withEncryptedData]
  obtain ⟨hid, hs⟩ := run.sealed_spec
  obtain ⟨hid', hs'⟩ := run'.sealed_spec
  refine ⟨hfields, ⟨run.data_eq hf, run'.data_eq hf'⟩, ⟨clearPart run.keyfile,
    run.data_eq_clearPart hf, ?_⟩, ⟨run.length_encryptedData hf hlength,
    run'.length_encryptedData hf' hlength'⟩, ⟨hid, hid'⟩, ⟨hs, hs'⟩⟩
  rw [run'.data_eq_clearPart hf', hclear]

/-! ## Two such runs -/

/-- Another user's run draws other secrets and gets a longer credential id. -/
def secondEntropy : Entropy :=
  { referenceEntropy with
    hmacSalt := Vector.replicate _ 0x54
    relyingPartyId := Vector.replicate _ ⟨1, by decide⟩ }

def secondDevice : Authenticator :=
  { referenceDevice with fidoDevMakeCred := fun _ => (fidoOk, [0xd1, 0xd2, 0xd3]) }

def secondBox : OneBox :=
  { referenceBox with
    key := (literal "battery staple").bytes
    message := Cbor.encode (.array true (secretsItems 1
      (literal "bbbbbbbbbbbbbbbbbbbbbbbbbbbbbbbb.v1.fido2-hmac-secret.localhost") [0xd1, 0xd2, 0xd3]
      secondEntropy.hmacSalt.toList)) }

def secondHost : Platform :=
  { referencePlatform secondBox.sodium secondDevice with entropy := secondEntropy }

def secondInvocation : InvocationState :=
  { referenceInvocation with passphrase := some (literal "battery staple") }

theorem enrolments_agree_in_clear_two_users :
    ∃ run : EnrolRun (referenceHost referenceDevice) referenceInvocation,
      ∃ run' : EnrolRun secondHost secondInvocation,
        AgreeInClear run run' ∧ run.params.salt ≠ run'.params.salt := by
  obtain ⟨run, -, -⟩ := exists_referenceRun
  obtain ⟨run', -, -⟩ : ∃ run' : EnrolRun secondHost secondInvocation,
      run'.start = emptyWorld ∧ run'.file.data.length ≤ largestValidPayloadSizeBytes :=
    exists_run_of_enrolledData_le (by decide +kernel)
  have haaguid : run'.deviceInfo.aaguid = run.deviceInfo.aaguid := by
    rw [run.deviceInfo_of_forall fun _ => rfl, run'.deviceInfo_of_forall fun _ => rfl]
  refine ⟨run, run', ?_, ?_⟩
  · exact enrolments_agree_in_clear run run' referenceCbor_followsFormat
      referenceCbor_followsFormat (fun _ _ _ _ => referenceBox.boxes.easy_length)
      (fun _ _ _ _ => secondBox.boxes.easy_length) rfl haaguid rfl rfl
  · obtain ⟨hsalt, -⟩ := enrolCredential_spec run.credential
    obtain ⟨hsalt', -⟩ := enrolCredential_spec run'.credential
    rw [hsalt, hsalt']
    decide

end Khefin
