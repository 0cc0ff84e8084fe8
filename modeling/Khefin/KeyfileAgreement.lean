import Khefin.EnrolmentRuns
import Khefin.OpeningRuns
import Khefin.ReferencePlatform
import Khefin.SecretsCodec

/-! # Enrolment and generation agree

A keyfile opens with the passphrase it was enrolled with, and then gives back what
the credential was made with; any other passphrase is turned away before a device
is asked. -/

namespace Khefin
open CLibrary ExitingPrograms

theorem isAscii_newRelyingPartyId (P : Platform) : IsAscii (newRelyingPartyId P) := by
  have ht : ∀ i : Fin rpidEncodingTableSize, rpidEncodingTable[i] < 128 := by decide
  have hs : ∀ b ∈ relyingPartySuffix.bytes, b < 128 := by decide +kernel
  intro b hb
  rcases List.mem_append.mp hb with hb | hb
  · obtain ⟨i, -, rfl⟩ := List.mem_map.mp (List.takeWhile_subset _ hb)
    exact ht i
  · exact hs b hb

theorem newRelyingPartyId_ne_nil (P : Platform) : (newRelyingPartyId P).bytes ≠ [] := by
  have hs : relyingPartySuffix.bytes ≠ [] := by decide
  exact fun h => hs (List.append_eq_nil_iff.mp h).2

namespace EnrolRun

variable {P P' : Platform} {invocation invocation' : InvocationState}
  (run : EnrolRun P invocation)

theorem encryptedData_length (hf : P.cbor.FollowsFormat) (hbox : P.sodium.Boxes) :
    run.keyfile.encryptedData.length =
      (Cbor.encode (.array true run.secrets)).length + cryptoSecretboxMacbytes :=
  hbox.easy_length (run.easy_eq hf)

theorem encryptedData_length_le (hf : P.cbor.FollowsFormat)
    (hsize : run.file.data.length ≤ largestValidPayloadSizeBytes) :
    run.keyfile.encryptedData.length ≤ largestValidPayloadSizeBytes := by
  refine (run.length_le_data hf ?_).trans hsize
  simp [DeserializedCleartext.byteStrings]

theorem keyfile_nonce_ne_nil : run.keyfile.nonce ≠ [] := by
  intro h
  have hl := run.keyfile_nonce_length
  simp [h, cryptoSecretboxNoncebytes] at hl

/-- What the box is read back as. -/
def sealedSecrets : DeserializedSecrets where
  version := 1
  relyingPartyId := some run.params.relyingPartyId
  credentialId := run.params.credentialId
  salt := run.params.salt

/-- The parameters of the credential come back out of the box. -/
theorem parametersOfDecrypted_secrets (hf' : P'.cbor.FollowsFormat)
    (hm : P'.Allocates largestValidPayloadSizeBytes)
    (hl : (Cbor.encode (.array true run.secrets)).length ≤ largestValidPayloadSizeBytes) :
    ∃ params, parametersOfDecrypted P' (Cbor.encode (.array true run.secrets)) none = .ok params ∧
      params.relyingPartyId = run.params.relyingPartyId ∧
      params.credentialId = run.params.credentialId ∧ params.salt = run.params.salt := by
  obtain ⟨-, hr, -, -⟩ := enrolCredential_spec run.credential
  have hsec : loadSecretsFromBytes P' (Cbor.encode (.array true run.secrets)) =
      .ok run.sealedSecrets :=
    loadSecretsFromBytes_encode hf' (hr ▸ newRelyingPartyId_ne_nil P)
      (hr ▸ isAscii_newRelyingPartyId P) hm (by decide) (by decide) hl
  obtain ⟨hrl, hcl, hsl⟩ := length_le_encode_secrets (UInt8.ofNat serializationMaxVersion)
    run.params.relyingPartyId run.params.credentialId run.params.salt
  simp only [secrets] at hl
  obtain ⟨params, hp⟩ := parametersOfSecrets_of (s := run.sealedSecrets) hm (by decide) rfl
    (hrl.trans_le hl) (hcl.le.trans hl) (hsl.le.trans hl)
  obtain ⟨hpr, hpc, hps, -⟩ := parametersOfSecrets_spec hp
  exact ⟨params, by simp [parametersOfDecrypted, hsec, hp, mixIntoSalt],
    (Option.some.inj hpr).symm, hpc, hps⟩

/-- A file whose fields act like the run's own is opened with the run's own key. -/
theorem openKeyfile_of_own_key (hsodium : P'.sodium = P.sodium) (hf : P.cbor.FollowsFormat)
    (hf' : P'.cbor.FollowsFormat) (hbox : P.sodium.Boxes) {path : CString} {data : Bytes}
    {c : DeserializedCleartext} (hload : loadCleartext P' { path, data } = .ok c)
    (hsize : data.length ≤ largestValidPayloadSizeBytes)
    (hkdf : c.pwhashInput run.keySpec.passphrase = run.keySpec.pwhashInput)
    (hdata : c.encryptedData = run.keyfile.encryptedData) (hne : c.nonce ≠ [])
    (hnonce : nonceRead P' c.nonce = run.keyfile.nonce) {w : World}
    (h : Opening P' invocation' w run.keySpec.passphrase data) (hmixin : invocation'.mixin = none) :
    ∃ params, openKeyfile P' invocation' w = .ok (c, params) (Opening.afterBox c w) ∧
      params.relyingPartyId = run.params.relyingPartyId ∧
      params.credentialId = run.params.credentialId ∧ params.salt = run.params.salt := by
  have hkey : P'.sodium.cryptoPwhash (c.pwhashInput run.keySpec.passphrase) = some run.key := by
    rw [hsodium, hkdf, run.derived]
  have hopen : P'.sodium.cryptoSecretboxOpenEasy c.encryptedData (nonceRead P' c.nonce) run.key =
      some (Cbor.encode (.array true run.secrets)) := by
    rw [hsodium, hdata, hnonce]
    exact hbox.open_easy (run.easy_eq hf)
  have hlen := run.encryptedData_length hf hbox
  have hle : c.encryptedData.length ≤ largestValidPayloadSizeBytes := by
    refine (length_byteStrings_le hf' hload ?_).trans hsize
    simp [DeserializedCleartext.byteStrings]
  rw [← hdata] at hlen
  have hsalt : c.kdfSalt.length = cryptoPwhashSaltbytes := by
    have hs : c.kdfSalt = run.keySpec.kdfSalt := congrArg PwhashInput.salt hkdf
    rw [hs, (makeNewKeySpecFromInvocation_spec run.keySpecMade).2.1, Vector.length_toList]
  obtain ⟨params, hp, hfields⟩ := run.parametersOfDecrypted_secrets hf' h.memory (by omega)
  have hrun := h.openKeyfile_of_open hf' hload hsize hsalt hkey
    (malloc_decrypted h.memory (by omega) hle) hne hopen
  rw [hmixin, hp] at hrun
  exact ⟨params, hrun, hfields⟩

/-- Another key ends the run. -/
theorem openKeyfile_of_other_key (hsodium : P'.sodium = P.sodium) (hcbor : P'.cbor = P.cbor)
    (hf : P.cbor.FollowsFormat) (hbox : P.sodium.Boxes)
    (hsize : run.file.data.length ≤ largestValidPayloadSizeBytes) {w : World}
    {passphrase : CString} {key : Bytes} (h : Opening P' invocation' w passphrase run.file.data)
    (hkey : P.sodium.cryptoPwhash (run.keyfile.pwhashInput passphrase) = some key)
    (ho : P.sodium.cryptoSecretboxOpenEasy run.keyfile.encryptedData run.keyfile.nonce key = none) :
    ∃ m w', openKeyfile P' invocation' w = .error (.exit .badPassphrase m) w' := by
  have hf' : P'.cbor.FollowsFormat := hcbor ▸ hf
  have hload := run.loadCleartext_eq hf hf' h.memory hsize run.path
  have hlen := run.encryptedData_length hf hbox
  rw [← hsodium] at hkey ho
  obtain ⟨m, hrun⟩ := h.openKeyfile_of_not_open hf' hload hsize run.keyfile_kdfSalt_length hkey
    (malloc_decrypted h.memory (hlen ▸ Nat.le_add_left _ _) (run.encryptedData_length_le hf hsize))
    run.keyfile_nonce_ne_nil (by rw [nonceRead_of_length run.keyfile_nonce_length]; exact ho)
  exact ⟨m, _, hrun⟩

end EnrolRun

/-- A keyfile yields parameters for its own passphrase only, and these are the ones the
credential was created with; any other passphrase stops the run before any device is asked. -/
theorem keyfile_opens_for_its_passphrase_only {P P' : Platform}
    {invocation invocation' : InvocationState} (run : EnrolRun P invocation)
    (hsodium : P'.sodium = P.sodium) (hcbor : P'.cbor = P.cbor) (hf : P.cbor.FollowsFormat)
    (hbox : P.sodium.Boxes)
    (hinjective : ∀ i j k, P.sodium.cryptoPwhash i = some k → P.sodium.cryptoPwhash j = some k →
      i = j)
    (htotal : ∀ passphrase, P.sodium.cryptoPwhash (run.keyfile.pwhashInput passphrase) ≠ none)
    (hkeys : ∀ key, P.sodium.cryptoSecretboxOpenEasy run.keyfile.encryptedData run.keyfile.nonce
      key ≠ none → key = run.key)
    (hsize : run.file.data.length ≤ largestValidPayloadSizeBytes) {w : World}
    {passphrase : CString} (h : Opening P' invocation' w passphrase run.file.data)
    (hmixin : invocation'.mixin = none) :
    ((∃ c params w', openKeyfile P' invocation' w = .ok (c, params) w') ↔
      invocation.passphrase = some passphrase) ∧
    (∀ c params w', openKeyfile P' invocation' w = .ok (c, params) w' →
      params.relyingPartyId = run.params.credentialRequest.relyingPartyId ∧
      .fidoDevMakeCred 0 run.params.credentialRequest ∈ run.afterDevice.trace ∧
      (∃ path, invocation.device = some path ∧
        (P.authenticatorAt path).fidoDevMakeCred run.params.credentialRequest =
          (fidoOk, params.credentialId)) ∧
      params.salt = P.entropy.hmacSalt.toList) ∧
    (invocation.passphrase ≠ some passphrase → ∀ devices, ∃ m w',
      printSecretConsumingInvocation P' invocation' devices w =
        .error (.exit .badPassphrase m) w' ∧ Quietly w w') := by
  have hown : invocation.passphrase = some passphrase → ∃ params w',
      openKeyfile P' invocation' w = .ok (run.keyfile, params) w' ∧
        params.relyingPartyId = run.params.relyingPartyId ∧
        params.credentialId = run.params.credentialId ∧ params.salt = run.params.salt := by
    intro hp
    obtain rfl : run.keySpec.passphrase = passphrase :=
      Option.some.inj (run.passphrase_eq.symm.trans hp)
    have hf' : P'.cbor.FollowsFormat := hcbor ▸ hf
    have hload := run.loadCleartext_eq hf hf' h.memory hsize run.path
    obtain ⟨params, ho, hfields⟩ := run.openKeyfile_of_own_key hsodium hf hf' hbox hload hsize
      run.keyfile_pwhashInput rfl run.keyfile_nonce_ne_nil
      (nonceRead_of_length run.keyfile_nonce_length) h hmixin
    exact ⟨params, _, ho, hfields⟩
  have hother : invocation.passphrase ≠ some passphrase → ∃ m w',
      openKeyfile P' invocation' w = .error (.exit .badPassphrase m) w' := by
    intro hp
    obtain ⟨key, hkey⟩ := Option.ne_none_iff_exists'.mp (htotal passphrase)
    refine run.openKeyfile_of_other_key hsodium hcbor hf hbox hsize h hkey ?_
    by_contra ho
    -- the run's key would have been derived from two inputs
    rw [hkeys key ho] at hkey
    have hi := hinjective _ _ _ (run.keyfile_pwhashInput ▸ run.derived) hkey
    have hb : run.keySpec.passphrase.bytes = passphrase.bytes := congrArg PwhashInput.passwd hi
    exact hp (run.passphrase_eq.trans (congrArg some (CString.ext hb)))
  refine ⟨⟨?_, ?_⟩, ?_, ?_⟩
  · rintro ⟨c, params, w', ho⟩
    by_contra hp
    obtain ⟨m, w'', he⟩ := hother hp
    simp [he] at ho
  · intro hp
    obtain ⟨params, w', ho, -⟩ := hown hp
    exact ⟨_, params, w', ho⟩
  · intro c params w' ho
    have hp : invocation.passphrase = some passphrase := by
      by_contra hp
      obtain ⟨m, w'', he⟩ := hother hp
      simp [he] at ho
    obtain ⟨params', w'', ho', hr, hc, hs⟩ := hown hp
    obtain ⟨he, -⟩ := EStateM.Result.ok.inj (ho.symm.trans ho')
    obtain ⟨-, rfl⟩ := Prod.mk.inj he
    obtain ⟨hsalt, -, -, path, hd, -, hmake, hevent⟩ := enrolCredential_spec run.credential
    exact ⟨hr, hevent, ⟨path, hd, by rw [hmake, hc]⟩, hs.trans hsalt⟩
  · intro hp devices
    obtain ⟨m, w', he⟩ := hother hp
    exact ⟨m, w', printSecret_of_error he devices, (quietly_openKeyfile P' invocation').of_error he⟩

/-- Generation on the reference host, with the run's file stored. -/
def referenceOpening (passphrase : CString) : InvocationState where
  subcommand := .generate
  file := some (literal "keyfile")
  passphrase := some passphrase

/-- A world in which every file has this content. -/
def storedWorld (data : Bytes) : World := { emptyWorld with files := fun _ => some data }

theorem opening_reference (device : Authenticator) (data : Bytes) {passphrase : CString}
    (h : passphrase.length < ptrdiffMax) :
    Opening (referenceHost device) (referenceOpening passphrase)
      (storedWorld data) passphrase data where
  given := rfl
  stored := ⟨literal "keyfile", rfl, rfl,
    decide_eq_true (by decide : (literal "keyfile").length + 1 ≤ ptrdiffMax)⟩
  reading := rfl
  memory := referencePlatform_allocates_payload _ _
  passphraseFits := decide_eq_true h

theorem exists_openedReference : ∃ data params w₁,
    openKeyfile (referenceHost referenceDevice) (referenceOpening (literal "correct horse"))
      (storedWorld data) = .ok (referenceKeyfile, params) w₁ ∧
    params.credentialId ≠ [] ∧ params.salt ≠ [] := by
  obtain ⟨run, -, hsize⟩ := exists_referenceRun
  have hf := referenceCbor_followsFormat
  have hpass : literal "correct horse" = run.keySpec.passphrase := Option.some.inj run.passphrase_eq
  have hopening := opening_reference referenceDevice run.file.data
    (by decide : (literal "correct horse").length < ptrdiffMax)
  have hload : loadCleartext (referenceHost referenceDevice) _ = _ :=
    run.loadCleartext_eq hf hf hopening.memory hsize run.path
  obtain ⟨params, hopen, -, hc, hs⟩ := run.openKeyfile_of_own_key rfl hf hf referenceBox.boxes
    hload hsize run.keyfile_pwhashInput rfl run.keyfile_nonce_ne_nil
    (nonceRead_of_length run.keyfile_nonce_length) (hpass ▸ hopening) rfl
  obtain ⟨hsalt, -, hid, -⟩ := enrolCredential_spec run.credential
  rw [keyfile_reference run, ← hpass] at hopen
  exact ⟨run.file.data, params, _, hopen, hc ▸ hid, by rw [hs, hsalt]; decide⟩

theorem keyfile_opens_for_its_passphrase_only_reference :
    ∃ run : EnrolRun (referenceHost referenceDevice) referenceInvocation,
      (∃ c params w', openKeyfile (referenceHost referenceDevice)
        (referenceOpening (literal "correct horse"))
        (storedWorld run.file.data) = .ok (c, params) w') ∧
      ∀ devices, ∃ m w', printSecretConsumingInvocation (referenceHost referenceDevice)
        (referenceOpening (literal "battery staple")) devices
        (storedWorld run.file.data) =
          .error (.exit .badPassphrase m) w' := by
  obtain ⟨run, -, hsize⟩ := exists_referenceRun
  have hf := referenceCbor_followsFormat
  have htotal : ∀ passphrase, (referenceHost referenceDevice).sodium.cryptoPwhash
      (run.keyfile.pwhashInput passphrase) ≠ none := by
    intro passphrase h
    have hp := referenceBox.pwhash_total run.derived passphrase.bytes
    rw [← run.keyfile_pwhashInput] at hp
    exact Option.some_ne_none _ (hp.symm.trans h)
  have hkeys : ∀ key, (referenceHost referenceDevice).sodium.cryptoSecretboxOpenEasy
      run.keyfile.encryptedData run.keyfile.nonce key ≠ none → key = run.key := by
    intro key h
    obtain ⟨m, hm⟩ := Option.ne_none_iff_exists'.mp h
    exact (referenceBox.opens_only (run.easy_eq hf) hm).1
  have agreement := fun (passphrase : CString) (hp : passphrase.length < ptrdiffMax) =>
    keyfile_opens_for_its_passphrase_only run rfl rfl hf referenceBox.boxes
      (fun _ _ _ => referenceBox.pwhash_injective) htotal hkeys hsize
      (opening_reference referenceDevice run.file.data hp) rfl
  refine ⟨run, (agreement (literal "correct horse") (by decide)).1.mpr rfl, ?_⟩
  intro devices
  obtain ⟨m, w', h, -⟩ := (agreement (literal "battery staple") (by decide)).2.2
    (by decide) devices
  exact ⟨m, w', h⟩

end Khefin
