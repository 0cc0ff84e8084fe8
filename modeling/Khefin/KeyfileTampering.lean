import Khefin.DeviceTurns
import Khefin.KeyfileAgreement

/-! # Modified keyfiles

The KDF parameters and the encrypted data reach the cryptography whole. Of the nonce
only the bytes that libsodium reads do, so a nonce that is longer than these, or one
that is shorter and completed by the memory behind it, passes for the enrolled one. -/

namespace Khefin
open CLibrary ExitingPrograms

/-- The cryptography is ideal around one box: keys have no collisions, and no other key,
nonce and ciphertext open. -/
structure Sodium.IdealFor (sodium : Sodium) (key nonce ciphertext : Bytes) : Prop where
  pwhash_injective : ∀ i j k, sodium.cryptoPwhash i = some k → sodium.cryptoPwhash j = some k → i = j
  opens_only : ∀ c n k m, sodium.cryptoSecretboxOpenEasy c n k = some m →
    k = key ∧ n = nonce ∧ c = ciphertext

/-- Whatever devices are connected, generation with this passphrase on a file of this
content asks none of them for an assertion and prints nothing. -/
def Harmless (P : Platform) (passphrase : CString) (data : Bytes) : Prop :=
  ∀ invocation w devices path, invocation.passphrase = some passphrase →
    invocation.file = some path → w.files path = some data →
    Quietly w (finalState (printSecretConsumingInvocation P invocation devices w))

/-- A device that takes part with any keyfile and answers whatever it is asked. -/
def eagerDevice (c : DeserializedCleartext) : Authenticator :=
  { referenceDevice with cborInfo := ⟨[literal "hmac-secret"], c.deviceAaguid⟩ }

theorem eagerDevice_supports (c : DeserializedCleartext) :
    deviceSupportsHmacSecret (eagerDevice c).cborInfo = true := by
  simp [eagerDevice, deviceSupportsHmacSecret]

/-- A search that comes to such a device asks it. -/
theorem asked_of_searchDevices {P : Platform} {c : DeserializedCleartext}
    (params : AuthenticatorParameters) (hm : P.Allocates largestValidPayloadSizeBytes)
    (ha : c.deviceAaguid.length ≤ largestValidPayloadSizeBytes) (hc : params.credentialId ≠ [])
    (hs : params.salt ≠ []) (invocation : InvocationState) (slot : ℕ) (w : World) :
    ∃ w' after, searchDevices P invocation c slot [eagerDevice c] params w = .ok true w' ∧
      w'.trace = w.trace ++ [.fidoDevOpen slot] ++
        .fidoDevGetAssert slot params.assertionRequest :: after := by
  have hresp : (eagerDevice c).Responds := ⟨rfl, rfl, rfl, fun _ => rfl⟩
  have hturn : tryDevice P invocation c ⟨slot, eagerDevice c⟩ params w = _ :=
    tryDevice_of_candidate hresp rfl (hm _ ha) (Or.inr rfl) (eagerDevice_supports c)
  have hask : askDevice P ⟨slot, eagerDevice c⟩ params (w.record (.fidoDevOpen slot)) = _ :=
    askDevice_of_secret hc hs ⟨rfl, rfl, rfl⟩ (by decide) (hm sizeofSecret (by decide))
      (hm 2 (by decide))
  rw [tryCandidate_of_no_pin rfl, hask] at hturn
  obtain ⟨-, -, events, ht, -⟩ := idly_closed ⟨slot, eagerDevice c⟩
    ((w.record (.fidoDevOpen slot)).record (.fidoDevGetAssert slot params.assertionRequest))
  exact ⟨_, events, bind_of_ok hturn _, by simp [ht]⟩

/-- An opened keyfile with a credential and a salt makes a request to some device. -/
theorem asked_of_openKeyfile {P : Platform} {invocation : InvocationState} {w w₁ : World}
    {c : DeserializedCleartext} {params : AuthenticatorParameters}
    (h : openKeyfile P invocation w = .ok (c, params) w₁)
    (hm : P.Allocates largestValidPayloadSizeBytes)
    (ha : c.deviceAaguid.length ≤ largestValidPayloadSizeBytes) (hc : params.credentialId ≠ [])
    (hs : params.salt ≠ []) :
    ∃ after, (finalState (printSecretConsumingInvocation P invocation [eagerDevice c] w)).trace =
      w₁.trace ++ [.fidoDevOpen 0] ++ .fidoDevGetAssert 0 params.assertionRequest :: after := by
  obtain ⟨w', after, hsearch, ht⟩ := asked_of_searchDevices params hm ha hc hs invocation 0 w₁
  rw [printSecret_of_search_ok h hsearch]
  exact ⟨after, ht⟩

theorem not_quietly_of_asked {w w' : World} {before after : List Event} {slot : ℕ}
    {request : AssertionRequest} (h : w'.trace = before ++ .fidoDevGetAssert slot request :: after)
    (hw : w.trace = []) : ¬Quietly w w' := by
  rintro ⟨-, -, events, ht, he⟩
  obtain rfl : events = before ++ .fidoDevGetAssert slot request :: after := by
    simpa [hw, h] using ht.symm
  exact he (.fidoDevGetAssert slot request) (by simp)

namespace EnrolRun

variable {P P' : Platform} {invocation : InvocationState} (run : EnrolRun P invocation)

/-- What got through was sealed by this run, as far as it was read. -/
theorem fields_of_openKeyfile (hsodium : P'.sodium = P.sodium) (hbox : P.sodium.Boxes)
    (hideal : P.sodium.IdealFor run.key run.keyfile.nonce run.keyfile.encryptedData)
    {invocation' : InvocationState} {w w' : World} {c : DeserializedCleartext}
    {params : AuthenticatorParameters} (h : openKeyfile P' invocation' w = .ok (c, params) w') :
    c.kdfSalt = run.keyfile.kdfSalt ∧ c.opslimit = run.keyfile.opslimit ∧
      c.memlimit = run.keyfile.memlimit ∧ c.algorithm = run.keyfile.algorithm ∧
      c.encryptedData = run.keyfile.encryptedData ∧ c.nonce ≠ [] ∧
      nonceRead P' c.nonce = run.keyfile.nonce := by
  obtain ⟨_, _, passphrase, key, decrypted, -, -, -, -, -, hkey, hnull, hopen, -⟩ :=
    openKeyfile_spec h
  rw [hsodium] at hkey hopen
  obtain ⟨rfl, hnonce, hdata⟩ := hideal.opens_only _ _ _ _ hopen
  have hi := hideal.pwhash_injective _ _ _ hkey (run.keyfile_pwhashInput ▸ run.derived)
  have hlen : cryptoSecretboxMacbytes ≤ c.encryptedData.length := by
    rw [hbox.open_length hopen]
    exact Nat.le_add_left _ _
  exact ⟨congrArg PwhashInput.salt hi, congrArg PwhashInput.opslimit hi,
    congrArg PwhashInput.memlimit hi, congrArg PwhashInput.alg hi, hdata,
    fun hn => hnull ⟨hn, hlen⟩, hnonce⟩

/-- A file with the run's own fields, as far as they are read, gets a device asked. -/
theorem not_harmless_of_own_fields (hsodium : P'.sodium = P.sodium) (hf : P.cbor.FollowsFormat)
    (hf' : P'.cbor.FollowsFormat) (hbox : P.sodium.Boxes) (hreading : P'.reading = .faithful)
    (hmemory : P'.Allocates largestValidPayloadSizeBytes)
    (hfits : P'.malloc (run.keySpec.passphrase.length + 1) = true) {path : CString} {data : Bytes}
    {c : DeserializedCleartext} (hload : loadCleartext P' { path, data } = .ok c)
    (hsize : data.length ≤ largestValidPayloadSizeBytes)
    (hkdf : c.pwhashInput run.keySpec.passphrase = run.keySpec.pwhashInput)
    (hdata : c.encryptedData = run.keyfile.encryptedData) (hne : c.nonce ≠ [])
    (hnonce : nonceRead P' c.nonce = run.keyfile.nonce) :
    ¬Harmless P' run.keySpec.passphrase data := by
  intro hharmless
  have hopening : Opening P' (referenceOpening run.keySpec.passphrase) (storedWorld data)
      run.keySpec.passphrase data :=
    ⟨rfl, ⟨literal "keyfile", rfl, rfl, hmemory _ (by decide)⟩, hreading, hmemory, hfits⟩
  obtain ⟨params, hopen, -, hc, hs⟩ := run.openKeyfile_of_own_key hsodium hf hf' hbox hload hsize
    hkdf hdata hne hnonce hopening rfl
  obtain ⟨hsalt, -, hid, -⟩ := enrolCredential_spec run.credential
  have haaguid : c.deviceAaguid.length ≤ largestValidPayloadSizeBytes :=
    (length_byteStrings_le hf' hload (by simp [DeserializedCleartext.byteStrings])).trans hsize
  have hne : params.salt ≠ [] := by
    rw [hs, hsalt]
    exact List.ne_nil_of_length_pos (by rw [Vector.length_toList]; decide)
  obtain ⟨after, hasked⟩ := asked_of_openKeyfile hopen hmemory haaguid (hc ▸ hid) hne
  exact not_quietly_of_asked hasked rfl (hharmless _ _ _ (literal "keyfile") rfl rfl rfl)

end EnrolRun

/-- A file that loads is harmless exactly when it is too big to be read, or a field other than
the nonce differs from what was enrolled, or the bytes read at its nonce do. -/
theorem harmless_iff {P P' : Platform} {invocation : InvocationState}
    (run : EnrolRun P invocation) (hsodium : P'.sodium = P.sodium) (hcbor : P'.cbor = P.cbor)
    (hf : P.cbor.FollowsFormat) (hbox : P.sodium.Boxes)
    (hideal : P.sodium.IdealFor run.key run.keyfile.nonce run.keyfile.encryptedData)
    (hreading : P'.reading = .faithful) (hmemory : P'.Allocates largestValidPayloadSizeBytes)
    {passphrase : CString} (hpassphrase : invocation.passphrase = some passphrase)
    (hfits : P'.malloc (passphrase.length + 1) = true) {path : CString} {data : Bytes}
    {c : DeserializedCleartext} (hload : loadCleartext P' { path, data } = .ok c) :
    Harmless P' passphrase data ↔
      largestValidPayloadSizeBytes < data.length ∨ c.kdfSalt ≠ run.keyfile.kdfSalt ∨
        c.opslimit ≠ run.keyfile.opslimit ∨ c.memlimit ≠ run.keyfile.memlimit ∨
        c.algorithm ≠ run.keyfile.algorithm ∨ c.encryptedData ≠ run.keyfile.encryptedData ∨
        c.nonce = [] ∨ nonceRead P' c.nonce ≠ run.keyfile.nonce := by
  have hf' : P'.cbor.FollowsFormat := hcbor ▸ hf
  obtain rfl : run.keySpec.passphrase = passphrase :=
    Option.some.inj (run.passphrase_eq.symm.trans hpassphrase)
  constructor
  · intro hharmless
    by_contra hcond
    simp only [not_or, not_lt, not_not] at hcond
    obtain ⟨hsize, hsalt, hops, hmem, halg, hdata, hne, hnonce⟩ := hcond
    have hkdf : c.pwhashInput run.keySpec.passphrase = run.keySpec.pwhashInput := by
      rw [← run.keyfile_pwhashInput]
      simp only [DeserializedCleartext.pwhashInput, hsalt, hops, hmem, halg]
    exact run.not_harmless_of_own_fields hsodium hf hf' hbox hreading hmemory hfits hload hsize
      hkdf hdata hne hnonce hharmless
  · intro hcond invocation' w devices path' hp hfile hw
    cases hopen : openKeyfile P' invocation' w with
    | error e w' =>
      rw [printSecret_of_error hopen]
      exact (quietly_openKeyfile P' invocation').of_error hopen
    | ok r w' =>
      exfalso
      obtain ⟨c', params⟩ := r
      obtain ⟨p, d, _, _, _, hp', hd, hsize, -, hload', -⟩ := openKeyfile_spec hopen
      obtain rfl : p = path' := Option.some.inj (hp'.symm.trans hfile)
      obtain rfl : d = data := Option.some.inj (hd.symm.trans hw)
      obtain rfl : c' = c :=
        Except.ok.inj (hload'.symm.trans (loadCleartext_path hf' hload p))
      obtain ⟨hsalt, hops, hmem, halg, hdata, hne, hnonce⟩ :=
        run.fields_of_openKeyfile hsodium hbox hideal hopen
      rcases hcond with h | h | h | h | h | h | h | h
      · omega
      · exact h hsalt
      · exact h hops
      · exact h hmem
      · exact h halg
      · exact h hdata
      · exact hne h
      · exact h hnonce

theorem idealFor_reference (run : EnrolRun (referenceHost referenceDevice) referenceInvocation) :
    (referenceHost referenceDevice).sodium.IdealFor run.key run.keyfile.nonce
      run.keyfile.encryptedData where
  pwhash_injective _ _ _ := referenceBox.pwhash_injective
  opens_only _ _ _ _ h := referenceBox.opens_only (run.easy_eq referenceCbor_followsFormat) h

/-- The content of a file with these fields. -/
def contentOf (c : DeserializedCleartext) : Bytes := Cbor.encode (serializeCleartextToCborV1 c)

theorem loads_reference {c : DeserializedCleartext} (hv : c.IsV1)
    (hs : ∀ b ∈ c.byteStrings, b.length ≤ ptrdiffMax) :
    loadCleartext (referenceHost referenceDevice)
      { path := literal "keyfile", data := contentOf c } = .ok c := by
  have hm := referencePlatform_allocates referenceBox.sodium referenceDevice
  have hlt : ptrdiffMax < sizeModulus := by decide
  exact loadCleartext_encode referenceCbor_followsFormat hv
    (fun b hb => (hs b hb).trans_lt hlt) ⟨hm _ (by decide), fun b hb => Or.inr (hm _ (hs b hb))⟩ _

/-- The enrolled keyfile with a weaker limit. -/
def weakenedKeyfile : DeserializedCleartext := { referenceKeyfile with opslimit := 1 }

theorem harmless_weakened :
    Harmless (referenceHost referenceDevice) (literal "correct horse")
      (contentOf weakenedKeyfile) := by
  obtain ⟨run, -, -⟩ := exists_referenceRun
  have hload := loads_reference (c := weakenedKeyfile) ⟨rfl, by decide, by decide⟩
    (by decide +kernel)
  refine (harmless_iff run rfl rfl referenceCbor_followsFormat referenceBox.boxes
    (idealFor_reference run) rfl (referencePlatform_allocates_payload _ _) rfl
    (decide_eq_true (by decide : (literal "correct horse").length + 1 ≤ ptrdiffMax))
    hload).mpr ?_
  rw [keyfile_reference run]
  exact Or.inr (Or.inr (Or.inl (by decide)))

/-- The enrolled keyfile with one more byte behind its nonce. -/
def extendedKeyfile : DeserializedCleartext :=
  { referenceKeyfile with nonce := referenceKeyfile.nonce ++ [0] }

/-- A nonce with a byte more than was enrolled opens the box all the same, and the
first device is asked. -/
theorem not_harmless_extended :
    ∃ run : EnrolRun (referenceHost referenceDevice) referenceInvocation,
      (referenceHost referenceDevice).sodium.IdealFor run.key run.keyfile.nonce
        run.keyfile.encryptedData ∧
      loadCleartext (referenceHost referenceDevice)
        { path := literal "keyfile", data := contentOf extendedKeyfile } = .ok extendedKeyfile ∧
      extendedKeyfile.nonce ≠ run.keyfile.nonce ∧
      ¬Harmless (referenceHost referenceDevice) (literal "correct horse")
        (contentOf extendedKeyfile) := by
  obtain ⟨run, -, -⟩ := exists_referenceRun
  have hload := loads_reference (c := extendedKeyfile) ⟨rfl, by decide, by decide⟩
    (by decide +kernel)
  have hkey := keyfile_reference run
  have hpass : literal "correct horse" = run.keySpec.passphrase :=
    Option.some.inj run.passphrase_eq
  refine ⟨run, idealFor_reference run, hload, by rw [hkey]; decide, ?_⟩
  rw [hpass]
  refine run.not_harmless_of_own_fields rfl referenceCbor_followsFormat referenceCbor_followsFormat
    referenceBox.boxes rfl (referencePlatform_allocates_payload _ _) ?_ hload
    (by decide +kernel) (by rw [← run.keyfile_pwhashInput, hkey]; rfl) (by rw [hkey]; rfl)
    (by decide) (by rw [hkey]; rfl)
  rw [← hpass]
  exact decide_eq_true (by decide : (literal "correct horse").length + 1 ≤ ptrdiffMax)

end Khefin
