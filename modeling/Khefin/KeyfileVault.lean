import Khefin.CleartextGrammar
import Khefin.DeviceSearch
import Khefin.Mixins
import Khefin.Registers

/-! # What a keyfile stands for

A keyfile is a sealing: a passphrase and what an authenticator is asked with. The bytes that an
enrolment writes hold one, and whoever opens bytes that hold a sealing has given its passphrase
and has got its credential, whatever the process that reads them has at hand. -/

namespace Khefin
open CLibrary ExitingPrograms

/-- The libraries that all processes on a machine share. -/
structure Libraries where
  sodium : Sodium
  cbor : Libcbor

/-- The cryptography is ideal: keys have no collisions, and a box opens with its own key only. -/
structure Libraries.Ideal (lib : Libraries) : Prop where
  followsFormat : lib.cbor.FollowsFormat
  boxes : lib.sodium.Boxes
  pwhash_injective : ∀ i j k, lib.sodium.cryptoPwhash i = some k →
    lib.sodium.cryptoPwhash j = some k → i = j
  opens_only : ∀ m n k c k' m', lib.sodium.cryptoSecretboxEasy m n k = some c →
    lib.sodium.cryptoSecretboxOpenEasy c n k' = some m' → k' = k

structure Platform.Has (P : Platform) (lib : Libraries) : Prop where
  sodium : P.sodium = lib.sodium
  cbor : P.cbor = lib.cbor

/-! ## Sealings -/

structure Sealing where
  passphrase : CString
  relyingPartyId : CString
  credentialId : Bytes
  salt : Bytes
  deviceAaguid : Bytes
  deriving DecidableEq

/-- What an authenticator is asked with, apart from the PIN. -/
structure Challenge where
  relyingPartyId : CString
  clientDataHash : Bytes
  credentialId : Bytes
  salt : Bytes
  deriving DecidableEq

def AssertionRequest.challenge (request : AssertionRequest) : Challenge where
  relyingPartyId := request.relyingPartyId
  clientDataHash := request.clientDataHash
  credentialId := request.credentialId
  salt := request.salt

/-- A use of a keyfile: what was given with it, and what was asked. -/
structure Use where
  passphrase : CString
  mixin : Option CString
  challenge : Challenge
  deriving DecidableEq

def mixedSalt (sodium : Sodium) (salt : Bytes) : Option CString → Option Bytes
  | none => some salt
  | some mixin => (sodium.cryptoGenerichash salt.length mixin.bytes).map fun hash =>
      List.zipWith (· ^^^ ·) salt hash.toList

def Sealing.challenge (sodium : Sodium) (s : Sealing) (mixin : Option CString) :
    Option Challenge :=
  (mixedSalt sodium s.salt mixin).map fun salt =>
    ⟨s.relyingPartyId, List.replicate clientDataHashSizeBytes 0x41, s.credentialId, salt⟩

/-- A use that a sealing allows. -/
def Sealing.Fits (sodium : Sodium) (s : Sealing) (u : Use) : Prop :=
  u.passphrase = s.passphrase ∧ s.challenge sodium u.mixin = some u.challenge

/-! ## The bytes of a sealing -/

def EnrolRun.sealing {P : Platform} {invocation : InvocationState}
    (run : EnrolRun P invocation) : Sealing where
  passphrase := run.keySpec.passphrase
  relyingPartyId := run.params.relyingPartyId
  credentialId := run.params.credentialId
  salt := run.params.salt
  deviceAaguid := run.deviceInfo.aaguid

/-- An enrolment writes these bytes for the sealing, and they can be read back. -/
structure Holds (lib : Libraries) (data : Bytes) (s : Sealing) : Prop where
  size : data.length ≤ largestValidPayloadSizeBytes
  written : ∃ (P : Platform) (invocation : InvocationState) (run : EnrolRun P invocation),
    P.Has lib ∧ run.file.data = data ∧ run.sealing = s

theorem cleartextItems_inj {c c' : DeserializedCleartext} (h : c.IsV1) (h' : c'.IsV1)
    (he : cleartextItems c = cleartextItems c') : c = c' := by
  rw [cleartextItems_of_isV1 h, cleartextItems_of_isV1 h'] at he
  simp only [keyfileElements, List.cons.injEq, Cbor.Item.bytes.injEq, Cbor.Item.uint.injEq,
    true_and, and_true, UInt64.toNat_inj] at he
  obtain ⟨haaguid, hsalt, hops, hmem, halg, hnonce, hdata⟩ := he
  have hversion := h.version.trans h'.version.symm
  have halgorithm := (algorithm_of_isV1 h).symm.trans ((congrArg Nat.cast halg).trans
    (algorithm_of_isV1 h'))
  obtain ⟨_, _, _, _, _, _, _, _⟩ := c
  obtain ⟨_, _, _, _, _, _, _, _⟩ := c'
  subst haaguid hsalt hops hmem hnonce hdata hversion halgorithm
  rfl

namespace EnrolRun

variable {P P' : Platform} {invocation : InvocationState} (run : EnrolRun P invocation)

/-- There is one way to load the file, however much memory there is. -/
theorem eq_keyfile_of_load (hf : P.cbor.FollowsFormat) (hf' : P'.cbor.FollowsFormat)
    (hsize : run.file.data.length ≤ largestValidPayloadSizeBytes) {path : CString}
    {c : DeserializedCleartext}
    (h : loadCleartext P' { path, data := run.file.data } = .ok c) : c = run.keyfile := by
  obtain ⟨⟨definite, r, hdecode⟩, hv, -⟩ := (loadCleartext_eq_ok hf').mp h
  have hsized := run.keyfile_sized hf (hsize.trans_lt (by decide))
  have hwritten := Cbor.decode_encode (encodable_serializeCleartextToCborV1.mpr hsized) []
  rw [List.append_nil, ← run.data_eq hf] at hwritten
  have hitem := (Prod.mk.inj (Option.some.inj (hdecode.symm.trans hwritten))).1
  exact cleartextItems_inj hv run.keyfile_isV1 (Cbor.Item.array.inj hitem).2

/-- There is one way to load the secrets, and it keeps the parameters of the credential. -/
theorem fields_of_loadSecrets (hf' : P'.cbor.FollowsFormat)
    (hl : (Cbor.encode (.array true run.secrets)).length < sizeModulus) {s : DeserializedSecrets}
    (h : loadSecretsFromBytes P' (Cbor.encode (.array true run.secrets)) = .ok s) :
    s.credentialId = run.params.credentialId ∧ s.salt = run.params.salt ∧
      ∀ r, s.relyingPartyId = some r → r = run.params.relyingPartyId := by
  obtain ⟨definite, version, text, hload, hr⟩ := loadSecretsFromBytes_spec h
  obtain ⟨rest, hdecode⟩ := hf'.load_sound hload
  obtain ⟨hrl, hcl, hsl⟩ := length_le_encode_secrets (UInt8.ofNat serializationMaxVersion)
    run.params.relyingPartyId run.params.credentialId run.params.salt
  have hsealed := Cbor.decode_encode
    (@encodable_secretsItems (UInt8.ofNat serializationMaxVersion) _ _ _ (hrl.trans hl)
      (hcl.trans hl) (hsl.trans hl)) []
  rw [List.append_nil] at hsealed
  have hitem := (Prod.mk.inj (Option.some.inj (hdecode.symm.trans hsealed))).1
  simp only [Cbor.Item.array.injEq, secretsItems, List.cons.injEq, Cbor.Item.bytes.injEq,
    Cbor.Item.text.injEq, and_true] at hitem
  obtain ⟨-, -, htext, hcredential, hsalt⟩ := hitem
  refine ⟨hcredential, hsalt, fun r hsome => ?_⟩
  rw [hr, htext] at hsome
  split at hsome
  · simp at hsome
  · rw [cString_self] at hsome
    exact (Option.some.inj hsome).symm

end EnrolRun

/-! ## Opening -/

theorem salt_of_mixIntoSalt {P : Platform} {params params' : AuthenticatorParameters}
    {mixin : Option CString} (h : mixIntoSalt P params mixin = .ok params') :
    mixedSalt P.sodium params.salt mixin = some params'.salt := by
  cases mixin with
  | none =>
    obtain rfl := Except.ok.inj h
    rfl
  | some mixin =>
    simp only [mixIntoSalt, except_bind_eq_ok] at h
    obtain ⟨_, -, h⟩ := h
    cases hhash : P.sodium.cryptoGenerichash params.salt.length mixin.bytes with
    | none => simp [hhash, errx] at h
    | some hash =>
      rw [hhash] at h
      obtain rfl := Except.ok.inj h
      simp [mixedSalt, hhash]

/-- Whoever opens a file that holds a sealing gave its passphrase, and asks with its credential. -/
theorem fits_of_openKeyfile {lib : Libraries} (hlib : lib.Ideal) {P : Platform} (hP : P.Has lib)
    {invocation : InvocationState} {w w' : World} {path : CString} {data : Bytes} {s : Sealing}
    (hfile : invocation.file = some path) (hdata : w.files path = some data)
    (hholds : Holds lib data s) {c : DeserializedCleartext} {params : AuthenticatorParameters}
    (h : openKeyfile P invocation w = .ok (c, params) w') :
    ∃ passphrase, invocation.passphrase = some passphrase ∧ s.Fits lib.sodium
      ⟨passphrase, invocation.mixin, params.assertionRequest.challenge⟩ := by
  obtain ⟨hsize, Q, enrolled, run, hQ, rfl, rfl⟩ := hholds
  obtain ⟨path', data', passphrase, key, decrypted, hfile', hdata', -, hpassphrase, hload, hkey, -,
    hopen, hparams⟩ := openKeyfile_spec h
  obtain rfl := Option.some.inj (hfile.symm.trans hfile')
  obtain rfl := Option.some.inj (hdata.symm.trans hdata')
  have hf : Q.cbor.FollowsFormat := hQ.cbor ▸ hlib.followsFormat
  have hf' : P.cbor.FollowsFormat := hP.cbor ▸ hlib.followsFormat
  have hbox : Q.sodium.Boxes := hQ.sodium ▸ hlib.boxes
  obtain rfl := run.eq_keyfile_of_load hf hf' hsize hload
  rw [nonceRead_of_length run.keyfile_nonce_length, hP.sodium] at hopen
  rw [hP.sodium] at hkey
  have hsealed := run.easy_eq hf
  rw [hQ.sodium] at hsealed
  -- the box opens with its own key only, and that was derived from one passphrase
  obtain rfl := hlib.opens_only _ _ _ _ _ _ hsealed hopen
  have hderived := run.derived
  rw [hQ.sodium, ← run.keyfile_pwhashInput] at hderived
  have hinput := hlib.pwhash_injective _ _ _ hkey hderived
  have hbytes : passphrase.bytes = run.keySpec.passphrase.bytes := congrArg PwhashInput.passwd hinput
  obtain rfl := Option.some.inj (hopen.symm.trans (hlib.boxes.open_easy hsealed))
  have hlength : (Cbor.encode (.array true run.secrets)).length < sizeModulus := by
    have hmax : largestValidPayloadSizeBytes < sizeModulus := by decide
    have hadd := run.encryptedData_length hf hbox
    have hle := run.encryptedData_length_le hf hsize
    omega
  simp only [parametersOfDecrypted, except_bind_eq_ok] at hparams
  obtain ⟨secrets, hsecrets, plain, hplain, hmix⟩ := hparams
  obtain ⟨hcredential, hsalt, hrp⟩ := run.fields_of_loadSecrets hf' hlength hsecrets
  obtain ⟨hprp, hpcredential, hpsalt, -, hphash⟩ := parametersOfSecrets_spec hplain
  have hmixed := salt_of_mixIntoSalt hmix
  rw [hpsalt, hsalt, hP.sodium] at hmixed
  refine ⟨passphrase, hpassphrase, CString.ext hbytes, ?_⟩
  simp only [Sealing.challenge, EnrolRun.sealing, hmixed, Option.map_some, Option.some.injEq]
  rw [mixIntoSalt_spec hmix]
  simp only [AuthenticatorParameters.assertionRequest, AssertionRequest.challenge, hphash,
    hpcredential, hcredential, ← hrp _ hprp]

theorem EnrolRun.usable_of_fields {P : Platform} {invocation : InvocationState}
    (run : EnrolRun P invocation) {params : AuthenticatorParameters}
    (hcredential : params.credentialId = run.params.credentialId)
    (hsalt : params.salt.length = run.params.salt.length) : params.Usable := by
  obtain ⟨hrandom, -, hid, -⟩ := enrolCredential_spec run.credential
  refine ⟨hcredential ▸ hid, fun hnil => ?_⟩
  rw [hnil, hrandom, Vector.length_toList] at hsalt
  exact absurd hsalt (by decide)

/-- With the passphrase of a sealing and a mixin that can be hashed, a file that holds it opens. -/
theorem exists_openKeyfile_of_holds {lib : Libraries} (hlib : lib.Ideal) {P : Platform}
    (hP : P.Has lib) {invocation : InvocationState} {w : World} {data : Bytes} {s : Sealing}
    (hholds : Holds lib data s) (h : Opening P invocation w s.passphrase data)
    {challenge : Challenge} (hchallenge : s.challenge lib.sodium invocation.mixin = some challenge) :
    ∃ c params w₁, openKeyfile P invocation w = .ok (c, params) w₁ ∧ params.Usable ∧
      c.deviceAaguid = s.deviceAaguid ∧ P.malloc c.deviceAaguid.length = true := by
  obtain ⟨hsize, Q, enrolled, run, hQ, rfl, rfl⟩ := hholds
  have hf : Q.cbor.FollowsFormat := hQ.cbor ▸ hlib.followsFormat
  have hf' : P.cbor.FollowsFormat := hP.cbor ▸ hlib.followsFormat
  have hbox : Q.sodium.Boxes := hQ.sodium ▸ hlib.boxes
  have hplain : Opening P (invocation.withMixin none) w run.keySpec.passphrase run.file.data :=
    ⟨h.given, h.stored, h.reading, h.memory, h.passphraseFits⟩
  obtain ⟨params, hopen, -, hcredential, hsalt⟩ := run.openKeyfile_of_own_key
    (hP.sodium.trans hQ.sodium.symm) hf hf' hbox (run.loadCleartext_eq hf hf' h.memory hsize run.path)
    hsize run.keyfile_pwhashInput rfl run.keyfile_nonce_ne_nil
    (nonceRead_of_length run.keyfile_nonce_length) hplain rfl
  have haaguid : P.malloc run.keyfile.deviceAaguid.length = true :=
    h.memory _ ((run.length_le_data hf (by simp [DeserializedCleartext.byteStrings])).trans hsize)
  have hsame := congrArg List.length hsalt
  cases hmixin : invocation.mixin with
  | none =>
    have hinvocation : invocation.withMixin none = invocation := by
      rw [← hmixin]
      rfl
    rw [hinvocation] at hopen
    exact ⟨_, params, _, hopen, run.usable_of_fields hcredential hsame, rfl, haaguid⟩
  | some mixin =>
    have hinvocation : invocation.withMixin (some mixin) = invocation := by
      rw [← hmixin]
      rfl
    have hhash : P.sodium.cryptoGenerichash params.salt.length mixin.bytes ≠ none := by
      intro hnone
      rw [hsalt, hP.sodium] at hnone
      rw [Sealing.challenge, hmixin, mixedSalt, EnrolRun.sealing, hnone] at hchallenge
      simp at hchallenge
    have hlength : params.salt.length ≤ largestValidPayloadSizeBytes := by
      rw [hsalt, (enrolCredential_spec run.credential).1, Vector.length_toList]
      decide
    have hmixed := openKeyfile_of_mixin hopen (h.memory _ hlength) hhash
    rw [hinvocation] at hmixed
    refine ⟨_, _, _, hmixed, run.usable_of_fields hcredential (Eq.trans ?_ hsame), rfl, haaguid⟩
    simp only [AuthenticatorParameters.mixed, List.length_zipWith, hashedMixin_length hhash,
      Nat.min_self]

end Khefin
