import Khefin.CleartextCodec
import Khefin.Generate
import Khefin.SecretsCodec

/-! # Opening a keyfile, step by step

What generation does with the bytes of a file that loads, up to the authenticator
parameters, by the first thing that stops it. -/

namespace Khefin
open CLibrary ExitingPrograms

/-- Generation is given a passphrase and a file with this content; the file is read
faithfully and memory is not short. -/
structure Opening (P : Platform) (invocation : InvocationState) (w : World) (passphrase : CString)
    (data : Bytes) : Prop where
  given : invocation.passphrase = some passphrase
  stored : ∃ path, invocation.file = some path ∧ w.files path = some data ∧
    P.malloc (path.length + 1) = true
  reading : P.reading = .faithful
  memory : P.Allocates largestValidPayloadSizeBytes
  passphraseFits : P.malloc (passphrase.length + 1) = true

/-- Loading a file does not depend on where it is. -/
theorem loadCleartext_path {P : Platform} (hf : P.cbor.FollowsFormat) {path : CString}
    {data : Bytes} {c : DeserializedCleartext}
    (h : loadCleartext P { path, data } = .ok c) (path' : CString) :
    loadCleartext P { path := path', data } = .ok c := by
  rw [loadCleartext_eq_ok hf] at h ⊢
  exact h

theorem ne_nil_of_loadCleartext {P : Platform} (hf : P.cbor.FollowsFormat) {path : CString}
    {data : Bytes} {c : DeserializedCleartext}
    (h : loadCleartext P { path, data } = .ok c) : data ≠ [] := by
  rintro rfl
  obtain ⟨⟨_, _, hd⟩, -⟩ := (loadCleartext_eq_ok hf).mp h
  simp [Cbor.decode, Cbor.decodeItem] at hd

theorem length_byteStrings_le {P : Platform} (hf : P.cbor.FollowsFormat) {path : CString}
    {data : Bytes} {c : DeserializedCleartext} (h : loadCleartext P { path, data } = .ok c)
    {b : Bytes} (hb : b ∈ c.byteStrings) : b.length ≤ data.length := by
  obtain ⟨⟨definite, r, hd⟩, -⟩ := (loadCleartext_eq_ok hf).mp h
  exact length_le_of_decode hd hb

/-! ## Opening the box -/

section Box

variable {P : Platform} {c : DeserializedCleartext}

/-- A box shorter than its tag makes the size of the plaintext wrap. -/
theorem openEncryptedData_of_malloc (key : Bytes) (w : World)
    (h : P.malloc (sizeSub c.encryptedData.length cryptoSecretboxMacbytes) = false) :
    ∃ m, openEncryptedData P c key w = .error (.exit .outOfMemory m) w := by
  refine ⟨⟨"Unable to allocate memory for %s", [.text "encrypted data"]⟩, ?_⟩
  simp [openEncryptedData, mallocOrExit, stopIf, h, bind_apply]

theorem openEncryptedData_of_null (key : Bytes) (w : World)
    (h : P.malloc (sizeSub c.encryptedData.length cryptoSecretboxMacbytes) = true)
    (hn : c.nonce = []) (he : cryptoSecretboxMacbytes ≤ c.encryptedData.length) :
    openEncryptedData P c key w = .error (.fault "crypto_secretbox_open_easy")
      (w.record (.cryptoSecretboxOpenEasy c.nonce c.encryptedData.length)) := by
  simp [openEncryptedData, mallocOrExit_of h, bind_apply, stopIf, hn, he]

theorem openEncryptedData_of_nonce (key : Bytes) (w : World)
    (h : P.malloc (sizeSub c.encryptedData.length cryptoSecretboxMacbytes) = true)
    (hn : c.nonce ≠ []) :
    openEncryptedData P c key w =
      match P.sodium.cryptoSecretboxOpenEasy c.encryptedData (nonceRead P c.nonce) key with
      | none => .error (.exit .badPassphrase
          ⟨"Could not decrypt secrets; this likely means the passphrase was wrong", []⟩)
          (w.record (.cryptoSecretboxOpenEasy c.nonce c.encryptedData.length))
      | some decrypted => .ok decrypted
          (w.record (.cryptoSecretboxOpenEasy c.nonce c.encryptedData.length)) := by
  cases ho : P.sodium.cryptoSecretboxOpenEasy c.encryptedData (nonceRead P c.nonce) key <;>
    simp [openEncryptedData, mallocOrExit_of h, bind_apply, map_apply, stopIf, hn, ho, errx]

end Box

theorem nonceRead_of_length {P : Platform} {nonce : Bytes}
    (h : nonce.length = cryptoSecretboxNoncebytes) : nonceRead P nonce = nonce := by
  rw [nonceRead, List.take_append_of_le_length h.ge, List.take_of_length_le h.le]

/-- The size of the plaintext does not wrap when the box holds its tag. -/
theorem malloc_decrypted {P : Platform} {n : ℕ} (hm : P.Allocates largestValidPayloadSizeBytes)
    (h : cryptoSecretboxMacbytes ≤ n) (hn : n ≤ largestValidPayloadSizeBytes) :
    P.malloc (sizeSub n cryptoSecretboxMacbytes) = true := by
  have hmod : largestValidPayloadSizeBytes < sizeModulus := by decide
  refine hm _ ?_
  rw [sizeSub_of_le h (by omega)]
  omega

/-! ## What an opened keyfile has been through -/

theorem openEncryptedData_spec {P : Platform} {c : DeserializedCleartext} {key decrypted : Bytes}
    {w w' : World} (h : openEncryptedData P c key w = .ok decrypted w') :
    ¬(c.nonce = [] ∧ cryptoSecretboxMacbytes ≤ c.encryptedData.length) ∧
      P.sodium.cryptoSecretboxOpenEasy c.encryptedData (nonceRead P c.nonce) key =
        some decrypted := by
  simp only [openEncryptedData, bind_eq_ok, lift_eq_ok, stopIf_eq_ok] at h
  obtain ⟨_, _, -, _, _, -, _, _, ⟨hn, -⟩, h⟩ := h
  cases ho : P.sodium.cryptoSecretboxOpenEasy c.encryptedData (nonceRead P c.nonce) key with
  | none => simp [ho, errx] at h
  | some d =>
    rw [ho] at h
    exact ⟨hn, by rw [(EStateM.Result.ok.inj h).1]⟩

theorem openKeyfile_spec {P : Platform} {invocation : InvocationState} {w w' : World}
    {c : DeserializedCleartext} {params : AuthenticatorParameters}
    (h : openKeyfile P invocation w = .ok (c, params) w') :
    ∃ path data passphrase key decrypted, invocation.file = some path ∧
      w.files path = some data ∧ data.length ≤ largestValidPayloadSizeBytes ∧
      invocation.passphrase = some passphrase ∧ loadCleartext P { path, data } = .ok c ∧
      P.sodium.cryptoPwhash (c.pwhashInput passphrase) = some key ∧
      ¬(c.nonce = [] ∧ cryptoSecretboxMacbytes ≤ c.encryptedData.length) ∧
      P.sodium.cryptoSecretboxOpenEasy c.encryptedData (nonceRead P c.nonce) key = some decrypted ∧
      parametersOfDecrypted P decrypted invocation.mixin = .ok params := by
  simp only [openKeyfile, readFile,
    buildAuthenticatorParametersFromDeserializedCleartextAndKeyAndMixin, bind_eq_ok, lift_eq_ok,
    get_apply] at h
  obtain ⟨path, _, ⟨hp, rfl⟩, f, _, ⟨_, _, hw, hr, rfl⟩, c', _, ⟨hc, rfl⟩, keySpec, _, ⟨hk, rfl⟩,
    key, w₁, hd, params', w₂, ⟨decrypted, w₃, ho, hb, rfl⟩, he⟩ := h
  obtain ⟨rfl, rfl⟩ := EStateM.Result.ok.inj hw
  obtain ⟨rfl, rfl⟩ := Prod.mk.inj (EStateM.Result.ok.inj he).1
  obtain ⟨hs, rfl, -, hl⟩ := readContent_spec hr
  obtain ⟨passphrase, hpass, hpw⟩ := makeKeySpecFromPassphraseAndCleartext_spec hk
  have hkey := (deriveKey_spec hd).2.1
  rw [hpw] at hkey
  have hpath : invocation.file = some f.path := by
    cases hf : invocation.file with
    | none => simp [hf, dereference] at hp
    | some q => simpa [hf, dereference] using hp
  obtain ⟨hn, hopen⟩ := openEncryptedData_spec ho
  exact ⟨f.path, f.data, passphrase, key, decrypted, hpath, hs, hl, hpass, hc, hkey, hn, hopen, hb⟩

theorem mixIntoSalt_spec {P : Platform} {params params' : AuthenticatorParameters}
    {mixin : Option CString} (h : mixIntoSalt P params mixin = .ok params') :
    params' = { params with salt := params'.salt } := by
  cases mixin with
  | none =>
    obtain rfl := Except.ok.inj h
    rfl
  | some m =>
    simp only [mixIntoSalt, except_bind_eq_ok] at h
    obtain ⟨_, -, h⟩ := h
    split at h
    · simp [errx] at h
    · obtain rfl := Except.ok.inj h
      rfl

/-- Opened parameters hold no PIN yet. -/
theorem no_pin_of_openKeyfile {P : Platform} {invocation : InvocationState} {w w' : World}
    {c : DeserializedCleartext} {params : AuthenticatorParameters}
    (h : openKeyfile P invocation w = .ok (c, params) w') : params.authenticatorPin = none := by
  obtain ⟨_, _, _, _, _, -, -, -, -, -, -, -, -, hp⟩ := openKeyfile_spec h
  simp only [parametersOfDecrypted, except_bind_eq_ok] at hp
  obtain ⟨secrets, -, params', hs, hm⟩ := hp
  rw [mixIntoSalt_spec hm]
  exact (parametersOfSecrets_spec hs).2.2.2.1

/-! ## Up to the box -/

namespace Opening

variable {P : Platform} {invocation : InvocationState} {w : World} {passphrase : CString}
  {data : Bytes} {path : CString} {c : DeserializedCleartext}

theorem openKeyfile_of_too_big (h : Opening P invocation w passphrase data)
    (hl : largestValidPayloadSizeBytes < data.length) :
    ∃ m, openKeyfile P invocation w = .error (.exit .deserializationError m) w := by
  obtain ⟨p, hp, hs, -⟩ := h.stored
  have hm := mallocOrExit_of (h.memory sizeofEncodedFile (by decide)) "encoded file structure"
  have hr : ∃ m, readFile P p w = .error (.exit .deserializationError m) w := by
    refine ⟨⟨"File at %s is too big (more than %d bytes); refusing to load it",
      [.string p, .number largestValidPayloadSizeBytes]⟩, ?_⟩
    simp [readFile, readContent, bind_apply, hs, hm, h.reading, ReadOutcomes.faithful, stopIf, hl]
  obtain ⟨m, hr⟩ := hr
  refine ⟨m, ?_⟩
  rw [openKeyfile, hp]
  exact bind_of_error hr _

/-- A file that loads gets as far as deriving a key. -/
theorem openKeyfile_eq (h : Opening P invocation w passphrase data) (hf : P.cbor.FollowsFormat)
    (hc : loadCleartext P { path, data } = .ok c)
    (hl : data.length ≤ largestValidPayloadSizeBytes) :
    ∃ keySpec : KeySpec, keySpec.kdfSalt = c.kdfSalt ∧
      keySpec.pwhashInput = c.pwhashInput passphrase ∧
      openKeyfile P invocation w = (deriveKey P keySpec >>= fun key =>
        buildAuthenticatorParametersFromDeserializedCleartextAndKeyAndMixin P c key
          invocation.mixin >>= fun params => pure (c, params)) w := by
  obtain ⟨p, hp, hs, hm⟩ := h.stored
  have hk : P.malloc c.kdfSalt.length = true := by
    refine h.memory _ (le_trans (length_byteStrings_le hf hc ?_) hl)
    simp [DeserializedCleartext.byteStrings]
  obtain ⟨keySpec, hks, hpw⟩ := makeKeySpecFromPassphraseAndCleartext_of
    (h.memory sizeofKeySpec (by decide)) h.passphraseFits hk
  have hsalt : keySpec.kdfSalt = c.kdfSalt := congrArg PwhashInput.salt hpw
  refine ⟨keySpec, hsalt, hpw, ?_⟩
  have hr : readContent P p (some data) = _ :=
    readContent_of h.reading h.memory hm (ne_nil_of_loadCleartext hf hc) hl
  have hread : readFile P p w = .ok { path := p, data } w := by
    simp [readFile, bind_apply, hs, hr]
  rw [openKeyfile, hp]
  refine (bind_of_ok hread _).trans ?_
  rw [loadCleartext_path hf hc p, h.given]
  exact bind_of_ok (lift_eq_ok.mpr ⟨hks, rfl⟩) _

theorem openKeyfile_of_salt (h : Opening P invocation w passphrase data)
    (hf : P.cbor.FollowsFormat) (hc : loadCleartext P { path, data } = .ok c)
    (hl : data.length ≤ largestValidPayloadSizeBytes)
    (hs : c.kdfSalt.length ≠ cryptoPwhashSaltbytes) :
    ∃ m, openKeyfile P invocation w = .error (.exit .programmerError m) w := by
  obtain ⟨keySpec, hsalt, -, he⟩ := h.openKeyfile_eq hf hc hl
  rcases deriveKey_cases P keySpec w with ⟨-, m, hd⟩ | ⟨hm, -⟩ | ⟨hk, -⟩
  · exact ⟨m, he.trans (bind_of_error hd _)⟩
  · exact absurd (h.memory keySize (by decide)) (by simp [hm])
  · exact absurd (hsalt ▸ hk) hs

theorem openKeyfile_of_no_key (h : Opening P invocation w passphrase data)
    (hf : P.cbor.FollowsFormat) (hc : loadCleartext P { path, data } = .ok c)
    (hl : data.length ≤ largestValidPayloadSizeBytes)
    (hs : c.kdfSalt.length = cryptoPwhashSaltbytes)
    (hk : P.sodium.cryptoPwhash (c.pwhashInput passphrase) = none) :
    ∃ m, openKeyfile P invocation w =
      .error (.exit .outOfMemory m) (w.record (.cryptoPwhash c.kdfSalt)) := by
  obtain ⟨keySpec, hsalt, hpw, he⟩ := h.openKeyfile_eq hf hc hl
  rcases deriveKey_cases P keySpec w with ⟨hn, -⟩ | ⟨hm, -⟩ | ⟨-, ⟨-, m, hd⟩ | ⟨key, hkey, -⟩⟩
  · exact absurd (hsalt ▸ hs) hn
  · exact absurd (h.memory keySize (by decide)) (by simp [hm])
  · exact ⟨m, he.trans ((bind_of_error hd _).trans (by rw [hsalt]))⟩
  · simp [hpw, hk] at hkey

theorem openKeyfile_of_key (h : Opening P invocation w passphrase data)
    (hf : P.cbor.FollowsFormat) (hc : loadCleartext P { path, data } = .ok c)
    (hl : data.length ≤ largestValidPayloadSizeBytes)
    (hs : c.kdfSalt.length = cryptoPwhashSaltbytes) {key : Bytes}
    (hk : P.sodium.cryptoPwhash (c.pwhashInput passphrase) = some key) :
    openKeyfile P invocation w =
      (buildAuthenticatorParametersFromDeserializedCleartextAndKeyAndMixin P c key
        invocation.mixin >>= fun params => pure (c, params)) (w.record (.cryptoPwhash c.kdfSalt)) := by
  obtain ⟨keySpec, hsalt, hpw, he⟩ := h.openKeyfile_eq hf hc hl
  rcases deriveKey_cases P keySpec w with ⟨hn, -⟩ | ⟨hm, -⟩ | ⟨-, ⟨hn, -⟩ | ⟨key', hkey, hd⟩⟩
  · exact absurd (hsalt ▸ hs) hn
  · exact absurd (h.memory keySize (by decide)) (by simp [hm])
  · simp [hpw, hk] at hn
  · obtain rfl : key = key' := by simpa [hpw, hk] using hkey
    exact he.trans ((bind_of_ok hd _).trans (by rw [hsalt]))

/-- The world once the box has been tried. -/
def afterBox (c : DeserializedCleartext) (w : World) : World :=
  (w.record (.cryptoPwhash c.kdfSalt)).record
    (.cryptoSecretboxOpenEasy c.nonce c.encryptedData.length)

theorem openKeyfile_of_not_open (h : Opening P invocation w passphrase data)
    (hf : P.cbor.FollowsFormat) (hc : loadCleartext P { path, data } = .ok c)
    (hl : data.length ≤ largestValidPayloadSizeBytes)
    (hs : c.kdfSalt.length = cryptoPwhashSaltbytes) {key : Bytes}
    (hk : P.sodium.cryptoPwhash (c.pwhashInput passphrase) = some key)
    (hm : P.malloc (sizeSub c.encryptedData.length cryptoSecretboxMacbytes) = true)
    (hn : c.nonce ≠ [])
    (ho : P.sodium.cryptoSecretboxOpenEasy c.encryptedData (nonceRead P c.nonce) key = none) :
    ∃ m, openKeyfile P invocation w = .error (.exit .badPassphrase m) (afterBox c w) := by
  have hb := openEncryptedData_of_nonce key (w.record (.cryptoPwhash c.kdfSalt)) hm hn
  rw [ho] at hb
  have hrun := h.openKeyfile_of_key hf hc hl hs hk
  exact ⟨_, hrun.trans (bind_of_error (bind_of_error hb _) _)⟩

theorem openKeyfile_of_open (h : Opening P invocation w passphrase data)
    (hf : P.cbor.FollowsFormat) (hc : loadCleartext P { path, data } = .ok c)
    (hl : data.length ≤ largestValidPayloadSizeBytes)
    (hs : c.kdfSalt.length = cryptoPwhashSaltbytes) {key decrypted : Bytes}
    (hk : P.sodium.cryptoPwhash (c.pwhashInput passphrase) = some key)
    (hm : P.malloc (sizeSub c.encryptedData.length cryptoSecretboxMacbytes) = true)
    (hn : c.nonce ≠ [])
    (ho : P.sodium.cryptoSecretboxOpenEasy c.encryptedData (nonceRead P c.nonce) key =
      some decrypted) :
    openKeyfile P invocation w =
      match parametersOfDecrypted P decrypted invocation.mixin with
      | .ok params => .ok (c, params) (afterBox c w)
      | .error e => .error e (afterBox c w) := by
  have hb := openEncryptedData_of_nonce key (w.record (.cryptoPwhash c.kdfSalt)) hm hn
  rw [ho] at hb
  have hrun := h.openKeyfile_of_key hf hc hl hs hk
  cases hp : parametersOfDecrypted P decrypted invocation.mixin with
  | ok params =>
    exact hrun.trans (bind_of_ok ((bind_of_ok hb _).trans (lift_eq_ok.mpr ⟨hp, rfl⟩)) _)
  | error e =>
    exact hrun.trans (bind_of_error ((bind_of_ok hb _).trans (lift_eq_error.mpr ⟨hp, rfl⟩)) _)

end Opening

end Khefin
