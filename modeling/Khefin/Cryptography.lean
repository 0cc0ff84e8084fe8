import Khefin.Invocation

/-! # From a passphrase to a key -/

namespace Khefin
open CLibrary ExitingPrograms

def keySize : ℕ := cryptoSecretboxKeybytes

structure KeySpec where
  passphrase : CString
  kdfSalt : Bytes
  opslimit : UInt64
  memlimit : UInt64
  algorithm : ℤ
  deriving DecidableEq

def sizeofKeySpec : ℕ := 48

structure DeserializedCleartext where
  version : UInt8
  deviceAaguid : Bytes
  kdfSalt : Bytes
  opslimit : UInt64
  memlimit : UInt64
  algorithm : ℤ
  nonce : Bytes
  encryptedData : Bytes
  deriving DecidableEq

def KeySpec.pwhashInput (keySpec : KeySpec) : PwhashInput where
  passwd := keySpec.passphrase.bytes
  salt := keySpec.kdfSalt
  opslimit := keySpec.opslimit
  memlimit := keySpec.memlimit
  alg := keySpec.algorithm

def deriveKey (P : Platform) (keySpec : KeySpec) : Program Bytes := do
  lift (stopIf (keySpec.kdfSalt.length ≠ cryptoPwhashSaltbytes)
    (.exit .programmerError ⟨"KDF salt is of wrong size (is %zu bytes, should be %d bytes)",
      [.number keySpec.kdfSalt.length, .number cryptoPwhashSaltbytes]⟩))
  lift (mallocOrExit P keySize "passphrase-derived key")
  record (.cryptoPwhash keySpec.kdfSalt)
  match P.sodium.cryptoPwhash keySpec.pwhashInput with
  | none => lift (errx .outOfMemory "Unable to derive key from passphrase (out of memory?)")
  | some key => return key

def makeKeySpecFromPassphraseAndCleartext (P : Platform) (passphrase : Option CString)
    (cleartext : DeserializedCleartext) : Except Halt KeySpec := do
  mallocOrExit P sizeofKeySpec "password-derived key specificications"
  let passphrase ← dereference "strdup" passphrase
  let passphrase ← strdupOrExit P passphrase
    "passphrase in password-derived key specificications"
  mallocOrExit P cleartext.kdfSalt.length "salt in password-derived key specificications"
  return {
    passphrase
    kdfSalt := cleartext.kdfSalt
    opslimit := cleartext.opslimit
    memlimit := cleartext.memlimit
    algorithm := cleartext.algorithm }

/-- The limits of a hardness level; the others never get past the parser. -/
def hardnessLimits : KdfHardness → Except Halt (UInt64 × UInt64)
  | .low => .ok (cryptoPwhashOpslimitInteractive, cryptoPwhashMemlimitInteractive)
  | .medium => .ok (cryptoPwhashOpslimitModerate, cryptoPwhashMemlimitModerate)
  | .high => .ok (cryptoPwhashOpslimitSensitive, cryptoPwhashMemlimitSensitive)
  | hardness =>
    errx .programmerError "BUG (%s:%d): invalid KDF hardness passed in (%d)\n"
      [.text "make_new_key_spec_from_invocation", .number 83,
        .number (if hardness = .invalid then 0 else 1)]

def makeNewKeySpecFromInvocation (P : Platform) (invocation : InvocationState) :
    Except Halt KeySpec := do
  mallocOrExit P sizeofKeySpec "password-derived key specificications"
  let passphrase ← dereference "strdup" invocation.passphrase
  let passphrase ← strdupOrExit P passphrase
    "passphrase in password-derived key specificications"
  let limits ← hardnessLimits invocation.kdfHardness
  -- Argon2i needs at least three passes
  let opslimit := if limits.1 < 3 then 3 else limits.1
  mallocOrExit P cryptoPwhashSaltbytes "salt in password-derived key specificications"
  return {
    passphrase
    kdfSalt := P.entropy.kdfSalt.toList
    opslimit
    memlimit := limits.2
    algorithm := cryptoPwhashAlgArgon2i13 }

/-! ## What the key depends on -/

/-- The input to the KDF when a keyfile is opened with a passphrase. -/
def DeserializedCleartext.pwhashInput (cleartext : DeserializedCleartext) (passphrase : CString) :
    PwhashInput where
  passwd := passphrase.bytes
  salt := cleartext.kdfSalt
  opslimit := cleartext.opslimit
  memlimit := cleartext.memlimit
  alg := cleartext.algorithm

theorem makeKeySpecFromPassphraseAndCleartext_spec {P : Platform} {passphrase : Option CString}
    {cleartext : DeserializedCleartext} {keySpec : KeySpec}
    (h : makeKeySpecFromPassphraseAndCleartext P passphrase cleartext = .ok keySpec) :
    ∃ p, passphrase = some p ∧ keySpec.pwhashInput = cleartext.pwhashInput p := by
  simp only [makeKeySpecFromPassphraseAndCleartext, except_bind_eq_ok, strdupOrExit_eq_ok,
    except_pure, Except.ok.injEq] at h
  obtain ⟨_, -, p, hp, _, ⟨-, rfl⟩, _, -, rfl⟩ := h
  cases passphrase with
  | none => simp [dereference] at hp
  | some q =>
    obtain rfl : q = p := by simpa [dereference] using hp
    exact ⟨q, rfl, rfl⟩

theorem makeKeySpecFromPassphraseAndCleartext_of {P : Platform} {passphrase : CString}
    {cleartext : DeserializedCleartext} (hs : P.malloc sizeofKeySpec = true)
    (hp : P.malloc (passphrase.length + 1) = true)
    (hk : P.malloc cleartext.kdfSalt.length = true) :
    ∃ keySpec, makeKeySpecFromPassphraseAndCleartext P (some passphrase) cleartext = .ok keySpec ∧
      keySpec.pwhashInput = cleartext.pwhashInput passphrase := by
  simp [makeKeySpecFromPassphraseAndCleartext, mallocOrExit_of hs, mallocOrExit_of hk,
    dereference, strdupOrExit_of hp, KeySpec.pwhashInput, DeserializedCleartext.pwhashInput]

/-- A new key specification has a salt of the right size and limits the KDF accepts. -/
theorem makeNewKeySpecFromInvocation_spec {P : Platform} {invocation : InvocationState}
    {keySpec : KeySpec} (h : makeNewKeySpecFromInvocation P invocation = .ok keySpec) :
    invocation.passphrase = some keySpec.passphrase ∧
      keySpec.kdfSalt = P.entropy.kdfSalt.toList ∧ 3 ≤ keySpec.opslimit ∧
      keySpec.algorithm = cryptoPwhashAlgArgon2i13 := by
  simp only [makeNewKeySpecFromInvocation, except_bind_eq_ok, strdupOrExit_eq_ok,
    except_pure, Except.ok.injEq] at h
  obtain ⟨_, -, p, hp, _, ⟨-, rfl⟩, limits, -, _, -, rfl⟩ := h
  cases hq : invocation.passphrase with
  | none => simp [dereference, hq] at hp
  | some q =>
    obtain rfl : q = p := by simpa [dereference, hq] using hp
    refine ⟨rfl, rfl, ?_, rfl⟩
    dsimp only
    split
    · exact UInt64.le_refl 3
    · exact UInt64.not_lt.mp ‹_›

/-- Its limits are those of the hardness, with the passes raised to the least the KDF accepts. -/
theorem makeNewKeySpecFromInvocation_limits {P : Platform} {invocation : InvocationState}
    {keySpec : KeySpec} (h : makeNewKeySpecFromInvocation P invocation = .ok keySpec) :
    ∃ limits, hardnessLimits invocation.kdfHardness = .ok limits ∧
      keySpec.opslimit = (if limits.1 < 3 then 3 else limits.1) ∧ keySpec.memlimit = limits.2 := by
  simp only [makeNewKeySpecFromInvocation, except_bind_eq_ok, strdupOrExit_eq_ok,
    except_pure, Except.ok.injEq] at h
  obtain ⟨_, -, _, -, _, -, limits, hlimits, _, -, rfl⟩ := h
  exact ⟨limits, hlimits, rfl, rfl⟩

/-! ## Deriving -/

/-- All that deriving a key can do. -/
theorem deriveKey_cases (P : Platform) (keySpec : KeySpec) (w : World) :
    (keySpec.kdfSalt.length ≠ cryptoPwhashSaltbytes ∧
      ∃ m, deriveKey P keySpec w = .error (.exit .programmerError m) w) ∨
    (P.malloc keySize = false ∧ ∃ m, deriveKey P keySpec w = .error (.exit .outOfMemory m) w) ∨
    (keySpec.kdfSalt.length = cryptoPwhashSaltbytes ∧
      ((P.sodium.cryptoPwhash keySpec.pwhashInput = none ∧
        ∃ m, deriveKey P keySpec w =
          .error (.exit .outOfMemory m) (w.record (.cryptoPwhash keySpec.kdfSalt))) ∨
      ∃ key, P.sodium.cryptoPwhash keySpec.pwhashInput = some key ∧
        deriveKey P keySpec w = .ok key (w.record (.cryptoPwhash keySpec.kdfSalt)))) := by
  by_cases hs : keySpec.kdfSalt.length = cryptoPwhashSaltbytes
  · cases hm : P.malloc keySize with
    | false => exact Or.inr (Or.inl ⟨rfl, _, by simp [deriveKey, hs, stopIf, mallocOrExit, hm]; rfl⟩)
    | true =>
      cases hk : P.sodium.cryptoPwhash keySpec.pwhashInput with
      | none =>
        exact Or.inr (Or.inr ⟨hs, Or.inl ⟨rfl, _, by
          simp [deriveKey, hs, stopIf, mallocOrExit, hm, bind_apply, hk, errx]; rfl⟩⟩)
      | some key =>
        exact Or.inr (Or.inr ⟨hs, Or.inr ⟨key, rfl, by
          simp [deriveKey, hs, stopIf, mallocOrExit, hm, bind_apply, map_apply, hk]⟩⟩)
  · exact Or.inl ⟨hs, _, by simp [deriveKey, hs, stopIf, bind_apply]; rfl⟩

theorem deriveKey_spec {P : Platform} {keySpec : KeySpec} {key : Bytes} {w w' : World}
    (h : deriveKey P keySpec w = .ok key w') :
    keySpec.kdfSalt.length = cryptoPwhashSaltbytes ∧
      P.sodium.cryptoPwhash keySpec.pwhashInput = some key ∧
      w' = w.record (.cryptoPwhash keySpec.kdfSalt) := by
  rcases deriveKey_cases P keySpec w with
    ⟨-, m, e⟩ | ⟨-, m, e⟩ | ⟨hs, ⟨-, m, e⟩ | ⟨k, hp, e⟩⟩
  · simp [h] at e
  · simp [h] at e
  · simp [h] at e
  · obtain ⟨rfl, rfl⟩ := EStateM.Result.ok.inj (h.symm.trans e)
    exact ⟨hs, hp, rfl⟩

theorem keeps_deriveKey {R : World → World → Prop} [IsPreorder World R]
    (hR : Tolerates Event.IsKeyWork R) (P : Platform) (keySpec : KeySpec) :
    Keeps R (deriveKey P keySpec) := by
  refine keeps_bind (keeps_lift _) fun _ => keeps_bind (keeps_lift _) fun _ => ?_
  refine keeps_bind (keeps_record hR trivial) fun _ => ?_
  split
  · exact keeps_lift _
  · exact keeps_pure _

end Khefin
