import Khefin.CborRoundTrip
import Khefin.SerializationV1

/-! # A platform that meets the assumptions

The libraries of this platform have every property assumed of the real ones, and
all its calls succeed. -/

namespace Khefin
open CLibrary

/-- The data format itself as a library. -/
def referenceCbor : Libcbor where
  cborLoad s := match Cbor.decode s with
    | some (i, _) => .ok i
    | none => .error .malformated
  cborSerializeAlloc i := some (Cbor.encode i)

theorem referenceCbor_followsFormat : referenceCbor.FollowsFormat where
  load_sound {s i} h := by
    simp only [referenceCbor] at h
    split at h
    · next j r hd =>
      obtain rfl : j = i := by simpa using h
      exact ⟨r, hd⟩
    · simp at h
  load_complete {s i r} h _ := by simp [referenceCbor, h]
  serialize_sound {i s} h := by simpa [referenceCbor] using h.symm
  serialize_complete {i} _ := rfl

/-- One KDF salt with its limits, and one box; the key is the passphrase. -/
structure OneBox where
  salt : Bytes
  opslimit : UInt64
  memlimit : UInt64
  key : Bytes
  nonce : Bytes
  message : Bytes

def OneBox.ciphertext (b : OneBox) : Bytes := List.replicate cryptoSecretboxMacbytes 0 ++ b.message

def OneBox.sodium (b : OneBox) : Sodium where
  cryptoPwhash input :=
    if input.salt = b.salt ∧ input.opslimit = b.opslimit ∧ input.memlimit = b.memlimit ∧
      input.alg = cryptoPwhashAlgArgon2i13 then some input.passwd else none
  cryptoSecretboxEasy message nonce key :=
    if message = b.message ∧ nonce = b.nonce ∧ key = b.key then some b.ciphertext else none
  cryptoSecretboxOpenEasy ciphertext nonce key :=
    if ciphertext = b.ciphertext ∧ nonce = b.nonce ∧ key = b.key then some b.message else none
  cryptoGenerichash outlen _ := some (Vector.replicate outlen 0)

theorem OneBox.boxes (b : OneBox) : b.sodium.Boxes where
  easy_length {m n k c} h := by
    simp only [sodium, Option.ite_none_right_eq_some, Option.some.injEq] at h
    obtain ⟨⟨rfl, -, -⟩, rfl⟩ := h
    simp [ciphertext, Nat.add_comm]
  open_easy {m n k c} h := by
    simp only [sodium, Option.ite_none_right_eq_some, Option.some.injEq] at h ⊢
    obtain ⟨⟨rfl, rfl, rfl⟩, rfl⟩ := h
    exact ⟨⟨rfl, rfl, rfl⟩, rfl⟩
  open_length {m n k c} h := by
    simp only [sodium, Option.ite_none_right_eq_some, Option.some.injEq] at h
    obtain ⟨⟨rfl, -, -⟩, rfl⟩ := h
    simp [ciphertext, Nat.add_comm]

theorem OneBox.pwhash_injective (b : OneBox) {i j : PwhashInput} {k : Bytes}
    (hi : b.sodium.cryptoPwhash i = some k) (hj : b.sodium.cryptoPwhash j = some k) : i = j := by
  obtain ⟨_, _, _, _, _⟩ := i
  obtain ⟨_, _, _, _, _⟩ := j
  simp only [sodium, Option.ite_none_right_eq_some, Option.some.injEq] at hi hj
  obtain ⟨⟨rfl, rfl, rfl, rfl⟩, rfl⟩ := hi
  obtain ⟨⟨rfl, rfl, rfl, rfl⟩, rfl⟩ := hj
  rfl

theorem OneBox.pwhash_self (b : OneBox) (passwd : Bytes) :
    b.sodium.cryptoPwhash ⟨passwd, b.salt, b.opslimit, b.memlimit, cryptoPwhashAlgArgon2i13⟩ =
      some passwd := if_pos ⟨rfl, rfl, rfl, rfl⟩

/-- Limits that derive a key from one passphrase derive one from each. -/
theorem OneBox.pwhash_total (b : OneBox) {i : PwhashInput} {k : Bytes}
    (h : b.sodium.cryptoPwhash i = some k) (passwd : Bytes) :
    b.sodium.cryptoPwhash { i with passwd } = some passwd := by
  simp only [sodium, Option.ite_none_right_eq_some, Option.some.injEq] at h
  exact if_pos h.1

theorem OneBox.limits_of_derived (b : OneBox) {i : PwhashInput} {k : Bytes}
    (h : b.sodium.cryptoPwhash i = some k) : i.opslimit = b.opslimit ∧ i.memlimit = b.memlimit := by
  simp only [sodium, Option.ite_none_right_eq_some] at h
  exact ⟨h.1.2.1, h.1.2.2.1⟩

theorem OneBox.ciphertext_of_easy (b : OneBox) {m n k c : Bytes}
    (h : b.sodium.cryptoSecretboxEasy m n k = some c) : c = b.ciphertext := by
  simp only [sodium, Option.ite_none_right_eq_some, Option.some.injEq] at h
  exact h.2.symm

theorem OneBox.message_of_open (b : OneBox) {m n k c : Bytes}
    (h : b.sodium.cryptoSecretboxOpenEasy c n k = some m) : b.message = m := by
  simp only [sodium, Option.ite_none_right_eq_some, Option.some.injEq] at h
  exact h.2

/-- Whatever was sealed is the box, and nothing else opens. -/
theorem OneBox.opens_only (b : OneBox) {m n k c c' n' k' m' : Bytes}
    (he : b.sodium.cryptoSecretboxEasy m n k = some c)
    (ho : b.sodium.cryptoSecretboxOpenEasy c' n' k' = some m') : k' = k ∧ n' = n ∧ c' = c := by
  simp only [sodium, Option.ite_none_right_eq_some, Option.some.injEq] at he ho
  obtain ⟨⟨rfl, rfl, rfl⟩, rfl⟩ := he
  obtain ⟨⟨rfl, rfl, rfl⟩, rfl⟩ := ho
  exact ⟨rfl, rfl, rfl⟩

/-- A device without a PIN that makes one credential and answers every request. -/
def referenceDevice : Authenticator where
  path := literal "/dev/hidraw0"
  manufacturerString := literal "Yubico"
  productString := literal "YubiKey"
  cborInfo := ⟨[literal "hmac-secret"], List.replicate 16 0x2f⟩
  fidoDevMakeCred _ := (fidoOk, [0xc1, 0xc2])
  fidoDevGetAssert _ := (fidoOk, [0x5e, 0xc3])

def emptyWorld : World := ⟨fun _ => none, [], [], []⟩

def referenceEntropy : Entropy where
  hmacSalt := Vector.replicate _ 0x53
  relyingPartyId := Vector.replicate _ ⟨0, by decide⟩
  kdfSalt := Vector.replicate _ 0x4b
  nonce := Vector.replicate _ 0x4e

/-- Everything works on it. -/
def referencePlatform (sodium : Sodium) (device : Authenticator) : Platform where
  sodium
  cbor := referenceCbor
  malloc n := decide (n ≤ ptrdiffMax)
  sodiumInit := true
  getoptLong _ := ⟨[], []⟩
  sysconfPhysPages := 4194304
  sysconfPageSize := 4096
  standardInput := .notTerminal
  reading := {}
  writing := { fopen := true, fseek := true, accepted := 4096, flushed := 0, closeFlushed := 4096 }
  entropy := referenceEntropy
  behindNonce := []
  fidoDevInfoNew := true
  fidoDevInfoManifest := fidoOk
  connected := [device]
  authenticatorAt _ := device

theorem referencePlatform_allocates (sodium : Sodium) (device : Authenticator) :
    (referencePlatform sodium device).Allocates ptrdiffMax :=
  fun _ hn => decide_eq_true hn

theorem referencePlatform_allocates_payload (sodium : Sodium) (device : Authenticator) :
    (referencePlatform sodium device).Allocates largestValidPayloadSizeBytes :=
  (referencePlatform_allocates sodium device).mono largestValidPayloadSizeBytes_lt.le

def referenceInvocation : InvocationState where
  subcommand := .enrol
  device := some (literal "/dev/hidraw0")
  file := some (literal "keyfile")
  passphrase := some (literal "correct horse")
  kdfHardness := .low

/-- The box sealed by an enrolment of `referenceDevice` with these values. -/
def referenceBox : OneBox where
  salt := referenceEntropy.kdfSalt.toList
  opslimit := 3
  memlimit := cryptoPwhashMemlimitInteractive
  key := (literal "correct horse").bytes
  nonce := referenceEntropy.nonce.toList
  message := Cbor.encode (.array true (secretsItems 1
    (literal "aaaaaaaaaaaaaaaaaaaaaaaaaaaaaaaa.v1.fido2-hmac-secret.localhost") [0xc1, 0xc2]
    referenceEntropy.hmacSalt.toList))

def referenceHost (device : Authenticator) : Platform :=
  referencePlatform referenceBox.sodium device

end Khefin
