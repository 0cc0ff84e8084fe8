import Khefin.CStandardLibrary
import Khefin.CborItems
import Khefin.ExitingPrograms

/-! # What the program runs on

Everything a run is given from outside is a field of `Platform`: the libraries,
the outcome of each system call, the random draws and the connected devices.
What a run changes is its `World`. The libraries are arbitrary functions; what
is relied on about them is stated separately. -/

namespace Khefin
open CLibrary ExitingPrograms

/-! ## Exit statuses and diagnostics -/

inductive ExitStatus
  | success | badInvocation | badPassphrase | noDevices | noValidAuthenticator
  | deserializationError | badPin | outOfMemory | authenticatorError | cryptographyError
  | overPrivileged | unableToGetUserSecret | programmerError
  deriving DecidableEq, Repr

def exitHUserErrorBits : ℕ := 0x20
def exitHRuntimeErrorBits : ℕ := 0x40
def exitHProgrammerErrorBits : ℕ := 0x60

def ExitStatus.code : ExitStatus → ℕ
  | .success => 0
  | .badInvocation => 0 ||| exitHUserErrorBits
  | .badPassphrase => 1 ||| exitHUserErrorBits
  | .noDevices => 2 ||| exitHUserErrorBits
  | .noValidAuthenticator => 3 ||| exitHUserErrorBits
  | .deserializationError => 4 ||| exitHUserErrorBits
  | .badPin => 5 ||| exitHUserErrorBits
  | .outOfMemory => 0 ||| exitHRuntimeErrorBits
  | .authenticatorError => 1 ||| exitHRuntimeErrorBits
  | .cryptographyError => 2 ||| exitHRuntimeErrorBits
  | .overPrivileged => 3 ||| exitHRuntimeErrorBits
  | .unableToGetUserSecret => 4 ||| exitHRuntimeErrorBits
  | .programmerError => 0 ||| exitHProgrammerErrorBits

/-- Distinct statuses reach the caller of the program as distinct codes. -/
theorem ExitStatus.code_injective : Function.Injective ExitStatus.code := by
  intro a b h
  cases a <;> cases b <;> first | rfl | exact absurd h (by decide)

inductive Argument
  | number (n : ℤ)
  | text (s : String)
  | string (s : CString)
  | fidoStrerr (r : ℤ)
  deriving DecidableEq

/-- A format string of the source with its arguments. -/
structure Message where
  format : String
  arguments : List Argument := []
  deriving DecidableEq

/-- How a process ends without returning from `main`. -/
inductive Halt
  | exit (status : ExitStatus) (message : Message)
  | fault (operation : String)
  deriving DecidableEq

def errx {α : Type} (status : ExitStatus) (format : String) (arguments : List Argument := []) :
    Except Halt α := .error (.exit status ⟨format, arguments⟩)

/-- Use a pointer that may be NULL. -/
def dereference {α : Type} (operation : String) : Option α → Except Halt α
  | some a => .ok a
  | none => .error (.fault operation)

theorem dereference_eq_ok {α : Type} {operation : String} {p : Option α} {a : α} :
    dereference operation p = .ok a ↔ p = some a := by
  cases p <;> simp [dereference]

/-! ## Sizes -/

def sizeModulus : ℕ := 2 ^ 64

/-- Subtraction in `size_t`. -/
def sizeSub (n m : ℕ) : ℕ := (n + (sizeModulus - m)) % sizeModulus

/-- The largest size an object can have. -/
def ptrdiffMax : ℕ := 2 ^ 63 - 1

theorem sizeSub_of_le {n m : ℕ} (h : m ≤ n) (hn : n < sizeModulus) : sizeSub n m = n - m := by
  simp only [sizeSub, sizeModulus] at *
  omega

/-- A wrapped difference is too large for any object. -/
theorem ptrdiffMax_lt_sizeSub {n m : ℕ} (h : n < m) (hm : m ≤ ptrdiffMax) :
    ptrdiffMax < sizeSub n m := by
  simp only [sizeSub, sizeModulus, ptrdiffMax] at *
  omega

/-! ## libsodium -/

def cryptoPwhashSaltbytes : ℕ := 16
def cryptoSecretboxKeybytes : ℕ := 32
def cryptoSecretboxNoncebytes : ℕ := 24
def cryptoSecretboxMacbytes : ℕ := 16
def cryptoBoxNoncebytes : ℕ := 24
def cryptoPwhashAlgArgon2i13 : ℤ := 1
def cryptoPwhashOpslimitInteractive : UInt64 := 2
def cryptoPwhashMemlimitInteractive : UInt64 := 67108864
def cryptoPwhashOpslimitModerate : UInt64 := 3
def cryptoPwhashMemlimitModerate : UInt64 := 268435456
def cryptoPwhashOpslimitSensitive : UInt64 := 4
def cryptoPwhashMemlimitSensitive : UInt64 := 1073741824

structure PwhashInput where
  passwd : Bytes
  salt : Bytes
  opslimit : UInt64
  memlimit : UInt64
  alg : ℤ
  deriving DecidableEq

/-- `none` is a non-zero return value. -/
structure Sodium where
  cryptoPwhash : PwhashInput → Option Bytes
  cryptoSecretboxEasy (message nonce key : Bytes) : Option Bytes
  cryptoSecretboxOpenEasy (ciphertext nonce key : Bytes) : Option Bytes
  cryptoGenerichash (outlen : ℕ) (input : Bytes) : Option (Vector UInt8 outlen)

/-- What libsodium documents about a box and its opening. -/
structure Sodium.Boxes (sodium : Sodium) : Prop where
  easy_length {m n k c} : sodium.cryptoSecretboxEasy m n k = some c →
    c.length = m.length + cryptoSecretboxMacbytes
  open_easy {m n k c} : sodium.cryptoSecretboxEasy m n k = some c →
    sodium.cryptoSecretboxOpenEasy c n k = some m
  open_length {m n k c} : sodium.cryptoSecretboxOpenEasy c n k = some m →
    c.length = m.length + cryptoSecretboxMacbytes

/-! ## libcbor -/

inductive CborErrorCode | notenoughdata | nodata | malformated | memerror | syntaxerror
  deriving DecidableEq, Repr

structure Libcbor where
  cborLoad : Bytes → Except CborErrorCode Cbor.Item
  cborSerializeAlloc : Cbor.Item → Option Bytes

def IsScalar : Cbor.Item → Prop
  | .uint _ _ => True
  | .bytes _ => True
  | .text d => ∀ b ∈ d, b < 128
  | _ => False

/-- An array of unsigned integers, byte strings and ASCII strings. -/
def IsFlat : Cbor.Item → Prop
  | .array _ items => ∀ i ∈ items, IsScalar i
  | _ => False

/-- The library reads and writes the data format: what it loads is the first item of
the input, it loads every flat array, and what it serializes is the encoding. The `buffer_size`
of `cbor_serialize_alloc` is taken for the length of that, as libcbor documents it since 0.10. -/
structure Libcbor.FollowsFormat (cbor : Libcbor) : Prop where
  load_sound {s i} : cbor.cborLoad s = .ok i → ∃ r, Cbor.decode s = some (i, r)
  load_complete {s i r} : Cbor.decode s = some (i, r) → IsFlat i → cbor.cborLoad s = .ok i
  serialize_sound {i s} : cbor.cborSerializeAlloc i = some s → s = Cbor.encode i
  serialize_complete {i} : i.Encodable → cbor.cborSerializeAlloc i = some (Cbor.encode i)

/-! ## Authenticators -/

def fidoOk : ℤ := 0
def fidoErrInternal : ℤ := -9
def fidoErrInvalidCredential : ℤ := 0x22
def fidoErrUserActionPending : ℤ := 0x23
def fidoErrNoCredentials : ℤ := 0x2e
def fidoErrPinInvalid : ℤ := 0x31
def fidoErrActionTimeout : ℤ := 0x3a

structure CborInfo where
  extensions : List CString
  aaguid : Bytes
  deriving DecidableEq

structure CredentialRequest where
  relyingPartyId : CString
  relyingPartyName : CString
  userId : Bytes
  userName : CString
  userDisplayName : CString
  clientDataHash : Bytes
  pin : Option CString
  deriving DecidableEq

structure AssertionRequest where
  salt : Bytes
  relyingPartyId : CString
  clientDataHash : Bytes
  credentialId : Bytes
  pin : Option CString
  deriving DecidableEq

/-- Return values of the `fido_cred_set_` calls. -/
structure CredentialSetup where
  setExtensions : ℤ := fidoOk
  setRp : ℤ := fidoOk
  setType : ℤ := fidoOk
  setUser : ℤ := fidoOk
  setClientdataHash : ℤ := fidoOk
  setRk : ℤ := fidoOk
  deriving DecidableEq

/-- Return values of the calls that prepare an assertion. -/
structure AssertionSetup where
  setHmacSalt : ℤ := fidoOk
  setExtensions : ℤ := fidoOk
  setRp : ℤ := fidoOk
  setClientdataHash : ℤ := fidoOk
  allowCred : ℤ := fidoOk
  setUp : ℤ := fidoOk
  deriving DecidableEq

/-- A device of the list and the outcome of every call made while it is handled. A
secret of no bytes stands for a NULL pointer, and so does an empty credential id. -/
structure Authenticator where
  path : CString
  manufacturerString : CString
  productString : CString
  fidoDevNew : Bool := true
  fidoDevOpen : ℤ := fidoOk
  fidoDevIsFido2 : Bool := true
  fidoCborInfoNew : Bool := true
  fidoDevGetCborInfo : ℤ := fidoOk
  cborInfo : CborInfo
  fidoDevHasPin : Bool := false
  /-- The buffer allocated for its PIN before anything is copied there, and the memory behind it. -/
  pinMemory : Bytes := []
  fidoCredNew : Bool := true
  credentialSetup : CredentialSetup := {}
  fidoDevMakeCred : CredentialRequest → ℤ × Bytes
  fidoAssertNew : Bool := true
  assertionSetup : AssertionSetup := {}
  fidoDevGetAssert : AssertionRequest → ℤ × Bytes
  fidoDevClose : ℤ := fidoOk

/-- An open device, known by its position in the list it came from. -/
structure FidoDev where
  slot : ℕ
  authenticator : Authenticator

/-! ## The outside of a run -/

def saltSizeBytes : ℕ := 64
def relyingPartyIdSize : ℕ := 32
def rpidEncodingTableSize : ℕ := 32

/-- What the random number generator returns to each of its callers. -/
structure Entropy where
  hmacSalt : Vector UInt8 saltSizeBytes
  relyingPartyId : Vector (Fin rpidEncodingTableSize) relyingPartyIdSize
  kdfSalt : Vector UInt8 cryptoPwhashSaltbytes
  nonce : Vector UInt8 cryptoBoxNoncebytes

/-- Which calls of `read_file` succeed on a file that exists. -/
structure ReadOutcomes where
  fopen : Bool := true
  fseekEnd : Bool := true
  ftell : Bool := true
  fseekSet : Bool := true
  fread : Bool := true
  deriving DecidableEq

/-- Outcomes of the calls of `write_file`: how many bytes `fwrite` accepts and passes on,
and how many the last flush, by `fclose` or at exit, still passes on. -/
structure WriteOutcomes where
  fopen : Bool
  fseek : Bool
  accepted : ℕ
  flushed : ℕ
  closeFlushed : ℕ
  deriving DecidableEq

/-- What `isatty` finds, with the outcomes of the terminal calls. -/
inductive StandardInput
  | terminal (tcgetattr tcsetattr tcsetattrBack : Bool)
  | notTerminal
  | unusable
  deriving DecidableEq

/-- An option as `getopt_long` reports it; `optarg` is empty for one without a value. -/
structure ReportedOption where
  c : Char
  optarg : CString
  deriving DecidableEq

/-- All that `getopt_long` reports for an argument vector: the options in order, then
the other arguments, which it has moved to the end. -/
structure OptionScan where
  options : List ReportedOption
  operands : List CString
  deriving DecidableEq

structure Platform where
  sodium : Sodium
  cbor : Libcbor
  malloc : ℕ → Bool
  sodiumInit : Bool
  getoptLong : List CString → OptionScan
  sysconfPhysPages : ℤ
  sysconfPageSize : ℤ
  standardInput : StandardInput
  reading : ReadOutcomes
  writing : WriteOutcomes
  entropy : Entropy
  /-- The memory behind the buffer of a nonce. -/
  behindNonce : Bytes
  fidoDevInfoNew : Bool
  fidoDevInfoManifest : ℤ
  connected : List Authenticator
  authenticatorAt : CString → Authenticator

end Khefin
