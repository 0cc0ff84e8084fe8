import Khefin.EarlyLoops
import Khefin.Platform
import Khefin.ShellWords

/-! # The hook that unlocks the disk at boot

`run_hook` with the variables it shares between its loops. What other programs answer is numbered
in the order in which the hook asks. -/

namespace Khefin.BootHook
open CLibrary EarlyLoops Shell

inductive PromptOption | never | once | always
  deriving DecidableEq

/-- What stands at the path of the mount point. -/
inductive MountPoint | absent | emptyDirectory | nonEmptyDirectory | otherFile
  deriving DecidableEq

/-- What the hook finds: the kernel parameters, the files and what it is answered. -/
structure Boot where
  encryptedKeyfileDir : Option Bytes := none
  doNotPromptForAuthenticator : Option Bytes := none
  encryptedKeyfilePassphrase : Option Bytes := none
  samePassphraseEveryKeyfile : Option Bytes := none
  encryptedKeyfilePassphraseAttempts : Option Bytes := none
  mountPoint : MountPoint
  /-- What the patterns `*` and `.*` expand to in a directory. -/
  files : Bytes → List Bytes
  /-- `test -f` -/
  regular : Bytes → Bool
  /-- Before and after the prompt for an authenticator. -/
  enumerateStatus : Fin 2 → ℕ
  /-- An empty line also where the input has ended. -/
  typed : ℕ → Bytes
  generateStatus : ℕ → ℕ

/-! ## What is printed -/

def ramfsMountPoint : Bytes := text "/tmp/khefin-8931c13b-8f4f-468e-b372-967e12955c54"

inductive Message
  | skippingKhefin | insertAuthenticator | withoutAuthenticator | skippingHook | unexpectedPath
  | hardcodedPassphrase
  | passphraseForAll (directory : Bytes)
  | passphraseFor (keyfile : Bytes)
  | newline
  | trying (keyfile : Bytes)
  | tooMany (attempts : Bytes)
  deriving DecidableEq

namespace Message

def text : Message → Bytes
  | skippingKhefin => Shell.text "No authenticator device found; skipping khefin.\n"
  | insertAuthenticator =>
    Shell.text "Insert your authenticator device and press any key to continue.\n"
  | withoutAuthenticator =>
    Shell.text "If you press a key without inserting your authenticator, " ++
      Shell.text "the khefin hook will be skipped.\n"
  | skippingHook => Shell.text "No authenticator device found; skipping khefin hook.\n"
  | unexpectedPath => ramfsMountPoint ++
    Shell.text " unexpectedly exists and is not an empty directory; skipping khefin hook.\n"
  | hardcodedPassphrase => Shell.text "Using hardcoded passphrase for khefin.\n"
  | passphraseForAll directory =>
    Shell.text "Enter your passphrase for all keyfiles in " ++ directory ++ Shell.text ": "
  | passphraseFor keyfile => Shell.text "Enter your passphrase for " ++ keyfile ++ Shell.text ": "
  | newline => [CLibrary.newline]
  | trying keyfile => Shell.text "Trying to decrypt " ++ keyfile ++ Shell.text ".\n"
  | tooMany attempts => Shell.text "Too many failed passphrase attempts (maximum of " ++
    trimmed attempts ++ Shell.text ").\n"

def announcesSkip : Message → Bool
  | skippingKhefin | skippingHook | unexpectedPath => true
  | _ => false

end Message

inductive Event
  | printf (message : Message)
  | mkdir
  | mount
  | read
  | generate (keyfile passphrase : Bytes) (status : ℕ)
  | exportCryptkey
  deriving DecidableEq

/-! ## The variables -/

structure State where
  /-- `encrypted_keyfile_passphrase` -/
  passphrase : Option Bytes
  passphraseFile : Option Bytes := none
  /-- Files can be made below the mount point. -/
  isDirectory : Bool := false
  passphraseTries : ℕ := 0
  exitLoop : Bool := false
  cryptkey : Bool := false
  reads : ℕ := 0
  generates : ℕ := 0
  trace : List Event := []

namespace State

def record (events : List Event) (s : State) : State := { s with trace := s.trace ++ events }

def printf (message : Message) (s : State) : State := s.record [.printf message]

end State

/-- How the hook is left: it returns, or it takes the whole shell with it. -/
inductive Ending | returned | shellExited
  deriving DecidableEq

structure Outcome where
  ending : Ending
  state : State

/-! ## Before the loop -/

def undefined : Bytes := text "undefined 110d43d6-f20a-4f29-bae4-1a58f813980c"

/-- `"${variable-$undefined}" != "$undefined"` -/
def isDefined (value : Option Bytes) : Bool := value.getD undefined != undefined

/-- `"${variable:-$undefined}" != "$undefined"` -/
def isDefinedNonEmpty (value : Option Bytes) : Bool := isDefined (value.filter (· ≠ []))

/-- The hook goes on, or returns without an authenticator. -/
def checkAuthenticator (boot : Boot) (s : State) : State ⊕ State :=
  if boot.enumerateStatus 0 = ExitStatus.noDevices.code then
    if isDefinedNonEmpty boot.doNotPromptForAuthenticator then .inr (s.printf .skippingKhefin)
    else
      let s := (s.printf .insertAuthenticator).printf .withoutAuthenticator
      if boot.enumerateStatus 1 = ExitStatus.noDevices.code then .inr (s.printf .skippingHook)
      else .inl s
  else .inl s

/-- The announcements are not followed by a `return`. -/
def checkMountPoint (boot : Boot) (s : State) : State :=
  if boot.mountPoint = .nonEmptyDirectory then s.printf .unexpectedPath
  else if boot.mountPoint ≠ .absent then s.printf .unexpectedPath
  else s

def mountRamfs (boot : Boot) (s : State) : State :=
  { s.record [.mkdir, .mount] with isDirectory := boot.mountPoint ≠ .otherFile }

namespace Boot

def passphrasePromptOption (boot : Boot) : PromptOption :=
  if isDefined boot.encryptedKeyfilePassphrase then .never
  else if isDefinedNonEmpty boot.samePassphraseEveryKeyfile then .once
  else .always

def announceHardcoded (boot : Boot) (s : State) : State :=
  if boot.passphrasePromptOption = .never then s.printf .hardcodedPassphrase else s

def directory (boot : Boot) : Bytes := boot.encryptedKeyfileDir.getD (text "/keyfiles")

/-- `[ word -gt 0 ]`, which a word that is no number does not pass. -/
def isPositive (word : Bytes) : Bool := (testInteger word).any (0 < ·)

def attempts (boot : Boot) : Bytes :=
  let given := boot.encryptedKeyfilePassphraseAttempts.getD (text "NaN")
  if isPositive given then given else text "3"

/-- `[ tries -ge word ]` -/
def hasTried (boot : Boot) (tries : ℕ) : Bool := (testInteger boot.attempts).any (· ≤ (tries : ℤ))

end Boot

/-! ## The loops -/

def promptMessages (boot : Boot) (keyfile : Bytes) : List Event :=
  match boot.passphrasePromptOption with
  | .never => []
  | .once => [.printf (.passphraseForAll boot.directory)]
  | .always => [.printf (.passphraseFor keyfile)]

def readPassphrase (boot : Boot) (keyfile : Bytes) (s : State) : State :=
  if isDefined s.passphrase then s
  else
    { s.record (promptMessages boot keyfile ++ [.read, .printf .newline]) with
      passphrase := some (trimmed (boot.typed s.reads)), reads := s.reads + 1 }

def announceTry (boot : Boot) (keyfile : Bytes) (s : State) : State :=
  if boot.passphrasePromptOption ≠ .always then s.printf (.trying keyfile) else s

/-- The passphrase file is written, read by `khefin generate` and emptied again. -/
def generate (boot : Boot) (keyfile : Bytes) (s : State) : State × ℕ :=
  let passphrase := s.passphrase.getD []
  let result := boot.generateStatus s.generates
  let s := { s with passphraseFile := some passphrase }
  let s := { s.record [.generate keyfile passphrase result] with generates := s.generates + 1 }
  ({ s with passphraseFile := some [] }, result)

def evaluateResult (boot : Boot) (result : ℕ) (s : State) : State :=
  if result = ExitStatus.badPassphrase.code ∧ boot.passphrasePromptOption ≠ .never then
    { s with passphrase := none }
  else { s with exitLoop := true }

def checkTries (boot : Boot) (s : State) : State :=
  if boot.hasTried s.passphraseTries then
    { s.printf (.tooMany boot.attempts) with exitLoop := true }
  else s

/-- What stands in a turn before `khefin generate`. -/
def prompted (boot : Boot) (keyfile : Bytes) (s : State) : State :=
  announceTry boot keyfile
    (readPassphrase boot keyfile { s with passphraseTries := s.passphraseTries + 1 })

/-- What stands behind it: the loop goes round again or ends, or the hook returns. -/
def judge (boot : Boot) (result : ℕ) (s : State) : State ⊕ (State ⊕ Outcome) :=
  if result = ExitStatus.success.code then
    .inr (.inr ⟨.returned, { s.record [.exportCryptkey] with cryptkey := true }⟩)
  else
    let s := checkTries boot (evaluateResult boot result s)
    if s.exitLoop = false then .inl s else .inr (.inl s)

/-- A turn of the inner loop. Where no file can be made, `khefin generate` is not started, and
the redirection of `:`, a special built-in utility, is an error that ends the shell. -/
def tryPassphrase (boot : Boot) (keyfile : Bytes) (s : State) : State ⊕ (State ⊕ Outcome) :=
  let s := prompted boot keyfile s
  if s.isDirectory = false then .inr (.inr ⟨.shellExited, s⟩)
  else
    let (s, result) := generate boot keyfile s
    judge boot result s

def startKeyfile (boot : Boot) (s : State) : State :=
  { s with
    passphraseTries := 0, exitLoop := false,
    passphrase := if boot.passphrasePromptOption = .always then none else s.passphrase }

/-- A turn of the outer loop. -/
def tryKeyfile (fuel : ℕ) (boot : Boot) (keyfile : Bytes) (s : State) : Option (State ⊕ Outcome) :=
  if boot.regular keyfile = false then some (.inl s)
  else repeatWhile (tryPassphrase boot keyfile) fuel (startKeyfile boot s)

def keyfileLoop (fuel : ℕ) (boot : Boot) (s : State) : Option (State ⊕ Outcome) :=
  forEach (tryKeyfile fuel boot) (boot.files boot.directory) s

/-! ## The hook -/

def prepare (boot : Boot) (s : State) : State :=
  boot.announceHardcoded (mountRamfs boot (checkMountPoint boot s))

def finish (left : State ⊕ Outcome) : Outcome :=
  left.elim (fun s => ⟨.returned, { s with passphrase := none }⟩) id

def runHook (fuel : ℕ) (boot : Boot) : Option Outcome :=
  match checkAuthenticator boot { passphrase := boot.encryptedKeyfilePassphrase } with
  | .inr s => some ⟨.returned, s⟩
  | .inl s => (keyfileLoop fuel boot (prepare boot s)).map finish

end Khefin.BootHook
