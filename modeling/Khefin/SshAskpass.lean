import Khefin.Invocation
import Khefin.PosixRegex
import Khefin.ShellWords

/-! # The script that answers the prompts of ssh-agent

A run ends with one `khefin generate`, or stops before it. `set -e` is off in a command
substitution and around `khefin enumerate`, so a notification that fails stops the script only
where it stands on its own. -/

namespace Khefin.SshAskpass
open CLibrary PosixRegex Shell

/-- What the script finds where it runs: the environment, the files and the other programs. -/
structure Host where
  home : Bytes
  /-- `F2HS_SSH_ASKPASS_KEYFILE` -/
  keyfileSetting : Option Bytes
  /-- `F2HS_SSH_ASKPASS_NOTIFY` -/
  notifySetting : Option Bytes
  readable : Bytes → Bool
  regular : Bytes → Bool
  enumerateStatus : ℕ
  /-- The lines of `ssh-keygen -l -f`, or the status with which it fails. -/
  sshKeygen : Bytes → Except ℕ (List Bytes)
  /-- The status of a command that is given a title and a message. -/
  notifyStatus : Bytes → Bytes → Bytes → ℕ

/-- The script ends with `status`, after it has printed or notified `messages`. -/
structure Stop where
  status : ℕ
  messages : List Bytes
  deriving DecidableEq

/-- The command a run ends with, and whether its output is the script's. -/
structure Generation where
  command : List Bytes
  shown : Bool
  deriving DecidableEq

/-! ## The parts of the script -/

def printUsage (name : CString) : Stop :=
  ⟨1, [(programBasename name).bytes ++ text " get-passphrase \"$keyfile_path\"\n"]⟩

def Host.notifyCommand (host : Host) : Bytes := host.notifySetting.getD (text "notify-send -t 5000")

/-- With `toStderr` the redefined function, which only prints. -/
def notify (host : Host) (toStderr : Bool) (title message : Bytes) : Except Stop Unit :=
  if toStderr ∨ host.notifyStatus host.notifyCommand title message = 0 then .ok ()
  else .error ⟨host.notifyStatus host.notifyCommand title message, []⟩

/-- `cut -f 2 -d ' '` on a line. -/
def secondField (line : Bytes) : Bytes :=
  match line.splitOn 0x20 with
  | _ :: field :: _ => field
  | _ => line

def failureTitle : Bytes := text "khefin ssh-askpass failure"

def getFingerprintForKeyfile (host : Host) (keyfile : Bytes) : Except Stop Bytes :=
  if host.regular keyfile = false then
    .error ⟨1, [failureTitle, text "No such keyfile: " ++ keyfile]⟩
  else
    match host.sshKeygen keyfile with
    | .error status => .error ⟨status, []⟩
    | .ok fingerprints => .ok (substituted (fingerprints.map secondField))

def generateCommand (f2hsKeyfile mixin : Bytes) : List Bytes :=
  [text "khefin", text "generate", text "-f", f2hsKeyfile, text "-m", mixin, text "-p", []]

/-! ## From a prompt to a keyfile -/

def confirmation : Bytes := text " (will confirm each use)"

def enterPassphraseFor : Bytes := text "Enter passphrase for "

def colon : UInt8 := 0x3a

/-- ` \(will confirm each use\)(:[[:space:]]*)$` -/
def confirmationPattern : Regex UInt8 :=
  .literally confirmation (.cat (.group 1 (.literally [colon] (.star (.symbol isSpace)))) .lineEnd)

/-- `Enter passphrase for (.+):.*$` -/
def passphrasePattern : Regex UInt8 :=
  .literally enterPassphraseFor
    (.cat (.group 1 (.plus .any)) (.literally [colon] (.cat (.star .any) .lineEnd)))

/-- `s/…/\1/` -/
def keepGroup (pattern : Regex UInt8) (line : Bytes) : Bytes :=
  substitute pattern (backreference · 1) line

/-- The `sed` script, on a line. -/
def resolveLine (line : Bytes) : Bytes :=
  keepGroup passphrasePattern (keepGroup confirmationPattern line)

def keyfileOfPrompt (prompt : Bytes) : Bytes := substituted ((lines prompt).map resolveLine)

/-- `grep '^Allow use of key'` -/
def allowsUse (prompt : Bytes) : Bool :=
  (lines prompt).any ((text "Allow use of key").isPrefixOf ·)

/-! ## The script -/

/-- The fingerprint, the notification and the command with which two of the branches end. -/
def generateFor (host : Host) (toStderr : Bool) (title f2hsKeyfile keyfile : Bytes) :
    Except Stop Generation := do
  let fingerprint ← getFingerprintForKeyfile host keyfile
  notify host toStderr title
    (text "Keyfile " ++ keyfile ++ text " (fingerprint " ++ fingerprint ++ text ").")
  return ⟨generateCommand f2hsKeyfile fingerprint, true⟩

def getPassphrase : Bytes := text "get-passphrase"

/-- What the script does once its arguments and the authenticator are checked. -/
def answer (host : Host) (toStderr : Bool) (f2hsKeyfile prompt keyfile : Bytes) :
    Except Stop Generation :=
  if prompt = getPassphrase then
    generateFor host toStderr (text "Trigger authenticator to get passphrase") f2hsKeyfile keyfile
  else if allowsUse prompt then do
    notify host toStderr (text "Trigger authenticator to allow use of key") prompt
    return ⟨generateCommand f2hsKeyfile [], false⟩
  else
    generateFor host toStderr (text "Trigger authenticator to add key to ssh agent") f2hsKeyfile
      (keyfileOfPrompt prompt)

def Host.f2hsKeyfile (host : Host) : Bytes :=
  host.keyfileSetting.getD (host.home ++ text "/.ssh/khefin-askpass-keyfile")

/-- A run of the script, called by `name`. -/
def askpass (host : Host) (name : CString) (arguments : List Bytes) : Except Stop Generation :=
  let prompt := arguments.getD 0 []
  let keyfile := arguments.getD 1 []
  if prompt = [] then .error (printUsage name)
  else if host.readable host.f2hsKeyfile = false then
    .error ⟨1, [text "khefin encrypted keyfile does not exist at " ++ host.f2hsKeyfile ++
      text ".\nYou can create it with khefin enrol."]⟩
  else if prompt = getPassphrase ∧ keyfile = [] then .error (printUsage name)
  else if host.enumerateStatus = ExitStatus.noDevices.code then
    .error ⟨1, [failureTitle, text "No compatible FIDO2 authenticator device is connected."]⟩
  else
    answer host (prompt = getPassphrase ∧ host.notifySetting.getD [] = []) host.f2hsKeyfile prompt
      keyfile

end Khefin.SshAskpass
