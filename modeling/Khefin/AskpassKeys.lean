import Khefin.CommandLineMeanings
import Khefin.PromptResolution

/-! # The passphrases of SSH keys

The passphrase of an SSH key is what the keyfile gives for the fingerprint of the key. The keyfile
itself has the empty passphrase, so that only the authenticator stands in the way. -/

namespace Khefin.SshAskpass
open CLibrary ExitingPrograms Shell Simulations Registers

/-! ## Calls of the script -/

/-- A call of the script, and what the program finds that it starts. -/
structure Call where
  host : Host
  name : CString
  arguments : List Bytes
  platform : Platform
  scans : platform.getoptLong = getoptLong
  files : CString → Option Bytes
  stdin : Bytes := []

/-- `khefin generate -f "$f2hs_keyfile" -m "$fingerprint" -p ""` -/
def generationLine (f2hsKeyfile mixin : Bytes) : CommandLine :=
  .generateWith [.separate .file (cString f2hsKeyfile), .separate .mixin (cString mixin),
    .separate .passphrase (literal "")]

namespace Call

def prompt (c : Call) : Bytes := c.arguments.getD 0 []

def result (c : Call) : Except Stop Generation := askpass c.host c.name c.arguments

def launch (c : Call) (g : Generation) : Launch where
  platform := c.platform
  argv := g.command.map cString
  files := c.files
  stdin := c.stdin

/-- The start that a call ends with. -/
def starts (c : Call) : List Launch :=
  match c.result with
  | .ok g => [c.launch g]
  | .error _ => []

/-- What the generation adds to the output of the script. -/
def output (c : Call) : Bytes :=
  match c.result with
  | .ok g => if g.shown then (c.launch g).output else []
  | .error _ => []

/-- The script ends with the status of the program. -/
def Succeeds (c : Call) : Prop := ∃ l ∈ c.starts, l.status = some .success

/-- The SSH key that is asked for; for the use of one that has been added there is none. -/
def keyfile (c : Call) : Option Bytes :=
  if c.prompt = getPassphrase then some (c.arguments.getD 1 [])
  else if allowsUse c.prompt then none
  else some (keyfileOfPrompt c.prompt)

def mixin (c : Call) : Except Stop Bytes :=
  match c.keyfile with
  | none => .ok []
  | some keyfile => getFingerprintForKeyfile c.host keyfile

end Call

section Calls

variable {c : Call} {g : Generation} {l : Launch}

/-- Every command is the same but for the mixin, and it is shown unless the use of a key is asked
for. -/
theorem Call.result_spec (h : c.result = .ok g) : ∃ mixin, c.mixin = .ok mixin ∧
    g = ⟨generateCommand c.host.f2hsKeyfile mixin, c.keyfile.isSome⟩ := by
  have hanswer : ∃ toStderr, answer c.host toStderr c.host.f2hsKeyfile c.prompt
      (c.arguments.getD 1 []) = .ok g := by
    rw [Call.result, askpass] at h
    split_ifs at h
    exact ⟨_, h⟩
  obtain ⟨toStderr, hanswer⟩ := hanswer
  unfold answer at hanswer
  unfold Call.mixin Call.keyfile
  split_ifs at hanswer ⊢ with hcommand hallows
  · exact generateFor_eq_ok hanswer
  · obtain ⟨_, -, hanswer⟩ := except_bind_eq_ok.mp hanswer
    exact ⟨[], rfl, (Except.ok.inj hanswer).symm⟩
  · exact generateFor_eq_ok hanswer

theorem argv_generationLine (f2hsKeyfile mixin : Bytes) :
    (generationLine f2hsKeyfile mixin).argv = (generateCommand f2hsKeyfile mixin).map cString := by
  rw [generationLine, CommandLine.argv, generateCommand]
  rfl

theorem Call.starts_spec (hl : l ∈ c.starts) : ∃ mixin, c.mixin = .ok mixin ∧
    l.argv = (generationLine c.host.f2hsKeyfile mixin).argv ∧ l.platform = c.platform ∧
    c.starts = [l] ∧ c.output = if c.keyfile.isSome then l.output else [] := by
  unfold Call.starts Call.output at *
  cases hresult : c.result with
  | error e => simp [hresult] at hl
  | ok g =>
    obtain ⟨mixin, hmixin, rfl⟩ := result_spec hresult
    simp only [hresult, List.mem_singleton] at hl ⊢
    subst hl
    exact ⟨mixin, hmixin, (argv_generationLine _ _).symm, rfl, rfl, rfl⟩

theorem Call.generates (hl : l ∈ c.starts) (hstatus : l.status = some .success) :
    ∃ mixin, c.mixin = .ok mixin ∧
      l.Generates (cString c.host.f2hsKeyfile) (literal "") (some (cString mixin)) := by
  obtain ⟨mixin, hmixin, hargv, hplatform, -⟩ := starts_spec hl
  obtain ⟨passphrase, hgenerates, hgiven⟩ := generates_of_written
    (by rw [hplatform, c.scans]) hargv rfl rfl rfl hstatus
  obtain rfl := hgiven _ rfl
  exact ⟨mixin, hmixin, hgenerates⟩

end Calls

/-! ## Sessions -/

/-- A call of the script, or any other start of the program. -/
inductive Activity
  | call (c : Call)
  | start (l : Launch)

def Activity.starts : Activity → List Launch
  | call c => c.starts
  | start l => [l]

def startsOf (activities : List Activity) : List Launch := activities.flatMap Activity.starts

/-- The activities come after an enrolment, and leave its keyfile as it is. -/
structure Session (lib : Libraries) (path : CString) (s : Sealing) (first : Launch)
    (activities : List Activity) : Prop where
  run : ∃ files files', Run (Launch.Step lib) files (first :: startsOf activities) files'
  written : first.deed = .write path s
  kept : ∀ l ∈ startsOf activities, ¬l.deed.Changes path

/-- A device has answered what the sealing asks for this mixin, and the answer is shown for an SSH
key only. -/
structure Call.Answered (c : Call) (lib : Libraries) (s : Sealing) (mixin : Bytes)
    (challenge : Challenge) (secret : Bytes) : Prop where
  asked : c.mixin = .ok mixin
  challenged : s.challenge lib.sodium (some (cString mixin)) = some challenge
  answered : ∃ l ∈ c.starts, l.AnsweredBy challenge secret
  output : c.output = if c.keyfile.isSome then hexLine secret else []

section Sessions

variable {lib : Libraries} {path : CString} {s : Sealing} {first : Launch}
  {activities : List Activity} {c c' : Call} {P w : Bytes}

theorem mem_startsOf (hc : .call c ∈ activities) {l : Launch} (hl : l ∈ c.starts) :
    l ∈ startsOf activities := List.mem_flatMap.mpr ⟨_, hc, hl⟩

theorem Session.answered (hlib : lib.Ideal) (h : Session lib path s first activities)
    (hc : .call c ∈ activities) (hpath : cString c.host.f2hsKeyfile = path) (hsucceeds : c.Succeeds) :
    s.passphrase = literal "" ∧
      ∃ mixin challenge secret, c.Answered lib s mixin challenge secret := by
  obtain ⟨l, hl, hstatus⟩ := hsucceeds
  obtain ⟨mixin, hmixin, hgenerates⟩ := Call.generates hl hstatus
  rw [hpath] at hgenerates
  obtain ⟨challenge, secret, hdeed, hanswered, hout⟩ := use_of_generates hgenerates hstatus
  obtain ⟨files, files', hrun⟩ := h.run
  obtain ⟨hpassphrase, hchallenge⟩ :=
    fits_of_kept hlib hrun h.written h.kept (mem_startsOf hc hl) hdeed
  obtain ⟨-, -, -, -, -, hshown⟩ := Call.starts_spec hl
  refine ⟨hpassphrase.symm, mixin, challenge, secret, hmixin, hchallenge, ⟨l, hl, hanswered⟩, ?_⟩
  rw [hshown, hout]

end Sessions

end Khefin.SshAskpass
