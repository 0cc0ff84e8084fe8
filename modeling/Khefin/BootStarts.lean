import Khefin.CommandLineMeanings
import Khefin.KeyfileRuns
import Khefin.PassphraseChannels

/-! # The program at boot

For each attempt the hook starts `khefin generate` with a keyfile and the file that it has written
the passphrase to. The exit code is all that it looks at. -/

namespace Khefin.BootHook
open CLibrary ExitingPrograms Shell

/-! ## The starts of a run -/

/-- A start of `khefin generate`, and the exit code that the hook got. -/
structure Start where
  keyfile : Bytes
  passphrase : Bytes
  code : ℕ
  deriving DecidableEq

def Event.start : Event → Option Start
  | .generate keyfile passphrase status => some ⟨keyfile, passphrase, status⟩
  | _ => none

def State.starts (s : State) : List Start := s.trace.filterMap Event.start

def Turn.starts (t : Turn) : List Start :=
  t.attempts.map fun a => ⟨t.keyfile, a.passphrase, a.status⟩

theorem Event.start_eq_none {e : Event} (h : e.isWork = false) : e.start = none := by
  cases e <;> first | rfl | cases h

theorem State.starts_eq (s : State) : s.starts = s.work.filterMap Event.start := by
  rw [starts, work]
  induction s.trace with
  | nil => rfl
  | cons e trace ih =>
    rw [List.filter_cons]
    split
    · rw [List.filterMap_cons, List.filterMap_cons, ih]
    · next h => rw [List.filterMap_cons, Event.start_eq_none (Bool.eq_false_iff.mpr h), ih]

theorem Turn.filterMap_events (t : Turn) : t.events.filterMap Event.start = t.starts := by
  rw [Turn.events, Turn.starts]
  induction t.attempts with
  | nil => rfl
  | cons a attempts ih =>
    rw [List.flatMap_cons, List.filterMap_append, ih, Attempt.events]
    cases a.prompted <;> rfl

theorem filterMap_turns (turns : List Turn) :
    (turns.flatMap Turn.events).filterMap Event.start = turns.flatMap Turn.starts := by
  induction turns with
  | nil => rfl
  | cons t turns ih =>
    rw [List.flatMap_cons, List.flatMap_cons, List.filterMap_append, t.filterMap_events, ih]

theorem IsFair.starts {mayPrompt : Attempt → Prop} {boot : Boot} {turns : List Turn} {o : Outcome}
    (h : IsFair mayPrompt boot turns o) : o.state.starts = turns.flatMap Turn.starts := by
  rw [State.starts_eq, h.work, filterMap_turns]

/-! ## The machine -/

def passphraseFile : CString :=
  cString (ramfsMountPoint ++ text "/c43ae4e3-9a88-475f-a178-2adf37fe635a")

def diskKeyFile : CString :=
  cString (ramfsMountPoint ++ text "/5a7b3b6c-d8d0-435d-929d-82d9f3d6b8e9")

/-- What the starts of the program find, the `n`-th on the platform `n`. -/
structure Machine where
  platform : ℕ → Platform
  scans : ∀ n, (platform n).getoptLong = getoptLong
  files : CString → Option Bytes
  stdin : ℕ → Bytes

/-- `khefin generate -f "$encrypted_keyfile" -r "$encrypted_keyfile_passphrase_file"` -/
def generateLine (keyfile : CString) : CommandLine :=
  .generateWith [.separate .file keyfile, .separate .passphraseFile passphraseFile]

namespace Machine

/-- The file for the disk key is emptied before, to take what is printed. -/
def launch (m : Machine) (n : ℕ) (start : Start) : Launch where
  platform := m.platform n
  argv := (generateLine (cString start.keyfile)).argv
  files := Function.update (Function.update m.files diskKeyFile (some [])) passphraseFile
    (some start.passphrase)
  stdin := m.stdin n

/-- Each start has ended with the exit code that the hook got. -/
def Answers (m : Machine) (starts : List Start) : Prop :=
  ∀ n start, starts[n]? = some start → (m.launch n start).LeavesCode start.code

/-- What the last start has left in the file for the disk key. -/
def diskKey (m : Machine) (starts : List Start) : Option Bytes :=
  starts.getLast?.map fun start => (m.launch (starts.length - 1) start).output

def Has (m : Machine) (lib : Libraries) : Prop := ∀ n, (m.platform n).Has lib

/-- A keyfile, which is none of the files that the hook writes, holds the sealing. -/
structure Sealed (m : Machine) (lib : Libraries) (keyfile : Bytes) (s : Sealing) : Prop where
  notPassphraseFile : cString keyfile ≠ passphraseFile
  notDiskKeyFile : cString keyfile ≠ diskKeyFile
  holds : ∃ data, m.files (cString keyfile) = some data ∧ Holds lib data s

end Machine

/-! ## What a start reads -/

/-- What the program makes of the passphrase file. -/
def offered (passphrase : Bytes) : CString := strndup passphrase longestValidPassphrase

/-- The program reads a file of this size. -/
def IsReadable (passphrase : Bytes) : Prop :=
  passphrase ≠ [] ∧ passphrase.length ≤ largestValidPayloadSizeBytes

instance (passphrase : Bytes) : Decidable (IsReadable passphrase) :=
  inferInstanceAs (Decidable (_ ∧ _))

def invocationOf (start : Start) : InvocationState where
  subcommand := .generate
  file := some (cString start.keyfile)
  passphrase := some (offered start.passphrase)

theorem strndup_min (passphrase : Bytes) :
    strndup passphrase (if passphrase.length > longestValidPassphrase then longestValidPassphrase
      else passphrase.length) = offered passphrase := strndup_limit _ _

section Reading

variable {m : Machine} {n : ℕ} {start : Start} {lib : Libraries}

theorem launch_files : (m.launch n start).files =
    Function.update (Function.update m.files diskKeyFile (some [])) passphraseFile
      (some start.passphrase) := rfl

theorem launch_files_passphraseFile (m : Machine) (n : ℕ) (start : Start) :
    (m.launch n start).files passphraseFile = some start.passphrase := by
  rw [launch_files, Function.update_self]

theorem Machine.Sealed.launch_files {s : Sealing} (h : m.Sealed lib start.keyfile s) :
    (m.launch n start).files (cString start.keyfile) = m.files (cString start.keyfile) := by
  rw [BootHook.launch_files, Function.update_of_ne h.notPassphraseFile,
    Function.update_of_ne h.notDiskKeyFile]

theorem launch_getoptLong : (m.launch n start).platform.getoptLong (m.launch n start).argv =
    ⟨[⟨'f', cString start.keyfile⟩, ⟨'r', passphraseFile⟩], [literal "generate"]⟩ := by
  rw [Machine.launch, m.scans n, getoptLong_argv]
  rfl

/-- The two options of a start, as the parser takes them in. -/
theorem parseOptions_launch (P : Platform) (w : World) :
    parseOptions P [⟨'f', cString start.keyfile⟩, ⟨'r', passphraseFile⟩]
      ({ subcommand := .generate }, false) w = (do
        let file ← lift (strdupOrExit P (cString start.keyfile) "file path in invocation state")
        let f ← readFile P passphraseFile
        let passphrase ← lift (strndupOrExit P f.data
          (if f.data.length > longestValidPassphrase then longestValidPassphrase
            else f.data.length) "passphrase in invocation state")
        return ({ subcommand := .generate, file := some file, passphrase := some passphrase },
          false) : Program (InvocationState × Bool)) w := by
  have hf : ReportedOption.letter ⟨'f', cString start.keyfile⟩ = 'f' :=
    (by decide : Char.ofNat (lowercase 'f'.toNat) = 'f')
  have hr : ReportedOption.letter ⟨'r', passphraseFile⟩ = 'r' :=
    (by decide : Char.ofNat (lowercase 'r'.toNat) = 'r')
  simp [parseOptions, parseOption, hf, hr]

variable {invocation : InvocationState} {w : World}

theorem splitsInto_launch : SplitsInto (m.launch n start).platform (m.launch n start).argv .generate
    [⟨'f', cString start.keyfile⟩, ⟨'r', passphraseFile⟩] [literal "generate"] :=
  ⟨⟨_, _, _, rfl, rfl⟩, launch_getoptLong⟩

theorem readFile_spec {P : Platform} {path : CString} {f : EncodedFile} {w w' : World}
    (h : readFile P path w = .ok f w') : w' = w ∧ w.files path = some f.data ∧ IsReadable f.data := by
  rw [readFile, bind_of_ok (get_apply w)] at h
  obtain ⟨hcontent, rfl⟩ := lift_eq_ok.mp h
  obtain ⟨hdata, -, hne, hsize⟩ := readContent_spec hcontent
  exact ⟨rfl, hdata, hne, hsize⟩

/-- If the options are accepted, the passphrase file has been read. -/
theorem parseOptions_launch_spec {P : Platform} {state : InvocationState × Bool} {w₁ : World}
    (hfile : w.files passphraseFile = some start.passphrase)
    (h : parseOptions P [⟨'f', cString start.keyfile⟩, ⟨'r', passphraseFile⟩]
      ({ subcommand := .generate }, false) w = .ok state w₁) :
    state = (invocationOf start, false) ∧ w₁ = w ∧ IsReadable start.passphrase := by
  rw [parseOptions_launch] at h
  obtain ⟨file, w₂, hfirst, hrest⟩ := bind_eq_ok.mp h
  obtain ⟨f, w₃, hread, hrest⟩ := bind_eq_ok.mp hrest
  obtain ⟨passphrase, w₄, hsecond, hreturned⟩ := bind_eq_ok.mp hrest
  obtain ⟨hkeyfile, rfl⟩ := lift_eq_ok.mp hfirst
  obtain ⟨rfl, hdata, hreadable⟩ := readFile_spec hread
  obtain ⟨hpassphrase, rfl⟩ := lift_eq_ok.mp hsecond
  obtain ⟨rfl, rfl⟩ := EStateM.Result.ok.inj hreturned
  obtain ⟨-, rfl⟩ := strdupOrExit_eq_ok.mp hkeyfile
  obtain ⟨-, rfl⟩ := strndupOrExit_eq_ok.mp hpassphrase
  have hcontent : f.data = start.passphrase := Option.some.inj (hdata.symm.trans hfile)
  rw [hcontent] at hreadable ⊢
  exact ⟨by rw [strndup_min, invocationOf], rfl, hreadable⟩

/-- A start that gets past the parser has read the passphrase file, and needs nothing else. -/
theorem eq_of_parsed (h : (m.launch n start).parsed = some (invocation, w)) :
    invocation = invocationOf start ∧ IsReadable start.passphrase := by
  unfold Launch.parsed at h
  split at h
  · simp at h
  split at h
  · next invocation' w' hparse =>
    obtain ⟨rfl, rfl⟩ := Prod.mk.inj (Option.some.inj h)
    have hm : (m.launch n start).platform.malloc sizeofInvocationState = true := by
      obtain ⟨_, _, hm, -⟩ := bind_eq_ok.mp hparse
      exact mallocOrExit_eq_ok.mp (lift_eq_ok.mp hm).1
    obtain ⟨name, hrun⟩ := parseArguments_of_splits hm splitsInto_launch (w := (m.launch n start).world)
    rw [hrun] at hparse
    obtain ⟨state, w₁, hoptions, hcomplete⟩ := bind_eq_ok.mp hparse
    have hfile : (m.launch n start).world.files passphraseFile = some start.passphrase :=
      launch_files_passphraseFile m n start
    obtain ⟨rfl, rfl, hreadable⟩ := parseOptions_launch_spec hfile hoptions
    obtain ⟨rfl, -⟩ := EStateM.Result.ok.inj hcomplete
    exact ⟨rfl, hreadable⟩
  · simp at h

/-- A start with a file that can be read gets past the parser. -/
theorem parsed_of_readable (hsodium : (m.platform n).sodiumInit = true)
    (hreading : (m.platform n).reading = .faithful)
    (hmemory : (m.platform n).Allocates largestValidPayloadSizeBytes)
    (hkeyfile : start.keyfile.length < largestValidPayloadSizeBytes)
    (hreadable : IsReadable start.passphrase) :
    (m.launch n start).parsed = some (invocationOf start, (m.launch n start).world) := by
  have hpath : (m.platform n).malloc ((cString start.keyfile).length + 1) = true :=
    hmemory _ (Nat.lt_of_le_of_lt (cString_length_le _) hkeyfile)
  have hoffered : (m.platform n).malloc ((offered start.passphrase).length + 1) = true :=
    hmemory _ ((Nat.succ_le_succ (strndup_length_le _ _)).trans (by decide))
  have hread : readFile (m.platform n) passphraseFile (m.launch n start).world =
      .ok ⟨passphraseFile, start.passphrase⟩ (m.launch n start).world :=
    readFile_of_stored hreading hmemory (hmemory _ (by decide))
      (launch_files_passphraseFile m n start) hreadable.2 hreadable.1
  have hoptions : parseOptions (m.platform n) [⟨'f', cString start.keyfile⟩, ⟨'r', passphraseFile⟩]
      ({ subcommand := .generate }, false) (m.launch n start).world =
        .ok (invocationOf start, false) (m.launch n start).world := by
    rw [parseOptions_launch, bind_of_ok (lift_eq_ok.mpr ⟨strdupOrExit_of hpath _, rfl⟩),
      bind_of_ok hread]
    rw [bind_of_ok (lift_eq_ok.mpr ⟨strndupOrExit_of (strndup_min _ ▸ hoffered) _, rfl⟩),
      strndup_min]
    rfl
  have hparse : parseArgumentsAndGetPassphrase (m.launch n start).platform (m.launch n start).argv
      (m.launch n start).world = .ok (invocationOf start) (m.launch n start).world :=
    parseArguments_of_parsed (hmemory _ (by decide)) splitsInto_launch hoptions (.inr rfl) rfl rfl
  have hstarted : ¬(m.launch n start).platform.sodiumInit = false := by
    rw [Bool.not_eq_false]
    exact hsodium
  unfold Launch.parsed
  rw [if_neg hstarted, hparse]

end Reading

/-! ## How a start ends -/

/-- The program and the authenticator are ready for a keyfile of this sealing. -/
structure Machine.Ready (m : Machine) (lib : Libraries) (n : ℕ) (keyfile : Bytes) (s : Sealing) :
    Prop where
  sodiumInit : (m.platform n).sodiumInit = true
  reading : (m.platform n).reading = .faithful
  memory : (m.platform n).Allocates largestValidPayloadSizeBytes
  keyfileFits : keyfile.length < largestValidPayloadSizeBytes
  reaches : ∃ challenge secret, s.challenge lib.sodium none = some challenge ∧
    ∀ start, (m.launch n start).Reaches s challenge secret

/-- Nothing but a wrong passphrase is in the way of opening the keyfile. -/
structure Machine.Serves (m : Machine) (lib : Libraries) (n : ℕ) (keyfile : Bytes) (s : Sealing) :
    Prop extends m.Sealed lib keyfile s, m.Ready lib n keyfile s

/-- The passphrase is that of the sealing, as far as the program reads it. -/
def Start.IsRight (start : Start) (s : Sealing) : Prop :=
  IsReadable start.passphrase ∧ offered start.passphrase = s.passphrase

instance (start : Start) (s : Sealing) : Decidable (start.IsRight s) :=
  inferInstanceAs (Decidable (_ ∧ _))

section Ends

variable {m : Machine} {n : ℕ} {start : Start} {lib : Libraries} {s : Sealing} {l : Launch}
  {code : ℕ}

theorem opens_iff (h : l.LeavesCode code) :
    opens code = true ↔ l.status = some .success := by
  rw [opens, decide_eq_true_eq]
  exact h.eq_code_iff .success

/-- A start that succeeds was given a passphrase it could read. -/
theorem generates_of_success (h : (m.launch n start).status = some .success) :
    (m.launch n start).Generates (cString start.keyfile) (offered start.passphrase) none ∧
      IsReadable start.passphrase := by
  cases hparsed : (m.launch n start).parsed with
  | none =>
    exact absurd rfl (Launch.among_of_not_parsed (S := (· ≠ .success)) (by decide) (by decide)
      (by decide) (by decide) (by decide) hparsed h)
  | some parsed =>
    obtain ⟨invocation, w⟩ := parsed
    obtain ⟨rfl, hreadable⟩ := eq_of_parsed hparsed
    exact ⟨⟨_, w, ⟨hparsed, rfl⟩, rfl, rfl, rfl⟩, hreadable⟩

theorem Machine.Serves.generates (h : m.Serves lib n start.keyfile s)
    (hreadable : IsReadable start.passphrase) :
    (m.launch n start).Generates (cString start.keyfile) (offered start.passphrase) none :=
  ⟨_, _, ⟨parsed_of_readable h.sodiumInit h.reading h.memory h.keyfileFits hreadable, rfl⟩, rfl, rfl,
    rfl⟩

theorem Machine.Serves.capable (h : m.Serves lib n start.keyfile s) :
    (m.launch n start).Capable (cString start.keyfile) (offered start.passphrase) where
  reading := h.reading
  memory := h.memory
  path := Nat.lt_of_le_of_lt (cString_length_le _) h.keyfileFits
  passphrase := Nat.lt_of_le_of_lt (strndup_length_le _ _) (by decide)

/-- Where nothing is in the way, a start succeeds with the right passphrase. -/
theorem Machine.Serves.status_of_right (hlib : lib.Ideal) (hm : m.Has lib)
    (h : m.Serves lib n start.keyfile s) (hright : start.IsRight s) :
    (m.launch n start).status = some .success := by
  obtain ⟨data, hdata, hholds⟩ := h.holds
  obtain ⟨challenge, secret, hchallenge, hreaches⟩ := h.reaches
  have hgenerates := h.generates hright.1
  have hcapable : (m.launch n start).Capable (cString start.keyfile) (offered start.passphrase) :=
    h.capable
  rw [hright.2] at hgenerates hcapable
  exact (output_of_generates hlib (hm n) (h.toSealed.launch_files.trans hdata) hholds hgenerates
    hchallenge hcapable (hreaches start)).1

/-- It succeeds with no other, is told of any that it can read, and stops otherwise. -/
theorem Machine.Serves.status_iff (hlib : lib.Ideal) (hderives : lib.DerivesEach) (hm : m.Has lib)
    (h : m.Serves lib n start.keyfile s) :
    ((m.launch n start).status = some .success ↔ start.IsRight s) ∧
      (IsReadable start.passphrase → ¬start.IsRight s →
        (m.launch n start).status = some .badPassphrase) := by
  obtain ⟨data, hdata, hholds⟩ := h.holds
  have hfound : (m.launch n start).files (cString start.keyfile) = some data :=
    h.toSealed.launch_files.trans hdata
  refine ⟨⟨fun hstatus => ?_, h.status_of_right hlib hm⟩, fun hreadable hwrong => ?_⟩
  · obtain ⟨hgenerates, hreadable⟩ := generates_of_success hstatus
    exact ⟨hreadable, (fits_of_success hlib (hm n) hfound hholds hgenerates hstatus).1⟩
  · obtain ⟨challenge, secret, -, hreaches⟩ := h.reaches
    obtain ⟨before, a, after, hlisted, -⟩ := (hreaches start).devices
    exact badPassphrase_of_other hlib hderives (hm n) hfound hholds (h.generates hreadable) h.capable
      hlisted fun heq => hwrong ⟨hreadable, heq⟩

end Ends

end Khefin.BootHook
