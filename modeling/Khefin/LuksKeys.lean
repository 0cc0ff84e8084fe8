import Khefin.BootUnlocking
import Khefin.ErrexitScripts

/-! # Adding a key to a disk

The script generates a key into a file system in memory, and gives it to `cryptsetup`. It stops at
the first command that fails, and has a trap that cleans up. -/

namespace Khefin

/-! ## A generation that asks for its passphrase -/

section Asking
open CLibrary ExitingPrograms

/-- `khefin generate -f` with a keyfile -/
def keyfileLine (keyfile : CString) : CommandLine := .generateWith [.separate .file keyfile]

/-- If it succeeds, it got a passphrase. -/
theorem generates_of_keyfileLine {l : Launch} {keyfile : CString}
    (hscan : l.platform.getoptLong = getoptLong) (hargv : l.argv = (keyfileLine keyfile).argv)
    (h : l.status = some .success) : ∃ passphrase, l.Generates keyfile passphrase none := by
  obtain ⟨passphrase, hgenerates, -⟩ := generates_of_written hscan hargv rfl rfl rfl h
  exact ⟨passphrase, hgenerates⟩

end Asking

namespace AddLuksKey
open CLibrary ErrexitScripts

/-! ## The script -/

/-- What the script is given, and how the commands end that it starts. -/
structure Host where
  arguments : List CString
  isRoot : Bool
  mktemp : Bool
  /-- A signal comes in before the trap is set. -/
  killed : Bool := false
  mount : Bool
  platform : Platform
  scans : platform.getoptLong = getoptLong
  files : CString → Option Bytes
  stdin : Bytes := []
  luksAddKey : Bytes → Bool
  /-- Within the `n`-th run of the trap, where there is something to unmount and to remove. -/
  umount : ℕ → Bool
  remove : ℕ → Bool
  /-- A signal comes in during the `n`-th command behind the trap. -/
  signalled : ℕ → Bool

inductive Event
  /-- The key file gets this content, on the file system in memory or not. -/
  | store (content : Bytes) (inMemory : Bool)
  | luksAddKey (arguments : List CString) (key : Bytes) (added : Bool)
  deriving DecidableEq

structure State where
  /-- The directory of `mktemp` is there. -/
  directory : Bool
  mounted : Bool := false
  keyFile : Option Bytes := none
  traps : ℕ := 0
  trace : List Event := []

def State.store (content : Bytes) (s : State) : State :=
  { s with keyFile := some content, trace := s.trace ++ [.store content s.mounted] }

namespace Host

/-- `khefin generate -f "$1"` -/
def generation (h : Host) : Launch where
  platform := h.platform
  argv := (keyfileLine (h.arguments.headD (literal ""))).argv
  files := h.files
  stdin := h.stdin

/-- `set +e` is part of it; a mount point cannot be removed, but what is below it can. -/
def cleanup (h : Host) (s : State) : State :=
  let mounted := s.mounted && !h.umount s.traps
  { s with
    keyFile := none, mounted, traps := s.traps + 1,
    directory := s.directory && (mounted || !h.remove s.traps) }

def checkArguments (h : Host) : Command State := fun s =>
  (s, if h.arguments.length < 2 ∨ h.isRoot = false then .left else .success)

def mountRamfs (h : Host) : Command State := fun s =>
  if s.directory = true ∧ h.mount = true then ({ s with mounted := true }, .success)
  else (s, .failure)

/-- Without the directory the output cannot be redirected, and nothing is started. -/
def generateKey (h : Host) : Command State := fun s =>
  if s.directory = true then
    (s.store h.generation.output,
      if h.generation.status = some .success then .success else .failure)
  else (s, .failure)

/-- `cryptsetup luksAddKey "$2" "${@:3}"` with the key file -/
def addKey (h : Host) : Command State := fun s =>
  match s.keyFile with
  | none => (s, .failure)
  | some key => ({ s with
      trace := s.trace ++ [.luksAddKey h.arguments.tail key (h.luksAddKey key)] },
      if h.luksAddKey key then .success else .failure)

def emptyKeyFile : Command State := fun s =>
  if s.directory = true then (s.store [], .success) else (s, .failure)

def commands (h : Host) : List (Command State) :=
  [h.checkArguments, h.mountRamfs, h.generateKey, h.addKey, emptyKeyFile]

end Host

def addLuksKey (h : Host) : State × Status :=
  if h.mktemp = false then ({ directory := false }, .failure)
  else if h.killed = true then ({ directory := true }, .failure)
  else run h.cleanup h.signalled h.commands 0 true .success { directory := true }

/-! ## What holds throughout -/

/-- In its `n`-th run the commands of the trap do what they are for. -/
def Host.CleansIn (h : Host) (n : ℕ) : Prop := h.umount n = true ∧ h.remove n = true

/-- So they do whenever a signal starts it: in every run of the trap but the last. -/
def Host.Cleans (h : Host) : Prop := ∀ n, n + 1 < (addLuksKey h).1.traps → h.CleansIn n

/-- A key is kept in memory only, and one that is added is all that a generation printed. -/
def Event.IsProper (h : Host) : Event → Prop
  | .store content inMemory => content ≠ [] → inMemory = true
  | .luksAddKey arguments key _ => arguments = h.arguments.tail ∧
      h.generation.status = some .success ∧ key = h.generation.output

def State.HasAdded (s : State) : Prop := ∃ arguments key, .luksAddKey arguments key true ∈ s.trace

/-- What every assertion of the outline has: behind a signal everything is gone. -/
structure Tidy (h : Host) (e : Bool) (s : State) : Prop where
  proper : ∀ event ∈ s.trace, event.IsProper h
  gone : e = false → s.directory = false ∧ s.keyFile = none

variable {h : Host} {e : Bool} {last : Status} {s : State}

theorem Tidy.cleanup (hs : Tidy h e s) (hclean : h.CleansIn s.traps) :
    Tidy h false (h.cleanup s) where
  proper := hs.proper
  gone _ := by simp [Host.cleanup, hclean.1, hclean.2]

/-- In front of the generation there is no key. -/
structure Empty (h : Host) (e : Bool) (s : State) : Prop extends Tidy h e s where
  keyFile : s.keyFile = none

/-- In front of `cryptsetup` there is a whole key, or none. -/
structure Keyed (h : Host) (e : Bool) (s : State) : Prop extends Tidy h e s where
  key : ∀ key, s.keyFile = some key →
    h.generation.status = some .success ∧ key = h.generation.output

/-- What the script may be left with. -/
def Left (h : Host) (last : Status) (s : State) : Prop :=
  (∀ event ∈ s.trace, event.IsProper h) ∧ (last = .success → s.HasAdded)

theorem left_of_failed (hproper : ∀ event ∈ s.trace, event.IsProper h) (hlast : last ≠ .success) :
    Left h last s := ⟨hproper, fun hsuccess => absurd hsuccess hlast⟩

theorem Tidy.goesOn (hs : Tidy h e s) (hdirectory : s.directory = true) : e = true := by
  cases e with
  | true => rfl
  | false => cases (hs.gone rfl).1.symm.trans hdirectory

theorem proper_concat {event : Event} (hs : ∀ event ∈ s.trace, event.IsProper h)
    (hevent : event.IsProper h) : ∀ x ∈ s.trace ++ [event], x.IsProper h := by
  intro x hx
  rcases List.mem_append.mp hx with hx | hx
  · exact hs x hx
  · rw [List.mem_singleton.mp hx]
    exact hevent

theorem Empty.mountRamfs (hs : Empty h e s)
    (hstatus : (h.mountRamfs s).2 = .success ∨ (h.mountRamfs s).2 = .failure ∧ e = false) :
    Empty h e (h.mountRamfs s).1 ∧ (e = true → (h.mountRamfs s).1.mounted = true) := by
  unfold Host.mountRamfs at hstatus ⊢
  split
  · exact ⟨⟨⟨hs.proper, hs.gone⟩, hs.keyFile⟩, fun _ => rfl⟩
  · next hfailed =>
    rw [if_neg hfailed] at hstatus
    have hoff : e = false := by simpa using hstatus
    exact ⟨hs, fun hon => absurd (hoff.symm.trans hon) Bool.false_ne_true⟩

/-- The directory is there only if no signal has come in, so a file system is mounted there. -/
theorem Empty.proper_generateKey (hs : Empty h e s) (hmounted : e = true → s.mounted = true) :
    ∀ event ∈ (h.generateKey s).1.trace, event.IsProper h := by
  unfold Host.generateKey
  split
  · next hdirectory =>
    exact proper_concat hs.proper fun _ => hmounted (hs.goesOn hdirectory)
  · exact hs.proper

theorem Empty.generateKey (hs : Empty h e s) (hmounted : e = true → s.mounted = true)
    (hstatus : (h.generateKey s).2 = .success ∨ (h.generateKey s).2 = .failure ∧ e = false) :
    Keyed h e (h.generateKey s).1 := by
  have hproper := hs.proper_generateKey hmounted
  unfold Host.generateKey at hstatus hproper ⊢
  by_cases hdirectory : s.directory = true
  · have hon := hs.goesOn hdirectory
    rw [if_pos hdirectory] at hstatus hproper ⊢
    refine ⟨⟨hproper, fun hoff => absurd (hoff.symm.trans hon) Bool.false_ne_true⟩, ?_⟩
    intro key hkey
    have hgenerated : h.generation.status = some .success := by
      by_contra hfailed
      simp [hfailed, hon] at hstatus
    exact ⟨hgenerated, (Option.some.inj hkey).symm⟩
  · rw [if_neg hdirectory]
    refine ⟨hs.toTidy, fun key hkey => ?_⟩
    cases hs.keyFile.symm.trans hkey

theorem Keyed.proper_addKey (hs : Keyed h e s) :
    ∀ event ∈ (h.addKey s).1.trace, event.IsProper h := by
  unfold Host.addKey
  split
  · exact hs.proper
  · next key hkey =>
    obtain ⟨hgenerated, houtput⟩ := hs.key key hkey
    exact proper_concat hs.proper ⟨rfl, hgenerated, houtput⟩

theorem Keyed.addKey (hs : Keyed h e s)
    (hstatus : (h.addKey s).2 = .success ∨ (h.addKey s).2 = .failure ∧ e = false) :
    Tidy h e (h.addKey s).1 ∧ (e = true → (h.addKey s).1.HasAdded) := by
  have hproper := hs.proper_addKey
  cases hkey : s.keyFile with
  | none =>
    simp only [Host.addKey, hkey] at hstatus ⊢
    have hoff : e = false := by simpa using hstatus
    exact ⟨hs.toTidy, fun hon => absurd (hoff.symm.trans hon) Bool.false_ne_true⟩
  | some key =>
    have hon : e = true := by
      cases e with
      | true => rfl
      | false => cases (hs.gone rfl).2.symm.trans hkey
    simp only [Host.addKey, hkey] at hstatus hproper ⊢
    have hadded : h.luksAddKey key = true := by
      by_contra hrefused
      simp [hrefused, hon] at hstatus
    refine ⟨⟨hproper, fun hoff => absurd (hoff.symm.trans hon) Bool.false_ne_true⟩, fun _ => ?_⟩
    exact ⟨h.arguments.tail, key, by simp [hadded]⟩

/-- The key file is emptied only where a key has been added. -/
theorem Tidy.emptyKeyFile (hs : Tidy h e s) (hadded : e = true → s.HasAdded) :
    Left h (Host.emptyKeyFile s).2 (Host.emptyKeyFile s).1 := by
  unfold Host.emptyKeyFile
  split
  · next hdirectory =>
    obtain ⟨arguments, key, hmem⟩ := hadded (hs.goesOn hdirectory)
    have hempty : Event.IsProper h (.store [] s.mounted) := fun hne => absurd rfl hne
    exact ⟨proper_concat hs.proper hempty, fun _ => ⟨arguments, key, List.mem_append_left _ hmem⟩⟩
  · exact left_of_failed hs.proper Status.noConfusion

theorem Host.outline (h : Host) : Outline h.cleanup (fun s => h.CleansIn s.traps) (Left h)
    (fun e _ s => Empty h e s) h.commands := by
  have hempty : ∀ {e} {s : State}, h.CleansIn s.traps → Empty h e s → Empty h false (h.cleanup s) :=
    fun hclean hs => ⟨hs.toTidy.cleanup hclean, rfl⟩
  refine .cons (B := fun e _ s => Empty h e s) ?_ ?_ ?_ <|
    .cons (B := fun e _ s => Empty h e s ∧ (e = true → s.mounted = true)) ?_ ?_ ?_ <|
    .cons (B := fun e _ s => Keyed h e s) ?_ ?_ ?_ <|
    .cons (B := fun e _ s => Tidy h e s ∧ (e = true → s.HasAdded)) ?_ ?_ ?_ <|
    .cons (B := fun _ last s => Left h last s) ?_ ?_ ?_ <| .nil ?_
  -- the arguments
  · exact fun e last s hs _ => hs
  · exact fun e last s hclean hs => hempty hclean hs
  · exact fun e last s hs hstatus => left_of_failed hs.proper hstatus
  -- the file system
  · exact fun e last s hs hstatus => hs.mountRamfs hstatus
  · exact fun e last s hclean hs =>
      ⟨hempty hclean hs.1, fun hon => absurd hon Bool.false_ne_true⟩
  · intro e last s hs hstatus
    refine left_of_failed ?_ hstatus
    unfold Host.mountRamfs
    split <;> exact hs.proper
  -- the key
  · exact fun e last s hs hstatus => hs.1.generateKey hs.2 hstatus
  · exact fun e last s hclean hs => ⟨hs.toTidy.cleanup hclean, fun key hkey => by cases hkey⟩
  · exact fun e last s hs hstatus => left_of_failed (hs.1.proper_generateKey hs.2) hstatus
  -- its slot
  · exact fun e last s hs hstatus => hs.addKey hstatus
  · exact fun e last s hclean hs =>
      ⟨hs.1.cleanup hclean, fun hon => absurd hon Bool.false_ne_true⟩
  · exact fun e last s hs hstatus => left_of_failed hs.proper_addKey hstatus
  -- its removal
  · exact fun e last s hs _ => hs.1.emptyKeyFile hs.2
  · exact fun e last s _ hs => hs
  · exact fun e last s hs _ => hs.1.emptyKeyFile hs.2
  · exact fun e last s hs => hs

theorem traps_of_mem_commands : ∀ command ∈ h.commands, ∀ s : State, (command s).1.traps = s.traps := by
  intro command hcommand s
  simp only [Host.commands, List.mem_cons, List.not_mem_nil, or_false] at hcommand
  rcases hcommand with rfl | rfl | rfl | rfl | rfl
  · rfl
  · unfold Host.mountRamfs
    split <;> rfl
  · unfold Host.generateKey
    split <;> rfl
  · unfold Host.addKey
    split <;> rfl
  · unfold Host.emptyKeyFile
    split <;> rfl

/-- Where it does not get to its trap, the script has done nothing. -/
theorem addLuksKey_of_not (hnot : h.mktemp = false ∨ h.killed = true) :
    (addLuksKey h).1.trace = [] ∧ (addLuksKey h).2 = .failure := by
  unfold addLuksKey
  split
  · exact ⟨rfl, rfl⟩
  · next hmktemp =>
    rw [if_pos (hnot.resolve_left hmktemp)]
    exact ⟨rfl, rfl⟩

theorem left_addLuksKey (hclean : h.Cleans) : Left h (addLuksKey h).2 (addLuksKey h).1 := by
  by_cases hnot : h.mktemp = false ∨ h.killed = true
  · obtain ⟨htrace, hstatus⟩ := addLuksKey_of_not hnot
    rw [hstatus]
    refine left_of_failed (fun event hevent => ?_) Status.noConfusion
    rw [htrace] at hevent
    exact absurd hevent List.not_mem_nil
  · obtain ⟨hmktemp, hkilled⟩ := not_or.mp hnot
    have hstart : Empty h true { directory := true } :=
      ⟨⟨fun event hevent => absurd hevent List.not_mem_nil,
        fun hoff => absurd hoff.symm Bool.false_ne_true⟩, rfl⟩
    unfold Host.Cleans at hclean
    rw [addLuksKey, if_neg hmktemp, if_neg hkilled] at hclean ⊢
    -- the trap counts its runs, so that a signal never starts the last one
    have hcounts := (@count_lt_run _ h.cleanup State.traps h.commands (fun _ => rfl)
      traps_of_mem_commands h.signalled 0 true .success { directory := true }).2
    obtain ⟨x, hend, hleft⟩ := h.outline.exists_trap (fun _ _ hs => hs) h.signalled hstart
      fun x hx => hclean x.traps (hcounts x hx)
    rw [hend]
    exact hleft

/-- The keyfile of the reference enrolment, and a signal while the key file is emptied. -/
def referenceScript : Host where
  arguments := [literal "keyfile", literal "/dev/sda2"]
  isRoot := true
  mktemp := true
  mount := true
  platform := { referenceHost referenceDevice with getoptLong := getoptLong }
  scans := rfl
  files := enrolStart.filesAfter
  stdin := Shell.text "correct horse\n"
  luksAddKey _ := true
  umount _ := true
  remove _ := true
  signalled n := n = 4

theorem cleans_referenceScript : referenceScript.Cleans := fun _ _ => ⟨rfl, rfl⟩

theorem added_referenceScript : Event.luksAddKey [literal "/dev/sda2"] (hexLine [0x5e, 0xc3]) true ∈
    (addLuksKey referenceScript).1.trace := by
  decide +kernel

/-- Whenever signals come in, if the trap works then: a key that is added is a whole one, and it was
in memory only. No key file is left, and nothing else either if the trap works in the end. -/
theorem adds_whole_keys (h : Host) :
    (h.Cleans → (∀ event ∈ (addLuksKey h).1.trace, event.IsProper h) ∧
      ((addLuksKey h).2 = .success → (addLuksKey h).1.HasAdded)) ∧
    (addLuksKey h).1.keyFile = none ∧
    (h.killed = false → h.CleansIn ((addLuksKey h).1.traps - 1) →
      (addLuksKey h).1.mounted = false ∧ (addLuksKey h).1.directory = false) := by
  refine ⟨left_addLuksKey, ?_⟩
  unfold addLuksKey
  split
  · exact ⟨rfl, fun _ _ => ⟨rfl, rfl⟩⟩
  split
  · next hkilled => exact ⟨rfl, fun hnot => absurd hkilled (by simp [hnot])⟩
  · obtain ⟨x, hend⟩ := exists_trap h.cleanup h.signalled h.commands 0 true .success
      { directory := true }
    rw [hend]
    refine ⟨rfl, fun _ hlast => ?_⟩
    replace hlast : h.CleansIn x.traps := hlast
    simp [Host.cleanup, hlast.1, hlast.2]

theorem adds_whole_keys_reference :
    referenceScript.generation.status = some .success ∧
      hexLine [0x5e, 0xc3] = referenceScript.generation.output ∧
      (addLuksKey referenceScript).1.keyFile = none ∧
      (addLuksKey referenceScript).1.directory = false := by
  obtain ⟨hwhole, hnone, hleft⟩ := adds_whole_keys referenceScript
  obtain ⟨-, hstatus, hkey⟩ := (hwhole cleans_referenceScript).1 _ added_referenceScript
  exact ⟨hstatus, hkey, hnone, (hleft rfl ⟨rfl, rfl⟩).2⟩

/-! ## One key for the disk -/

/-- The first argument is a keyfile with this sealing. -/
def Host.Sealed (h : Host) (lib : Libraries) (s : Sealing) : Prop :=
  ∃ data, h.files (h.arguments.headD (literal "")) = some data ∧ Holds lib data s

section Agreement

variable {lib : Libraries} {sealing : Sealing} {arguments : List CString} {key : Bytes} {added : Bool}

/-- A key that is given to `cryptsetup` is the answer of a device to the challenge of the keyfile. -/
theorem challenged_of_added (hlib : lib.Ideal) (hP : h.platform.Has lib) (hclean : h.Cleans)
    (hsealed : h.Sealed lib sealing)
    (hadded : .luksAddKey arguments key added ∈ (addLuksKey h).1.trace) :
    ∃ challenge secret, sealing.challenge lib.sodium none = some challenge ∧
      h.generation.AnsweredBy challenge secret ∧ key = hexLine secret := by
  obtain ⟨-, hstatus, hkey⟩ := (left_addLuksKey hclean).1 _ hadded
  obtain ⟨passphrase, hgenerates⟩ := generates_of_keyfileLine h.scans rfl hstatus
  obtain ⟨data, hdata, hholds⟩ := hsealed
  obtain ⟨-, challenge, secret, hchallenge, hanswered, hout⟩ :=
    fits_of_success hlib hP hdata hholds hgenerates hstatus
  exact ⟨challenge, secret, hchallenge, hanswered, hkey.trans hout⟩

open BootHook EarlyLoops

/-- The hook exports the key that was added for the sealing of its keyfile, however the script was
interrupted and whatever was tried at boot before. -/
theorem exported_key_is_added_key {m : Machine} (hlib : lib.Ideal) (hm : m.Has lib)
    (hP : h.platform.Has lib) (hclean : h.Cleans) (hsealed : h.Sealed lib sealing)
    (hadded : .luksAddKey arguments key true ∈ (addLuksKey h).1.trace)
    (hdevices : ∀ challenge secret secret' n start, h.generation.AnsweredBy challenge secret →
      (m.launch n start).AnsweredBy challenge secret' → secret = secret') (boot : Boot) :
    EndsWithin boot.limit (runHook · boot) fun o => m.Answers o.state.starts →
      o.state.cryptkey = true → ∃ start, o.state.starts.getLast? = some start ∧
        (m.Sealed lib start.keyfile sealing → m.diskKey o.state.starts = some key) := by
  obtain ⟨challenge, secret, hchallenge, hanswered, rfl⟩ :=
    challenged_of_added hlib hP hclean hsealed hadded
  refine (endsWithin_fair boot).imp ?_
  intro o hfair hanswers hkey
  obtain ⟨turns, hturns⟩ := hfair.resolve_right fun hnever => by
    cases hnever.2.2.symm.trans hkey
  obtain ⟨start, hexports⟩ := hturns.exportsFitting hlib hm hanswers hkey
  refine ⟨start, hexports.last, fun hcopied => ?_⟩
  obtain ⟨-, challenge', secret', hchallenge', hanswered', hexported⟩ := hexports.fits sealing hcopied
  obtain rfl := Option.some.inj (hchallenge.symm.trans hchallenge')
  rw [hexported, hdevices _ _ _ _ _ hanswered hanswered']

theorem sealed_referenceScript : referenceScript.Sealed referenceLibraries referenceSealing := by
  have hfiles : referenceScript.files = enrolStart.filesAfter := by rw [referenceScript]
  rw [Host.Sealed, hfiles]
  exact holds_enrolStart

theorem exported_key_is_added_key_reference :
    ∃ o, runHook guessingBoot.limit guessingBoot = some o ∧
      referenceMachine.diskKey o.state.starts = some (hexLine [0x5e, 0xc3]) := by
  obtain ⟨o, hrun, hstarts, hkey⟩ := exists_guesses
  have hdevices : ∀ challenge secret secret' n start,
      referenceScript.generation.AnsweredBy challenge secret →
      (referenceMachine.launch n start).AnsweredBy challenge secret' → secret = secret' :=
    fun challenge secret secret' n start h h' =>
      (answered_reference rfl h).trans (answered_reference rfl h').symm
  have hends := exported_key_is_added_key referenceLibraries_ideal has_referenceMachine ⟨rfl, rfl⟩
    cleans_referenceScript sealed_referenceScript added_referenceScript hdevices guessingBoot
  obtain ⟨start, hlast, hexported⟩ :=
    hends.of_run (Nat.le_refl _) hrun (hstarts ▸ answers_guesses) hkey
  have hguess : start.keyfile ∈ guessingBoot.regularFiles := by
    rw [hstarts] at hlast
    obtain rfl := Option.some.inj hlast
    decide
  exact ⟨o, hrun, hexported (serves_referenceMachine 0 start.keyfile hguess).toSealed⟩

end Agreement

end AddLuksKey

end Khefin
