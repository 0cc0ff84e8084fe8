import Khefin.BootStarts
import Khefin.CleanExits

/-! # What the hook exports

A key is exported for the passphrase of a keyfile only, and it is what the authenticator answers.
Where nothing else is in the way, the hook gives up only after all attempts that it allows. -/

namespace Khefin.BootHook
open CLibrary EarlyLoops Shell

variable {boot : Boot} {o : Outcome} {turns : List Turn} {m : Machine} {lib : Libraries}

/-! ## The attempts of a run -/

theorem mem_starts {start : Start} (h : start ∈ turns.flatMap Turn.starts) :
    ∃ t ∈ turns, ∃ a ∈ t.attempts, start = ⟨t.keyfile, a.passphrase, a.status⟩ := by
  obtain ⟨t, ht, hstart⟩ := List.mem_flatMap.mp h
  obtain ⟨a, ha, rfl⟩ := List.mem_map.mp hstart
  exact ⟨t, ht, a, ha, rfl⟩

theorem map_code_starts (turns : List Turn) :
    (turns.flatMap Turn.starts).map (·.code) = (allAttempts turns).map (·.status) := by
  rw [allAttempts, List.map_flatMap, List.map_flatMap]
  apply List.flatMap_congr
  intro t _
  rw [Turn.starts, List.map_map]
  rfl

namespace IsFair

variable {mayPrompt : Attempt → Prop} (h : IsFair mayPrompt boot turns o)
include h

theorem keyfile_mem {start : Start} (hstart : start ∈ o.state.starts) :
    start.keyfile ∈ boot.regularFiles := by
  rw [h.starts] at hstart
  obtain ⟨t, ht, a, -, rfl⟩ := mem_starts hstart
  exact h.inOrder.subset (List.mem_map_of_mem ht)

theorem exported_iff : o.state.cryptkey = true ↔ ∃ start ∈ o.state.starts, opens start.code = true := by
  have hcodes : (∃ c ∈ o.state.starts.map (·.code), opens c = true) ↔
      ∃ c ∈ (allAttempts turns).map (·.status), opens c = true := by
    rw [h.starts, map_code_starts]
  rw [h.exported]
  simpa using hcodes.symm

theorem stops_starts {start : Start} (hstart : start ∈ o.state.starts.dropLast) :
    opens start.code = false := by
  have hmem := List.mem_map_of_mem (f := (·.code)) hstart
  rw [List.map_dropLast, h.starts, map_code_starts, ← List.map_dropLast] at hmem
  obtain ⟨a, ha, hcode⟩ := List.mem_map.mp hmem
  rw [← hcode]
  exact h.stops a ha

/-- It is the last start that gives the key. -/
theorem exists_last (hkey : o.state.cryptkey = true) :
    ∃ start, o.state.starts.getLast? = some start ∧ opens start.code = true := by
  obtain ⟨start, hstart, hopens⟩ := h.exported_iff.mp hkey
  rcases List.eq_nil_or_concat o.state.starts with hnil | ⟨before, last, hsplit⟩
  · rw [hnil] at hstart
    exact absurd hstart List.not_mem_nil
  · rw [List.concat_eq_append] at hsplit
    refine ⟨last, by rw [hsplit, List.getLast?_concat], ?_⟩
    rw [hsplit] at hstart
    rcases List.mem_append.mp hstart with hbefore | hlast
    · have hearlier : start ∈ o.state.starts.dropLast := by
        rw [hsplit, List.dropLast_concat]
        exact hbefore
      cases (h.stops_starts hearlier).symm.trans hopens
    · rw [List.mem_singleton.mp hlast] at hopens
      exact hopens

end IsFair

/-! ## Runs that never come to a start -/

/-- No start has been made, and no key exported. -/
def State.IsFruitless (s : State) : Prop := s.starts = [] ∧ s.cryptkey = false

/-- Asking for passphrases starts nothing. -/
theorem OnlyAsked.isFruitless {s₀ s : State} (h : OnlyAsked s₀ s) (hs : s₀.IsFruitless) :
    s.IsFruitless := by
  obtain ⟨events, htrace, hreads⟩ := h.trace
  refine ⟨?_, h.cryptkey.trans hs.2⟩
  have hnone : events.filterMap Event.start = [] := by
    refine List.filterMap_eq_nil_iff.mpr fun e he => ?_
    cases hisWork : e.isWork with
    | false => exact Event.start_eq_none hisWork
    | true =>
      rw [hreads e he hisWork]
      rfl
  rw [State.starts, htrace, List.filterMap_append, hnone, List.append_nil]
  exact hs.1

theorem isFruitless_prepare {events : List Event} (hwork : events.filter Event.isWork = []) :
    (prepare boot (boot.initial.record events)).IsFruitless := by
  refine ⟨?_, prepare_cryptkey boot _⟩
  rw [State.starts_eq, (prepare_initial boot hwork).1, List.filterMap_nil]

/-- Without an authenticator the hook returns, and over another file it ends at its first keyfile. -/
theorem endsWithin_runHook_fruitless (h : boot.entersLoop = false ∨ boot.mountPoint = .otherFile) :
    EndsWithin boot.limit (runHook · boot) fun o => o.state.IsFruitless := by
  cases henters : boot.entersLoop with
  | true =>
    obtain ⟨events, hwork, hends⟩ := endsWithin_runHook_otherFile henters
      (h.resolve_left (by simp [henters]))
    exact hends.imp fun o hasked => hasked.isFruitless (isFruitless_prepare hwork)
  | false =>
    obtain ⟨events, message, hwork, -, -, hrun⟩ := runHook_of_not_entersLoop henters
    rw [hrun]
    refine endsWithin_some ⟨?_, rfl⟩
    rw [State.starts_eq, State.printf, State.work_record, State.work_record, hwork]
    rfl

/-! ## A machine with its keyfile -/

/-- On each keyfile path stands what the reference enrolment has written. -/
def referenceMachine : Machine where
  platform _ := { referenceHost referenceDevice with getoptLong := getoptLong }
  scans _ := rfl
  files _ := enrolStart.filesAfter (literal "keyfile")
  stdin _ := []

/-- The first passphrase is wrong, the second is right. -/
def guessingBoot : Boot :=
  { referenceBoot with
    typed := fun n => if n = 0 then text "battery staple" else text "correct horse"
    generateStatus := fun n =>
      if n = 0 then ExitStatus.badPassphrase.code else ExitStatus.success.code }

def guesses : List Start :=
  [⟨text "/keyfiles/a", text "battery staple", ExitStatus.badPassphrase.code⟩,
    ⟨text "/keyfiles/a", text "correct horse", ExitStatus.success.code⟩]

theorem holds_enrolStart : ∃ data, enrolStart.filesAfter (literal "keyfile") = some data ∧
    Holds referenceLibraries data referenceSealing := by
  have hstep : Launch.Step referenceLibraries (fun _ => none) enrolStart enrolStart.filesAfter :=
    step_of_has ⟨rfl, rfl⟩ rfl
  obtain ⟨held', hregisters, hR⟩ :=
    simulates_deed referenceLibraries_ideal _ _ _ _ (represents_nothing _ _) hstep
  rw [enrolStart_deed] at hregisters
  cases hregisters
  exact hR _ _ (Function.update_self _ _ _)

theorem derivesEach_referenceLibraries : referenceLibraries.DerivesEach := by
  intro i key passwd hkey hnone
  have hderived := referenceBox.pwhash_total hkey passwd
  cases hderived.symm.trans hnone

theorem referenceMachine_files :
    referenceMachine.files = fun _ => enrolStart.filesAfter (literal "keyfile") := by
  rw [referenceMachine]

theorem has_referenceMachine : referenceMachine.Has referenceLibraries := fun _ => ⟨rfl, rfl⟩

theorem ready_referenceMachine (n : ℕ) {keyfile : Bytes}
    (hfits : keyfile.length < largestValidPayloadSizeBytes) :
    referenceMachine.Ready referenceLibraries n keyfile referenceSealing := by
  refine ⟨rfl, rfl, ?_, hfits, ?_⟩
  · exact referencePlatform_allocates_payload referenceBox.sodium referenceDevice
  · exact ⟨_, [0x5e, 0xc3], rfl, fun start => reaches_reference rfl _⟩

theorem serves_referenceMachine (n : ℕ) :
    ∀ keyfile ∈ guessingBoot.regularFiles, referenceMachine.Serves referenceLibraries n keyfile
      referenceSealing := by
  intro keyfile hkeyfile
  have hfiles : guessingBoot.regularFiles = [text "/keyfiles/a", text "/keyfiles/b"] := by decide
  rw [hfiles, List.mem_pair] at hkeyfile
  have hsealed : referenceMachine.Sealed referenceLibraries keyfile referenceSealing := by
    constructor
    case notPassphraseFile => rcases hkeyfile with rfl | rfl <;> decide
    case notDiskKeyFile => rcases hkeyfile with rfl | rfl <;> decide
    case holds =>
      rw [referenceMachine_files]
      exact holds_enrolStart
  have hfits : keyfile.length < largestValidPayloadSizeBytes := by
    rcases hkeyfile with rfl | rfl <;> decide
  exact ⟨hsealed, ready_referenceMachine n hfits⟩

theorem exists_guesses : ∃ o, runHook guessingBoot.limit guessingBoot = some o ∧
    o.state.starts = guesses ∧ o.state.cryptkey = true := ⟨_, rfl, by decide, rfl⟩

theorem answers_guesses : referenceMachine.Answers guesses := by
  have hstatus : ∀ (n : ℕ) (start : Start), start.keyfile = text "/keyfiles/a" →
      ((referenceMachine.launch n start).status = some .success ↔ start.IsRight referenceSealing) ∧
      (IsReadable start.passphrase → ¬start.IsRight referenceSealing →
        (referenceMachine.launch n start).status = some .badPassphrase) := by
    intro n start hkeyfile
    have hserves := serves_referenceMachine n start.keyfile (by rw [hkeyfile]; decide)
    exact hserves.status_iff referenceLibraries_ideal derivesEach_referenceLibraries
      has_referenceMachine
  intro n start hstart
  match n, hstart with
  | 0, hstart =>
    obtain rfl := Option.some.inj hstart
    rw [Launch.LeavesCode, (hstatus 0 _ rfl).2 (by decide) (by decide)]
  | 1, hstart =>
    obtain rfl := Option.some.inj hstart
    rw [Launch.LeavesCode, (hstatus 1 _ rfl).1.mpr (by decide)]

/-! ## The key that is exported -/

/-- What the hook has exported, for the keyfile of its last start. -/
structure ExportsFitting (m : Machine) (lib : Libraries) (boot : Boot) (o : Outcome) (start : Start) :
    Prop where
  last : o.state.starts.getLast? = some start
  keyfile : start.keyfile ∈ boot.regularFiles
  fits : ∀ s, m.Sealed lib start.keyfile s → start.IsRight s ∧
    ∃ challenge secret, s.challenge lib.sodium none = some challenge ∧
      (m.launch (o.state.starts.length - 1) start).AnsweredBy challenge secret ∧
      m.diskKey o.state.starts = some (hexLine secret)

theorem IsFair.exportsFitting {mayPrompt : Attempt → Prop} (h : IsFair mayPrompt boot turns o)
    (hlib : lib.Ideal) (hm : m.Has lib) (hanswers : m.Answers o.state.starts)
    (hkey : o.state.cryptkey = true) : ∃ start, ExportsFitting m lib boot o start := by
  obtain ⟨start, hlast, hopens⟩ := h.exists_last hkey
  refine ⟨start, hlast, h.keyfile_mem (List.mem_of_getLast? hlast), fun s hs => ?_⟩
  have hindex : o.state.starts[o.state.starts.length - 1]? = some start := by
    rw [← List.getLast?_eq_getElem?]
    exact hlast
  have hstatus := (opens_iff (hanswers _ start hindex)).mp hopens
  obtain ⟨hgenerates, hreadable⟩ := generates_of_success hstatus
  obtain ⟨data, hdata, hholds⟩ := hs.holds
  obtain ⟨hpassphrase, challenge, secret, hchallenge, hanswered, hout⟩ := fits_of_success hlib
    (hm _) (hs.launch_files.trans hdata) hholds hgenerates hstatus
  refine ⟨⟨hreadable, hpassphrase⟩, challenge, secret, hchallenge, hanswered, ?_⟩
  rw [Machine.diskKey, hlast, Option.map_some, hout]

/-- A run comes to its keyfiles, or makes no start and exports nothing. -/
theorem endsWithin_fair (boot : Boot) : EndsWithin boot.limit (runHook · boot) fun o =>
    (∃ turns, IsFair Attempt.leavesNone boot turns o) ∨
      (boot.entersLoop = false ∨ boot.mountPoint = .otherFile) ∧ o.state.IsFruitless := by
  by_cases hnever : boot.entersLoop = false ∨ boot.mountPoint = .otherFile
  · exact (endsWithin_runHook_fruitless hnever).imp fun o hnone => .inr ⟨hnever, hnone⟩
  · obtain ⟨henters, hpath⟩ := not_or.mp hnever
    obtain ⟨events, hwork, -, hends⟩ := endsWithin_runHook (Bool.not_eq_false _ ▸ henters) hpath
    obtain ⟨hnothing, hgenerates⟩ := prepare_initial boot hwork
    refine hends.imp ?_
    rintro o ⟨turns, h⟩
    exact .inl ⟨turns, h.isFair h.returned hnothing hgenerates⟩

/-- What is exported was given for the passphrase of its keyfile, and is what a device answered. -/
theorem exported_key_fits (hlib : lib.Ideal) (hm : m.Has lib) (boot : Boot) :
    EndsWithin boot.limit (runHook · boot) fun o => m.Answers o.state.starts →
      o.state.cryptkey = true → ∃ start, ExportsFitting m lib boot o start := by
  refine (endsWithin_fair boot).imp ?_
  rintro o (⟨turns, h⟩ | ⟨-, hfruitless⟩) hanswers hkey
  · exact h.exportsFitting hlib hm hanswers hkey
  · cases hfruitless.2.symm.trans hkey

theorem exported_key_fits_reference : ∃ o, runHook guessingBoot.limit guessingBoot = some o ∧
    ∃ start, o.state.starts.getLast? = some start ∧ start.IsRight referenceSealing ∧
      ∃ challenge secret, referenceSealing.challenge referenceLibraries.sodium none = some challenge ∧
        (referenceMachine.launch (o.state.starts.length - 1) start).AnsweredBy challenge secret ∧
        referenceMachine.diskKey o.state.starts = some (hexLine secret) := by
  obtain ⟨o, hrun, hstarts, hkey⟩ := exists_guesses
  have hends := exported_key_fits referenceLibraries_ideal has_referenceMachine guessingBoot
  obtain ⟨start, h⟩ := hends.of_run (Nat.le_refl _) hrun (hstarts ▸ answers_guesses) hkey
  have hsealed := (serves_referenceMachine 0 start.keyfile h.keyfile).toSealed
  exact ⟨o, hrun, start, h.last, h.fits referenceSealing hsealed⟩

/-! ## When the hook gives up -/

/-- Each keyfile had its turn, and all its tries, unless a passphrase could not be read. -/
def GivesUp (boot : Boot) (turns : List Turn) : Prop :=
  turns.map (·.keyfile) = boot.regularFiles ∧ ∀ t ∈ turns,
    (∀ a ∈ t.attempts, IsReadable a.passphrase) →
      t.attempts.length = if boot.passphrasePromptOption = .never then 1 else boot.limit

end Khefin.BootHook
