import Khefin.KeyfileRuns

/-! # What the hook leaves behind at boot

Only the authenticator check returns after its announcement, and only the end of the loop unsets
the passphrase. -/

namespace Khefin.BootHook
open CLibrary EarlyLoops RetrySchedule Shell

variable {boot : Boot} {s₀ s s' : State} {keyfile : Bytes}

/-- An announced skip is a skip, and no passphrase stays behind the keyfiles. -/
structure LeavesClean (boot : Boot) (o : Outcome) : Prop where
  skips : ∀ before message after, o.state.trace = before ++ .printf message :: after →
    message.announcesSkip = true →
      o.ending = .returned ∧ ∀ e ∈ after, e ≠ .mount ∧ e.isWork = false
  clears : boot.entersLoop = true → o.ending = .returned →
    o.state.passphrase = none ∧ (o.state.passphraseFile = none ∨ o.state.passphraseFile = some [])

/-- One of the exit codes that fall to the attempts on the keyfiles is zero. -/
def Boot.unlocks (boot : Boot) : Bool :=
  (boot.rounds boot.regularFiles.length 0).any (·.any opens)

/-! ## Where no file can be made -/

/-- Since the state `s₀` nothing has been done but to ask for passphrases. -/
structure OnlyAsked (s₀ s : State) : Prop where
  isDirectory : s.isDirectory = s₀.isDirectory
  cryptkey : s.cryptkey = s₀.cryptkey
  trace : ∃ events, s.trace = s₀.trace ++ events ∧ ∀ e ∈ events, e.isWork = true → e = .read

theorem onlyAsked_refl (s : State) : OnlyAsked s s :=
  ⟨rfl, rfl, [], (List.append_nil _).symm, fun _ he => absurd he List.not_mem_nil⟩

theorem OnlyAsked.prompted (h : OnlyAsked s₀ s) (boot : Boot) (keyfile : Bytes) :
    OnlyAsked s₀ (prompted boot keyfile s) := by
  obtain ⟨events, hwork, -, hprompted⟩ := prompted_eq boot keyfile s
  obtain ⟨before, htrace, hbefore⟩ := h.trace
  rw [hprompted]
  refine ⟨h.isDirectory, h.cryptkey, before ++ events, ?_, fun e he hisWork => ?_⟩
  · rw [← List.append_assoc, ← htrace]
    rfl
  · rcases List.mem_append.mp he with he | he
    · exact hbefore e he hisWork
    · have hmem := List.mem_filter.mpr ⟨he, hisWork⟩
      rw [hwork] at hmem
      split_ifs at hmem
      · exact List.mem_singleton.mp hmem
      · exact absurd hmem List.not_mem_nil

/-- The first attempt is the end of the shell. -/
theorem tryPassphrase_otherFile (hdirectory : s₀.isDirectory = false) (h : OnlyAsked s₀ s) :
    tryPassphrase boot keyfile s = .inr (.inr ⟨.shellExited, prompted boot keyfile s⟩) := by
  have hmade : (prompted boot keyfile s).isDirectory = false :=
    (h.prompted boot keyfile).isDirectory.trans hdirectory
  simp only [tryPassphrase, hmade, if_true]

theorem endsWithin_tryKeyfile_otherFile (hdirectory : s₀.isDirectory = false)
    (h : OnlyAsked s₀ s) : EndsWithin boot.limit (tryKeyfile · boot keyfile s)
      (Sum.elim (OnlyAsked s₀) fun o => OnlyAsked s₀ o.state) := by
  unfold tryKeyfile
  cases boot.regular keyfile with
  | false => exact endsWithin_some h
  | true =>
    apply endsWithin_repeatWhile (OnlyAsked s₀) fun _ => 0
    case hagain =>
      intro s s' hs hbody
      cases hbody.symm.trans (tryPassphrase_otherFile hdirectory hs)
    case hleave =>
      intro s left hs hbody
      cases hbody.symm.trans (tryPassphrase_otherFile hdirectory hs)
      exact hs.prompted boot keyfile
    case hs => exact ⟨h.isDirectory, h.cryptkey, h.trace⟩
    case hn => exact boot.limit_pos

/-- The hook gets to its end or the shell exits, and all that it has done is to ask. -/
theorem endsWithin_runHook_otherFile (henters : boot.entersLoop = true)
    (hpath : boot.mountPoint = .otherFile) : ∃ events, events.filter Event.isWork = [] ∧
      EndsWithin boot.limit (runHook · boot) fun o =>
        OnlyAsked (prepare boot (boot.initial.record events)) o.state := by
  obtain ⟨events, hwork, -, hrun⟩ := runHook_of_entersLoop henters
  refine ⟨events, hwork, ?_⟩
  have hdirectory : (prepare boot (boot.initial.record events)).isDirectory = false :=
    (prepare_isDirectory boot _).trans (decide_eq_false (not_not_intro hpath))
  rw [hrun]
  apply (endsWithin_forEach (fun _ => OnlyAsked (prepare boot (boot.initial.record events))) _ _).map
  · rintro (s | o) h
    · exact ⟨h.isDirectory, h.cryptkey, h.trace⟩
    · exact h
  · rintro before keyfile after s - hs
    exact endsWithin_tryKeyfile_otherFile hdirectory hs
  · exact onlyAsked_refl _

/-! ## Each way out -/

theorem announcements_eq_nil_iff {s : State} : s.announcements = [] ↔
    ∀ message, .printf message ∈ s.trace → message.announcesSkip = false := by
  rw [State.announcements, List.filter_eq_nil_iff]
  constructor
  · intro h message hmessage
    exact Bool.eq_false_iff.mpr (h _ hmessage)
  · intro h e he
    cases e with
    | printf message =>
      rw [Event.announcesSkip, h message he]
      exact Bool.false_ne_true
    | _ => exact Bool.false_ne_true

/-- The announcement of the authenticator check is the last event. -/
theorem endsWithin_runHook_of_not_entersLoop (henters : boot.entersLoop = false) :
    EndsWithin boot.limit (runHook · boot) (LeavesClean boot) := by
  obtain ⟨events, message, -, hquiet, -, hrun⟩ := runHook_of_not_entersLoop henters
  rw [hrun]
  refine endsWithin_some ⟨?_, ?_⟩
  · intro before m after htrace hm
    refine ⟨rfl, fun e he => ?_⟩
    have hlast : events ++ [.printf message] = before ++ .printf m :: after := htrace
    rcases List.eq_nil_or_concat after with rfl | ⟨after, last, rfl⟩
    · exact absurd he List.not_mem_nil
    · rw [List.concat_eq_append, ← List.cons_append, ← List.append_assoc] at hlast
      have hmem : .printf m ∈ events := by
        rw [(List.append_inj' hlast rfl).1]
        exact List.mem_append_right _ List.mem_cons_self
      have hnone := List.filter_eq_nil_iff.mp hquiet _ hmem
      exact absurd hm hnone
  · intro henters'
    cases henters.symm.trans henters'

/-- An announcement that is followed by a mount. -/
theorem not_leavesClean_of_mountPoint {o : Outcome} {events : List Event}
    (hpath : boot.mountPoint ≠ .absent)
    (htrace : (prepare boot (boot.initial.record events)).trace <+: o.state.trace) :
    ¬ LeavesClean boot o := by
  intro h
  obtain ⟨after, -, -, hmount, hprepare⟩ := prepare_eq boot (boot.initial.record events)
  obtain ⟨rest, hrest⟩ := htrace
  rw [hprepare, if_neg hpath] at hrest
  have hsplit : o.state.trace = events ++ .printf .unexpectedPath :: (after ++ rest) := by
    rw [← hrest]
    simp [State.record, Boot.initial]
  exact ((h.skips _ _ _ hsplit rfl).2 .mount (List.mem_append_left _ hmount)).1 rfl

theorem Finished.unlocks_iff {turns : List Turn} {o : Outcome} (h : Finished boot s₀ turns o)
    (hgenerates : s₀.generates = 0) :
    boot.unlocks = false ↔ ∀ a ∈ allAttempts turns, opens a.status = false := by
  have hall : boot.unlocks = (allAttempts turns).any (fun a => opens a.status) := by
    rw [Boot.unlocks, ← hgenerates, ← h.schedule, ← List.any_flatten, ← map_status_allAttempts,
      List.any_map]
    rfl
  rw [hall]
  simp

/-- Where nothing is at the mount point, all depends on whether a keyfile gives its key. -/
theorem Finished.clean_iff_unlocks {turns : List Turn} {events : List Event} {o : Outcome}
    (hpath : boot.mountPoint = .absent) (henters : boot.entersLoop = true)
    (hquiet : events.filter Event.announcesSkip = [])
    (h : Finished boot (prepare boot (boot.initial.record events)) turns o) :
    LeavesClean boot o ↔ boot.unlocks = false := by
  obtain ⟨after, -, hafter, -, hprepare⟩ := prepare_eq boot (boot.initial.record events)
  have hunlocks := h.unlocks_iff (prepare_generates boot _)
  have hnone : o.state.announcements = [] := by
    rw [h.announcements, hprepare, if_pos hpath, List.nil_append]
    change ((boot.initial.record events).record after).announcements = []
    rw [State.announcements_record, State.announcements_record, hquiet, hafter]
    rfl
  constructor
  · intro hclean
    exact hunlocks.mpr (h.passphrase.mp (hclean.clears henters h.returned).1)
  · intro hfailed
    constructor
    · intro before message after htrace hskip
      have hmem : .printf message ∈ o.state.trace := by
        rw [htrace]
        exact List.mem_append_right _ List.mem_cons_self
      rw [announcements_eq_nil_iff.mp hnone message hmem] at hskip
      exact absurd hskip Bool.false_ne_true
    · intro _ _
      exact ⟨h.passphrase.mpr (hunlocks.mp hfailed), h.passphraseFile⟩

/-- A hook that comes to its keyfiles is clean where nothing is in the way of its mount point and no
keyfile gives its key. -/
theorem leavesClean_iff (boot : Boot) : EndsWithin boot.limit (runHook · boot) fun o =>
    (LeavesClean boot o ↔
      boot.entersLoop = false ∨ (boot.mountPoint = .absent ∧ boot.unlocks = false)) := by
  cases henters : boot.entersLoop with
  | false =>
    exact (endsWithin_runHook_of_not_entersLoop henters).imp fun o hclean =>
      ⟨fun _ => .inl rfl, fun _ => hclean⟩
  | true =>
    by_cases hpath : boot.mountPoint = .absent
    · obtain ⟨events, -, hquiet, hends⟩ := endsWithin_runHook henters (by rw [hpath]; decide)
      refine hends.imp ?_
      rintro o ⟨turns, h⟩
      rw [h.clean_iff_unlocks hpath henters hquiet]
      simp [hpath]
    · have hunclean : ∀ o, ¬ LeavesClean boot o → (LeavesClean boot o ↔
          true = false ∨ (boot.mountPoint = .absent ∧ boot.unlocks = false)) := by
        intro o hnot
        simp [hnot, hpath]
      by_cases hfile : boot.mountPoint = .otherFile
      · obtain ⟨events, -, hends⟩ := endsWithin_runHook_otherFile henters hfile
        refine hends.imp fun o h => hunclean o ?_
        obtain ⟨asked, htrace, -⟩ := h.trace
        exact not_leavesClean_of_mountPoint hpath ⟨asked, htrace.symm⟩
      · obtain ⟨events, -, -, hends⟩ := endsWithin_runHook henters hfile
        refine hends.imp ?_
        rintro o ⟨turns, h⟩
        exact hunclean o (not_leavesClean_of_mountPoint hpath h.trace)

/-- A file is left at the mount point, or the first keyfile gives its key. -/
def leftoverBoot : Boot := { referenceBoot with mountPoint := .nonEmptyDirectory }

def openingBoot : Boot :=
  { referenceBoot with generateStatus := fun _ => ExitStatus.success.code }

theorem not_leavesClean_of_leftover_or_opening :
    (¬ EndsWithin leftoverBoot.limit (runHook · leftoverBoot) (LeavesClean leftoverBoot)) ∧
    ¬ EndsWithin openingBoot.limit (runHook · openingBoot) (LeavesClean openingBoot) := by
  constructor
  · rintro ⟨o, hclean, hrun⟩
    obtain ⟨events, -, -, hends⟩ := @endsWithin_runHook leftoverBoot (by decide) (by decide)
    obtain ⟨turns, h⟩ := hends.of_run (Nat.le_refl _) (hrun _ (Nat.le_refl _))
    exact not_leavesClean_of_mountPoint (by decide) h.trace hclean
  · rintro ⟨o, hclean, hrun⟩
    obtain ⟨events, -, hquiet, hends⟩ := @endsWithin_runHook openingBoot (by decide) (by decide)
    obtain ⟨turns, h⟩ := hends.of_run (Nat.le_refl _) (hrun _ (Nat.le_refl _))
    exact absurd ((h.clean_iff_unlocks rfl (by decide) hquiet).mp hclean) (by decide)

end Khefin.BootHook
