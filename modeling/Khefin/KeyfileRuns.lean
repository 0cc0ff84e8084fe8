import Khefin.KeyfileTurns

/-! # The whole loop over the keyfiles at boot

The exit codes that fall to the keyfiles are a schedule with three tries, or as many as are set,
and what holds of a schedule holds of the attempts. -/

namespace Khefin.BootHook
open CLibrary EarlyLoops RetrySchedule Shell

variable {boot : Boot} {s₀ s s' : State} {before : List Bytes} {turns : List Turn} {keyfile : Bytes}
  {attempts : List Attempt}

def allAttempts (turns : List Turn) : List Attempt := turns.flatMap (·.attempts)

namespace Boot

def regularFiles (boot : Boot) : List Bytes := (boot.files boot.directory).filter boot.regular

/-- The exit codes that the attempts on `keyfiles` keyfiles come to, from the `n`-th on. -/
def rounds (boot : Boot) (keyfiles n : ℕ) : List (List ℕ) :=
  RetrySchedule.rounds boot.triesAgain opens boot.generateStatus boot.limit keyfiles n

theorem rounds_succ (boot : Boot) (keyfiles n : ℕ) : boot.rounds (keyfiles + 1) n =
    boot.turn boot.limit n :: if (boot.turn boot.limit n).any opens then []
      else boot.rounds keyfiles (n + (boot.turn boot.limit n).length) := rfl

end Boot

/-! ## The invariant of the outer loop -/

/-- What the keyfiles so far have done since `s₀`. -/
structure Reached (boot : Boot) (s₀ : State) (turns : List Turn) (s : State) : Prop where
  work : s.work = s₀.work ++ turns.flatMap Turn.events
  announcements : s.announcements = s₀.announcements
  trace : s₀.trace <+: s.trace
  prompts : PromptsRightly boot.passphrasePromptOption (allAttempts turns)

structure Between (boot : Boot) (s₀ : State) (before : List Bytes) (turns : List Turn) (s : State) :
    Prop extends Reached boot s₀ turns s where
  isDirectory : s.isDirectory = true
  keyfiles : turns.map (·.keyfile) = before.filter boot.regular
  schedule : ∀ k, boot.rounds (turns.length + k) s₀.generates =
    turns.map Turn.statuses ++ boot.rounds k s.generates
  failed : ∀ a ∈ allAttempts turns, opens a.status = false
  cryptkey : s.cryptkey = false
  passphraseFile : s.passphraseFile = none ∨ s.passphraseFile = some []
  next : boot.passphrasePromptOption ≠ .always → isDefined s.passphrase =
    !promptsNext boot.passphrasePromptOption (allAttempts turns).getLast?

/-- The loop is left with the key. -/
structure Unlocked (boot : Boot) (s₀ : State) (before : List Bytes) (turns : List Turn) (s : State) :
    Prop extends Reached boot s₀ turns s where
  keyfiles : turns.map (·.keyfile) = before.filter boot.regular
  schedule : ∀ k, boot.rounds (turns.length + k) s₀.generates = turns.map Turn.statuses
  opened : ∃ a ∈ allAttempts turns, opens a.status = true
  cryptkey : s.cryptkey = true
  passphrase : s.passphrase ≠ none
  passphraseFile : s.passphraseFile = some []

@[simp] theorem allAttempts_concat (turns : List Turn) (t : Turn) :
    allAttempts (turns ++ [t]) = allAttempts turns ++ t.attempts := by
  simp [allAttempts]

theorem Reached.concat (h : Reached boot s₀ turns s)
    (hmade : Made boot keyfile (allAttempts turns) s attempts s') :
    Reached boot s₀ (turns ++ [⟨keyfile, attempts⟩]) s' := by
  constructor
  case work =>
    rw [hmade.work, h.work, List.flatMap_append, List.flatMap_singleton, List.append_assoc]
    rfl
  case announcements => rw [hmade.announcements, h.announcements]
  case trace => exact h.trace.trans hmade.trace
  case prompts =>
    rw [allAttempts_concat]
    exact hmade.prompts

/-- The schedule of one keyfile more. -/
theorem Between.schedule_concat (h : Between boot s₀ before turns s)
    (hended : TurnEnded boot keyfile (allAttempts turns) s attempts s') (k : ℕ) :
    boot.rounds ((turns ++ [(⟨keyfile, attempts⟩ : Turn)]).length + k) s₀.generates =
      (turns ++ [(⟨keyfile, attempts⟩ : Turn)]).map Turn.statuses ++
        if (attempts.map (·.status)).any opens then [] else boot.rounds k s'.generates := by
  have hlength : (turns ++ [(⟨keyfile, attempts⟩ : Turn)]).length + k = turns.length + (k + 1) := by
    rw [List.length_append, List.length_singleton]
    omega
  rw [hlength, h.schedule, Boot.rounds_succ, hended.schedule, List.length_map, ← hended.generates,
    List.map_append, List.map_singleton, List.append_assoc, List.singleton_append]
  rfl

theorem keyfiles_concat (h : turns.map (·.keyfile) = before.filter boot.regular)
    (hregular : boot.regular keyfile = true) :
    (turns ++ [(⟨keyfile, attempts⟩ : Turn)]).map (·.keyfile) =
      (before ++ [keyfile]).filter boot.regular := by
  rw [List.map_append, h, List.filter_append, List.filter_singleton, hregular]
  rfl

theorem Between.failed_concat (h : Between boot s₀ before turns s)
    (hregular : boot.regular keyfile = true)
    (hfailed : TurnFailed boot keyfile (allAttempts turns) s attempts s') :
    Between boot s₀ (before ++ [keyfile]) (turns ++ [⟨keyfile, attempts⟩]) s' := by
  constructor
  case toReached => exact h.toReached.concat hfailed.toMade
  case isDirectory => exact hfailed.isDirectory
  case keyfiles => exact keyfiles_concat h.keyfiles hregular
  case schedule =>
    intro k
    have hnone : (attempts.map (·.status)).any opens = false := by simpa using hfailed.failed
    rw [h.schedule_concat hfailed.toTurnEnded, hnone]
    rfl
  case failed =>
    intro a ha
    rw [allAttempts_concat] at ha
    exact (List.mem_append.mp ha).elim (h.failed a) (hfailed.failed a)
  case cryptkey => exact hfailed.cryptkey
  case passphraseFile => exact .inr hfailed.passphraseFile
  case next =>
    rw [allAttempts_concat]
    exact hfailed.next

theorem Between.opened_concat (h : Between boot s₀ before turns s)
    (hregular : boot.regular keyfile = true)
    (hopened : TurnOpened boot keyfile (allAttempts turns) s attempts s') :
    Unlocked boot s₀ (before ++ [keyfile]) (turns ++ [⟨keyfile, attempts⟩]) s' := by
  constructor
  case toReached => exact h.toReached.concat hopened.toMade
  case keyfiles => exact keyfiles_concat h.keyfiles hregular
  case schedule =>
    intro k
    have hsome : (attempts.map (·.status)).any opens = true := by simpa using hopened.opened
    rw [h.schedule_concat hopened.toTurnEnded, hsome, if_pos rfl, List.append_nil]
  case opened =>
    obtain ⟨a, ha, hopens⟩ := hopened.opened
    rw [allAttempts_concat]
    exact ⟨a, List.mem_append_right _ ha, hopens⟩
  case cryptkey => exact hopened.cryptkey
  case passphrase => exact hopened.passphrase
  case passphraseFile => exact hopened.passphraseFile

/-- What is not a regular file is passed over. -/
theorem Between.pass (h : Between boot s₀ before turns s) (hregular : boot.regular keyfile = false) :
    Between boot s₀ (before ++ [keyfile]) turns s :=
  { h with keyfiles := by rw [h.keyfiles, List.filter_append, List.filter_singleton, hregular]; simp }

/-- The variable as the kernel parameter leaves it. -/
theorem isDefined_encryptedKeyfilePassphrase (hmode : boot.passphrasePromptOption ≠ .always) :
    isDefined boot.encryptedKeyfilePassphrase =
      !promptsNext boot.passphrasePromptOption none := by
  unfold Boot.passphrasePromptOption at hmode ⊢
  by_cases hdefined : isDefined boot.encryptedKeyfilePassphrase = true
  · rw [if_pos hdefined, hdefined]
    rfl
  · rw [if_neg hdefined] at hmode ⊢
    by_cases hsame : isDefinedNonEmpty boot.samePassphraseEveryKeyfile = true
    · rw [if_pos hsame, Bool.eq_false_iff.mpr hdefined]
      rfl
    · rw [if_neg hsame] at hmode
      exact absurd rfl hmode

theorem endsWithin_keyfileLoop (hdirectory : s₀.isDirectory = true) (hcryptkey : s₀.cryptkey = false)
    (hfile : s₀.passphraseFile = none)
    (hpassphrase : s₀.passphrase = boot.encryptedKeyfilePassphrase) :
    EndsWithin boot.limit (keyfileLoop · boot s₀)
      (Sum.elim (fun s => ∃ turns, Between boot s₀ (boot.files boot.directory) turns s)
        fun o => o.ending = .returned ∧ ∃ before after turns,
          boot.files boot.directory = before ++ after ∧ Unlocked boot s₀ before turns o.state) := by
  apply endsWithin_forEach (fun before s => ∃ turns, Between boot s₀ before turns s)
  case hturn =>
    rintro before keyfile after s hfiles ⟨turns, h⟩
    cases hregular : boot.regular keyfile with
    | false =>
      unfold tryKeyfile
      simp only [hregular, if_true]
      exact endsWithin_some ⟨turns, h.pass hregular⟩
    | true =>
      refine (endsWithin_tryKeyfile hregular h.isDirectory h.cryptkey h.prompts h.next).imp ?_
      rintro (s' | o)
      · rintro ⟨attempts, hfailed⟩
        exact ⟨_, h.failed_concat hregular hfailed⟩
      · rintro ⟨hreturned, attempts, hopened⟩
        exact ⟨hreturned, before ++ [keyfile], after, _, by simpa using hfiles,
          h.opened_concat hregular hopened⟩
  case hs =>
    refine ⟨[], ?_⟩
    constructor
    case toReached =>
      exact ⟨(List.append_nil s₀.work).symm, rfl, List.prefix_refl _, promptsRightly_nil⟩
    case isDirectory => exact hdirectory
    case schedule =>
      intro k
      rw [List.length_nil, Nat.zero_add]
      rfl
    case failed => exact fun a ha => absurd ha List.not_mem_nil
    case cryptkey => exact hcryptkey
    case passphraseFile => exact .inl hfile
    case next =>
      intro hmode
      rw [hpassphrase]
      exact isDefined_encryptedKeyfilePassphrase hmode
    all_goals rfl

/-! ## The loop as a whole -/

/-- The loop is done with, one way or the other. -/
structure Done (boot : Boot) (s₀ : State) (turns : List Turn) (s : State) : Prop
    extends Reached boot s₀ turns s where
  keyfiles : turns.map (·.keyfile) <+: boot.regularFiles
  schedule : turns.map Turn.statuses = boot.rounds boot.regularFiles.length s₀.generates
  exported : s.cryptkey = true ↔ ∃ a ∈ allAttempts turns, opens a.status = true
  passphraseFile : s.passphraseFile = none ∨ s.passphraseFile = some []

theorem Between.done (h : Between boot s₀ (boot.files boot.directory) turns s) :
    Done boot s₀ turns s := by
  constructor
  case toReached => exact h.toReached
  case keyfiles =>
    rw [h.keyfiles]
    exact List.prefix_refl _
  case schedule =>
    have hlength : boot.regularFiles.length = turns.length := by
      rw [Boot.regularFiles, ← h.keyfiles, List.length_map]
    have hschedule := h.schedule 0
    rw [Nat.add_zero] at hschedule
    rw [hlength, hschedule]
    exact (List.append_nil _).symm
  case exported =>
    rw [h.cryptkey]
    constructor
    · exact fun hfalse => absurd hfalse Bool.false_ne_true
    · rintro ⟨a, ha, hopens⟩
      exact (h.failed a ha).symm.trans hopens
  case passphraseFile => exact h.passphraseFile

theorem Unlocked.done (h : Unlocked boot s₀ before turns s) {after : List Bytes}
    (hfiles : boot.files boot.directory = before ++ after) : Done boot s₀ turns s := by
  have hregular : boot.regularFiles = turns.map (·.keyfile) ++ after.filter boot.regular := by
    rw [Boot.regularFiles, hfiles, List.filter_append, h.keyfiles]
  constructor
  case toReached => exact h.toReached
  case keyfiles =>
    rw [hregular]
    exact List.prefix_append _ _
  case schedule => rw [hregular, List.length_append, List.length_map, h.schedule]
  case exported => exact ⟨fun _ => h.opened, fun _ => h.cryptkey⟩
  case passphraseFile => exact .inr h.passphraseFile

/-- Behind the loop only the passphrase is unset. -/
theorem Done.finish (h : Done boot s₀ turns s) : Done boot s₀ turns { s with passphrase := none } :=
  ⟨⟨h.work, h.announcements, h.trace, h.prompts⟩, h.keyfiles, h.schedule, h.exported, h.passphraseFile⟩

theorem map_status_allAttempts (turns : List Turn) :
    (allAttempts turns).map (·.status) = (turns.map Turn.statuses).flatten := by
  induction turns with
  | nil => rfl
  | cons t turns ih =>
    rw [List.map_cons, List.flatten_cons, ← ih]
    exact List.map_append

/-! ## Before the loop -/

/-- The state in which the hook starts. -/
def Boot.initial (boot : Boot) : State := { passphrase := boot.encryptedKeyfilePassphrase }

/-- The authenticator check lets the hook go on to the keyfiles. -/
def Boot.entersLoop (boot : Boot) : Bool := (checkAuthenticator boot boot.initial).isLeft

theorem checkAuthenticator_cases (boot : Boot) (s : State) :
    (∃ events, events.filter Event.isWork = [] ∧ events.filter Event.announcesSkip = [] ∧
      checkAuthenticator boot s = .inl (s.record events)) ∨
    (∃ events message, events.filter Event.isWork = [] ∧ events.filter Event.announcesSkip = [] ∧
      .mount ∉ events ∧ checkAuthenticator boot s = .inr ((s.record events).printf message)) := by
  unfold checkAuthenticator
  split_ifs
  · exact .inr ⟨[], .skippingKhefin, rfl, rfl, by simp, by simp [State.record]⟩
  · exact .inr ⟨[.printf .insertAuthenticator, .printf .withoutAuthenticator], .skippingHook, rfl, rfl,
      by simp, by simp [State.printf, State.record]⟩
  · exact .inl ⟨[.printf .insertAuthenticator, .printf .withoutAuthenticator], rfl, rfl,
      by simp [State.printf, State.record]⟩
  · exact .inl ⟨[], rfl, rfl, by simp [State.record]⟩

/-- Whatever it announces, the hook goes on to mount its file system. -/
theorem prepare_eq (boot : Boot) (s : State) : ∃ after,
    after.filter Event.isWork = [] ∧ after.filter Event.announcesSkip = [] ∧ .mount ∈ after ∧
    prepare boot s = { s.record
      ((if boot.mountPoint = .absent then [] else [.printf .unexpectedPath]) ++ after) with
        isDirectory := boot.mountPoint ≠ .otherFile } := by
  by_cases hnever : boot.passphrasePromptOption = .never
  · refine ⟨[.mkdir, .mount, .printf .hardcodedPassphrase], rfl, rfl, by simp, ?_⟩
    cases hpath : boot.mountPoint <;>
      simp [prepare, Boot.announceHardcoded, mountRamfs, checkMountPoint, hnever, hpath, State.printf,
        State.record]
  · refine ⟨[.mkdir, .mount], rfl, rfl, by simp, ?_⟩
    cases hpath : boot.mountPoint <;>
      simp [prepare, Boot.announceHardcoded, mountRamfs, checkMountPoint, hnever, hpath, State.printf,
        State.record]

section Prepared

variable (boot : Boot) (s : State)

theorem prepare_isDirectory :
    (prepare boot s).isDirectory = decide (boot.mountPoint ≠ .otherFile) := by
  obtain ⟨after, -, -, -, hprepare⟩ := prepare_eq boot s
  rw [hprepare]

@[simp] theorem prepare_passphrase : (prepare boot s).passphrase = s.passphrase := by
  obtain ⟨after, -, -, -, hprepare⟩ := prepare_eq boot s
  rw [hprepare]
  rfl

@[simp] theorem prepare_passphraseFile : (prepare boot s).passphraseFile = s.passphraseFile := by
  obtain ⟨after, -, -, -, hprepare⟩ := prepare_eq boot s
  rw [hprepare]
  rfl

@[simp] theorem prepare_cryptkey : (prepare boot s).cryptkey = s.cryptkey := by
  obtain ⟨after, -, -, -, hprepare⟩ := prepare_eq boot s
  rw [hprepare]
  rfl

@[simp] theorem prepare_generates : (prepare boot s).generates = s.generates := by
  obtain ⟨after, -, -, -, hprepare⟩ := prepare_eq boot s
  rw [hprepare]
  rfl

end Prepared

/-- Nothing has been tried when the hook comes to its keyfiles. -/
theorem prepare_initial (boot : Boot) {events : List Event}
    (hwork : events.filter Event.isWork = []) :
    (prepare boot (boot.initial.record events)).work = [] ∧
      (prepare boot (boot.initial.record events)).generates = 0 := by
  refine ⟨?_, prepare_generates boot _⟩
  obtain ⟨after, hafter, -, -, hprepare⟩ := prepare_eq boot (boot.initial.record events)
  rw [hprepare]
  change ((boot.initial.record events).record _).work = []
  rw [State.work_record, State.work_record, hwork, List.filter_append, hafter]
  split_ifs <;> rfl

/-! ## Whole runs -/

/-- The attempts of a run on each keyfile in turn. With one passphrase for all keyfiles an attempt
that prompts is the first, or behind one that `mayPrompt`. -/
structure IsFair (mayPrompt : Attempt → Prop) (boot : Boot) (turns : List Turn) (o : Outcome) :
    Prop where
  returned : o.ending = .returned
  work : o.state.work = turns.flatMap Turn.events
  statuses : (allAttempts turns).map (·.status) =
    (List.range (allAttempts turns).length).map boot.generateStatus
  inOrder : turns.map (·.keyfile) <+: boot.regularFiles
  complete : (∀ a ∈ allAttempts turns, opens a.status = false) →
    turns.map (·.keyfile) = boot.regularFiles
  stops : ∀ a ∈ (allAttempts turns).dropLast, opens a.status = false
  exported : o.state.cryptkey = true ↔ ∃ a ∈ allAttempts turns, opens a.status = true
  tried : ∀ t ∈ turns, t.attempts ≠ [] ∧ t.attempts.length ≤ boot.limit
  retried : ∀ t ∈ turns, ∀ a ∈ t.attempts.dropLast, a.status = ExitStatus.badPassphrase.code
  usedUp : boot.passphrasePromptOption ≠ .never → ∀ t ∈ turns, ∀ a, t.attempts.getLast? = some a →
    a.status = ExitStatus.badPassphrase.code → t.attempts.length = boot.limit
  triedOnce : boot.passphrasePromptOption = .never → ∀ t ∈ turns, t.attempts.length = 1
  neverPrompts : boot.passphrasePromptOption = .never → ∀ a ∈ allAttempts turns, a.prompted = false
  promptsOnce : boot.passphrasePromptOption = .once → ∀ before a after,
    allAttempts turns = before ++ a :: after → a.prompted = true →
      ∀ b, before.getLast? = some b → mayPrompt b
  alwaysPrompts : boot.passphrasePromptOption = .always → ∀ a ∈ allAttempts turns, a.prompted = true

/-- With one passphrase for all keyfiles a prompt is due after a bad passphrase, and after one that
the hook cannot tell from none. -/
def Attempt.leavesNone (a : Attempt) : Prop :=
  a.status = ExitStatus.badPassphrase.code ∨ a.passphrase = undefined

theorem Done.exists_turn (h : Done boot s₀ turns s) {t : Turn} (ht : t ∈ turns) :
    ∃ n, t.statuses = boot.turn boot.limit n := by
  have hmem : t.statuses ∈ boot.rounds boot.regularFiles.length s₀.generates := by
    rw [← h.schedule]
    exact List.mem_map_of_mem ht
  exact exists_turn_of_mem_rounds hmem

theorem Turn.length_statuses (t : Turn) : t.statuses.length = t.attempts.length := List.length_map _

theorem Done.tried (h : Done boot s₀ turns s) {t : Turn} (ht : t ∈ turns) :
    t.attempts ≠ [] ∧ t.attempts.length ≤ boot.limit := by
  obtain ⟨n, hturn⟩ := h.exists_turn ht
  constructor
  · have hne : t.statuses ≠ [] := hturn ▸ turn_ne_nil boot.limit_pos
    intro hnil
    rw [Turn.statuses, hnil] at hne
    exact hne rfl
  · rw [← t.length_statuses, hturn]
    exact length_turn_le

theorem Done.retried (h : Done boot s₀ turns s) {t : Turn} (ht : t ∈ turns) {a : Attempt}
    (ha : a ∈ t.attempts.dropLast) : boot.triesAgain a.status = true := by
  obtain ⟨n, hturn⟩ := h.exists_turn ht
  have hstatus : a.status ∈ t.statuses.dropLast := by
    rw [Turn.statuses, ← List.map_dropLast]
    exact List.mem_map_of_mem ha
  exact again_of_mem_dropLast_turn (hturn ▸ hstatus)

theorem Done.isFair {o : Outcome} (h : Done boot s₀ turns o.state) (hreturned : o.ending = .returned)
    (hwork : s₀.work = []) (hgenerates : s₀.generates = 0) :
    IsFair Attempt.leavesNone boot turns o := by
  have hall : (allAttempts turns).map (·.status) =
      (boot.rounds boot.regularFiles.length s₀.generates).flatten := by
    rw [map_status_allAttempts, h.schedule]
  have hlength := congrArg List.length hall
  rw [List.length_map] at hlength
  constructor
  case returned => exact hreturned
  case work =>
    rw [h.work, hwork, List.nil_append]
  case statuses =>
    rw [hall, Boot.rounds, flatten_rounds_eq_map, hgenerates, hlength, hgenerates, List.range_eq_range']
    rfl
  case inOrder => exact h.keyfiles
  case complete =>
    intro hfailed
    have hlength : turns.length = boot.regularFiles.length := by
      rw [← List.length_map (f := Turn.statuses), h.schedule]
      apply length_rounds_of_not_done
      intro r hr
      rw [← Boot.rounds, ← h.schedule] at hr
      obtain ⟨t, ht, rfl⟩ := List.mem_map.mp hr
      rw [List.any_eq_false]
      intro status hstatus
      obtain ⟨a, ha, rfl⟩ := List.mem_map.mp hstatus
      rw [hfailed a (List.mem_flatMap.mpr ⟨t, ht, ha⟩)]
      exact Bool.false_ne_true
    exact h.keyfiles.eq_of_length (by rw [List.length_map, hlength])
  case stops =>
    intro a ha
    have hstatus : a.status ∈ ((allAttempts turns).map (·.status)).dropLast := by
      rw [← List.map_dropLast]
      exact List.mem_map_of_mem ha
    rw [hall] at hstatus
    have hagain : ∀ c, boot.triesAgain c = true → opens c = false :=
      fun _ => opens_eq_false_of_triesAgain
    exact not_done_of_mem_dropLast_rounds hagain hstatus
  case exported => exact h.exported
  case tried =>
    intro t ht
    exact h.tried ht
  case retried =>
    intro t ht a ha
    exact (Boot.triesAgain_iff.mp (h.retried ht ha)).1
  case usedUp =>
    intro hoption t ht a hlast hstatus
    obtain ⟨n, hturn⟩ := h.exists_turn ht
    have hlast' : (boot.turn boot.limit n).getLast? = some a.status := by
      rw [← hturn, Turn.statuses, List.getLast?_map, hlast]
      rfl
    rw [← t.length_statuses, hturn]
    exact length_turn_of_again hlast' (Boot.triesAgain_iff.mpr ⟨hstatus, hoption⟩)
  case triedOnce =>
    intro hoption t ht
    have hnone : t.attempts.dropLast = [] := by
      rw [List.eq_nil_iff_forall_not_mem]
      exact fun a ha => (Boot.triesAgain_iff.mp (h.retried ht ha)).2 hoption
    have hlength := congrArg List.length hnone
    have hpos := List.length_pos_iff.mpr (h.tried ht).1
    rw [List.length_dropLast, List.length_nil] at hlength
    omega
  case neverPrompts =>
    intro hoption a ha
    obtain ⟨before, after, hsplit⟩ := List.append_of_mem ha
    rw [h.prompts before a after hsplit, hoption]
    rfl
  case promptsOnce =>
    intro hoption before a after hsplit hprompted b hb
    rw [h.prompts before a after hsplit, hoption, hb] at hprompted
    rw [promptsNext, Bool.or_eq_true, decide_eq_true_eq, decide_eq_true_eq] at hprompted
    exact hprompted
  case alwaysPrompts =>
    intro hoption a ha
    obtain ⟨before, after, hsplit⟩ := List.append_of_mem ha
    rw [h.prompts before a after hsplit, hoption]
    rfl

/-- A run whose mount point is a directory, from the state before its keyfiles. -/
structure Finished (boot : Boot) (s₀ : State) (turns : List Turn) (o : Outcome) : Prop
    extends Done boot s₀ turns o.state where
  returned : o.ending = .returned
  passphrase : o.state.passphrase = none ↔ ∀ a ∈ allAttempts turns, opens a.status = false

theorem runHook_of_entersLoop (henters : boot.entersLoop = true) :
    ∃ events, events.filter Event.isWork = [] ∧ events.filter Event.announcesSkip = [] ∧
      (runHook · boot) = fun fuel =>
        (keyfileLoop fuel boot (prepare boot (boot.initial.record events))).map finish := by
  rcases checkAuthenticator_cases boot boot.initial with
    ⟨events, hwork, hquiet, hcheck⟩ | ⟨events, message, -, -, -, hcheck⟩
  · refine ⟨events, hwork, hquiet, ?_⟩
    funext fuel
    rw [runHook, ← Boot.initial, hcheck]
  · rw [Boot.entersLoop, hcheck] at henters
    cases henters

/-- Without an authenticator the announcement of the check is the end. -/
theorem runHook_of_not_entersLoop (henters : boot.entersLoop = false) :
    ∃ events message, events.filter Event.isWork = [] ∧ events.filter Event.announcesSkip = [] ∧
      .mount ∉ events ∧ (runHook · boot) = fun _ =>
        some ⟨.returned, (boot.initial.record events).printf message⟩ := by
  rcases checkAuthenticator_cases boot boot.initial with
    ⟨events, -, -, hcheck⟩ | ⟨events, message, hwork, hquiet, hmount, hcheck⟩
  · rw [Boot.entersLoop, hcheck] at henters
    cases henters
  · refine ⟨events, message, hwork, hquiet, hmount, ?_⟩
    funext fuel
    rw [runHook, ← Boot.initial, hcheck]

theorem endsWithin_runHook (henters : boot.entersLoop = true) (hpath : boot.mountPoint ≠ .otherFile) :
    ∃ events, events.filter Event.isWork = [] ∧ events.filter Event.announcesSkip = [] ∧
      EndsWithin boot.limit (runHook · boot) fun o =>
        ∃ turns, Finished boot (prepare boot (boot.initial.record events)) turns o := by
  obtain ⟨events, hwork, hquiet, hrun⟩ := runHook_of_entersLoop henters
  refine ⟨events, hwork, hquiet, ?_⟩
  rw [hrun]
  apply (@endsWithin_keyfileLoop boot _ _ _ _ _).map
  · rintro (s | o)
    · rintro ⟨turns, h⟩
      exact ⟨turns, h.done.finish, rfl, fun _ => h.failed, fun _ => rfl⟩
    · rintro ⟨hreturned, before, after, turns, hfiles, h⟩
      refine ⟨turns, h.done hfiles, hreturned, fun hnone => absurd hnone h.passphrase, fun hfailed => ?_⟩
      obtain ⟨a, ha, hopens⟩ := h.opened
      cases hopens.symm.trans (hfailed a ha)
  · exact (prepare_isDirectory boot _).trans (decide_eq_true hpath)
  · exact prepare_cryptkey boot _
  · exact prepare_passphraseFile boot _
  · exact prepare_passphrase boot _

/-- Every run that comes to the keyfiles ends, and its attempts are as they should be. -/
theorem runHook_isFair (henters : boot.entersLoop = true) (hpath : boot.mountPoint ≠ .otherFile) :
    EndsWithin boot.limit (runHook · boot) fun o =>
      ∃ turns, IsFair Attempt.leavesNone boot turns o := by
  obtain ⟨events, hwork, -, hends⟩ := endsWithin_runHook henters hpath
  refine hends.imp ?_
  rintro o ⟨turns, h⟩
  obtain ⟨hnothing, hgenerates⟩ := prepare_initial boot hwork
  exact ⟨turns, h.isFair h.returned hnothing hgenerates⟩

/-- Two keyfiles, one passphrase for both, and nothing in the way. -/
def referenceBoot : Boot where
  samePassphraseEveryKeyfile := some (text "1")
  mountPoint := .absent
  files directory := [directory ++ text "/a", directory ++ text "/b"]
  regular _ := true
  enumerateStatus _ := ExitStatus.success.code
  typed _ := text "correct horse"
  generateStatus _ := ExitStatus.badPassphrase.code

theorem runHook_isFair_reference :
    EndsWithin referenceBoot.limit (runHook · referenceBoot) fun o =>
      ∃ turns, IsFair Attempt.leavesNone referenceBoot turns o :=
  runHook_isFair (by decide) (by decide)

/-! ## The marker, and another file in the way -/

/-- The attempts that have left the events. -/
def attemptsIn : List Event → List Attempt
  | .read :: .generate _ passphrase status :: events =>
    ⟨true, passphrase, status⟩ :: attemptsIn events
  | .generate _ passphrase status :: events => ⟨false, passphrase, status⟩ :: attemptsIn events
  | _ :: events => attemptsIn events
  | [] => []

theorem attemptsIn_events (keyfile : Bytes) (attempts : List Attempt) (events : List Event) :
    attemptsIn (attempts.flatMap (·.events keyfile) ++ events) = attempts ++ attemptsIn events := by
  induction attempts with
  | nil => rfl
  | cons a attempts ih =>
    rw [List.flatMap_cons, List.append_assoc, List.cons_append, ← ih]
    rcases a with ⟨prompted, passphrase, status⟩
    cases prompted <;> rfl

theorem attemptsIn_turns (turns : List Turn) :
    attemptsIn (turns.flatMap Turn.events) = allAttempts turns := by
  induction turns with
  | nil => rfl
  | cons t turns ih =>
    rw [List.flatMap_cons, Turn.events, attemptsIn_events, ih]
    rfl

/-- The marker is typed, and no keyfile can be read. -/
def markerBoot : Boot :=
  { referenceBoot with
    typed := fun _ => undefined, generateStatus := fun _ => ExitStatus.deserializationError.code }

def otherFileBoot : Boot := { referenceBoot with mountPoint := .otherFile }

theorem work_markerBoot : (runHook 3 markerBoot).map (·.state.work) = some
    [.read, .generate (text "/keyfiles/a") undefined 36,
      .read, .generate (text "/keyfiles/b") undefined 36] := by
  decide

/-- A prompt behind an attempt that no bad passphrase has ended. -/
theorem not_isFair_markerBoot : ¬ EndsWithin markerBoot.limit (runHook · markerBoot) fun o =>
    ∃ turns, IsFair (fun a => a.status = ExitStatus.badPassphrase.code) markerBoot turns o := by
  rintro ⟨o, ⟨turns, hfair⟩, hrun⟩
  have hleft : runHook 3 markerBoot = some o := hrun 3 (by decide)
  have hwork := work_markerBoot
  rw [hleft, Option.map_some, Option.some.injEq, hfair.work] at hwork
  have hattempts := congrArg attemptsIn hwork
  rw [attemptsIn_turns] at hattempts
  have hprompted := hfair.promptsOnce (by decide) [⟨true, undefined, 36⟩] ⟨true, undefined, 36⟩ []
    hattempts rfl ⟨true, undefined, 36⟩ rfl
  exact absurd hprompted (by decide)

theorem ending_otherFileBoot : (runHook 3 otherFileBoot).map (·.ending) = some .shellExited := by
  decide

/-- The shell is gone before the first keyfile is tried. -/
theorem not_isFair_otherFileBoot (mayPrompt : Attempt → Prop) :
    ¬ EndsWithin otherFileBoot.limit (runHook · otherFileBoot) fun o =>
      ∃ turns, IsFair mayPrompt otherFileBoot turns o := by
  rintro ⟨o, ⟨turns, hfair⟩, hrun⟩
  have hleft : runHook 3 otherFileBoot = some o := hrun 3 (by decide)
  have hending := ending_otherFileBoot
  rw [hleft, Option.map_some, hfair.returned] at hending
  exact absurd hending (by decide)

theorem not_isFair_of_marker_or_otherFile :
    (¬ EndsWithin markerBoot.limit (runHook · markerBoot) fun o =>
      ∃ turns, IsFair (fun a => a.status = ExitStatus.badPassphrase.code) markerBoot turns o) ∧
    ¬ EndsWithin otherFileBoot.limit (runHook · otherFileBoot) fun o =>
      ∃ turns, IsFair (fun a => a.status = ExitStatus.badPassphrase.code) otherFileBoot turns o :=
  ⟨not_isFair_markerBoot, not_isFair_otherFileBoot _⟩

end Khefin.BootHook
