import Khefin.BootHook
import Khefin.RetrySchedule

/-! # The attempts on the keyfiles at boot

Whether an attempt prompts depends on the mode and on the attempt before it, whatever keyfile
that was on. The invariant of both loops says so, and follows the schedule of the exit codes. -/

namespace Khefin.BootHook
open CLibrary EarlyLoops RetrySchedule Shell

variable {boot : Boot} {keyfile : Bytes} {s s' : State}

/-! ## Attempts and the events they leave -/

structure Attempt where
  prompted : Bool
  passphrase : Bytes
  status : ℕ
  deriving DecidableEq

def Attempt.events (keyfile : Bytes) (a : Attempt) : List Event :=
  (if a.prompted then [.read] else []) ++ [.generate keyfile a.passphrase a.status]

/-- All attempts on a keyfile. -/
structure Turn where
  keyfile : Bytes
  attempts : List Attempt

namespace Turn

def events (t : Turn) : List Event := t.attempts.flatMap (·.events t.keyfile)

def statuses (t : Turn) : List ℕ := t.attempts.map (·.status)

end Turn

namespace Event

def isWork : Event → Bool
  | read | generate .. => true
  | _ => false

def announcesSkip : Event → Bool
  | printf message => message.announcesSkip
  | _ => false

end Event

namespace State

def work (s : State) : List Event := s.trace.filter Event.isWork

def announcements (s : State) : List Event := s.trace.filter Event.announcesSkip

@[simp] theorem work_record (events : List Event) (s : State) :
    (s.record events).work = s.work ++ events.filter Event.isWork := List.filter_append _ _

@[simp] theorem announcements_record (events : List Event) (s : State) :
    (s.record events).announcements = s.announcements ++ events.filter Event.announcesSkip :=
  List.filter_append _ _

theorem trace_prefix_record (events : List Event) (s : State) : s.trace <+: (s.record events).trace :=
  List.prefix_append _ _

end State

/-! ## The limit of attempts -/

namespace Boot

/-- A number above zero, or else the default. -/
def limit (boot : Boot) : ℕ :=
  match boot.encryptedKeyfilePassphraseAttempts.bind testInteger with
  | some number => if 0 < number then number.toNat else 3
  | none => 3

theorem limit_pos (boot : Boot) : 0 < boot.limit := by
  unfold limit
  split
  · split
    · omega
    · decide
  · decide

theorem testInteger_attempts (boot : Boot) : testInteger boot.attempts = some (boot.limit : ℤ) := by
  have hdefault : testInteger (text "3") = some 3 := by decide
  have hNaN : testInteger (text "NaN") = none := by decide
  unfold attempts limit isPositive
  cases boot.encryptedKeyfilePassphraseAttempts with
  | none =>
    simp only [Option.getD_none, hNaN, Option.any_none, Option.bind_none]
    exact hdefault
  | some word =>
    simp only [Option.getD_some, Option.bind_some]
    cases hword : testInteger word with
    | none =>
      simp only [Option.any_none]
      exact hdefault
    | some number =>
      by_cases hpos : 0 < number
      · simp only [Option.any_some, hpos, decide_true, if_true, hword]
        rw [Int.toNat_of_nonneg (Int.le_of_lt hpos)]
      · simp only [Option.any_some, hpos, decide_false, if_false, Bool.false_eq_true]
        exact hdefault

theorem hasTried_eq (boot : Boot) (tries : ℕ) : boot.hasTried tries = decide (boot.limit ≤ tries) := by
  rw [hasTried, testInteger_attempts, Option.any_some]
  simp

/-- The exit codes after which a keyfile is tried again. -/
def triesAgain (boot : Boot) (status : ℕ) : Bool :=
  status = ExitStatus.badPassphrase.code && boot.passphrasePromptOption ≠ .never

theorem triesAgain_iff {boot : Boot} {status : ℕ} : boot.triesAgain status = true ↔
    status = ExitStatus.badPassphrase.code ∧ boot.passphrasePromptOption ≠ .never := by
  simp [triesAgain]

/-- The exit code calls for another try, and fewer than the limit are made. -/
def goesOn (boot : Boot) (status tries : ℕ) : Bool :=
  boot.triesAgain status && tries < boot.limit

end Boot

def opens (status : ℕ) : Bool := status = ExitStatus.success.code

/-! ## One attempt -/

/-- The attempt that the hook makes in a state. -/
def attemptOf (boot : Boot) (s : State) : Attempt where
  prompted := !isDefined s.passphrase
  passphrase := if isDefined s.passphrase then s.passphrase.getD []
    else trimmed (boot.typed s.reads)
  status := boot.generateStatus s.generates

/-- What an attempt does, whatever comes of it. -/
structure Tried (boot : Boot) (keyfile : Bytes) (s s' : State) : Prop where
  work : s'.work = s.work ++ (attemptOf boot s).events keyfile
  announcements : s'.announcements = s.announcements
  trace : s.trace <+: s'.trace
  tries : s'.passphraseTries = s.passphraseTries + 1
  generates : s'.generates = s.generates + 1
  passphraseFile : s'.passphraseFile = some []
  isDirectory : s'.isDirectory = s.isDirectory

/-- Where an attempt leads, from a state in which files can be made. -/
structure Led (boot : Boot) (keyfile : Bytes) (s s' : State) (next : State ⊕ (State ⊕ Outcome)) :
    Prop extends Tried boot keyfile s s' where
  opened : opens (attemptOf boot s).status = true → s'.cryptkey = true ∧
    s'.passphrase = some (attemptOf boot s).passphrase ∧ next = .inr (.inr ⟨.returned, s'⟩)
  failed : opens (attemptOf boot s).status = false → s'.cryptkey = s.cryptkey ∧
    s'.passphrase =
      (if boot.triesAgain (attemptOf boot s).status then none
        else some (attemptOf boot s).passphrase) ∧
    s'.exitLoop = !boot.goesOn (attemptOf boot s).status (s.passphraseTries + 1) ∧
    next = if s'.exitLoop = false then .inl s' else .inr (.inl s')

@[simp] theorem isDefined_none : isDefined none = false := by simp [isDefined]

theorem some_getD_of_isDefined {value : Option Bytes} (h : isDefined value = true) :
    some (value.getD []) = value := by
  cases value with
  | none => cases isDefined_none.symm.trans h
  | some p => rfl

theorem prompted_eq (boot : Boot) (keyfile : Bytes) (s : State) : ∃ events,
    events.filter Event.isWork = (if (attemptOf boot s).prompted then [.read] else []) ∧
    events.filter Event.announcesSkip = [] ∧
    prompted boot keyfile s = { s.record events with
      passphrase := some (attemptOf boot s).passphrase,
      passphraseTries := s.passphraseTries + 1,
      reads := (prompted boot keyfile s).reads } := by
  have hmessages : (promptMessages boot keyfile).filter Event.isWork = [] ∧
      (promptMessages boot keyfile).filter Event.announcesSkip = [] := by
    unfold promptMessages
    cases boot.passphrasePromptOption <;> exact ⟨rfl, rfl⟩
  have htrying : ∃ events : List Event, events.filter Event.isWork = [] ∧
      events.filter Event.announcesSkip = [] ∧
      ∀ s, announceTry boot keyfile s = s.record events := by
    by_cases halways : boot.passphrasePromptOption = .always
    · refine ⟨[], rfl, rfl, fun s => ?_⟩
      simp [announceTry, halways, State.record]
    · exact ⟨[.printf (.trying keyfile)], rfl, rfl, fun s => by simp [announceTry, halways, State.printf]⟩
  obtain ⟨trying, hwork, hquiet, htry⟩ := htrying
  by_cases hdefined : isDefined s.passphrase = true
  · refine ⟨trying, ?_, hquiet, ?_⟩
    · simp [attemptOf, hdefined, hwork]
    · simp [prompted, htry, readPassphrase, attemptOf, hdefined, State.record,
        some_getD_of_isDefined hdefined]
  · rw [Bool.not_eq_true] at hdefined
    refine ⟨promptMessages boot keyfile ++ [.read, .printf .newline] ++ trying, ?_, ?_, ?_⟩
    · simp [attemptOf, hdefined, hwork, hmessages.1, List.filter_cons, Event.isWork]
    · simp [hquiet, hmessages.2, Event.announcesSkip, Message.announcesSkip]
    · simp [prompted, htry, readPassphrase, attemptOf, hdefined, State.record]

/-- The state behind `khefin generate`. -/
structure Generated (boot : Boot) (keyfile : Bytes) (s s' : State) : Prop
    extends Tried boot keyfile s s' where
  passphrase : s'.passphrase = some (attemptOf boot s).passphrase
  cryptkey : s'.cryptkey = s.cryptkey
  exitLoop : s'.exitLoop = s.exitLoop

theorem generated_prompted (boot : Boot) (keyfile : Bytes) (s : State) :
    ∃ s', Generated boot keyfile s s' ∧
      generate boot keyfile (prompted boot keyfile s) = (s', (attemptOf boot s).status) := by
  obtain ⟨events, hwork, hquiet, hprompted⟩ := prompted_eq boot keyfile s
  rw [hprompted]
  refine ⟨_, ?_, rfl⟩
  constructor
  case toTried =>
    constructor
    case work => simp [State.work, State.record, hwork, Attempt.events, attemptOf, Event.isWork]
    case announcements => simp [State.announcements, State.record, hquiet, Event.announcesSkip]
    case trace => simp [State.record]
    all_goals rfl
  all_goals rfl

/-- What comes after an attempt only prints, and sets other variables. -/
theorem Tried.followedBy (h : Tried boot keyfile s s') {events : List Event}
    (hwork : events.filter Event.isWork = []) (hquiet : events.filter Event.announcesSkip = [])
    (passphrase : Option Bytes) (exitLoop cryptkey : Bool) :
    Tried boot keyfile s { s'.record events with passphrase, exitLoop, cryptkey } := by
  constructor
  case work =>
    rw [← h.work, ← List.append_nil s'.work, ← hwork]
    exact State.work_record events s'
  case announcements =>
    rw [← h.announcements, ← List.append_nil s'.announcements, ← hquiet]
    exact State.announcements_record events s'
  case trace => exact h.trace.trans (State.trace_prefix_record events s')
  case tries => exact h.tries
  case generates => exact h.generates
  case passphraseFile => exact h.passphraseFile
  case isDirectory => exact h.isDirectory

/-- Whether the loop goes round again once its two checks are made. -/
theorem checkTries_evaluateResult (boot : Boot) (result : ℕ) (s : State) : ∃ events : List Event,
    events.filter Event.isWork = [] ∧ events.filter Event.announcesSkip = [] ∧
    checkTries boot (evaluateResult boot result s) = { s.record events with
      passphrase := if boot.triesAgain result then none else s.passphrase,
      exitLoop := !boot.goesOn result s.passphraseTries || s.exitLoop,
      cryptkey := s.cryptkey } := by
  have hevaluate : evaluateResult boot result s = { s with
      passphrase := if boot.triesAgain result then none else s.passphrase,
      exitLoop := !boot.triesAgain result || s.exitLoop } := by
    unfold evaluateResult Boot.triesAgain
    by_cases hresult : result = ExitStatus.badPassphrase.code <;>
      by_cases hnever : boot.passphrasePromptOption = .never <;> simp [hresult, hnever]
  rw [hevaluate, checkTries, Boot.hasTried_eq]
  by_cases htries : boot.limit ≤ s.passphraseTries
  · exact ⟨[.printf (.tooMany boot.attempts)], rfl, rfl,
      by simp [htries, State.printf, State.record, Boot.goesOn]⟩
  · exact ⟨[], rfl, rfl, by simp [htries, State.record, Boot.goesOn, Nat.not_le.mp htries]⟩

theorem led_judge (h : Generated boot keyfile s s') (hexit : s.exitLoop = false) :
    ∃ s'', Led boot keyfile s s'' (judge boot (attemptOf boot s).status s') := by
  unfold judge
  by_cases hopens : (attemptOf boot s).status = ExitStatus.success.code
  · rw [if_pos hopens]
    have hopened := @Tried.followedBy _ _ _ _ h.toTried [.exportCryptkey] rfl rfl s'.passphrase
      s'.exitLoop true
    refine ⟨_, hopened, fun _ => ⟨rfl, h.passphrase, rfl⟩, fun hfails => ?_⟩
    simp [opens, hopens] at hfails
  · rw [if_neg hopens]
    obtain ⟨events, hwork, hquiet, hchecked⟩ :=
      checkTries_evaluateResult boot (attemptOf boot s).status s'
    have hfailed := h.toTried.followedBy hwork hquiet
      (if boot.triesAgain (attemptOf boot s).status then none else s'.passphrase)
      (!boot.goesOn (attemptOf boot s).status s'.passphraseTries || s'.exitLoop) s'.cryptkey
    rw [← hchecked] at hfailed
    refine ⟨_, hfailed, fun hsuccess => ?_, fun _ => ⟨?_, ?_, ?_, rfl⟩⟩
    · simp [opens, hopens] at hsuccess
    · rw [hchecked]
      exact h.cryptkey
    · rw [hchecked, ← h.passphrase]
    · rw [hchecked]
      simp only [h.tries, h.exitLoop, hexit, Bool.or_false]

theorem led_tryPassphrase (hdirectory : s.isDirectory = true) (hexit : s.exitLoop = false) :
    ∃ s', Led boot keyfile s s' (tryPassphrase boot keyfile s) := by
  obtain ⟨s', hgenerated, hgenerate⟩ := generated_prompted boot keyfile s
  have hmade : (prompted boot keyfile s).isDirectory = true := by
    obtain ⟨events, -, -, hprompted⟩ := prompted_eq boot keyfile s
    rw [hprompted]
    exact hdirectory
  obtain ⟨s'', hled⟩ := led_judge hgenerated hexit
  refine ⟨s'', ?_⟩
  simp only [tryPassphrase, hmade, hgenerate, Bool.true_eq_false, if_false]
  exact hled

/-! ## Which attempts prompt -/

/-- Whether the attempt behind `last` prompts, if it is made. -/
def promptsNext : PromptOption → Option Attempt → Bool
  | .never, _ => false
  | .once, none => true
  | .once, some a => a.status = ExitStatus.badPassphrase.code || a.passphrase = undefined
  | .always, _ => true

def PromptsRightly (option : PromptOption) (attempts : List Attempt) : Prop :=
  ∀ before a after, attempts = before ++ a :: after →
    a.prompted = promptsNext option before.getLast?

theorem promptsRightly_nil {option : PromptOption} : PromptsRightly option [] :=
  fun before a after h => absurd h.symm (by simp)

theorem PromptsRightly.concat {option : PromptOption} {attempts : List Attempt}
    (h : PromptsRightly option attempts) {a : Attempt}
    (ha : a.prompted = promptsNext option attempts.getLast?) :
    PromptsRightly option (attempts ++ [a]) := by
  intro before x after hsplit
  rcases List.eq_nil_or_concat after with rfl | ⟨after, b, rfl⟩
  · obtain ⟨rfl, hx⟩ := List.append_inj' hsplit rfl
    cases hx
    exact ha
  · rw [List.concat_eq_append, ← List.cons_append, ← List.append_assoc] at hsplit
    exact h before x after (List.append_inj' hsplit rfl).1

/-- The variable tells the next attempt whether to prompt. In the mode that always prompts it is
unset for each keyfile, and only an exit code that calls for another try leaves it so. -/
theorem isDefined_of_failed {last : Option Attempt}
    (h : isDefined s.passphrase = !promptsNext boot.passphrasePromptOption last)
    (hmode : boot.passphrasePromptOption ≠ .always ∨
      boot.triesAgain (attemptOf boot s).status = true) :
    isDefined (if boot.triesAgain (attemptOf boot s).status then none
        else some (attemptOf boot s).passphrase) =
      !promptsNext boot.passphrasePromptOption (some (attemptOf boot s)) := by
  cases hoption : boot.passphrasePromptOption with
  | never =>
    rw [hoption] at h
    have hagain : boot.triesAgain (attemptOf boot s).status = false := by simp [Boot.triesAgain, hoption]
    have hdefined : isDefined s.passphrase = true := h
    rw [hagain, if_neg Bool.false_ne_true, attemptOf, if_pos hdefined, some_getD_of_isDefined hdefined]
    exact h
  | once =>
    by_cases hagain : (attemptOf boot s).status = ExitStatus.badPassphrase.code <;>
      by_cases hmarker : (attemptOf boot s).passphrase = undefined <;>
        simp [Boot.triesAgain, hoption, hagain, hmarker, promptsNext, isDefined]
  | always =>
    have hagain := hmode.resolve_left (not_not_intro hoption)
    rw [hagain, if_pos rfl, isDefined_none]
    rfl

/-! ## The attempts on one keyfile -/

section OneKeyfile

/-- What the attempts on a keyfile have done since `s₀`, behind those on earlier keyfiles. -/
structure Made (boot : Boot) (keyfile : Bytes) (earlier : List Attempt) (s₀ : State)
    (attempts : List Attempt) (s : State) : Prop where
  work : s.work = s₀.work ++ attempts.flatMap (·.events keyfile)
  announcements : s.announcements = s₀.announcements
  trace : s₀.trace <+: s.trace
  generates : s.generates = s₀.generates + attempts.length
  isDirectory : s.isDirectory = true
  prompts : PromptsRightly boot.passphrasePromptOption (earlier ++ attempts)

def Boot.turn (boot : Boot) (left n : ℕ) : List ℕ :=
  RetrySchedule.turn boot.triesAgain boot.generateStatus left n

/-- The invariant of the inner loop. -/
structure GoesRound (boot : Boot) (keyfile : Bytes) (earlier : List Attempt) (s₀ : State)
    (attempts : List Attempt) (s : State) : Prop
    extends Made boot keyfile earlier s₀ attempts s where
  tries : s.passphraseTries = attempts.length
  left : attempts.length < boot.limit
  exitLoop : s.exitLoop = false
  cryptkey : s.cryptkey = false
  failed : ∀ a ∈ attempts, opens a.status = false
  schedule : boot.turn boot.limit s₀.generates = attempts.map (·.status) ++
    boot.turn (boot.limit - attempts.length) (s₀.generates + attempts.length)
  next : isDefined s.passphrase =
    !promptsNext boot.passphrasePromptOption (earlier ++ attempts).getLast?

/-- The attempts on a keyfile are over. -/
structure TurnEnded (boot : Boot) (keyfile : Bytes) (earlier : List Attempt) (s₀ : State)
    (attempts : List Attempt) (s : State) : Prop
    extends Made boot keyfile earlier s₀ attempts s where
  schedule : boot.turn boot.limit s₀.generates = attempts.map (·.status)
  passphraseFile : s.passphraseFile = some []

structure TurnFailed (boot : Boot) (keyfile : Bytes) (earlier : List Attempt) (s₀ : State)
    (attempts : List Attempt) (s : State) : Prop
    extends TurnEnded boot keyfile earlier s₀ attempts s where
  failed : ∀ a ∈ attempts, opens a.status = false
  cryptkey : s.cryptkey = false
  next : boot.passphrasePromptOption ≠ .always → isDefined s.passphrase =
    !promptsNext boot.passphrasePromptOption (earlier ++ attempts).getLast?

structure TurnOpened (boot : Boot) (keyfile : Bytes) (earlier : List Attempt) (s₀ : State)
    (attempts : List Attempt) (s : State) : Prop
    extends TurnEnded boot keyfile earlier s₀ attempts s where
  opened : ∃ a ∈ attempts, opens a.status = true
  cryptkey : s.cryptkey = true
  passphrase : s.passphrase ≠ none

variable {earlier attempts : List Attempt} {s₀ : State}

theorem Made.concat (h : Made boot keyfile earlier s₀ attempts s) (htried : Tried boot keyfile s s')
    (hnext : isDefined s.passphrase =
      !promptsNext boot.passphrasePromptOption (earlier ++ attempts).getLast?) :
    Made boot keyfile earlier s₀ (attempts ++ [attemptOf boot s]) s' := by
  constructor
  case work => rw [htried.work, h.work, List.flatMap_append, List.append_assoc, List.flatMap_singleton]
  case announcements => rw [htried.announcements, h.announcements]
  case trace => exact h.trace.trans htried.trace
  case generates => rw [htried.generates, h.generates, List.length_append, List.length_singleton]; rfl
  case isDirectory => rw [htried.isDirectory, h.isDirectory]
  case prompts =>
    rw [← List.append_assoc]
    apply h.prompts.concat
    rw [attemptOf, hnext, Bool.not_not]

/-- The schedule after one attempt more. -/
theorem GoesRound.schedule_concat (h : GoesRound boot keyfile earlier s₀ attempts s) :
    boot.turn boot.limit s₀.generates = (attempts ++ [attemptOf boot s]).map (·.status) ++
      if boot.triesAgain (attemptOf boot s).status then
        boot.turn (boot.limit - (attempts.length + 1)) (s₀.generates + (attempts.length + 1))
      else [] := by
  have hleft : boot.limit - attempts.length = boot.limit - (attempts.length + 1) + 1 := by
    have := h.left
    omega
  have hstatus : boot.generateStatus (s₀.generates + attempts.length) = (attemptOf boot s).status := by
    rw [← h.generates]
    rfl
  rw [h.schedule, hleft, Boot.turn, RetrySchedule.turn, hstatus, List.map_append, List.map_singleton,
    List.append_assoc, List.singleton_append]
  rfl

theorem opens_eq_false_of_triesAgain {status : ℕ} (h : boot.triesAgain status = true) :
    opens status = false := by
  rw [(Boot.triesAgain_iff.mp h).1]
  rfl

/-- One turn of the inner loop. -/
theorem GoesRound.led (h : GoesRound boot keyfile earlier s₀ attempts s)
    {next : State ⊕ (State ⊕ Outcome)} (hled : Led boot keyfile s s' next) :
    (next = .inl s' ∧ GoesRound boot keyfile earlier s₀ (attempts ++ [attemptOf boot s]) s') ∨
    (next = .inr (.inl s') ∧ TurnFailed boot keyfile earlier s₀ (attempts ++ [attemptOf boot s]) s') ∨
    (next = .inr (.inr ⟨.returned, s'⟩) ∧
      TurnOpened boot keyfile earlier s₀ (attempts ++ [attemptOf boot s]) s') := by
  have hmade := h.toMade.concat hled.toTried h.next
  have hschedule := h.schedule_concat
  cases hopens : opens (attemptOf boot s).status with
  | true =>
    obtain ⟨hcryptkey, hpassphrase, hnext⟩ := hled.opened hopens
    have hagain : boot.triesAgain (attemptOf boot s).status = false := by
      cases hagain : boot.triesAgain (attemptOf boot s).status with
      | false => rfl
      | true => cases hopens.symm.trans (opens_eq_false_of_triesAgain hagain)
    rw [hagain, if_neg Bool.false_ne_true, List.append_nil] at hschedule
    refine .inr (.inr ⟨hnext, ⟨hmade, hschedule, hled.passphraseFile⟩, ?_, hcryptkey, ?_⟩)
    · exact ⟨_, List.mem_append_right _ (List.mem_singleton_self _), hopens⟩
    · rw [hpassphrase]
      exact Option.some_ne_none _
  | false =>
    obtain ⟨hcryptkey, hpassphrase, hexit, hnext⟩ := hled.failed hopens
    have hfailed : ∀ a ∈ attempts ++ [attemptOf boot s], opens a.status = false := by
      intro a ha
      rcases List.mem_append.mp ha with ha | ha
      · exact h.failed a ha
      · rw [List.mem_singleton.mp ha, hopens]
    have hlast : (earlier ++ (attempts ++ [attemptOf boot s])).getLast? = some (attemptOf boot s) := by
      rw [← List.append_assoc, List.getLast?_concat]
    cases hgoes : boot.goesOn (attemptOf boot s).status (s.passphraseTries + 1) with
    | true =>
      obtain ⟨hagain, hlimit⟩ := Bool.and_eq_true_iff.mp hgoes
      rw [hgoes, Bool.not_true] at hexit
      rw [hexit, if_pos rfl] at hnext
      rw [hagain, if_pos rfl] at hschedule
      refine .inl ⟨hnext, hmade, ?_, ?_, hexit, hcryptkey.trans h.cryptkey, hfailed, ?_, ?_⟩
      · rw [hled.tries, h.tries, List.length_append, List.length_singleton]
      · rw [List.length_append, List.length_singleton, ← h.tries]
        exact of_decide_eq_true hlimit
      · rw [List.length_append, List.length_singleton]
        exact hschedule
      · rw [hlast, hpassphrase]
        exact isDefined_of_failed h.next (.inr hagain)
    | false =>
      rw [hgoes, Bool.not_false] at hexit
      rw [hexit, if_neg Bool.false_ne_true.symm] at hnext
      have hover : (if boot.triesAgain (attemptOf boot s).status then
          boot.turn (boot.limit - (attempts.length + 1)) (s₀.generates + (attempts.length + 1))
          else []) = [] := by
        cases hagain : boot.triesAgain (attemptOf boot s).status with
        | false => rfl
        | true =>
          rw [Boot.goesOn, hagain, Bool.true_and, decide_eq_false_iff_not, Nat.not_lt, h.tries] at hgoes
          rw [if_pos rfl, Nat.sub_eq_zero_of_le hgoes]
          rfl
      rw [hover, List.append_nil] at hschedule
      refine .inr (.inl ⟨hnext, ⟨hmade, hschedule, hled.passphraseFile⟩, hfailed,
        hcryptkey.trans h.cryptkey, fun hmode => ?_⟩)
      rw [hlast, hpassphrase]
      exact isDefined_of_failed h.next (.inl hmode)

theorem endsWithin_tryKeyfile (hregular : boot.regular keyfile = true)
    (hdirectory : s.isDirectory = true) (hcryptkey : s.cryptkey = false)
    (hprompts : PromptsRightly boot.passphrasePromptOption earlier)
    (hnext : boot.passphrasePromptOption ≠ .always →
      isDefined s.passphrase = !promptsNext boot.passphrasePromptOption earlier.getLast?) :
    EndsWithin boot.limit (tryKeyfile · boot keyfile s)
      (Sum.elim (fun s' => ∃ attempts, TurnFailed boot keyfile earlier s attempts s')
        fun o => o.ending = .returned ∧ ∃ attempts, TurnOpened boot keyfile earlier s attempts o.state) := by
  have hstart : GoesRound boot keyfile earlier s [] (startKeyfile boot s) := by
    constructor
    case toMade =>
      constructor
      case work => exact (List.append_nil s.work).symm
      case trace => exact List.prefix_refl s.trace
      case isDirectory => exact hdirectory
      case prompts =>
        rw [List.append_nil]
        exact hprompts
      all_goals rfl
    case left => exact boot.limit_pos
    case cryptkey => exact hcryptkey
    case failed => exact fun a ha => absurd ha List.not_mem_nil
    case next =>
      rw [List.append_nil, startKeyfile]
      by_cases hmode : boot.passphrasePromptOption = .always
      · rw [if_pos hmode, isDefined_none, hmode]
        rfl
      · rw [if_neg hmode]
        exact hnext hmode
    all_goals rfl
  unfold tryKeyfile
  simp only [hregular, Bool.true_eq_false, if_false]
  apply endsWithin_repeatWhile (fun s' => ∃ attempts, GoesRound boot keyfile earlier s attempts s')
    fun s' => boot.limit - s'.passphraseTries - 1
  case hagain =>
    rintro s₁ s₂ ⟨attempts, h⟩ hturn
    obtain ⟨s', hled⟩ := led_tryPassphrase h.isDirectory h.exitLoop
    rw [hturn] at hled
    rcases h.led hled with ⟨hnext, hround⟩ | ⟨hnext, -⟩ | ⟨hnext, -⟩
    · cases hnext
      refine ⟨⟨_, hround⟩, ?_⟩
      have hleft := hround.left
      have htries := h.tries
      rw [List.length_append, List.length_singleton] at hleft
      rw [hled.tries]
      omega
    · cases hnext
    · cases hnext
  case hleave =>
    rintro s₁ left ⟨attempts, h⟩ hturn
    obtain ⟨s', hled⟩ := led_tryPassphrase h.isDirectory h.exitLoop
    rw [hturn] at hled
    rcases h.led hled with ⟨hnext, -⟩ | ⟨hnext, hfailed⟩ | ⟨hnext, hopened⟩
    · cases hnext
    · cases hnext
      exact ⟨_, hfailed⟩
    · cases hnext
      exact ⟨rfl, _, hopened⟩
  case hs => exact ⟨[], hstart⟩
  case hn =>
    have := boot.limit_pos
    change boot.limit - 0 - 1 < boot.limit
    omega

end OneKeyfile

end Khefin.BootHook
