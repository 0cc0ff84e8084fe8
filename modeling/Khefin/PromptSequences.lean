import Khefin.LineStreams
import Khefin.Main
import Khefin.ReferencePlatform

/-! # One prompt after the other

The secrets of a run are read from one stream. Each prompt hands the rest of it to the
next, so the secrets depend on how the pieces of `fgets` fall on the lines, and the first
byte of each piece decides whether the last one is looked for in front of the buffer. -/

namespace Khefin
open CLibrary ExitingPrograms

/-- The calls a run makes: for the passphrase, unless it was given, and for a PIN per device. -/
def promptCalls (passphrase : Bool) (pins : List CString) : List (CString × ℕ) :=
  (if passphrase = true then [(literal "passphrase", longestValidPassphrase)] else []) ++
    pins.map fun description => (description, longestValidPin)

/-- The calls one after the other, with the secrets they return. -/
def promptAll (P : Platform) : List (CString × ℕ) → Program (List CString)
  | [] => return []
  | call :: calls => do
    let secret ← promptForSecret P call.1 call.2
    let secrets ← promptAll P calls
    return secret :: secrets

/-- The secrets, unless the run stopped, and what is left of standard input. -/
def leaves {α : Type} : EStateM.Result Halt World α → Option α × Bytes
  | .ok a w => (some a, w.stdin)
  | .error _ w => (none, w.stdin)

/-- The lines cut at the sizes of the calls. -/
def cutLines (calls : List (CString × ℕ)) (lines : List Bytes) : List Bytes :=
  List.zipWith (fun call line => line.take call.2) calls lines

/-- What is required of calls that read standard input. -/
structure PromptsInStep (P : Platform) (calls : List (CString × ℕ)) (w : World) : Prop where
  aligned : ∀ lines : List Bytes, (∀ line ∈ lines, newline ∉ line ∧ (0 : UInt8) ∉ line) →
    w.stdin = joinLines lines → ∃ secrets w',
      promptAll P (calls.take lines.length) w = .ok secrets w' ∧
      secrets.map CString.bytes = cutLines calls lines
  readInBounds : Traces (fun e => ∀ operation, e ≠ .outOfBounds operation) w
    (finalState (promptAll P calls w))
  writtenInBounds : ∀ call ∈ calls, ∀ stream piece rest,
    fgets call.2 stream = some (piece, rest) → piece.length + 1 ≤ call.2 + 1
  sameSecrets : ∀ P' : Platform, P'.standardInput = .terminal true true true →
    leaves (promptAll P' calls w) = leaves (promptAll P calls w)

/-! ## One call -/

section Calls

variable {P : Platform} {w : World}

/-- Standard input can be read, and a terminal can be set and set back. -/
def StandardInput.IsUsable (input : StandardInput) : Prop :=
  input = .notTerminal ∨ input = .terminal true true true

theorem promptForSecret_of_none (h : P.standardInput.IsUsable) {size : ℕ}
    (hread : fgets size w.stdin = none) (description : CString) :
    promptForSecret P description size w =
      .error (unableToGet "Unable to get %s on STDIN: fgets error 0x%02x" description)
        (w.record (.promptForSecret description)) := by
  have hline : getLine description size (w.record (.promptForSecret description)) =
      .error (unableToGet "Unable to get %s on STDIN: fgets error 0x%02x" description)
        (w.record (.promptForSecret description)) := by simp [getLine, bind_apply, hread]
  rcases h with hinput | hinput
  · simp [promptForSecret, hinput, bind_apply, hline]
  · simp [promptForSecret, hinput, stopIf, bind_apply, hline]

/-- What has been recorded of a call that read this piece. -/
def callEvents (P : Platform) (description : CString) (piece : Bytes) : List Event :=
  .promptForSecret description ::
    ((if P.standardInput = .notTerminal ∧ (cString piece).length = 0 then
      [.outOfBounds "result[strlen(result) - 1]"] else []) ++ [.secretEntered (entered piece)])

theorem promptForSecret_of_some (h : P.standardInput.IsUsable) {size : ℕ} {piece rest : Bytes}
    (hread : fgets size w.stdin = some (piece, rest)) (description : CString) :
    ∃ w', promptForSecret P description size w = .ok (entered piece) w' ∧ w'.stdin = rest ∧
      w'.trace = w.trace ++ callEvents P description piece := by
  have hline : getLine description size (w.record (.promptForSecret description)) =
      .ok piece ((w.record (.promptForSecret description)).leave rest) := by
    simp [getLine, bind_apply, map_apply, hread]
  rcases h with hinput | hinput
  · by_cases hnul : (cString piece).length = 0
    · simp [promptForSecret, hinput, bind_of_ok hline, lookAtLastByte, hnul, readSecret, bind_apply,
        map_apply, callEvents, entered]
    · simp [promptForSecret, hinput, bind_of_ok hline, lookAtLastByte, hnul, readSecret, bind_apply,
        map_apply, callEvents, entered]
  · simp [promptForSecret, hinput, bind_of_ok hline, readSecret, bind_apply, map_apply, callEvents,
      entered, stopIf]

end Calls

/-! ## All calls -/

section Sequences

variable {P : Platform} {w : World}

theorem leaves_bind_pure {α β : Type} (x : Program α) (f : α → β) (w : World) :
    leaves ((x >>= fun a => pure (f a)) w) = ((leaves (x w)).1.map f, (leaves (x w)).2) := by
  rw [bind_apply]
  cases x w <;> rfl

/-- The pieces decide what the calls return and what they leave. -/
theorem leaves_promptAll (h : P.standardInput.IsUsable) (calls : List (CString × ℕ)) (w : World) :
    leaves (promptAll P calls w) =
      (if (readPieces (calls.map (·.2)) w.stdin).1.length = calls.length then
        some ((readPieces (calls.map (·.2)) w.stdin).1.map entered) else none,
      (readPieces (calls.map (·.2)) w.stdin).2) := by
  induction calls generalizing w with
  | nil => rfl
  | cons call calls ih =>
    cases hread : fgets call.2 w.stdin with
    | none =>
      have hrun : promptAll P (call :: calls) w = _ :=
        bind_of_error (promptForSecret_of_none h hread call.1) _
      simp [hrun, readPieces, hread, leaves]
    | some r =>
      obtain ⟨w₁, hcall, hrest, -⟩ := promptForSecret_of_some h hread call.1
      have hrun : promptAll P (call :: calls) w = _ := bind_of_ok hcall _
      rw [hrun, leaves_bind_pure, ih w₁, hrest, List.map_cons, readPieces, hread]
      by_cases hall : (readPieces (calls.map (·.2)) r.2).1.length = calls.length
      · simp [hall]
      · simp [hall]

/-- So do they decide whether the byte in front of a buffer is looked at. -/
theorem readInBounds_promptAll (h : P.standardInput.IsUsable) (calls : List (CString × ℕ))
    (w : World) : ∃ events, (finalState (promptAll P calls w)).trace = w.trace ++ events ∧
      ((∀ e ∈ events, ∀ operation, e ≠ .outOfBounds operation) ↔
        (P.standardInput = .notTerminal →
          ∀ piece ∈ (readPieces (calls.map (·.2)) w.stdin).1, (cString piece).length ≠ 0)) := by
  induction calls generalizing w with
  | nil => exact ⟨[], by simp [promptAll], by simp [readPieces]⟩
  | cons call calls ih =>
    cases hread : fgets call.2 w.stdin with
    | none =>
      have hrun : promptAll P (call :: calls) w = _ :=
        bind_of_error (promptForSecret_of_none h hread call.1) _
      exact ⟨[.promptForSecret call.1], by simp [hrun], by simp [readPieces, hread]⟩
    | some r =>
      obtain ⟨w₁, hcall, hrest, htrace⟩ := promptForSecret_of_some h hread call.1
      obtain ⟨events, hevents, hbounds⟩ := ih w₁
      have hrun : promptAll P (call :: calls) w = _ := bind_of_ok hcall _
      rw [hrest] at hbounds
      refine ⟨callEvents P call.1 r.1 ++ events, ?_, ?_⟩
      · rw [← List.append_assoc, ← htrace, ← hevents, hrun, bind_apply]
        cases promptAll P calls w₁ <;> rfl
      · rw [List.forall_mem_append, hbounds, List.map_cons, readPieces, hread]
        by_cases hinput : P.standardInput = .notTerminal
        · by_cases hnul : (cString r.1).length = 0
          · simp [callEvents, hinput, hnul]
          · simp [callEvents, hinput, hnul]
        · simp [callEvents, hinput]

/-- Calls that are not more than the lines return them, cut, exactly when they keep step. -/
theorem promptAll_inStep_iff (h : P.standardInput.IsUsable) {calls : List (CString × ℕ)}
    {lines : List Bytes} (hle : calls.length ≤ lines.length) (w : World) :
    (∃ secrets w', promptAll P calls w = .ok secrets w' ∧
      secrets.map CString.bytes = cutLines calls lines) ↔
      InStep (calls.map (·.2)) lines w.stdin := by
  have hrun := leaves_promptAll h calls w
  have hpieces := readPieces_length_le (calls.map (·.2)) w.stdin
  rw [List.length_map] at hpieces
  rw [InStep, List.take_of_length_le (hpieces.trans hle), List.zipWith_map_left, ← cutLines]
  constructor
  · rintro ⟨secrets, w', hok, hsecrets⟩
    rw [hok, leaves, Prod.mk.injEq, eq_comm, Option.ite_none_right_eq_some] at hrun
    obtain ⟨⟨-, heq⟩, -⟩ := hrun
    rw [← hsecrets, ← Option.some.inj heq, List.map_map]
    rfl
  · intro hstep
    have hlength := congrArg List.length hstep
    rw [List.length_map, cutLines, List.length_zipWith, Nat.min_eq_left hle] at hlength
    rw [if_pos hlength] at hrun
    cases hok : promptAll P calls w with
    | error halt w' => simp [hok, leaves] at hrun
    | ok secrets w' =>
      rw [hok, leaves, Prod.mk.injEq, Option.some.injEq] at hrun
      refine ⟨secrets, w', rfl, ?_⟩
      rw [hrun.1, List.map_map, ← hstep]
      rfl

end Sequences

/-! ## The calls of a run -/

def enteredSecrets (trace : List Event) : List CString :=
  trace.filterMap fun e => match e with
    | .secretEntered secret => some secret
    | _ => none

theorem enteredSecrets_append (trace trace' : List Event) :
    enteredSecrets (trace ++ trace') = enteredSecrets trace ++ enteredSecrets trace' :=
  List.filterMap_append

/-- The secrets entered are those of these calls, and so is what is left of standard input. -/
def Prompted (calls : List (CString × ℕ)) (w w' : World) : Prop :=
  enteredSecrets w'.trace =
    enteredSecrets w.trace ++ (readPieces (calls.map (·.2)) w.stdin).1.map entered ∧
  w'.stdin = (readPieces (calls.map (·.2)) w.stdin).2

theorem Prompted.trans {calls calls' : List (CString × ℕ)} {w₁ w₂ w₃ : World}
    (h : Prompted calls w₁ w₂) (h' : Prompted calls' w₂ w₃) : Prompted (calls ++ calls') w₁ w₃ := by
  obtain ⟨ht, hs⟩ := h
  obtain ⟨ht', hs'⟩ := h'
  rw [Prompted, List.map_append, readPieces_append, ← hs]
  exact ⟨by rw [ht', ht, List.map_append, List.append_assoc], hs'⟩

theorem prompted_of_same {w w' : World} (htrace : enteredSecrets w'.trace = enteredSecrets w.trace)
    (hstdin : w'.stdin = w.stdin) : Prompted [] w w' := by
  simp [Prompted, readPieces, htrace, hstdin]

theorem prompted_promptForSecret {P : Platform} (h : P.standardInput.IsUsable)
    (description : CString) (size : ℕ) (w : World) :
    Prompted [(description, size)] w (finalState (promptForSecret P description size w)) := by
  cases hread : fgets size w.stdin with
  | none =>
    rw [promptForSecret_of_none h hread]
    simp [Prompted, readPieces, hread, enteredSecrets]
  | some r =>
    obtain ⟨w', hcall, hrest, htrace⟩ := promptForSecret_of_some h hread description
    have hentered : enteredSecrets (callEvents P description r.1) = [entered r.1] := by
      unfold callEvents
      split <;> rfl
    rw [hcall, finalState_ok, Prompted, htrace, hrest, enteredSecrets_append, hentered]
    simp [readPieces, hread]

/-- Only PINs have been asked for. -/
def PinsPrompted (w w' : World) : Prop :=
  ∃ pins : List CString, Prompted (pins.map fun description => (description, longestValidPin)) w w'

instance : IsPreorder World PinsPrompted where
  refl _ := ⟨[], prompted_of_same rfl rfl⟩
  trans := by
    rintro w₁ w₂ w₃ ⟨pins, h⟩ ⟨pins', h'⟩
    exact ⟨pins ++ pins', by simpa using h.trans h'⟩

/-- Nothing has been asked for. -/
def Unprompted (w w' : World) : Prop := Prompted [] w w'

instance : IsPreorder World Unprompted where
  refl _ := prompted_of_same rfl rfl
  trans _ _ _ h h' := h.trans h'

theorem unprompted_record {e : Event} (h : ¬e.IsPrompt) (w : World) :
    Unprompted w (w.record e) := by
  refine prompted_of_same ?_ rfl
  rw [World.record_trace, enteredSecrets_append]
  cases e <;> first | exact absurd trivial h | exact List.append_nil _

theorem unprompted_printf (w : World) (output : Bytes) : Unprompted w (World.printf output w) :=
  prompted_of_same rfl rfl

theorem tolerates_unprompted {S : Event → Prop} (h : ∀ e, S e → ¬e.IsPrompt) :
    Tolerates S Unprompted := fun w e he => unprompted_record (h e he) w

theorem Unprompted.pinsPrompted {w w' : World} (h : Unprompted w w') : PinsPrompted w w' := ⟨[], h⟩

/-- The passphrase has been asked for, or nothing. -/
def PassphrasePrompted (w w' : World) : Prop :=
  ∃ passphrase, Prompted (promptCalls passphrase []) w w'

theorem Unprompted.passphrasePrompted {w w' : World} (h : Unprompted w w') :
    PassphrasePrompted w w' := ⟨false, h⟩

theorem Unprompted.then {w w₁ w' : World} (h : Unprompted w w₁) (h' : PassphrasePrompted w₁ w') :
    PassphrasePrompted w w' := by
  obtain ⟨passphrase, hprompted⟩ := h'
  exact ⟨passphrase, h.trans hprompted⟩

section Runs

variable {P : Platform} (h : P.standardInput.IsUsable)
include h

theorem prompted_supplyDefaults (result : InvocationState) :
    Keeps PassphrasePrompted (supplyDefaults P result) := by
  refine keeps_ite (fun _ w => ?_) fun _ w => Unprompted.passphrasePrompted (refl_of Unprompted w)
  refine finalState_bind (fun e w' hstop => ?_) fun _ w₁ hmalloc => ?_
  · exact Unprompted.passphrasePrompted ((keeps_lift _).of_error hstop)
  refine Unprompted.then ((keeps_lift _).of_ok hmalloc) ?_
  have hprompt := prompted_promptForSecret h (literal "passphrase") longestValidPassphrase w₁
  refine finalState_bind (fun e w' hstop => ?_) fun secret w' hok => ?_
  · rw [hstop] at hprompt
    exact ⟨true, hprompt⟩
  · rw [hok] at hprompt
    exact ⟨true, hprompt⟩

/-- The parser asks for the passphrase at most. -/
theorem prompted_parseArguments (argv : List CString) (w : World) :
    PassphrasePrompted w (finalState (parseArgumentsAndGetPassphrase P argv w)) := by
  have hroutine : Tolerates Event.IsRoutine Unprompted :=
    tolerates_unprompted fun e he => by cases e <;> first | exact he.elim | exact id
  have husage : ∀ (name : CString) (w : World),
      PassphrasePrompted w (finalState (usageAndExit (α := InvocationState) name w)) :=
    fun name w => Unprompted.passphrasePrompted (keeps_usageAndExit unprompted_printf name w)
  match argv with
  | [] => exact Unprompted.passphrasePrompted (refl_of Unprompted w)
  | [name] => exact husage name w
  | name :: command :: rest =>
    refine finalState_bind (fun e w' hstop => ?_) fun _ w₁ hmalloc => ?_
    · exact Unprompted.passphrasePrompted ((keeps_lift _).of_error hstop)
    refine Unprompted.then ((keeps_lift _).of_ok hmalloc) ?_
    cases subcommandOf command with
    | none => exact husage name w₁
    | some subcommand =>
      refine finalState_bind (fun e w' hstop => ?_) fun state w₂ hoptions => ?_
      · exact Unprompted.passphrasePrompted ((keeps_parseOptions _ _ _).of_error hstop)
      refine Unprompted.then ((keeps_parseOptions _ _ _).of_ok hoptions) ?_
      refine finalState_bind (fun e w' hstop => ?_) fun _ w₃ hreport => ?_
      · exact Unprompted.passphrasePrompted ((keeps_reportExtraArguments hroutine _ _).of_error hstop)
      refine Unprompted.then ((keeps_reportExtraArguments hroutine _ _).of_ok hreport) ?_
      exact keeps_ite (fun _ => husage name) (fun _ => prompted_supplyDefaults h _) w₃

theorem pinsPrompted_promptForSecret (description : CString) :
    Keeps PinsPrompted (promptForSecret P description longestValidPin) :=
  fun w => ⟨[description], prompted_promptForSecret h description longestValidPin w⟩

theorem pinsPrompted_runSubcommand (name : CString) (invocation : InvocationState) :
    Keeps PinsPrompted (runSubcommand P name invocation) := by
  have htolerates : ∀ {S : Event → Prop}, (∀ e, S e → ¬e.IsPrompt) → Tolerates S PinsPrompted :=
    fun hS w e he => Unprompted.pinsPrompted (unprompted_record (hS e he) w)
  have hroutine : Tolerates Event.IsRoutine PinsPrompted :=
    htolerates fun e he => by cases e <;> first | exact he.elim | exact id
  have hkeys : Tolerates Event.IsKeyWork PinsPrompted :=
    htolerates fun e he => by cases e <;> first | exact he.elim | exact id
  have hasked : ∀ w slot request,
      PinsPrompted w (w.record (.fidoDevGetAssert slot request)) :=
    fun w _ _ => Unprompted.pinsPrompted (unprompted_record id w)
  have hprinted : ∀ w output, PinsPrompted w (World.printf output w) :=
    fun w output => Unprompted.pinsPrompted (unprompted_printf w output)
  refine keeps_runSubcommand hroutine hprinted hkeys (fun a => pinsPrompted_promptForSecret h _)
    hasked name fun _ => ?_
  refine keeps_enrolDevice hkeys (fun w path content => ?_) fun w => ?_
  · exact Unprompted.pinsPrompted (prompted_of_same rfl rfl)
  · refine related_enrolCredential hroutine (fun path params _ => ?_) fun _ _ _ w' _ _ => ?_
    · exact keeps_pinForEnrolment (pinsPrompted_promptForSecret h _) _ _ _ _
    · exact Unprompted.pinsPrompted (unprompted_record id w')

/-- All calls of a run are in the order of `promptCalls`. -/
theorem prompted_main (argv : List CString) (w : World) : ∃ passphrase pins,
    Prompted (promptCalls passphrase pins) w (finalState (main P argv w)) := by
  let S : World → Prop := fun w' => ∃ passphrase pins,
    Prompted (promptCalls passphrase pins) w w'
  show S (finalState (main P argv w))
  refine finalState_bind (fun e w' hstop => ?_) fun _ w₁ hinit => ?_
  · exact ⟨false, [], (keeps_lift _ : Keeps Unprompted _).of_error hstop⟩
  obtain ⟨-, rfl⟩ := lift_eq_ok.mp hinit
  have hparse := prompted_parseArguments h argv w₁
  refine finalState_bind (fun e w' hstop => ?_) fun invocation w₂ hok => ?_
  · rw [hstop] at hparse
    obtain ⟨passphrase, hprompted⟩ := hparse
    exact ⟨passphrase, [], hprompted⟩
  · rw [hok] at hparse
    obtain ⟨passphrase, hprompted⟩ := hparse
    obtain ⟨pins, hpins⟩ := pinsPrompted_runSubcommand h (argv.headD (literal "")) invocation w₂
    refine ⟨passphrase, pins, ?_⟩
    have hall := hprompted.trans hpins
    simpa [promptCalls] using hall

end Runs

/-! ## Keeping step -/

/-- The condition on what standard input holds before the calls: if it consists of lines, they
fit, and no piece that is cut from it starts with a NUL. -/
def FitsCalls (calls : List (CString × ℕ)) (stream : Bytes) : Prop :=
  (∀ lines : List Bytes, (∀ line ∈ lines, newline ∉ line ∧ (0 : UInt8) ∉ line) →
    stream = joinLines lines → LinesFit (calls.map (·.2)) lines) ∧
  ∀ piece ∈ (readPieces (calls.map (·.2)) stream).1, piece.head? ≠ some 0

theorem two_le_of_mem_promptCalls (passphrase : Bool) (pins : List CString) :
    ∀ size ∈ (promptCalls passphrase pins).map (·.2), 2 ≤ size := by
  have hpins : ∀ size ∈ (pins.map fun description => (description, longestValidPin)).map (·.2),
      2 ≤ size := by
    have hpin : 2 ≤ longestValidPin := by decide
    simp only [List.map_map, List.forall_mem_map]
    exact fun _ _ => hpin
  cases passphrase with
  | false => exact hpins
  | true => exact List.forall_mem_cons.mpr ⟨by decide, hpins⟩

theorem inStep_iff_fitsCalls {P : Platform} (hinput : P.standardInput = .notTerminal)
    {calls : List (CString × ℕ)} (hsizes : ∀ size ∈ calls.map (·.2), 2 ≤ size) (w : World) :
    PromptsInStep P calls w ↔ FitsCalls calls w.stdin := by
  have husable : P.standardInput.IsUsable := Or.inl hinput
  have haligned : ∀ lines : List Bytes, (∀ line ∈ lines, newline ∉ line ∧ (0 : UInt8) ∉ line) →
      w.stdin = joinLines lines → ((∃ secrets w',
        promptAll P (calls.take lines.length) w = .ok secrets w' ∧
        secrets.map CString.bytes = cutLines calls lines) ↔
          LinesFit (calls.map (·.2)) lines) := by
    intro lines hlines hstdin
    have hcut : (cutLines calls lines).take lines.length =
        cutLines (calls.take lines.length) (lines.take lines.length) := List.take_zipWith
    rw [List.take_length, List.take_of_length_le (by rw [cutLines, List.length_zipWith]; exact Nat.min_le_right _ _)] at hcut
    have hstep := promptAll_inStep_iff husable (List.length_take_le lines.length calls) w
    rw [← hcut, hstdin, List.map_take, inStep_iff (fun size h => hsizes size (List.mem_of_mem_take h))
      hlines, linesFit_take] at hstep
    exact hstep
  obtain ⟨events, htrace, hbounds⟩ := readInBounds_promptAll husable calls w
  have hheads : (∀ piece ∈ (readPieces (calls.map (·.2)) w.stdin).1, (cString piece).length ≠ 0) ↔
      ∀ piece ∈ (readPieces (calls.map (·.2)) w.stdin).1, piece.head? ≠ some 0 :=
    forall₂_congr fun piece hpiece =>
      (cString_length_eq_zero_iff (readPieces_ne_nil hsizes w.stdin piece hpiece)).not
  constructor
  · rintro ⟨hlines, ⟨events', htrace', hread⟩, -, -⟩
    refine ⟨fun lines hclean hstdin => (haligned lines hclean hstdin).mp (hlines lines hclean hstdin), ?_⟩
    obtain rfl := List.append_cancel_left (htrace.symm.trans htrace')
    exact hheads.mp (hbounds.mp hread hinput)
  · rintro ⟨hfit, hpieces⟩
    constructor
    · exact fun lines hclean hstdin => (haligned lines hclean hstdin).mpr (hfit lines hclean hstdin)
    · exact ⟨events, htrace, hbounds.mpr fun _ => hheads.mpr hpieces⟩
    · intro call _ stream piece rest hread
      have hlength := fgets_length_le hread
      omega
    · intro P' hterminal
      rw [leaves_promptAll (Or.inr hterminal), leaves_promptAll husable]

/-- The calls of a run keep step with the lines and stay in bounds exactly when the stream fits. -/
theorem promptsInStep_iff {P : Platform} (hinput : P.standardInput = .notTerminal)
    (passphrase : Bool) (pins : List CString) (w : World) :
    PromptsInStep P (promptCalls passphrase pins) w ↔
      FitsCalls (promptCalls passphrase pins) w.stdin :=
  inStep_iff_fitsCalls hinput (two_le_of_mem_promptCalls passphrase pins) w

theorem fitsCalls_of_lines {calls : List (CString × ℕ)} {lines : List Bytes}
    (hlines : ∀ line ∈ lines, newline ∉ line) (hfit : LinesFit (calls.map (·.2)) lines)
    (hpieces : ∀ piece ∈ (readPieces (calls.map (·.2)) (joinLines lines)).1, piece.head? ≠ some 0) :
    FitsCalls calls (joinLines lines) := by
  refine ⟨fun lines' hlines' heq => ?_, hpieces⟩
  rwa [← joinLines_inj hlines (fun line h => (hlines' line h).1) heq]

/-- Standard input before a run that asks for a passphrase and for one PIN. -/
def typedWorld (passphrase pin : Bytes) : World :=
  World.leave (joinLines [passphrase, pin]) emptyWorld

theorem promptsInStep_typed :
    PromptsInStep (referenceHost referenceDevice)
      (promptCalls true [pinPrompt referenceDevice])
      (typedWorld (literal "correct horse").bytes (literal "123456").bytes) := by
  refine (promptsInStep_iff rfl true [pinPrompt referenceDevice] _).mpr ?_
  exact fitsCalls_of_lines (by decide) (Or.inl ⟨by decide, Or.inl ⟨by decide,
    trivial⟩⟩) (by decide)

/-- Behind a passphrase of 1023 bytes the prompt for the PIN returns nothing, and a line that
starts with a NUL makes the program look in front of its buffer. -/
theorem not_promptsInStep_long :
    ¬PromptsInStep (referenceHost referenceDevice) (promptCalls true [pinPrompt referenceDevice])
      (typedWorld (List.replicate (longestValidPassphrase - 1) 0x61) (literal "123456").bytes) ∧
    ¬PromptsInStep (referenceHost referenceDevice) (promptCalls true [])
      (World.leave [0, newline] emptyWorld) := by
  constructor
  · intro h
    have hfits := (inStep_iff_fitsCalls rfl (two_le_of_mem_promptCalls _ _) _).mp h
    have hclean : ∀ line ∈ [List.replicate (longestValidPassphrase - 1) 0x61,
        (literal "123456").bytes], newline ∉ line ∧ (0 : UInt8) ∉ line := by decide +kernel
    rcases hfits.1 _ hclean rfl with ⟨hlt, -⟩ | ⟨-, hempty⟩
    · rw [List.length_replicate] at hlt
      exact absurd hlt (by decide)
    · exact absurd (hempty _ List.mem_cons_self) (by decide)
  · intro h
    have hfits := (inStep_iff_fitsCalls rfl (two_le_of_mem_promptCalls _ _) _).mp h
    exact hfits.2 [0, newline] (by decide) rfl

end Khefin
