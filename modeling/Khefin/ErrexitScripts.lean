import Mathlib.Data.Nat.Notation

/-! # Scripts that stop at a failure

The commands of a script run in turn, up to the first that fails. The trap runs when a signal has
come in during a command, and once more when the script is left; behind a trap failures do not stop
the script any more. -/

namespace ErrexitScripts

variable {σ : Type}

inductive Status
  | success | failure
  /-- `exit`, with a status that is not zero. -/
  | left
  deriving DecidableEq

abbrev Command (σ : Type) := σ → σ × Status

/-- The commands from the `n`-th on, behind one with the status `last`. -/
def run (trap : σ → σ) (signalled : ℕ → Bool) :
    List (Command σ) → ℕ → Bool → Status → σ → σ × Status
  | [], _, _, last, s => (trap s, last)
  | command :: commands, n, errexit, _, s =>
    let (s', status) := command s
    let caught := if signalled n then trap s' else s'
    if status = .left ∨ status = .failure ∧ errexit = true then (trap caught, status)
    else run trap signalled commands (n + 1) (errexit && !signalled n) status caught

/-- The states in which a signal starts the trap. -/
def interrupted (trap : σ → σ) (signalled : ℕ → Bool) :
    List (Command σ) → ℕ → Bool → σ → List σ
  | [], _, _, _ => []
  | command :: commands, n, errexit, s =>
    let (s', status) := command s
    let caught := if signalled n then trap s' else s'
    let here := if signalled n then [s'] else []
    if status = .left ∨ status = .failure ∧ errexit = true then here
    else here ++ interrupted trap signalled commands (n + 1) (errexit && !signalled n) caught

section Traps

variable {trap : σ → σ} {count : σ → ℕ} {commands : List (Command σ)}

/-- A signal that comes in is counted behind the state that it comes in at. -/
theorem count_caught (htrap : ∀ s, count (trap s) = count s + 1) (signal : Bool) (s : σ) :
    count s ≤ count (if signal then trap s else s) ∧
      ∀ x ∈ if signal then [s] else [], count x < count (if signal then trap s else s) := by
  cases signal with
  | true =>
    simp only [if_true, htrap]
    refine ⟨Nat.le_succ _, fun x hx => ?_⟩
    rw [List.mem_singleton.mp hx]
    exact Nat.lt_succ_self _
  | false => exact ⟨Nat.le_refl _, fun x hx => absurd hx List.not_mem_nil⟩

/-- Of the runs of the trap, which it counts itself, none that a signal starts is the last. -/
theorem count_lt_run (htrap : ∀ s, count (trap s) = count s + 1)
    (hcommands : ∀ command ∈ commands, ∀ s, count (command s).1 = count s) (signalled : ℕ → Bool)
    (n : ℕ) (e : Bool) (last : Status) (s : σ) :
    count s < count (run trap signalled commands n e last s).1 ∧
      ∀ x ∈ interrupted trap signalled commands n e s,
        count x + 1 < count (run trap signalled commands n e last s).1 := by
  induction commands generalizing n e last s with
  | nil =>
    refine ⟨?_, fun x hx => absurd hx List.not_mem_nil⟩
    rw [run, htrap]
    exact Nat.lt_succ_self _
  | cons command commands ih =>
    have hcommand := hcommands command List.mem_cons_self s
    generalize hafter : command s = after at hcommand
    obtain ⟨s', status⟩ := after
    replace hcommand : count s' = count s := hcommand
    obtain ⟨hkept, hhere⟩ := count_caught htrap (signalled n) s'
    simp only [run, interrupted, hafter]
    by_cases hstop : status = .left ∨ status = .failure ∧ e = true
    · simp only [if_pos hstop, htrap]
      exact ⟨by omega, fun x hx => Nat.succ_lt_succ (hhere x hx)⟩
    · obtain ⟨hlater, hrest⟩ := ih (fun c hc => hcommands c (List.mem_cons_of_mem command hc))
        (n + 1) (e && !signalled n) status (if signalled n then trap s' else s')
      simp only [if_neg hstop]
      refine ⟨by omega, fun x hx => ?_⟩
      rcases List.mem_append.mp hx with hx | hx
      · exact Nat.lt_of_le_of_lt (hhere x hx) hlater
      · exact hrest x hx

end Traps

/-- An outline of a proof: what holds in front of a command, as to whether failures still stop the
script, the status so far and the state, leads to what holds behind it. A signal leads on if the
trap works where it starts it. -/
inductive Outline (trap : σ → σ) (Works : σ → Prop) (Left : Status → σ → Prop) :
    (Bool → Status → σ → Prop) → List (Command σ) → Prop
  | nil {A : Bool → Status → σ → Prop} (done : ∀ e last s, A e last s → Left last s) :
      Outline trap Works Left A []
  | cons {A B : Bool → Status → σ → Prop} {command : Command σ} {commands : List (Command σ)}
      (goes : ∀ e last s, A e last s →
        (command s).2 = .success ∨ (command s).2 = .failure ∧ e = false →
          B e (command s).2 (command s).1)
      (caught : ∀ e last s, Works s → B e last s → B false last (trap s))
      (stops : ∀ e last s, A e last s → (command s).2 ≠ .success →
        Left (command s).2 (command s).1)
      (rest : Outline trap Works Left B commands) : Outline trap Works Left A (command :: commands)

/-- A script that is outlined is left with its trap, from a state that may be left. -/
theorem Outline.exists_trap {trap : σ → σ} {Works : σ → Prop} {Left : Status → σ → Prop}
    {A : Bool → Status → σ → Prop} {commands : List (Command σ)}
    (h : Outline trap Works Left A commands) (hagain : ∀ last s, Left last s → Left last (trap s))
    (signalled : ℕ → Bool) {n : ℕ} {e : Bool} {last : Status} {s : σ} (hs : A e last s)
    (hworks : ∀ x ∈ interrupted trap signalled commands n e s, Works x) :
    ∃ x, (run trap signalled commands n e last s).1 = trap x ∧
      Left (run trap signalled commands n e last s).2 x := by
  induction h generalizing n e last s with
  | nil done => exact ⟨s, rfl, done e last s hs⟩
  | @cons A B command commands goes caught stops rest ih =>
    generalize hcommand : command s = after
    obtain ⟨s', status⟩ := after
    simp only [interrupted, hcommand] at hworks
    by_cases hstop : status = .left ∨ status = .failure ∧ e = true
    · have hfailed : status ≠ .success := by
        rcases hstop with rfl | ⟨rfl, -⟩ <;> exact Status.noConfusion
      have hleft := stops e last s hs (by rw [hcommand]; exact hfailed)
      rw [hcommand] at hleft
      simp only [run, hcommand, if_pos hstop]
      refine ⟨_, rfl, ?_⟩
      split
      · exact hagain status s' hleft
      · exact hleft
    · have hon : status = .success ∨ status = .failure ∧ e = false := by
        cases status <;> cases e <;> simp at hstop ⊢
      have hgoes := goes e last s hs (by rw [hcommand]; exact hon)
      rw [hcommand] at hgoes
      simp only [run, hcommand, if_neg hstop]
      rw [if_neg hstop] at hworks
      cases hsignal : signalled n with
      | true =>
        simp only [hsignal, if_true, Bool.not_true, Bool.and_false] at hworks ⊢
        have hhere : Works s' := hworks s' (List.mem_append_left _ List.mem_cons_self)
        exact ih (caught e status s' hhere hgoes) fun x hx =>
          hworks x (List.mem_append_right _ hx)
      | false =>
        simp only [hsignal, Bool.false_eq_true, if_false, Bool.not_false, Bool.and_true,
          List.nil_append] at hworks ⊢
        exact ih hgoes hworks

/-- However a script is left, its trap has run last. -/
theorem exists_trap (trap : σ → σ) (signalled : ℕ → Bool) (commands : List (Command σ)) (n : ℕ)
    (e : Bool) (last : Status) (s : σ) :
    ∃ x, (run trap signalled commands n e last s).1 = trap x := by
  have houtline : Outline trap (fun _ => True) (fun _ _ => True) (fun _ _ _ => True) commands := by
    induction commands with
    | nil => exact .nil fun _ _ _ _ => trivial
    | cons command commands ih =>
      exact .cons (fun _ _ _ _ _ => trivial) (fun _ _ _ _ _ => trivial)
        (fun _ _ _ _ _ => trivial) ih
  obtain ⟨x, hx, -⟩ : ∃ x, (run trap signalled commands n e last s).1 = trap x ∧ True :=
    houtline.exists_trap (fun _ _ _ => trivial) signalled trivial fun _ _ => trivial
  exact ⟨x, hx⟩

end ErrexitScripts
