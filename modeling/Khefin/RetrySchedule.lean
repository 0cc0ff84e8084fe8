import Mathlib.Data.List.Infix
import Mathlib.Data.Nat.Notation

/-! # Trying one item after the other, each up to a limit

An answer may call for another try of the same item, or make all further tries needless. The
answers come in a sequence, and a schedule says which of them each item gets. -/

namespace RetrySchedule

variable {γ : Type} (again done : γ → Bool) (answers : ℕ → γ)

/-- The answers to the tries of an item with `left` tries, from the `n`-th answer on. -/
def turn : ℕ → ℕ → List γ
  | 0, _ => []
  | left + 1, n => answers n :: if again (answers n) then turn left (n + 1) else []

/-- The answers each item gets, in the order of the items that are reached. -/
def rounds (limit : ℕ) : ℕ → ℕ → List (List γ)
  | 0, _ => []
  | items + 1, n =>
    turn again answers limit n :: if (turn again answers limit n).any done then []
      else rounds limit items (n + (turn again answers limit n).length)

section Turn

variable {again answers} {left n : ℕ}

theorem length_turn_le : (turn again answers left n).length ≤ left := by
  induction left generalizing n with
  | zero => exact Nat.le_refl 0
  | succ left ih =>
    rw [turn]
    split
    · exact Nat.succ_le_succ ih
    · exact Nat.succ_le_succ (Nat.zero_le left)

theorem turn_ne_nil (hleft : 0 < left) : turn again answers left n ≠ [] := by
  cases left with
  | zero => exact absurd hleft (Nat.lt_irrefl 0)
  | succ left => exact List.cons_ne_nil _ _

/-- Only an answer that calls for it is followed by another. -/
theorem again_of_mem_dropLast_turn {c : γ} (hc : c ∈ (turn again answers left n).dropLast) :
    again c = true := by
  induction left generalizing n with
  | zero => exact absurd hc List.not_mem_nil
  | succ left ih =>
    rw [turn] at hc
    split at hc
    case isTrue hagain =>
      cases hrest : turn again answers left (n + 1) with
      | nil =>
        rw [hrest] at hc
        exact absurd hc List.not_mem_nil
      | cons c' rest =>
        rw [hrest, List.dropLast_cons_cons] at hc
        rcases List.mem_cons.mp hc with rfl | hc
        · exact hagain
        · exact ih (hrest ▸ hc)
    case isFalse => exact absurd hc List.not_mem_nil

/-- An answer that calls for another is the last only where the tries are used up. -/
theorem length_turn_of_again {c : γ} (hlast : (turn again answers left n).getLast? = some c)
    (hc : again c = true) : (turn again answers left n).length = left := by
  induction left generalizing n with
  | zero => rfl
  | succ left ih =>
    rw [turn] at hlast ⊢
    split
    case isTrue hagain =>
      rw [if_pos hagain] at hlast
      rw [List.length_cons]
      cases left with
      | zero => rfl
      | succ left =>
        rw [List.getLast?_cons_of_ne_nil (turn_ne_nil (Nat.succ_pos left))] at hlast
        rw [ih hlast]
    case isFalse hagain =>
      rw [if_neg hagain] at hlast
      cases hlast
      exact absurd hc hagain

/-- The answers are taken in their order. -/
theorem turn_eq_map : turn again answers left n =
    (List.range' n (turn again answers left n).length).map answers := by
  induction left generalizing n with
  | zero => rfl
  | succ left ih =>
    rw [turn]
    split
    · rw [List.length_cons, List.range'_succ, List.map_cons, ← ih]
    · rfl

end Turn

section Rounds

variable {again done answers} {limit items n : ℕ}

theorem exists_turn_of_mem_rounds {r : List γ} (hr : r ∈ rounds again done answers limit items n) :
    ∃ k, r = turn again answers limit k := by
  induction items generalizing n with
  | zero => exact absurd hr List.not_mem_nil
  | succ items ih =>
    rw [rounds] at hr
    rcases List.mem_cons.mp hr with rfl | hr
    · exact ⟨n, rfl⟩
    · split at hr
      · exact absurd hr List.not_mem_nil
      · exact ih hr

theorem flatten_rounds_eq_map : (rounds again done answers limit items n).flatten =
    (List.range' n (rounds again done answers limit items n).flatten.length).map answers := by
  induction items generalizing n with
  | zero => rfl
  | succ items ih =>
    rw [rounds, List.flatten_cons, List.length_append, ← List.range'_append_1, List.map_append,
      ← turn_eq_map]
    split
    · rfl
    · rw [← ih]

/-- Every item is reached, unless an answer makes that needless. -/
theorem length_rounds_of_not_done
    (h : ∀ r ∈ rounds again done answers limit items n, r.any done = false) :
    (rounds again done answers limit items n).length = items := by
  induction items generalizing n with
  | zero => rfl
  | succ items ih =>
    rw [rounds] at h ⊢
    have hfirst := h _ List.mem_cons_self
    rw [if_neg (by simp [hfirst])] at h ⊢
    rw [List.length_cons, ih fun r hr => h r (List.mem_cons_of_mem _ hr)]

/-- After the answer that makes the rest needless there is no other. -/
theorem not_done_of_mem_dropLast_rounds (hagain : ∀ c, again c = true → done c = false) {c : γ}
    (hc : c ∈ (rounds again done answers limit items n).flatten.dropLast) : done c = false := by
  induction items generalizing n with
  | zero => exact absurd hc List.not_mem_nil
  | succ items ih =>
    rw [rounds, List.flatten_cons] at hc
    split at hc
    case isTrue =>
      rw [List.flatten_nil, List.append_nil] at hc
      exact hagain c (again_of_mem_dropLast_turn hc)
    case isFalse hfirst =>
      have hturn : ∀ c ∈ turn again answers limit n, done c = false := by simpa using hfirst
      rw [List.dropLast_append] at hc
      split at hc
      · exact hturn c (List.mem_of_mem_dropLast hc)
      · rcases List.mem_append.mp hc with hc | hc
        · exact hturn c hc
        · exact ih hc

end Rounds

end RetrySchedule
