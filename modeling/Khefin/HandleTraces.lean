import Mathlib.Data.List.Nodup

/-! # Traces of handles

A loop that opens a handle in each of its rounds is to close it in the same round. The
requirement looks ahead from each opening: what follows closes the handle once, and does
so before anything else is opened. -/

namespace HandleTraces

variable {κ : Type}

inductive HandleUse (κ : Type)
  | opening (h : κ)
  | closing (h : κ)
  deriving DecidableEq

def HandleUse.isOpening : HandleUse κ → Bool
  | .opening _ => true
  | .closing _ => false

variable [DecidableEq κ]

/-- What follows an opening closes the handle once, before the next opening and the end. -/
structure ClosedInTime (h : κ) (later : List (HandleUse κ)) : Prop where
  once : later.count (.closing h) = 1
  beforeNext : (later.takeWhile fun u => !u.isOpening).count (.closing h) = 1

def EachClosedInTime : List (HandleUse κ) → Prop
  | [] => True
  | .opening h :: later => ClosedInTime h later ∧ EachClosedInTime later
  | .closing _ :: later => EachClosedInTime later

/-- A round opens its handle, and closes it or leaves it. -/
def roundUses (r : κ × Bool) : List (HandleUse κ) :=
  if r.2 = true then [.opening r.1, .closing r.1] else [.opening r.1]

variable {h : κ} {rounds : List (κ × Bool)}

omit [DecidableEq κ] in
theorem takeWhile_rounds (rounds : List (κ × Bool)) :
    ((rounds.flatMap roundUses).takeWhile fun u => !u.isOpening) = [] := by
  cases rounds with
  | nil => rfl
  | cons r rounds =>
    cases hr : r.2 <;> simp [roundUses, hr, HandleUse.isOpening]

theorem count_closing_rounds (hnew : h ∉ rounds.map Prod.fst) :
    (rounds.flatMap roundUses).count (.closing h) = 0 := by
  apply List.count_eq_zero.mpr
  intro hmem
  obtain ⟨r, hr, hmem⟩ := List.mem_flatMap.mp hmem
  have hne : h ≠ r.1 := fun heq => hnew (heq ▸ List.mem_map_of_mem hr)
  cases hclosed : r.2 <;> simp [roundUses, hclosed, hne] at hmem

/-- Rounds over distinct handles close each in time exactly when each closes its own. -/
theorem eachClosedInTime_rounds (hnodup : (rounds.map Prod.fst).Nodup) :
    EachClosedInTime (rounds.flatMap roundUses) ↔ ∀ r ∈ rounds, r.2 = true := by
  induction rounds with
  | nil => simp [EachClosedInTime]
  | cons r rounds ih =>
    obtain ⟨hnew, hnodup⟩ := List.nodup_cons.mp hnodup
    have hcount := count_closing_rounds hnew
    rw [List.flatMap_cons, List.forall_mem_cons, ← ih hnodup]
    cases hclosed : r.2 with
    | true =>
      have hin : ClosedInTime r.1 (.closing r.1 :: rounds.flatMap roundUses) := by
        apply ClosedInTime.mk
        · simp [hcount]
        · rw [List.takeWhile_cons_of_pos rfl, takeWhile_rounds]
          simp
      simp only [roundUses, hclosed, ↓reduceIte, List.cons_append, List.nil_append, EachClosedInTime]
      exact and_congr_left fun _ => iff_of_true hin trivial
    | false =>
      have hleft : ¬ClosedInTime r.1 (rounds.flatMap roundUses) := fun hin => by
        simpa [hcount] using hin.once
      simp [roundUses, hclosed, EachClosedInTime, hleft]

end HandleTraces
