import Mathlib.Data.Nat.Notation
import Mathlib.Order.Defs.Unbundled

/-! # Traces whose elements look back

A requirement on an element of a trace may depend on everything recorded before it.
It is checked element by element as the trace grows, and holds of a longer trace
when it holds of the parts, the later one behind the earlier. -/

namespace Histories

variable {α : Type} {Q : List α → α → Prop}

/-- Every element of `events`, recorded behind `past`, meets `Q` with all that precedes it. -/
def AtEach (Q : List α → α → Prop) : List α → List α → Prop
  | _, [] => True
  | past, e :: events => Q past e ∧ AtEach Q (past ++ [e]) events

theorem atEach_append {past xs ys : List α} :
    AtEach Q past (xs ++ ys) ↔ AtEach Q past xs ∧ AtEach Q (past ++ xs) ys := by
  induction xs generalizing past with
  | nil => simp [AtEach]
  | cons e xs ih => simp [AtEach, ih, and_assoc]

/-- What holds at each element holds at the one singled out. -/
theorem AtEach.at {past before after : List α} {e : α}
    (h : AtEach Q past (before ++ e :: after)) : Q (past ++ before) e :=
  (atEach_append.mp h).2.1

theorem atEach_of_forall {past events : List α} (h : ∀ e ∈ events, ∀ past, Q past e) :
    AtEach Q past events := by
  induction events generalizing past with
  | nil => trivial
  | cons e events ih =>
    exact ⟨h e List.mem_cons_self past, ih fun x hx => h x (List.mem_cons_of_mem e hx)⟩

/-- `t'` continues `t` by elements that meet `Q`. -/
def Continues (Q : List α → α → Prop) (t t' : List α) : Prop :=
  ∃ events, t' = t ++ events ∧ AtEach Q t events

instance : IsPreorder (List α) (Continues Q) where
  refl t := ⟨[], by simp, trivial⟩
  trans := by
    rintro t₁ t₂ t₃ ⟨xs, rfl, hx⟩ ⟨ys, rfl, hy⟩
    exact ⟨xs ++ ys, by rw [List.append_assoc], atEach_append.mpr ⟨hx, hy⟩⟩

theorem continues_snoc {t : List α} {e : α} (h : Q t e) : Continues Q t (t ++ [e]) :=
  ⟨[e], rfl, h, trivial⟩

theorem continues_append_iff {t events : List α} :
    Continues Q t (t ++ events) ↔ AtEach Q t events := by
  constructor
  · rintro ⟨events', he, h⟩
    rwa [List.append_cancel_left he]
  · exact fun h => ⟨events, rfl, h⟩

/-- An element behind the part that was there before is a new one. -/
theorem Continues.at {t t' before after : List α} {e : α} (h : Continues Q t t')
    (ht : t' = t ++ before ++ e :: after) : Q (t ++ before) e := by
  obtain ⟨events, rfl, hq⟩ := h
  rw [List.append_assoc, List.append_cancel_left_eq] at ht
  exact (ht ▸ hq).at

end Histories
