import Mathlib.Data.List.Perm.Basic

/-! # Searches that end at the first verdict

Elements of a list are looked at in order; an element without a verdict is passed
over and the first with one ends the search. `List.findSome?` is the outcome. -/

namespace FirstVerdict

variable {α β : Type} {verdict : α → Option β} {a : α} {b : β}

theorem findSome?_append_cons_of_none {before after : List α}
    (hbefore : ∀ x ∈ before, verdict x = none) (h : verdict a = some b) :
    (before ++ a :: after).findSome? verdict = some b := by
  induction before with
  | nil => simp [h]
  | cons x before ih =>
    have hx := hbefore x List.mem_cons_self
    have ht := ih fun y hy => hbefore y (List.mem_cons_of_mem x hy)
    simpa [hx] using ht

/-- An element whose verdict nobody before it shares decides the search exactly when
nobody before it has a verdict at all. -/
theorem findSome?_append_cons_iff {before after : List α} (h : verdict a = some b)
    (hother : ∀ x ∈ before, verdict x ≠ some b) :
    (before ++ a :: after).findSome? verdict = some b ↔ ∀ x ∈ before, verdict x = none := by
  constructor
  · intro hfound
    obtain ⟨l₁, x, l₂, hl, hx, hnone⟩ := List.findSome?_eq_some_iff.mp hfound
    -- the deciding element cannot lie in `before`, so `before` is passed over
    rcases List.append_eq_append_iff.mp hl with ⟨l, rfl, hl'⟩ | ⟨l, rfl, hl'⟩
    · exact fun y hy => hnone y (List.mem_append_left l hy)
    · cases l with
      | nil => simpa using hnone
      | cons y l =>
        obtain ⟨rfl, -⟩ := List.cons.inj hl'
        exact absurd hx (hother x (by simp))
  · exact fun hbefore => findSome?_append_cons_of_none hbefore h

/-- The outcome is the same in every order exactly when nobody else has a verdict. -/
theorem forall_perm_findSome?_iff {others : List α} (h : verdict a = some b)
    (hother : ∀ x ∈ others, verdict x ≠ some b) :
    (∀ l : List α, l.Perm (a :: others) → l.findSome? verdict = some b) ↔
      ∀ x ∈ others, verdict x = none := by
  constructor
  · intro hall x hx
    -- the order that puts everybody else first
    have hl := hall (others ++ [a]) List.perm_append_comm
    exact (findSome?_append_cons_iff h hother).mp hl x hx
  · intro hnone l hl
    obtain ⟨before, after, rfl⟩ := List.append_of_mem (hl.mem_iff.mpr List.mem_cons_self)
    have hperm : (before ++ after).Perm others :=
      List.Perm.cons_inv (List.perm_middle.symm.trans hl)
    refine findSome?_append_cons_of_none (fun x hx => hnone x ?_) h
    exact hperm.mem_iff.mp (List.mem_append_left after hx)

end FirstVerdict
