import Mathlib.Data.List.Infix
import Mathlib.Data.Nat.Notation

/-! # Regular expressions with the matches of POSIX

Of all matches in a line the leftmost counts, of those that start there the longest, and in it
each part from the left is as long as the whole allows. Matching a stretch of the line exactly
counts down the lengths of the left part, so the first way found is the one that counts. -/

namespace PosixRegex

variable {α β : Type}

inductive Regex (α : Type)
  | empty
  | symbol (p : α → Bool)
  | lineEnd
  | cat (r s : Regex α)
  | star (r : Regex α)
  | group (index : ℕ) (r : Regex α)

/-- What the groups have matched, the latest last. -/
abbrev Captures (α : Type) := List (ℕ × List α)

def backreference (captures : Captures α) (index : ℕ) : List α :=
  (captures.reverse.lookup index).getD []

namespace Regex

/-- `.`; the symbols are bytes, as in the POSIX locale. -/
def any : Regex α := .symbol fun _ => true

def plus (r : Regex α) : Regex α := .cat r (.star r)

/-- The symbols one after the other, and then `r`. -/
def literally [DecidableEq α] (l : List α) (r : Regex α) : Regex α :=
  l.foldr (fun a => .cat (.symbol (· = a))) r

end Regex

/-! ## Matching -/

/-- The first answer on the way down. -/
def countDown (f : ℕ → Option β) : ℕ → Option β
  | 0 => f 0
  | n + 1 => (f (n + 1)).or (countDown f n)

/-- A repetition, of which each turn takes something. -/
def repeated (turn : List α → List α → Option (Captures α)) :
    ℕ → List α → List α → Option (Captures α)
  | _, [], _ => some []
  | 0, _ :: _, _ => none
  | n + 1, w, after => countDown (fun k => if k = 0 then none else
      (turn (w.take k) (w.drop k ++ after)).bind fun first =>
        (repeated turn n (w.drop k) after).map (first ++ ·)) w.length

/-- A match of all of `w`, which is followed by `after` in its line. -/
def exactly : Regex α → List α → List α → Option (Captures α)
  | .empty, w, _ => if w.isEmpty then some [] else none
  | .symbol p, w, _ =>
    match w with
    | [a] => if p a then some [] else none
    | _ => none
  | .lineEnd, w, after => if w.isEmpty ∧ after.isEmpty then some [] else none
  | .cat r s, w, after => countDown (fun k =>
      (exactly r (w.take k) (w.drop k ++ after)).bind fun first =>
        (exactly s (w.drop k) after).map (first ++ ·)) w.length
  | .star r, w, after => repeated (exactly r) w.length w after
  | .group index r, w, after => (exactly r w after).map (· ++ [(index, w)])

/-- The longest match at the start, and what follows it. -/
def longest (r : Regex α) (w : List α) : Option (Captures α × List α) :=
  countDown (fun k => (exactly r (w.take k) (w.drop k)).map (·, w.drop k)) w.length

/-- The leftmost match, between what precedes and what follows it. -/
def search (r : Regex α) : List α → Option (List α × Captures α × List α)
  | [] => (longest r []).map fun found => ([], found)
  | a :: w =>
    match longest r (a :: w) with
    | some found => some ([], found)
    | none => (search r w).map fun (before, found) => (a :: before, found)

/-- The match replaced, in a line that has one. -/
def substitute (r : Regex α) (replacement : Captures α → List α) (line : List α) : List α :=
  match search r line with
  | none => line
  | some (before, captures, after) => before ++ replacement captures ++ after

/-! ## Counting down -/

section CountDown

variable {f : ℕ → Option β} {n k : ℕ} {b : β}

theorem countDown_eq_none : countDown f n = none ↔ ∀ k ≤ n, f k = none := by
  induction n with
  | zero => simp [countDown]
  | succ n ih =>
    rw [countDown, Option.or_eq_none_iff, ih]
    constructor
    · rintro ⟨hlast, hothers⟩ k hk
      rcases Nat.lt_or_eq_of_le hk with hlt | rfl
      · exact hothers k (Nat.le_of_lt_succ hlt)
      · exact hlast
    · exact fun h => ⟨h (n + 1) (Nat.le_refl _), fun k hk => h k (Nat.le_succ_of_le hk)⟩

/-- The largest number with an answer decides. -/
theorem countDown_eq_some (hk : k ≤ n) (hb : f k = some b)
    (hlarger : ∀ j, k < j → j ≤ n → f j = none) : countDown f n = some b := by
  induction n with
  | zero =>
    obtain rfl : k = 0 := Nat.le_zero.mp hk
    exact hb
  | succ n ih =>
    rw [countDown]
    rcases Nat.lt_or_eq_of_le hk with hlt | rfl
    · rw [hlarger (n + 1) hlt (Nat.le_refl _), Option.none_or]
      exact ih (Nat.le_of_lt_succ hlt) fun j hj hjn => hlarger j hj (Nat.le_succ_of_le hjn)
    · rw [hb, Option.some_or]

/-- The only number that can have an answer decides. -/
theorem countDown_of_unique (hk : k ≤ n) (hothers : ∀ j ≤ n, j ≠ k → f j = none) :
    countDown f n = f k := by
  cases hb : f k with
  | some b => exact countDown_eq_some hk hb fun j hj hjn => hothers j hjn (Nat.ne_of_gt hj)
  | none =>
    refine countDown_eq_none.mpr fun j hj => ?_
    rcases eq_or_ne j k with rfl | hne
    · exact hb
    · exact hothers j hj hne

end CountDown

/-! ## What the parts match -/

section Parts

variable {p : α → Bool} {r s : Regex α} {a : α} {w after : List α}

theorem exactly_symbol_of_length (h : w.length ≠ 1) : exactly (.symbol p) w after = none := by
  match w with
  | [] => rfl
  | [_] => exact absurd rfl h
  | _ :: _ :: _ => rfl

theorem exactly_symbol_singleton :
    exactly (.symbol p) [a] after = if p a then some [] else none := rfl

theorem exactly_cat_symbol_nil : exactly (.cat (.symbol p) s) [] after = none := rfl

theorem exactly_cat_symbol_cons : exactly (.cat (.symbol p) s) (a :: w) after =
    if p a then exactly s w after else none := by
  have hone : 1 ≤ (a :: w).length := Nat.succ_le_succ (Nat.zero_le _)
  rw [exactly, countDown_of_unique hone]
  · by_cases hp : p a <;> simp [exactly_symbol_singleton, hp]
  · intro j hj hne
    rw [exactly_symbol_of_length (by rw [List.length_take_of_le hj]; exact hne), Option.bind_none]

theorem repeated_symbol {n : ℕ} (hn : w.length ≤ n) :
    repeated (exactly (.symbol p)) n w after = if w.all p then some [] else none := by
  induction n generalizing w with
  | zero =>
    obtain rfl := List.eq_nil_of_length_eq_zero (Nat.le_zero.mp hn)
    rfl
  | succ n ih =>
    cases w with
    | nil => rfl
    | cons a w =>
      have hone : 1 ≤ (a :: w).length := Nat.succ_le_succ (Nat.zero_le _)
      rw [repeated, countDown_of_unique hone]
      · have hrest := ih (Nat.le_of_succ_le_succ hn)
        by_cases hp : p a <;> simp [exactly_symbol_singleton, hp, hrest]
      · intro j hj hne
        split
        · rfl
        · rw [exactly_symbol_of_length (by rw [List.length_take_of_le hj]; exact hne),
            Option.bind_none]
      · exact List.cons_ne_nil a w

theorem exactly_star_symbol :
    exactly (.star (.symbol p)) w after = if w.all p then some [] else none :=
  repeated_symbol (Nat.le_refl _)

theorem exactly_plus_any (h : w ≠ []) : exactly (.plus .any) w after = some [] := by
  cases w with
  | nil => exact absurd rfl h
  | cons a w =>
    rw [Regex.plus, Regex.any, exactly_cat_symbol_cons, exactly_star_symbol]
    simp

theorem exactly_cat_lineEnd : exactly (.cat r .lineEnd) w [] = exactly r w [] := by
  rw [exactly, countDown_of_unique (Nat.le_refl _)]
  · cases h : exactly r w [] <;> simp [exactly, h]
  · intro j hj hne
    have hrest : w.drop j ≠ [] := by
      rw [Ne, List.drop_eq_nil_iff, Nat.not_le]
      exact Nat.lt_of_le_of_ne hj hne
    cases exactly r (w.take j) (w.drop j ++ []) <;> simp [exactly, hrest]

section Literally

variable [DecidableEq α]

@[simp]
theorem exactly_literally (l : List α) :
    exactly (.literally l r) (l ++ w) after = exactly r w after := by
  induction l with
  | nil => rfl
  | cons a l ih =>
    rw [Regex.literally, List.foldr_cons, List.cons_append, exactly_cat_symbol_cons,
      if_pos (by simp)]
    exact ih

theorem exactly_literally_singleton :
    exactly (.literally [a] r) (a :: w) after = exactly r w after := exactly_literally [a]

theorem exactly_literally_eq_none {l : List α} (h : ¬ l <+: w) :
    exactly (.literally l r) w after = none := by
  induction l generalizing w with
  | nil => exact absurd List.nil_prefix h
  | cons a l ih =>
    cases w with
    | nil => exact exactly_cat_symbol_nil
    | cons b w =>
      rw [Regex.literally, List.foldr_cons, exactly_cat_symbol_cons]
      by_cases hab : b = a
      · subst hab
        rw [if_pos (by simp)]
        exact ih fun hl => h (List.cons_prefix_cons.mpr ⟨rfl, hl⟩)
      · rw [if_neg (by simp [hab])]

end Literally

end Parts

/-! ## Expressions that only match up to the end of the line -/

section Anchored

variable {r s : Regex α} {w u v : List α}

def Anchored (r : Regex α) : Prop := ∀ ⦃w after⦄, after ≠ [] → exactly r w after = none

theorem anchored_lineEnd : Anchored (.lineEnd : Regex α) :=
  fun w after h => by simp [exactly, h]

theorem Anchored.cat (h : Anchored s) (r : Regex α) : Anchored (.cat r s) := by
  intro w after hafter
  refine countDown_eq_none.mpr fun k _ => ?_
  simp only [h hafter, Option.map_none]
  cases exactly r (w.take k) (w.drop k ++ after) <;> rfl

theorem Anchored.literally [DecidableEq α] (h : Anchored r) (l : List α) :
    Anchored (.literally l r) := by
  induction l with
  | nil => exact h
  | cons a l ih => exact ih.cat _

theorem Anchored.longest (h : Anchored r) (w : List α) :
    longest r w = (exactly r w []).map (·, []) := by
  rw [PosixRegex.longest, countDown_of_unique (Nat.le_refl _)]
  · rw [List.take_length, List.drop_length]
  · intro j hj hne
    have hrest : w.drop j ≠ [] := by
      rw [Ne, List.drop_eq_nil_iff, Nat.not_le]
      exact Nat.lt_of_le_of_ne hj hne
    rw [h hrest, Option.map_none]

theorem Anchored.substitute_of_none (h : Anchored r) {replacement : Captures α → List α}
    (hnone : ∀ v, v <:+ w → exactly r v [] = none) : substitute r replacement w = w := by
  have hsearch : search r w = none := by
    induction w with
    | nil => rw [search, h.longest, hnone [] (List.suffix_refl _)]; rfl
    | cons a w ih =>
      rw [search, h.longest, hnone _ (List.suffix_refl _),
        ih fun v hv => hnone v (hv.trans (List.suffix_cons a w))]
      rfl
  rw [substitute, hsearch]

/-- The longest end of the line that matches is the leftmost match. -/
theorem Anchored.substitute_of_suffix (h : Anchored r) {replacement : Captures α → List α}
    {captures : Captures α} (before : List α) (hmatch : exactly r u [] = some captures)
    (hlonger : ∀ v, v <:+ before ++ u → u.length < v.length → exactly r v [] = none) :
    substitute r replacement (before ++ u) = before ++ replacement captures := by
  have hsearch : search r (before ++ u) = some (before, captures, []) := by
    induction before with
    | nil => cases u <;> rw [List.nil_append, search, h.longest, hmatch] <;> rfl
    | cons a before ih =>
      have hlength : u.length < (a :: (before ++ u)).length := by
        rw [List.length_cons, List.length_append]
        omega
      rw [List.cons_append, search, h.longest,
        hlonger (a :: (before ++ u)) (List.suffix_refl _) hlength,
        ih fun v hv => hlonger v (hv.trans (List.suffix_cons a _))]
      rfl
  simp only [substitute, hsearch, List.append_nil]

end Anchored

end PosixRegex
