import Mathlib.Data.Nat.Notation

/-! # Loops that may be left early

A turn of a loop either hands a state to the next or leaves with a result. What is proved of
one turn, on an invariant and a measure, holds of the whole loop with fuel enough. -/

namespace EarlyLoops

variable {σ β γ α : Type}

/-- The turns of a `while`, at most as many as there is fuel for. -/
def repeatWhile (body : σ → σ ⊕ β) : ℕ → σ → Option β
  | 0, _ => none
  | fuel + 1, s =>
    match body s with
    | .inl s' => repeatWhile body fuel s'
    | .inr b => some b

/-- The turns of a `for`, each of which may run out of fuel. -/
def forEach (body : α → σ → Option (σ ⊕ β)) : List α → σ → Option (σ ⊕ β)
  | [], s => some (.inl s)
  | a :: l, s =>
    match body a s with
    | some (.inl s') => forEach body l s'
    | left => left

/-- With `n` units of fuel or more the run ends, always in the same way, and `Q` holds. -/
def EndsWithin (n : ℕ) (run : ℕ → Option β) (Q : β → Prop) : Prop :=
  ∃ b, Q b ∧ ∀ fuel, n ≤ fuel → run fuel = some b

section Rules

variable {n : ℕ} {run : ℕ → Option β} {Q Q' : β → Prop}

theorem EndsWithin.imp (h : EndsWithin n run Q) (hQ : ∀ b, Q b → Q' b) : EndsWithin n run Q' := by
  obtain ⟨b, hb, hrun⟩ := h
  exact ⟨b, hQ b hb, hrun⟩

theorem endsWithin_some {b : β} (hb : Q b) : EndsWithin n (fun _ => some b) Q :=
  ⟨b, hb, fun _ _ => rfl⟩

theorem EndsWithin.of_run (h : EndsWithin n run Q) {fuel : ℕ} (hfuel : n ≤ fuel) {b : β}
    (hb : run fuel = some b) : Q b := by
  obtain ⟨b', hb', hrun⟩ := h
  rw [hrun fuel hfuel] at hb
  cases hb
  exact hb'

theorem EndsWithin.and (h : EndsWithin n run Q) (h' : EndsWithin n run Q') :
    EndsWithin n run fun b => Q b ∧ Q' b := by
  obtain ⟨b, hb, hrun⟩ := h
  exact ⟨b, ⟨hb, h'.of_run (Nat.le_refl n) (hrun n (Nat.le_refl n))⟩, hrun⟩

theorem EndsWithin.map {S : γ → Prop} (f : β → γ) (h : EndsWithin n run Q)
    (hS : ∀ b, Q b → S (f b)) : EndsWithin n (fun fuel => (run fuel).map f) S := by
  obtain ⟨b, hb, hrun⟩ := h
  exact ⟨f b, hS b hb, fun fuel hfuel => by simp only [hrun fuel hfuel, Option.map_some]⟩

/-- The rule of the `while`: an invariant, and a measure that each further turn makes smaller. -/
theorem endsWithin_repeatWhile {body : σ → σ ⊕ β} (I : σ → Prop) (measure : σ → ℕ)
    (hagain : ∀ s s', I s → body s = .inl s' → I s' ∧ measure s' < measure s)
    (hleave : ∀ s b, I s → body s = .inr b → Q b) {s : σ} (hs : I s) (hn : measure s < n) :
    EndsWithin n (repeatWhile body · s) Q := by
  induction n generalizing s with
  | zero => exact absurd hn (Nat.not_lt_zero _)
  | succ n ih =>
    cases hbody : body s with
    | inl s' =>
      obtain ⟨hs', hlt⟩ := hagain s s' hs hbody
      obtain ⟨b, hb, hrun⟩ := ih hs' (Nat.lt_of_lt_of_le hlt (Nat.le_of_lt_succ hn))
      refine ⟨b, hb, fun fuel hfuel => ?_⟩
      cases fuel with
      | zero => exact absurd hfuel (Nat.not_succ_le_zero n)
      | succ fuel =>
        simp only [repeatWhile, hbody]
        exact hrun fuel (Nat.le_of_succ_le_succ hfuel)
    | inr b =>
      refine ⟨b, hleave s b hs hbody, fun fuel hfuel => ?_⟩
      cases fuel with
      | zero => exact absurd hfuel (Nat.not_succ_le_zero n)
      | succ fuel => simp only [repeatWhile, hbody]

/-- The rule of the `for`: the invariant knows the items before, and a turn the items behind. -/
theorem endsWithin_forEach {body : ℕ → α → σ → Option (σ ⊕ β)} (I : List α → σ → Prop)
    {l : List α} (hturn : ∀ before a after s, l = before ++ a :: after → I before s →
      EndsWithin n (body · a s) (Sum.elim (I (before ++ [a])) Q)) {s : σ} (hs : I [] s) :
    EndsWithin n (fun fuel => forEach (body fuel) l s) (Sum.elim (I l) Q) := by
  suffices h : ∀ before after s, l = before ++ after → I before s →
      EndsWithin n (fun fuel => forEach (body fuel) after s) (Sum.elim (I l) Q) from
    h [] l s rfl hs
  intro before after
  induction after generalizing before with
  | nil =>
    intro s hl hs
    rw [List.append_nil] at hl
    exact endsWithin_some (hl ▸ hs)
  | cons a after ih =>
    intro s hl hs
    obtain ⟨r, hr, hrun⟩ := hturn before a after s hl hs
    cases r with
    | inl s' =>
      obtain ⟨b, hb, hrest⟩ := ih (before ++ [a]) s' (by simpa using hl) hr
      refine ⟨b, hb, fun fuel hfuel => ?_⟩
      simp only [forEach, hrun fuel hfuel]
      exact hrest fuel hfuel
    | inr b =>
      refine ⟨.inr b, hr, fun fuel hfuel => ?_⟩
      simp only [forEach, hrun fuel hfuel]

end Rules

end EarlyLoops
