import Mathlib.Order.Defs.Unbundled

/-! # Programs that may stop before they return

`EStateM ε σ` runs over a state that survives an early stop. A run is taken apart
at its binds, and what every step keeps is kept by the whole run, whether it
returns or stops. -/

namespace ExitingPrograms

open EStateM (Result)

variable {ε σ α β : Type}

/-- A computation that reads no state, as a step of a program. -/
def lift : Except ε α → EStateM ε σ α
  | .ok a => pure a
  | .error e => throw e

/-- Stop with `e` when the condition holds. -/
def stopIf (c : Prop) [Decidable c] (e : ε) : Except ε Unit := if c then .error e else .ok ()

/-! ## Runs -/

theorem bind_apply (x : EStateM ε σ α) (f : α → EStateM ε σ β) (s : σ) :
    (x >>= f) s = match x s with
      | .ok a s' => f a s'
      | .error e s' => .error e s' := rfl

theorem map_apply (f : α → β) (x : EStateM ε σ α) (s : σ) :
    (f <$> x) s = match x s with
      | .ok a s' => .ok (f a) s'
      | .error e s' => .error e s' := rfl

@[simp] theorem pure_apply (a : α) (s : σ) : (pure a : EStateM ε σ α) s = .ok a s := rfl

@[simp] theorem throw_apply (e : ε) (s : σ) : (throw e : EStateM ε σ α) s = .error e s := rfl

@[simp] theorem get_apply (s : σ) : (get : EStateM ε σ σ) s = .ok s s := rfl

@[simp] theorem modify_apply (f : σ → σ) (s : σ) :
    (modify f : EStateM ε σ PUnit) s = .ok ⟨⟩ (f s) := rfl

@[simp] theorem lift_ok (a : α) : (lift (.ok a) : EStateM ε σ α) = pure a := rfl

@[simp] theorem lift_error (e : ε) : (lift (.error e) : EStateM ε σ α) = throw e := rfl

theorem bind_of_ok {x : EStateM ε σ α} {s s' : σ} {a : α} (h : x s = .ok a s')
    (f : α → EStateM ε σ β) : (x >>= f) s = f a s' := by rw [bind_apply, h]

theorem bind_of_error {x : EStateM ε σ α} {s s' : σ} {e : ε} (h : x s = .error e s')
    (f : α → EStateM ε σ β) : (x >>= f) s = .error e s' := by rw [bind_apply, h]

theorem bind_eq_ok {x : EStateM ε σ α} {f : α → EStateM ε σ β} {s s'' : σ} {b : β} :
    (x >>= f) s = .ok b s'' ↔ ∃ a s', x s = .ok a s' ∧ f a s' = .ok b s'' := by
  rw [bind_apply]
  cases h : x s with
  | ok a s' => exact ⟨fun hf => ⟨a, s', rfl, hf⟩, fun ⟨_, _, hx, hf⟩ => by cases hx; exact hf⟩
  | error e s' => simp

theorem bind_eq_error {x : EStateM ε σ α} {f : α → EStateM ε σ β} {s s'' : σ} {e : ε} :
    (x >>= f) s = .error e s'' ↔
      x s = .error e s'' ∨ ∃ a s', x s = .ok a s' ∧ f a s' = .error e s'' := by
  rw [bind_apply]
  cases h : x s with
  | ok a s' =>
    simp only [reduceCtorEq, false_or]
    exact ⟨fun hf => ⟨a, s', rfl, hf⟩, fun ⟨_, _, hx, hf⟩ => by cases hx; exact hf⟩
  | error e' s' => simp

theorem lift_eq_ok {x : Except ε α} {s s' : σ} {a : α} :
    (lift x : EStateM ε σ α) s = .ok a s' ↔ x = .ok a ∧ s' = s := by
  cases x with
  | ok b => simp [eq_comm]
  | error e => simp

theorem lift_eq_error {x : Except ε α} {s s' : σ} {e : ε} :
    (lift x : EStateM ε σ α) s = .error e s' ↔ x = .error e ∧ s' = s := by
  cases x with
  | ok b => simp
  | error e' => simp [eq_comm]

theorem lift_bind (x : Except ε α) (f : α → Except ε β) :
    (lift (x >>= f) : EStateM ε σ β) = lift x >>= fun a => lift (f a) := by
  cases x with
  | ok a => rfl
  | error e => rfl

/-! ## Computations without state -/

theorem except_bind_eq_ok {x : Except ε α} {f : α → Except ε β} {b : β} :
    (x >>= f) = .ok b ↔ ∃ a, x = .ok a ∧ f a = .ok b := by
  cases x with
  | ok a => simp [bind, Except.bind]
  | error e => simp [bind, Except.bind]

theorem except_bind_eq_error {x : Except ε α} {f : α → Except ε β} {e : ε} :
    (x >>= f) = .error e ↔ x = .error e ∨ ∃ a, x = .ok a ∧ f a = .error e := by
  cases x with
  | ok a => simp [bind, Except.bind]
  | error e' => simp [bind, Except.bind]

@[simp] theorem except_ok_bind (a : α) (f : α → Except ε β) : (Except.ok a >>= f) = f a := rfl

@[simp] theorem except_error_bind (e : ε) (f : α → Except ε β) :
    (Except.error e >>= f) = .error e := rfl

@[simp] theorem except_pure (a : α) : (pure a : Except ε α) = .ok a := rfl

@[simp] theorem stopIf_eq_ok {c : Prop} [Decidable c] {e : ε} {u : Unit} :
    stopIf c e = .ok u ↔ ¬c := by
  unfold stopIf
  split <;> simp_all

@[simp] theorem stopIf_eq_error {c : Prop} [Decidable c] {e e' : ε} :
    stopIf c e = .error e' ↔ c ∧ e = e' := by
  unfold stopIf
  split <;> simp_all

theorem stopIf_pos {c : Prop} [Decidable c] (h : c) (e : ε) : stopIf c e = .error e := if_pos h

theorem stopIf_neg {c : Prop} [Decidable c] (h : ¬c) (e : ε) : stopIf c e = .ok () := if_neg h

/-! ## What every run keeps -/

/-- The state a run ends in, whether it returned or stopped. -/
def finalState : Result ε σ α → σ
  | .ok _ s => s
  | .error _ s => s

@[simp] theorem finalState_ok (a : α) (s : σ) : finalState (.ok a s : Result ε σ α) = s := rfl

@[simp] theorem finalState_error (e : ε) (s : σ) : finalState (.error e s : Result ε σ α) = s := rfl

/-- What holds wherever the first part stops, and at the end of the rest otherwise. -/
theorem finalState_bind {S : σ → Prop} {x : EStateM ε σ α} {f : α → EStateM ε σ β} {s : σ}
    (hstop : ∀ e s', x s = .error e s' → S s')
    (hrest : ∀ a s', x s = .ok a s' → S (finalState (f a s'))) :
    S (finalState ((x >>= f) s)) := by
  rw [bind_apply]
  cases hx : x s with
  | ok a s' => exact hrest a s' hx
  | error e s' => exact hstop e s' hx

/-- Every run of `x` ends in a state related to the one it started in. -/
def Keeps (R : σ → σ → Prop) (x : EStateM ε σ α) : Prop := ∀ s, R s (finalState (x s))

variable {R : σ → σ → Prop}

theorem Keeps.of_ok {x : EStateM ε σ α} (h : Keeps R x) {s s' : σ} {a : α}
    (hx : x s = .ok a s') : R s s' := by simpa [hx] using h s

theorem Keeps.of_error {x : EStateM ε σ α} (h : Keeps R x) {s s' : σ} {e : ε}
    (hx : x s = .error e s') : R s s' := by simpa [hx] using h s

theorem Keeps.mono {R' : σ → σ → Prop} {x : EStateM ε σ α} (h : Keeps R x)
    (hR : ∀ s s', R s s' → R' s s') : Keeps R' x := fun s => hR _ _ (h s)

theorem keeps_modify {f : σ → σ} (h : ∀ s, R s (f s)) :
    Keeps R (modify f : EStateM ε σ PUnit) := h

theorem keeps_ite {c : Prop} [Decidable c] {x y : EStateM ε σ α} (hx : c → Keeps R x)
    (hy : ¬c → Keeps R y) : Keeps R (if c then x else y) := by
  split
  · exact hx ‹_›
  · exact hy ‹_›

variable [IsPreorder σ R]

theorem keeps_pure (a : α) : Keeps R (pure a : EStateM ε σ α) := fun s => refl_of R s

theorem keeps_throw (e : ε) : Keeps R (throw e : EStateM ε σ α) := fun s => refl_of R s

theorem keeps_lift (x : Except ε α) : Keeps R (lift x : EStateM ε σ α) := by
  cases x with
  | ok a => exact keeps_pure a
  | error e => exact keeps_throw e

theorem keeps_get : Keeps R (get : EStateM ε σ σ) := fun s => refl_of R s

/-- The rule for one run, where the rest may depend on how the first part went. -/
theorem related_bind {x : EStateM ε σ α} {f : α → EStateM ε σ β} {s : σ}
    (hx : R s (finalState (x s)))
    (hf : ∀ a s', x s = .ok a s' → R s' (finalState (f a s'))) :
    R s (finalState ((x >>= f) s)) := by
  rw [bind_apply]
  cases hxs : x s with
  | ok a s' =>
    rw [hxs] at hx
    exact trans_of R hx (hf a s' hxs)
  | error e s' => simpa [hxs] using hx

theorem keeps_bind {x : EStateM ε σ α} {f : α → EStateM ε σ β} (hx : Keeps R x)
    (hf : ∀ a, Keeps R (f a)) : Keeps R (x >>= f) :=
  fun s => related_bind (hx s) fun a s' _ => hf a s'

/-! ## What a stopped run keeps -/

/-- Every run of `x` that stops, stops in a state related to the one it started in. -/
def KeepsAtStops (R : σ → σ → Prop) (x : EStateM ε σ α) : Prop :=
  ∀ s e s', x s = .error e s' → R s s'

omit [IsPreorder σ R] in
theorem Keeps.atStops {x : EStateM ε σ α} (h : Keeps R x) : KeepsAtStops R x :=
  fun _ _ _ hx => h.of_error hx

theorem keepsAtStops_pure (a : α) : KeepsAtStops R (pure a : EStateM ε σ α) :=
  (keeps_pure a).atStops

/-- Only the last part may break the relation, and only where it returns. -/
theorem keepsAtStops_bind {x : EStateM ε σ α} {f : α → EStateM ε σ β} (hx : Keeps R x)
    (hf : ∀ a, KeepsAtStops R (f a)) : KeepsAtStops R (x >>= f) := by
  intro s e s' h
  rcases bind_eq_error.mp h with h | ⟨a, s₁, ha, h⟩
  · exact hx.of_error h
  · exact trans_of R (hx.of_ok ha) (hf a s₁ e s' h)

omit [IsPreorder σ R] in
theorem keepsAtStops_ite {c : Prop} [Decidable c] {x y : EStateM ε σ α}
    (hx : c → KeepsAtStops R x) (hy : ¬c → KeepsAtStops R y) :
    KeepsAtStops R (if c then x else y) := by
  split
  · exact hx ‹_›
  · exact hy ‹_›

/-! ## What a run returns -/

/-- Every run of `x` that returns, returns a value of the kind `S`. -/
def Returns (S : α → Prop) (x : EStateM ε σ α) : Prop := ∀ s a s', x s = .ok a s' → S a

theorem returns_pure {S : α → Prop} {a : α} (h : S a) : Returns S (pure a : EStateM ε σ α) :=
  fun _ _ _ hx => (EStateM.Result.ok.inj hx).1 ▸ h

theorem returns_throw {S : α → Prop} (e : ε) : Returns S (throw e : EStateM ε σ α) :=
  fun _ _ _ hx => by simp at hx

theorem returns_bind {S : β → Prop} {x : EStateM ε σ α} {f : α → EStateM ε σ β}
    (hf : ∀ a, Returns S (f a)) : Returns S (x >>= f) := by
  intro s b s' h
  obtain ⟨a, s₁, -, hb⟩ := bind_eq_ok.mp h
  exact hf a s₁ b s' hb

/-- The rule that uses what the first part returns. -/
theorem returns_bind_of {T : α → Prop} {S : β → Prop} {x : EStateM ε σ α}
    {f : α → EStateM ε σ β} (hx : Returns T x) (hf : ∀ a, T a → Returns S (f a)) :
    Returns S (x >>= f) := by
  intro s b s' h
  obtain ⟨a, s₁, ha, hb⟩ := bind_eq_ok.mp h
  exact hf a (hx s a s₁ ha) s₁ b s' hb

theorem returns_lift {S : α → Prop} {x : Except ε α} (h : ∀ a, x = .ok a → S a) :
    Returns S (lift x : EStateM ε σ α) := fun _ a _ ha => h a (lift_eq_ok.mp ha).1

theorem returns_ite {S : α → Prop} {c : Prop} [Decidable c] {x y : EStateM ε σ α}
    (hx : c → Returns S x) (hy : ¬c → Returns S y) : Returns S (if c then x else y) := by
  split
  · exact hx ‹_›
  · exact hy ‹_›

/-! ## Where a run may stop -/

/-- `x` fails with errors of the kind `S` only. -/
def FailsIn (S : ε → Prop) (x : Except ε α) : Prop := ∀ e, x = .error e → S e

/-- Every run of `x` that stops, stops with an error of the kind `S`. -/
def StopsIn (S : ε → Prop) (x : EStateM ε σ α) : Prop := ∀ s e s', x s = .error e s' → S e

section Stops

variable {S : ε → Prop}

theorem failsIn_ok (a : α) : FailsIn S (.ok a : Except ε α) := fun _ h => by simp at h

theorem failsIn_error {e : ε} (h : S e) : FailsIn S (.error e : Except ε α) :=
  fun _ he => Except.error.inj he ▸ h

theorem failsIn_stopIf {c : Prop} [Decidable c] {e : ε} (h : c → S e) : FailsIn S (stopIf c e) :=
  fun _ he => (stopIf_eq_error.mp he).2 ▸ h (stopIf_eq_error.mp he).1

theorem failsIn_bind {x : Except ε α} {f : α → Except ε β} (hx : FailsIn S x)
    (hf : ∀ a, x = .ok a → FailsIn S (f a)) : FailsIn S (x >>= f) := by
  intro e he
  rcases except_bind_eq_error.mp he with he | ⟨a, ha, he⟩
  · exact hx e he
  · exact hf a ha e he

theorem stopsIn_pure (a : α) : StopsIn S (pure a : EStateM ε σ α) := fun _ _ _ h => by simp at h

theorem stopsIn_throw {e : ε} (h : S e) : StopsIn S (throw e : EStateM ε σ α) :=
  fun _ _ _ he => (EStateM.Result.error.inj he).1 ▸ h

theorem stopsIn_modify (f : σ → σ) : StopsIn S (modify f : EStateM ε σ PUnit) :=
  fun _ _ _ h => by simp at h

theorem stopsIn_get : StopsIn S (get : EStateM ε σ σ) := fun _ _ _ h => by simp at h

theorem stopsIn_lift {x : Except ε α} (h : FailsIn S x) : StopsIn S (lift x : EStateM ε σ α) :=
  fun _ e _ he => h e (lift_eq_error.mp he).1

theorem stopsIn_bind {x : EStateM ε σ α} {f : α → EStateM ε σ β} (hx : StopsIn S x)
    (hf : ∀ a s s', x s = .ok a s' → StopsIn S (f a)) : StopsIn S (x >>= f) := by
  intro s e s' he
  rcases bind_eq_error.mp he with he | ⟨a, s₁, ha, he⟩
  · exact hx s e s' he
  · exact hf a s s₁ ha s₁ e s' he

theorem stopsIn_ite {c : Prop} [Decidable c] {x y : EStateM ε σ α} (hx : c → StopsIn S x)
    (hy : ¬c → StopsIn S y) : StopsIn S (if c then x else y) := by
  split
  · exact hx ‹_›
  · exact hy ‹_›

end Stops

end ExitingPrograms
