import Khefin.ExitingPrograms

/-! # Programs that keep a record

A program over a state is followed by one that notes events beside the same state.
What it notes never changes what it does: with the record forgotten, its runs are
those of the program it follows. -/

namespace RecordingPrograms

open EStateM (Result)
open ExitingPrograms

variable {ε σ μ α β : Type}

structure Recorded (σ μ : Type) where
  state : σ
  events : List μ

def emit (events : List μ) : EStateM ε (Recorded σ μ) Unit :=
  modify fun s => { s with events := s.events ++ events }

/-- A program that notes nothing. -/
def plain (x : EStateM ε σ α) : EStateM ε (Recorded σ μ) α := fun s =>
  match x s.state with
  | .ok a w => .ok a { s with state := w }
  | .error e w => .error e { s with state := w }

@[simp] theorem emit_apply (events : List μ) (s : Recorded σ μ) :
    (emit events : EStateM ε (Recorded σ μ) Unit) s =
      .ok () { s with events := s.events ++ events } := rfl

theorem emit_eq_ok {events : List μ} {s s' : Recorded σ μ} {u : Unit} :
    (emit events : EStateM ε (Recorded σ μ) Unit) s = .ok u s' ↔
      s' = { s with events := s.events ++ events } := by
  rw [emit_apply, EStateM.Result.ok.injEq]
  exact ⟨fun h => h.2.symm, fun h => ⟨rfl, h.symm⟩⟩

theorem plain_eq_ok {x : EStateM ε σ α} {s s' : Recorded σ μ} {a : α} :
    plain x s = .ok a s' ↔ x s.state = .ok a s'.state ∧ s'.events = s.events := by
  obtain ⟨w', events'⟩ := s'
  unfold plain
  cases x s.state with
  | ok b w => simp [and_assoc, eq_comm]
  | error e w => simp

/-! ## What is done without the record -/

def forget : Result ε (Recorded σ μ) α → Result ε σ α
  | .ok a s => .ok a s.state
  | .error e s => .error e s.state

/-- The runs of `x'` are those of `x`, with a record beside them. -/
def Erases (x' : EStateM ε (Recorded σ μ) α) (x : EStateM ε σ α) : Prop :=
  ∀ s, forget (x' s) = x s.state

theorem erases_pure (a : α) :
    Erases (pure a : EStateM ε (Recorded σ μ) α) (pure a) := fun _ => rfl

theorem erases_plain (x : EStateM ε σ α) :
    Erases (plain x : EStateM ε (Recorded σ μ) α) x := by
  intro s
  unfold plain
  cases x s.state with
  | ok a w => rfl
  | error e w => rfl

theorem erases_emit (events : List μ) :
    Erases (emit events : EStateM ε (Recorded σ μ) Unit) (pure ()) := fun _ => rfl

theorem erases_ite {c : Prop} [Decidable c] {x' y' : EStateM ε (Recorded σ μ) α}
    {x y : EStateM ε σ α} (hx : Erases x' x) (hy : Erases y' y) :
    Erases (if c then x' else y') (if c then x else y) := by
  split
  · exact hx
  · exact hy

/-- A choice between records is no choice without them. -/
theorem erases_ite_self {c : Prop} [Decidable c] {x' y' : EStateM ε (Recorded σ μ) α}
    {x : EStateM ε σ α} (hx : Erases x' x) (hy : Erases y' x) :
    Erases (if c then x' else y') x := by
  split
  · exact hx
  · exact hy

theorem erases_bind {x' : EStateM ε (Recorded σ μ) α} {x : EStateM ε σ α}
    {f' : α → EStateM ε (Recorded σ μ) β} {f : α → EStateM ε σ β} (hx : Erases x' x)
    (hf : ∀ a, Erases (f' a) (f a)) : Erases (x' >>= f') (x >>= f) := by
  intro s
  have hxs := hx s
  rw [bind_apply, bind_apply]
  cases hx' : x' s with
  | ok a s' =>
    rw [hx'] at hxs
    rw [← hxs]
    exact hf a s'
  | error e s' =>
    rw [hx'] at hxs
    rw [← hxs]
    rfl

/-- A step that is only there for the record. -/
theorem erases_note {x' : EStateM ε (Recorded σ μ) Unit} {f' : Unit → EStateM ε (Recorded σ μ) β}
    {y : EStateM ε σ β} (hx : Erases x' (pure ())) (hf : Erases (f' ()) y) :
    Erases (x' >>= f') y := by
  rw [← pure_bind () fun _ => y]
  exact erases_bind hx fun _ => hf

/-- Steps for the record behind the last one that does something. -/
theorem erases_then {x' : EStateM ε (Recorded σ μ) α} {x : EStateM ε σ α}
    {f' : α → EStateM ε (Recorded σ μ) α} (hx : Erases x' x)
    (hf : ∀ a, Erases (f' a) (pure a)) : Erases (x' >>= f') x := by
  rw [← bind_pure x]
  exact erases_bind hx hf

/-- A run that returns without the record returns with it. -/
theorem Erases.exists_ok {x' : EStateM ε (Recorded σ μ) α} {x : EStateM ε σ α} (h : Erases x' x)
    {s : Recorded σ μ} {a : α} {w : σ} (hx : x s.state = .ok a w) :
    ∃ s', x' s = .ok a s' ∧ s'.state = w := by
  have hs := h s
  rw [hx] at hs
  cases hx' : x' s with
  | ok b s' =>
    rw [hx'] at hs
    obtain ⟨rfl, rfl⟩ := EStateM.Result.ok.inj hs
    exact ⟨s', rfl, rfl⟩
  | error e s' =>
    rw [hx'] at hs
    cases hs

theorem Erases.ok {x' : EStateM ε (Recorded σ μ) α} {x : EStateM ε σ α} (h : Erases x' x)
    {s s' : Recorded σ μ} {a : α} (hx : x' s = .ok a s') : x s.state = .ok a s'.state := by
  rw [← h s, hx]
  rfl

end RecordingPrograms
