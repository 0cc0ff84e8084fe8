import Khefin.Simulations
import Mathlib.Logic.Function.Basic

/-! # Registers

What is known to be held under each key. A deed puts a value under a key, loses what is known of
a key, uses a key, or does nothing to any; a use has to fit the value that is known to be held. -/

namespace Registers
open Simulations

variable {κ ν μ : Type}

inductive Deed (κ ν μ : Type)
  | write (k : κ) (v : ν)
  | lose (k : κ)
  | use (k : κ) (u : μ)
  | other
  deriving DecidableEq

def Deed.Changes (k : κ) : Deed κ ν μ → Prop
  | .write k' _ | .lose k' => k' = k
  | _ => False

variable [DecidableEq κ]

inductive Step (Fits : ν → μ → Prop) (g : κ → Option ν) : Deed κ ν μ → (κ → Option ν) → Prop
  | write (k : κ) (v : ν) : Step Fits g (.write k v) (Function.update g k (some v))
  | lose (k : κ) : Step Fits g (.lose k) (Function.update g k none)
  | use {k : κ} {u : μ} (fits : ∀ v, g k = some v → Fits v u) : Step Fits g (.use k u) g
  | other : Step Fits g .other g

variable {Fits : ν → μ → Prop} {g g' : κ → Option ν} {d : Deed κ ν μ} {ds : List (Deed κ ν μ)}
  {k : κ} {v : ν} {u : μ}

theorem Step.eq_of_not_changes (h : Step Fits g d g') (hd : ¬d.Changes k) : g' k = g k := by
  cases h with
  | write k' v => exact Function.update_of_ne (fun heq => hd heq.symm) _ _
  | lose k' => exact Function.update_of_ne (fun heq => hd heq.symm) _ _
  | use fits => rfl
  | other => rfl

/-- A value stays as long as nothing changes its key. -/
theorem eq_of_run (h : Run (Step Fits) g ds g') (hds : ∀ d ∈ ds, ¬d.Changes k) : g' k = g k := by
  induction h with
  | nil g => rfl
  | cons first rest ih =>
    rw [ih fun d hd => hds d (List.mem_cons_of_mem _ hd)]
    exact first.eq_of_not_changes (hds _ List.mem_cons_self)

/-- What is true of each value that is held stays so when one key is changed, if it stays so for the
other keys. -/
theorem held_update {H H' : κ → ν → Prop} (h : ∀ k v, g k = some v → H k v)
    (hother : ∀ k' ≠ k, ∀ v, H k' v → H' k' v) {value : Option ν}
    (hvalue : ∀ v, value = some v → H' k v) (k' : κ) (v : ν)
    (hv : Function.update g k value k' = some v) : H' k' v := by
  by_cases hk : k' = k
  · subst hk
    rw [Function.update_self] at hv
    exact hvalue v hv
  · rw [Function.update_of_ne hk] at hv
    exact hother k' hk v (h k' v hv)

/-- Every use of a key fits the value that was written there last. -/
theorem fits_of_mem (h : Run (Step Fits) g (.write k v :: ds) g') (hds : ∀ d ∈ ds, ¬d.Changes k)
    (hu : .use k u ∈ ds) : Fits v u := by
  obtain ⟨before, after, rfl⟩ := List.append_of_mem hu
  rcases h with _ | ⟨⟨⟩, h⟩
  obtain ⟨g₁, hbefore, hafter⟩ := run_append_iff.mp h
  have hheld : g₁ k = some v := by
    rw [eq_of_run hbefore fun d hd => hds d (List.mem_append_left _ hd)]
    exact Function.update_self _ _ _
  cases hafter with
  | cons first rest =>
    cases first with
    | use fits => exact fits v hheld

end Registers
