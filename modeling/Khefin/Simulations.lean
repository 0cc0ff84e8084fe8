import Mathlib.Data.Nat.Notation

/-! # Runs of labelled steps, and simulations

A system is a relation of labelled steps. What one step keeps is kept by a run, and a step that
another system can answer under a label of its own makes for a run that it can answer. -/

namespace Simulations

variable {Λ Δ σ τ : Type}

/-- One step for each label, from the first state to the last. -/
inductive Run (step : σ → Λ → σ → Prop) : σ → List Λ → σ → Prop
  | nil (s : σ) : Run step s [] s
  | cons {s s₁ s' : σ} {l : Λ} {ls : List Λ} (first : step s l s₁) (rest : Run step s₁ ls s') :
      Run step s (l :: ls) s'

variable {step : σ → Λ → σ → Prop} {step' : τ → Δ → τ → Prop} {s s' : σ} {ls ls' : List Λ}

theorem run_append_iff :
    Run step s (ls ++ ls') s' ↔ ∃ s₁, Run step s ls s₁ ∧ Run step s₁ ls' s' := by
  induction ls generalizing s with
  | nil =>
    constructor
    · intro h
      exact ⟨s, .nil s, h⟩
    · rintro ⟨_, ⟨⟩, h⟩
      exact h
  | cons l ls ih =>
    constructor
    · rintro (_ | ⟨first, rest⟩)
      obtain ⟨s₁, hls, hls'⟩ := ih.mp rest
      exact ⟨s₁, .cons first hls, hls'⟩
    · rintro ⟨s₁, _ | ⟨first, hls⟩, hls'⟩
      exact .cons first (ih.mpr ⟨s₁, hls, hls'⟩)

/-- What each of the steps taken keeps is kept by the run. -/
theorem Run.keeps {I : σ → Prop} (h : Run step s ls s')
    (hstep : ∀ s₁ l s₂, l ∈ ls → step s₁ l s₂ → I s₁ → I s₂) (hs : I s) : I s' := by
  induction h with
  | nil s => exact hs
  | cons first rest ih =>
    have hnext := hstep _ _ _ List.mem_cons_self first hs
    exact ih (fun s₁ l s₂ hl => hstep s₁ l s₂ (List.mem_cons_of_mem _ hl)) hnext

/-- Each step is answered by one of the other system, whose label `d` reads off. -/
def Simulates (R : σ → τ → Prop) (d : Λ → Δ) (step : σ → Λ → σ → Prop)
    (step' : τ → Δ → τ → Prop) : Prop :=
  ∀ s l s' t, R s t → step s l s' → ∃ t', step' t (d l) t' ∧ R s' t'

theorem Simulates.run {R : σ → τ → Prop} {d : Λ → Δ} (h : Simulates R d step step')
    (hrun : Run step s ls s') {t : τ} (hR : R s t) :
    ∃ t', Run step' t (ls.map d) t' ∧ R s' t' := by
  induction hrun generalizing t with
  | nil s => exact ⟨t, .nil t, hR⟩
  | cons first rest ih =>
    obtain ⟨t₁, hfirst, hR₁⟩ := h _ _ _ t hR first
    obtain ⟨t', hrest, hR'⟩ := ih hR₁
    exact ⟨t', .cons hfirst hrest, hR'⟩

end Simulations
