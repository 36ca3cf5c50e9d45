import Mathlib.Data.Nat.Basic

/-!
# Loops

A step either goes on with a new state or ends with a result. A loop runs a given number of rounds at
most; more rounds than it needs change nothing.
-/

namespace EconomicLedger.Loop
variable {σ ρ : Type*}

def run (step : σ → σ ⊕ ρ) : Nat → σ → Option ρ
  | 0, _ => none
  | rounds + 1, s =>
      match step s with
      | .inl s' => run step rounds s'
      | .inr r => some r

/-- A loop whose steps keep an invariant and decrease a measure, or end with the result wanted, ends
with it. -/
theorem run_total (step : σ → σ ⊕ ρ) (Inv : σ → Prop) (Post : ρ → Prop) (measure : σ → Nat)
    (progress : ∀ s, Inv s →
      (∃ s', step s = .inl s' ∧ Inv s' ∧ measure s' < measure s) ∨ ∃ r, step s = .inr r ∧ Post r)
    (s : σ) (start : Inv s) :
    ∃ r, Post r ∧ ∀ rounds, measure s < rounds → run step rounds s = some r := by
  induction bound : measure s using Nat.strong_induction_on generalizing s with
  | _ n ih =>
      rcases progress s start with ⟨s', next, kept, less⟩ | ⟨r, last, post⟩
      · obtain ⟨r, post, ended⟩ := ih (measure s') (bound ▸ less) s' kept rfl
        refine ⟨r, post, fun rounds enough => ?_⟩
        obtain ⟨rounds, rfl⟩ := Nat.exists_eq_succ_of_ne_zero (Nat.ne_zero_of_lt enough)
        have fewer : measure s' < rounds := by omega
        simp only [run, next, ended rounds fewer]
      · refine ⟨r, post, fun rounds enough => ?_⟩
        obtain ⟨rounds, rfl⟩ := Nat.exists_eq_succ_of_ne_zero (Nat.ne_zero_of_lt enough)
        simp only [run, last]

end EconomicLedger.Loop
