import SynapticOS.Lib.Run
import Mathlib.Tactic.Linarith

/-!
# Costs along a run

What the steps of a run cost is paid out of a potential and of what other steps bring in.
-/

namespace Lib

variable {σ ι : Type} {step : σ → ι → σ} {I : σ → Prop} {Φ : σ → Nat} {f g : σ → ι → Nat} {s : σ}

/-- The sum of `f` over the steps of a run. -/
def total (step : σ → ι → σ) (f : σ → ι → Nat) : σ → List ι → Nat
  | _, [] => 0
  | s, i :: l => f s i + total step f (step s i) l

/-- If every step pays for itself out of the potential, so does every run. -/
theorem total_le (hi : I s) (hstep : ∀ s i, I s → I (step s i))
    (hpay : ∀ s i, I s → f s i + Φ (step s i) ≤ Φ s + g s i) (l : List ι) :
    total step f s l + Φ (run step s l) ≤ Φ s + total step g s l := by
  induction l generalizing s with
  | nil => simp [total]
  | cons i l ih =>
    have hhead := hpay s i hi
    have htail := ih (hstep s i hi)
    simp only [total, run_cons]
    linarith

end Lib
