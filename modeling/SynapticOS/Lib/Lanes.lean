import Mathlib.Logic.Function.Basic
import Mathlib.Tactic.SplitIfs

/-!
# Lanes of which one is handled

A family of lanes with an invariant each, which is another one for the lane that is handled.
-/

namespace Lib

variable {ι L : Type} [DecidableEq ι] {Ok : Bool → L → Prop} {handled : Option ι} {lanes : ι → L}
  {i : ι} {l : L}

/-- `Ok` holds of every lane; its argument tells whether the lane is the handled one. -/
def Lanes (Ok : Bool → L → Prop) (handled : Option ι) (lanes : ι → L) : Prop :=
  ∀ i, Ok (decide (handled = some i)) (lanes i)

namespace Lanes

theorem update (h : Lanes Ok handled lanes) (hl : Ok (decide (handled = some i)) l) :
    Lanes Ok handled (Function.update lanes i l) := by
  intro j
  rw [Function.update_apply]
  split_ifs with hj
  · exact hj ▸ hl
  · exact h j

theorem enter (h : Lanes Ok none lanes) (hl : Ok true l) :
    Lanes Ok (some i) (Function.update lanes i l) := by
  intro j
  rw [Function.update_apply]
  split_ifs with hj
  · simpa [hj] using hl
  · simpa [Ne.symm hj] using h j

theorem leave (h : Lanes Ok (some i) lanes) (hl : Ok false l) :
    Lanes Ok none (Function.update lanes i l) := by
  intro j
  rw [Function.update_apply]
  split_ifs with hj
  · exact hl
  · simpa [Ne.symm hj] using h j

end Lanes

end Lib
