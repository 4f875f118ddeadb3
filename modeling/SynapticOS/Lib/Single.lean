import Mathlib

/-!
# Small integers in single precision

The integers of a byte are exact in single precision, and compare there as they do.
-/

namespace Lib.Single

open Float.Model (UnpackedFloat)

/-- Neither an infinity nor no number. -/
def Ordinary : UnpackedFloat → Prop
  | .zero _ | .finite .. => True
  | _ => False

instance : DecidablePred Ordinary
  | .zero _ | .finite .. => inferInstanceAs (Decidable True)
  | .infinity _ | .notANumber => inferInstanceAs (Decidable False)

/-- Sign, exponent and mantissa, as they are compared. -/
def rank : UnpackedFloat → ℤ ×ₗ ℤ ×ₗ ℤ
  | .finite .positive m e _ => toLex (1, toLex (e, (m : ℤ)))
  | .finite .negative m e _ => toLex (-1, toLex (-e, -(m : ℤ)))
  | _ => toLex (0, toLex (0, 0))

theorem then_lt {e₁ e₂ : Int} {m₁ m₂ : Nat} :
    (compare e₁ e₂).then (compare m₁ m₂) = .lt ↔ e₁ < e₂ ∨ e₁ = e₂ ∧ m₁ < m₂ := by
  rw [Ordering.then_eq_lt, compare_lt_iff_lt, compare_eq_iff_eq, compare_lt_iff_lt]

theorem then_gt {e₁ e₂ : Int} {m₁ m₂ : Nat} :
    (compare e₁ e₂).then (compare m₁ m₂) = .gt ↔ e₂ < e₁ ∨ e₁ = e₂ ∧ m₂ < m₁ := by
  rw [Ordering.then_eq_gt, compare_gt_iff_gt, compare_eq_iff_eq, compare_gt_iff_gt]

theorem lt_iff_rank {a b : UnpackedFloat} (ha : Ordinary a) (hb : Ordinary b) :
    a.lt b = true ↔ rank a < rank b := by
  have hswap : ∀ o : Ordering, o.swap = .lt ↔ o = .gt := by decide
  rcases a with s | _ | s | ⟨s, m, e, -⟩ <;> rcases b with s' | _ | s' | ⟨s', m', e', -⟩ <;>
    first
    | exact ha.elim
    | exact hb.elim
    | skip
  all_goals
    try cases s
  all_goals
    try cases s'
  all_goals
    simp [UnpackedFloat.lt, UnpackedFloat.compare, rank, Prod.Lex.toLex_lt_toLex, then_lt, hswap,
      then_gt]

/-- The conversion of an integer to single precision. -/
def singleOfInt (n : Int) : Float32 := .ofModel (.ofInt n)

/-- The value as it is compared. -/
def single (n : Int) : UnpackedFloat := (singleOfInt n).toModel.unpack

theorem lt_iff_single (a b : Int) :
    singleOfInt a < singleOfInt b ↔ (single a).lt (single b) = true := by
  show decide (_ : Prop) = true ↔ _
  rw [decide_eq_true_eq]
  rfl

/-- The least integer of a byte is the first. -/
theorem single_ordinary : ∀ i : Fin 256, Ordinary (single (i.val - 128)) := by decide +kernel

theorem single_succ : ∀ i : Fin 255,
    (single (i.val - 128)).lt (single (i.val - 128 + 1)) = true := by decide +kernel

theorem rank_single_lt {i j : Nat} (hij : i < j) (hj : j < 256) :
    rank (single (i - 128)) < rank (single (j - 128)) := by
  have hsucc : ∀ k : Nat, k + 1 < 256 →
      rank (single (k - 128)) < rank (single ((k + 1 : Nat) - 128)) := by
    intro k hk
    have h := single_succ ⟨k, by omega⟩
    have hcast : ((k + 1 : Nat) : Int) - 128 = (k : Int) - 128 + 1 := by omega
    have h' := single_ordinary ⟨k + 1, hk⟩
    dsimp only at h h'
    rw [hcast] at h' ⊢
    exact (lt_iff_rank (single_ordinary ⟨k, by omega⟩) h').mp h
  induction j, hij using Nat.le_induction with
  | base => exact hsucc i hj
  | succ j hle ih => exact (ih (by omega)).trans (hsucc j hj)

/-- The integers of a byte compare in single precision as they do. -/
theorem singleOfInt_lt {a b : Int} (ha : -128 ≤ a ∧ a < 128) (hb : -128 ≤ b ∧ b < 128) :
    singleOfInt a < singleOfInt b ↔ a < b := by
  obtain ⟨i, hi, rfl⟩ : ∃ i : Nat, i < 256 ∧ (i : Int) - 128 = a :=
      ⟨(a + 128).toNat, by omega, by omega⟩
  obtain ⟨j, hj, rfl⟩ : ∃ j : Nat, j < 256 ∧ (j : Int) - 128 = b :=
      ⟨(b + 128).toNat, by omega, by omega⟩
  have hrank := lt_iff_rank (single_ordinary ⟨i, hi⟩) (single_ordinary ⟨j, hj⟩)
  dsimp only at hrank
  rw [lt_iff_single, hrank]
  constructor
  · intro h
    by_contra hge
    rcases Nat.lt_or_eq_of_le (show j ≤ i by omega) with hlt | rfl
    · exact lt_asymm h (rank_single_lt hlt hi)
    · exact lt_irrefl _ h
  · intro h
    exact rank_single_lt (by omega) hj

end Lib.Single
