import SynapticOS.Dsp.Soft
import Mathlib.Algebra.BigOperators.Intervals
import Mathlib.Algebra.Order.Ring.Abs
import Mathlib.Tactic.Ring

/-!
# The Q15 product is exact

No product, sum or index of the loops wraps, whatever the sizes: a row is the product in
exact arithmetic, rounded down and saturated.
-/

namespace SynapticOS.Dsp

open Finset

variable {a b : Nat → Int16} {cols r : UInt16}

/-- The product of a row in exact arithmetic. -/
def exactRow (a b : Nat → Int16) (cols r n : Nat) : Int :=
  ∑ c ∈ range n, (a (r * cols + c)).toInt * (b c).toInt

theorem product_bound (x y : Int16) :
    -2 ^ 30 ≤ x.toInt * y.toInt ∧ x.toInt * y.toInt ≤ 2 ^ 30 := by
  have hx := x.toInt_lt
  have hx' := x.le_toInt
  have hy := y.toInt_lt
  have hy' := y.le_toInt
  have habs : |x.toInt * y.toInt| ≤ 2 ^ 15 * 2 ^ 15 := by
    rw [abs_mul]
    exact mul_le_mul (abs_le.mpr ⟨by omega, by omega⟩) (abs_le.mpr ⟨by omega, by omega⟩)
      (abs_nonneg _) (by norm_num)
  have := abs_le.mp habs
  omega

theorem toInt_product (x y : Int16) :
    (x.toInt32 * y.toInt32).toInt64.toInt = x.toInt * y.toInt := by
  have h := product_bound x y
  rw [Int32.toInt_toInt64, Int32.toInt_mul, Int16.toInt_toInt32, Int16.toInt_toInt32]
  exact Int.bmod_eq_of_le (by omega) (by omega)

/-- The index of a product. -/
theorem toNat_index {c : Nat} (hc : c < cols.toNat) (hr : r.toNat < 2 ^ 16 - 1) :
    (r.toUInt32 * cols.toUInt32 + UInt32.ofNat c).toNat = r.toNat * cols.toNat + c := by
  have hcols := cols.toNat_lt
  have hmul : r.toNat * cols.toNat ≤ (2 ^ 16 - 2) * (2 ^ 16 - 1) :=
    Nat.mul_le_mul (by omega) (by omega)
  rw [UInt32.toNat_add, UInt32.toNat_mul, UInt16.toNat_toUInt32, UInt16.toNat_toUInt32,
    UInt32.toNat_ofNat', Nat.mod_eq_of_lt (show c < 2 ^ 32 by omega),
    Nat.mod_eq_of_lt (show r.toNat * cols.toNat < 2 ^ 32 by omega)]
  exact Nat.mod_eq_of_lt (by omega)

/-- The sum stays within what its products can reach. -/
theorem toInt_rowSum (a b : Nat → Int16) (hr : r.toNat < 2 ^ 16 - 1) {n : Nat}
    (hn : n ≤ cols.toNat) :
    (rowSum a b cols r n).toInt = exactRow a b cols.toNat r.toNat n ∧
      -(n * 2 ^ 30 : Int) ≤ exactRow a b cols.toNat r.toNat n ∧
      exactRow a b cols.toNat r.toNat n ≤ n * 2 ^ 30 := by
  induction n with
  | zero => exact ⟨rfl, by simp [exactRow], by simp [exactRow]⟩
  | succ n ih =>
    obtain ⟨heq, hlo, hhi⟩ := ih (Nat.le_of_succ_le hn)
    have hcols := cols.toNat_lt
    have hsum : exactRow a b cols.toNat r.toNat (n + 1) = exactRow a b cols.toNat r.toNat n +
        (a (r.toNat * cols.toNat + n)).toInt * (b n).toInt := sum_range_succ _ n
    have hprod := product_bound (a (r.toNat * cols.toNat + n)) (b n)
    rw [hsum]
    refine ⟨?_, by push_cast; omega, by push_cast; omega⟩
    unfold rowSum
    dsimp only
    rw [Int64.toInt_add, heq, toInt_product, toNat_index hn hr]
    exact Int.bmod_eq_of_le (by omega) (by omega)

theorem toInt_shift (acc : Int64) : (acc >>> 15).toInt = acc.toInt / 2 ^ 15 := by
  show (acc.toBitVec.sshiftRight 15).toInt = acc.toBitVec.toInt / 2 ^ 15
  rw [BitVec.toInt_sshiftRight, Int.shiftRight_eq_div_pow]
  rfl

theorem toInt_saturate (acc : Int64) : (saturate acc).toInt =
    max (-2 ^ 15) (min (2 ^ 15 - 1) (acc.toInt / 2 ^ 15)) := by
  unfold saturate
  dsimp only
  have hshift := toInt_shift acc
  generalize acc >>> 15 = q at hshift
  rw [← hshift]
  split
  next h =>
    have h : (32767 : Int) < q.toInt := Int64.lt_iff_toInt_lt.mp h
    rw [show (32767 : Int16).toInt = 32767 from rfl]
    omega
  next h =>
    have h : q.toInt ≤ 32767 := by
      have := mt Int64.lt_iff_toInt_lt.mpr h
      exact Int.not_lt.mp this
    split
    next h' =>
      have h' : q.toInt < -32768 := Int64.lt_iff_toInt_lt.mp h'
      rw [show (-32768 : Int16).toInt = -32768 from rfl]
      omega
    next h' =>
      have h' : -32768 ≤ q.toInt := by
        have := mt Int64.lt_iff_toInt_lt.mpr h'
        exact Int.not_lt.mp this
      rw [Int64.toInt_toInt16, Int.bmod_eq_of_le (by omega) (by omega)]
      omega

theorem matRows_apply (a b out : Nat → Int16) (cols : UInt16) (n r : Nat) :
    matRows a b out cols n r =
      if r < n then saturate (rowSum a b cols (UInt16.ofNat r) cols.toNat) else out r := by
  induction n with
  | zero => rfl
  | succ n ih =>
    unfold matRows
    by_cases hr : r = n
    · subst hr
      rw [Function.update_self, if_pos (Nat.lt_succ_self r)]
    · rw [Function.update_of_ne hr, ih]
      exact if_congr (by omega) rfl rfl

/-- For all sizes that are not 0 and all entries, every row is the exact product, rounded
down to a multiple of `2 ^ -15` and saturated; what is behind the rows does not change. -/
theorem mat_mult_exact (a b out : Nat → Int16) (rows cols : UInt16) :
    (rows ≠ 0 ∧ cols ≠ 0 → ∃ res, softMatMultQ15 a b out rows cols = .ok res ∧
      (∀ r < rows.toNat, (res r).toInt =
        max (-2 ^ 15) (min (2 ^ 15 - 1) (exactRow a b cols.toNat r cols.toNat / 2 ^ 15))) ∧
      ∀ r, rows.toNat ≤ r → res r = out r) ∧
    (rows = 0 ∨ cols = 0 → softMatMultQ15 a b out rows cols = .error .einval) := by
  refine ⟨fun ⟨hrows, hcols⟩ =>
    ⟨_, if_neg (by simp [hrows, hcols]), fun r hr => ?_, fun r hr => ?_⟩, fun h => if_pos h⟩
  · have hlt := rows.toNat_lt
    have hnat : (UInt16.ofNat r).toNat = r := by
      rw [UInt16.toNat_ofNat']
      exact Nat.mod_eq_of_lt (by omega)
    have hsum : (rowSum a b cols (UInt16.ofNat r) cols.toNat).toInt =
        exactRow a b cols.toNat (UInt16.ofNat r).toNat cols.toNat :=
      (toInt_rowSum a b (by omega) (Nat.le_refl _)).1
    rw [matRows_apply, if_pos hr, toInt_saturate, hsum, hnat]
  · rw [matRows_apply, if_neg (by omega)]

end SynapticOS.Dsp
