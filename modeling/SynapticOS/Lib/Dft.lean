import Mathlib.Algebra.BigOperators.Intervals
import Mathlib.Algebra.BigOperators.Ring.Finset
import Mathlib.Logic.Equiv.Basic
import Mathlib.Tactic.Ring

/-!
# The discrete Fourier transform

Over any commutative ring: a transform of twice the length from those of the even and of the
odd entries, the order in which its halves put the entries, and the pass of swaps that
establishes the order in place.
-/

namespace Lib

open Finset

-- ---------------------------------------------------------------------------
-- Transforms
-- ---------------------------------------------------------------------------

section
variable {R : Type} [CommRing R] {w : R} {n : Nat}

/-- Entry `k` of the transform of the first `n` entries, by powers of `w`. -/
def dft (w : R) (n : Nat) (x : Nat → R) (k : Nat) : R := ∑ j ∈ range n, x j * w ^ (j * k)

theorem dft_congr {x y : Nat → R} (h : ∀ j < n, x j = y j) (k : Nat) :
    dft w n x k = dft w n y k :=
  sum_congr rfl fun j hj => by rw [h j (mem_range.mp hj)]

theorem dft_one (x : Nat → R) : dft w 1 x 0 = x 0 := by simp [dft]

/-- The even and the odd entries. -/
theorem dft_two_mul (w : R) (n : Nat) (x : Nat → R) (k : Nat) :
    dft w (2 * n) x k = dft (w ^ 2) n (fun j => x (2 * j)) k +
      w ^ k * dft (w ^ 2) n (fun j => x (2 * j + 1)) k := by
  unfold dft
  induction n with
  | zero => simp
  | succ n ih =>
    rw [show 2 * (n + 1) = 2 * n + 1 + 1 by ring, sum_range_succ, sum_range_succ, ih,
      sum_range_succ, sum_range_succ]
    ring

theorem dft_add (h : w ^ n = 1) (x : Nat → R) (k : Nat) : dft w n x (k + n) = dft w n x k := by
  refine sum_congr rfl fun j _ => ?_
  rw [Nat.mul_add, pow_add, mul_comm j n, pow_mul w n j, h, one_pow, mul_one]

/-- The second half of the transform has the odd entries with the other sign. -/
theorem dft_two_mul_add (h : w ^ n = -1) (x : Nat → R) (k : Nat) :
    dft w (2 * n) x (k + n) = dft (w ^ 2) n (fun j => x (2 * j)) k -
      w ^ k * dft (w ^ 2) n (fun j => x (2 * j + 1)) k := by
  have h2 : (w ^ 2) ^ n = 1 := by rw [← pow_mul, mul_comm, pow_mul, h, neg_one_sq]
  rw [dft_two_mul, dft_add h2, dft_add h2, pow_add, h]
  ring

end

-- ---------------------------------------------------------------------------
-- Reversed bits
-- ---------------------------------------------------------------------------

/-- The low `m` bits of `i` from the last to the first. -/
def reverseBits : Nat → Nat → Nat
  | 0, _ => 0
  | m + 1, i => i % 2 * 2 ^ m + reverseBits m (i / 2)

theorem reverseBits_lt (m i : Nat) : reverseBits m i < 2 ^ m := by
  induction m generalizing i with
  | zero => exact Nat.one_pos
  | succ m ih =>
    have hbit : i % 2 * 2 ^ m ≤ 2 ^ m :=
      (Nat.mul_le_mul_right _ (Nat.le_of_lt_succ (Nat.mod_lt i Nat.two_pos))).trans_eq
        (Nat.one_mul _)
    have hrest := ih (i / 2)
    rw [reverseBits, Nat.pow_succ]
    omega

theorem reverseBits_even (m i : Nat) : reverseBits (m + 1) (2 * i) = reverseBits m i := by
  rw [reverseBits, Nat.mul_mod_right, Nat.zero_mul, Nat.zero_add,
    Nat.mul_div_cancel_left i Nat.two_pos]

theorem reverseBits_odd (m i : Nat) :
    reverseBits (m + 1) (2 * i + 1) = 2 ^ m + reverseBits m i := by
  rw [reverseBits, show (2 * i + 1) % 2 = 1 by omega, show (2 * i + 1) / 2 = i by omega,
    Nat.one_mul]

/-- The highest bit comes last. -/
theorem reverseBits_high (m : Nat) {i b : Nat} (hi : i < 2 ^ m) (hb : b < 2) :
    reverseBits (m + 1) (b * 2 ^ m + i) = 2 * reverseBits m i + b := by
  induction m generalizing i with
  | zero =>
    obtain rfl : i = 0 := by simpa using hi
    simp only [reverseBits]
    omega
  | succ m ih =>
    have htop : b * 2 ^ (m + 1) + i = 2 * (b * 2 ^ m) + i := by ring
    have hhalf : (b * 2 ^ (m + 1) + i) / 2 = b * 2 ^ m + i / 2 := by
      rw [htop]
      omega
    have hlow : (b * 2 ^ (m + 1) + i) % 2 = i % 2 := by
      rw [htop]
      omega
    have hi' : i / 2 < 2 ^ m := by
      rw [Nat.pow_succ] at hi
      omega
    rw [reverseBits, hhalf, hlow, ih hi', reverseBits, Nat.pow_succ]
    ring

theorem reverseBits_reverseBits (m : Nat) {i : Nat} (hi : i < 2 ^ m) :
    reverseBits m (reverseBits m i) = i := by
  induction m generalizing i with
  | zero =>
    obtain rfl : i = 0 := by simpa using hi
    rfl
  | succ m ih =>
    have hi' : i / 2 < 2 ^ m := by
      rw [Nat.pow_succ] at hi
      omega
    have hrev : reverseBits (m + 1) i = i % 2 * 2 ^ m + reverseBits m (i / 2) := rfl
    rw [hrev, reverseBits_high m (reverseBits_lt m _) (Nat.mod_lt i Nat.two_pos),
      ih hi']
    omega

-- ---------------------------------------------------------------------------
-- A pass of swaps
-- ---------------------------------------------------------------------------

section
variable {α : Type}

/-- After the first `n` entries: each one is swapped with its partner, once. -/
def swapPass (ρ : Nat → Nat) (x : Nat → α) : Nat → Nat → α
  | 0 => x
  | n + 1 => if n < ρ n then swapPass ρ x n ∘ Equiv.swap n (ρ n) else swapPass ρ x n

/-- A pair is swapped as soon as the smaller of the two is passed. -/
theorem swapPass_apply {ρ : Nat → Nat} {len : Nat} (hlt : ∀ i < len, ρ i < len)
    (hinv : ∀ i < len, ρ (ρ i) = i) (x : Nat → α) {n : Nat} (hn : n ≤ len) (i : Nat) :
    swapPass ρ x n i = if i < len ∧ (i < n ∨ ρ i < n) then x (ρ i) else x i := by
  induction n generalizing i with
  | zero => simp [swapPass]
  | succ n ih =>
    have ih := ih (Nat.le_of_succ_le hn)
    have hback := hinv n hn
    have hpartner := hlt n hn
    unfold swapPass
    by_cases hsw : n < ρ n
    · rw [if_pos hsw]
      show swapPass ρ x n (Equiv.swap n (ρ n) i) = _
      by_cases hin : i = n
      · subst hin
        rw [Equiv.swap_apply_left, ih, if_neg (by omega), if_pos (by omega)]
      · by_cases hir : i = ρ n
        · subst hir
          rw [Equiv.swap_apply_right, ih, if_neg (by omega), if_pos (by omega), hback]
        · rw [Equiv.swap_apply_of_ne_of_ne hin hir, ih]
          have hne : i < len → ρ i ≠ n := by
            intro hi he
            exact hir (by rw [← he, hinv i hi])
          refine if_congr ?_ rfl rfl
          constructor
          · omega
          · rintro ⟨hi, h⟩
            have := hne hi
            omega
    · rw [if_neg hsw, ih]
      by_cases hold : i < len ∧ (i < n ∨ ρ i < n)
      · rw [if_pos hold, if_pos (by omega)]
      · rw [if_neg hold]
        split
        · -- its own partner
          next hnew =>
            have hfix : ρ i = i := by
              by_cases hin : i = n
              · subst hin
                omega
              · have he : ρ i = n := by omega
                have hi := hinv i hnew.1
                rw [he] at hi
                omega
            rw [hfix]
        · rfl

end

end Lib
