import SynapticOS.Dsp.Soft
import SynapticOS.Lib.Dft
import Mathlib.Analysis.SpecialFunctions.Complex.Circle
import Mathlib.Data.Nat.Bitwise

/-!
# The transform is the discrete Fourier transform

In exact arithmetic: the reordering puts every entry where its bits reversed say, and after
the stage of length `2 ^ s` every block of that length is the transform of the entries that
the reordering put there (`Blocks`).
-/

namespace SynapticOS.Dsp

open Lib

variable {out : Signal ℝ} {len i j : Nat}

/-- The entries as complex numbers. -/
def entry (out : Signal ℝ) (i : Nat) : ℂ := ⟨out (2 * i), out (2 * i + 1)⟩

/-- Two signals with the same entries are the same signal. -/
theorem eq_of_entry {out out' : Signal ℝ} {i : Nat} (h : entry out (i / 2) = entry out' (i / 2)) :
    out i = out' i := by
  obtain ⟨hre, him⟩ := Complex.ext_iff.mp h
  rcases Nat.mod_two_eq_zero_or_one i with hi | hi
  · have : i = 2 * (i / 2) := by omega
    rw [this]
    exact hre
  · have : i = 2 * (i / 2) + 1 := by omega
    rw [this]
    exact him

-- ---------------------------------------------------------------------------
-- Bit reversal
-- ---------------------------------------------------------------------------

/-- Both parts of an entry are written. -/
theorem entry_update (out : Signal ℝ) (i : Nat) (re im : ℝ) :
    entry (Function.update (Function.update out (2 * i) re) (2 * i + 1) im) =
      Function.update (entry out) i ⟨re, im⟩ := by
  funext p
  by_cases hp : p = i
  · subst hp
    rw [Function.update_self]
    unfold entry
    rw [Function.update_of_ne (by omega), Function.update_self, Function.update_self]
  · rw [Function.update_of_ne hp]
    unfold entry
    rw [Function.update_of_ne (by omega), Function.update_of_ne (by omega),
      Function.update_of_ne (by omega), Function.update_of_ne (by omega)]

theorem entry_exchange (out : Signal ℝ) (hij : i ≠ j) :
    entry (exchange out i j) = entry out ∘ Equiv.swap i j := by
  unfold exchange
  dsimp only
  rw [entry_update, Function.update_of_ne (show 2 * j + 1 ≠ 2 * i by omega), entry_update]
  funext p
  show Function.update (Function.update (entry out) i (entry out j)) j (entry out i) p =
    entry out (Equiv.swap i j p)
  by_cases hpj : p = j
  · subst hpj
    rw [Function.update_self, Equiv.swap_apply_right]
  · rw [Function.update_of_ne hpj]
    by_cases hpi : p = i
    · subst hpi
      rw [Function.update_self, Equiv.swap_apply_left]
    · rw [Function.update_of_ne hpi, Equiv.swap_apply_of_ne_of_ne hpi hpj]

/-- A power of two over the bits under it. -/
theorem two_pow_add_bits {m a : Nat} (ha : a < 2 ^ m) :
    (2 ^ m + a) &&& 2 ^ m = 2 ^ m ∧ (2 ^ m + a) ^^^ 2 ^ m = a ∧ a &&& 2 ^ m = 0 ∧
      a ||| 2 ^ m = 2 ^ m + a := by
  have hor : 2 ^ m + a = 2 ^ m ||| a := by
    have h := Nat.two_pow_add_eq_or_of_lt ha 1
    rwa [Nat.mul_one] at h
  have hbit : a.testBit m = false := Nat.testBit_lt_two_pow ha
  rw [hor]
  refine ⟨?_, ?_, ?_, Nat.or_comm a (2 ^ m)⟩ <;> refine Nat.eq_of_testBit_eq fun k => ?_ <;>
    by_cases hk : m = k <;> simp_all

theorem clearBits_reverseBits (m i : Nat) {fuel : Nat} (hf : m ≤ fuel) :
    (clearBits fuel (reverseBits m i) (2 ^ m / 2)).1 |||
      (clearBits fuel (reverseBits m i) (2 ^ m / 2)).2 = reverseBits m (i + 1) := by
  induction m generalizing i fuel with
  | zero => cases fuel <;> simp [clearBits, reverseBits]
  | succ m ih =>
    obtain ⟨f, rfl⟩ : ∃ f, fuel = f + 1 := ⟨fuel - 1, by omega⟩
    have hbit : 2 ^ (m + 1) / 2 = 2 ^ m := by
      rw [Nat.pow_succ]
      omega
    have hpos : 2 ^ m ≠ 0 := (Nat.two_pow_pos m).ne'
    obtain ⟨hand, hxor, hzero, hor⟩ := two_pow_add_bits (reverseBits_lt m (i / 2))
    rw [hbit]
    rcases Nat.mod_two_eq_zero_or_one i with hi | hi
    · -- the highest bit of `j` is clear
      have hj : reverseBits (m + 1) i = reverseBits m (i / 2) := by
        rw [reverseBits, hi, Nat.zero_mul, Nat.zero_add]
      have hnext : reverseBits (m + 1) (i + 1) = 2 ^ m + reverseBits m (i / 2) := by
        rw [show i + 1 = 2 * (i / 2) + 1 by omega, reverseBits_odd]
      rw [hj, hnext, clearBits, if_neg (by simp only [hzero, ne_eq, not_true, not_false_eq_true])]
      exact hor
    · have hj : reverseBits (m + 1) i = 2 ^ m + reverseBits m (i / 2) := by
        rw [reverseBits, hi, Nat.one_mul]
      have hnext : reverseBits (m + 1) (i + 1) = reverseBits m (i / 2 + 1) := by
        rw [show i + 1 = 2 * (i / 2 + 1) by omega, reverseBits_even]
      rw [hj, hnext, clearBits, if_pos (by rw [hand]; exact hpos), hxor, Nat.shiftRight_one]
      exact ih (i / 2) (Nat.le_of_succ_le_succ hf)

theorem reverseBits_zero (m : Nat) : reverseBits m 0 = 0 := by
  induction m with
  | zero => rfl
  | succ m ih => rw [reverseBits, Nat.zero_mod, Nat.zero_mul, Nat.zero_div, ih]

theorem permute_spec (k : Nat) (out : Signal ℝ) (n : Nat) :
    entry (permute (2 ^ k) out n).1 = swapPass (reverseBits k) (entry out) n ∧
      (permute (2 ^ k) out n).2 = reverseBits k n := by
  induction n with
  | zero => exact ⟨rfl, (reverseBits_zero k).symm⟩
  | succ n ih =>
    obtain ⟨hsig, hj⟩ := ih
    unfold permute swapPass
    dsimp only
    rw [hj]
    constructor
    · by_cases hlt : n < reverseBits k n
      · rw [if_pos hlt, if_pos hlt, entry_exchange _ (Nat.ne_of_lt hlt), hsig]
      · rw [if_neg hlt, if_neg hlt, hsig]
    · unfold nextReversed
      rw [Nat.shiftRight_one]
      exact clearBits_reverseBits k n Nat.lt_two_pow_self.le

theorem entry_permute (k : Nat) (out : Signal ℝ) (i : Nat) :
    entry (permute (2 ^ k) out (2 ^ k)).1 i =
      if i < 2 ^ k then entry out (reverseBits k i) else entry out i := by
  rw [(permute_spec k out (2 ^ k)).1, swapPass_apply (fun i _ => reverseBits_lt k i)
    (fun i hi => reverseBits_reverseBits k hi) _ (Nat.le_refl _)]
  refine if_congr ?_ rfl rfl
  exact ⟨fun h => h.1, fun h => ⟨h, .inl h⟩⟩

-- ---------------------------------------------------------------------------
-- Stages
-- ---------------------------------------------------------------------------

def toComplex (w : ℝ × ℝ) : ℂ := ⟨w.1, w.2⟩

theorem toComplex_turn (w step : ℝ × ℝ) :
    toComplex (turn w step) = toComplex w * toComplex step := by
  apply Complex.ext <;> simp [toComplex, turn]

theorem entry_butterfly (out : Signal ℝ) {top bot : Nat} (h : top ≠ bot) (w : ℝ × ℝ) :
    entry (butterfly out top bot w) =
      Function.update (Function.update (entry out) bot
        (entry out top - entry out bot * toComplex w)) top
        (entry out top + entry out bot * toComplex w) := by
  unfold butterfly
  dsimp only
  rw [Function.update_of_ne (show 2 * top + 1 ≠ 2 * bot by omega),
    Function.update_of_ne (show 2 * top + 1 ≠ 2 * top by omega),
    Function.update_of_ne (show 2 * top ≠ 2 * bot + 1 by omega),
    Function.update_of_ne (show 2 * top ≠ 2 * bot by omega),
    Function.update_of_ne (show 2 * top + 1 ≠ 2 * bot + 1 by omega),
    Function.update_of_ne (show 2 * top + 1 ≠ 2 * bot by omega), entry_update, entry_update]
  rfl

/-- What a group of `2 * h` entries becomes, up to its first `n` pairs. -/
structure Turned (w : ℂ) (h group n : Nat) (x y : Nat → ℂ) : Prop where
  plus : ∀ p < n, y (group + p) = x (group + p) + x (group + p + h) * w ^ p
  minus : ∀ p < n, y (group + p + h) = x (group + p) - x (group + p + h) * w ^ p
  rest : ∀ i, (∀ p < n, i ≠ group + p ∧ i ≠ group + p + h) → y i = x i

theorem pairs_spec (step : ℝ × ℝ) (h group : Nat) (out : Signal ℝ) {n : Nat} (hn : n ≤ h) :
    Turned (toComplex step) h group n (entry out) (entry (pairs step (2 * h) group out n).1) ∧
      toComplex (pairs step (2 * h) group out n).2 = toComplex step ^ n := by
  induction n with
  | zero =>
    refine ⟨⟨fun _ hp => absurd hp (Nat.not_lt_zero _), fun _ hp => absurd hp (Nat.not_lt_zero _),
      fun _ _ => rfl⟩, ?_⟩
    rw [pow_zero]
    rfl
  | succ n ih =>
    obtain ⟨ht, hw⟩ := ih (Nat.le_of_succ_le hn)
    have hhalf : 2 * h / 2 = h := Nat.mul_div_cancel_left h Nat.two_pos
    unfold pairs
    dsimp only
    generalize pairs step (2 * h) group out n = r at ht hw
    rw [hhalf, entry_butterfly _ (by omega), hw]
    have htop : entry r.1 (group + n) = entry out (group + n) :=
      ht.rest _ fun p hp => by omega
    have hbot : entry r.1 (group + n + h) = entry out (group + n + h) :=
      ht.rest _ fun p hp => by omega
    rw [htop, hbot]
    refine ⟨⟨fun p hp => ?_, fun p hp => ?_, fun i hi => ?_⟩, ?_⟩
    · by_cases hpn : p = n
      · subst hpn
        rw [Function.update_self]
      · rw [Function.update_of_ne (by omega), Function.update_of_ne (by omega)]
        exact ht.plus p (by omega)
    · by_cases hpn : p = n
      · subst hpn
        rw [Function.update_of_ne (by omega), Function.update_self]
      · rw [Function.update_of_ne (by omega), Function.update_of_ne (by omega)]
        exact ht.minus p (by omega)
    · obtain ⟨h1, h2⟩ := hi n (Nat.lt_succ_self n)
      rw [Function.update_of_ne h1, Function.update_of_ne h2]
      exact ht.rest i fun p hp => hi p (Nat.lt_succ_of_lt hp)
    · rw [toComplex_turn, hw, pow_succ]

/-- What the groups from `c` on become. -/
structure Staged (w : ℂ) (h c count : Nat) (x y : Nat → ℂ) : Prop where
  plus : ∀ g, c ≤ g → g < count → ∀ p < h, y (g * (2 * h) + p) =
    x (g * (2 * h) + p) + x (g * (2 * h) + p + h) * w ^ p
  minus : ∀ g, c ≤ g → g < count → ∀ p < h, y (g * (2 * h) + p + h) =
    x (g * (2 * h) + p) - x (g * (2 * h) + p + h) * w ^ p
  rest : ∀ i, i < c * (2 * h) ∨ count * (2 * h) ≤ i → y i = x i

theorem groups_spec (step : ℝ × ℝ) {h count : Nat} (hh : 0 < h) {fuel c : Nat}
    (hf : count ≤ c + fuel) (out : Signal ℝ) :
    Staged (toComplex step) h c count (entry out)
      (entry (groups step (count * (2 * h)) (2 * h) fuel (c * (2 * h)) out)) := by
  induction fuel generalizing c out with
  | zero => exact ⟨fun _ _ _ => by omega, fun _ _ _ => by omega, fun _ _ => rfl⟩
  | succ fuel ih =>
    unfold groups
    by_cases hlt : c < count
    · rw [if_pos (Nat.mul_lt_mul_of_pos_right hlt (by omega)), show c * (2 * h) + 2 * h =
        (c + 1) * (2 * h) by ring, Nat.mul_div_cancel_left h Nat.two_pos]
      obtain ⟨ht, -⟩ := pairs_spec step h (c * (2 * h)) out (Nat.le_refl h)
      have hs := ih (c := c + 1) (by omega) (pairs step (2 * h) (c * (2 * h)) out h).1
      generalize (pairs step (2 * h) (c * (2 * h)) out h).1 = out' at ht hs
      have hlow : ∀ p < 2 * h, c * (2 * h) + p < (c + 1) * (2 * h) := fun p hp => by
        rw [Nat.add_mul, Nat.one_mul]
        omega
      have hnext : ∀ g, c + 1 ≤ g → ∀ p, entry out' (g * (2 * h) + p) =
          entry out (g * (2 * h) + p) := by
        intro g hg p
        refine ht.rest _ fun q hq => ?_
        have := Nat.mul_le_mul_right (2 * h) hg
        have := hlow (q + h) (by omega)
        omega
      refine ⟨fun g hg hgc p hp => ?_, fun g hg hgc p hp => ?_, fun i hi => ?_⟩
      · rcases Nat.eq_or_lt_of_le hg with rfl | hg
        · rw [hs.rest _ (.inl (hlow p (by omega)))]
          exact ht.plus p hp
        · rw [hs.plus g hg hgc p hp, hnext g hg, Nat.add_assoc, hnext g hg]
      · rcases Nat.eq_or_lt_of_le hg with rfl | hg
        · rw [hs.rest _ (.inl (by rw [Nat.add_assoc]; exact hlow (p + h) (by omega)))]
          exact ht.minus p hp
        · rw [hs.minus g hg hgc p hp, hnext g hg, Nat.add_assoc, hnext g hg]
      · have hcount : (c + 1) * (2 * h) ≤ count * (2 * h) := Nat.mul_le_mul_right _ hlt
        rw [hs.rest i (by rw [Nat.add_mul]; omega)]
        refine ht.rest i fun p hp => ?_
        have := hlow (p + h) (by omega)
        omega
    · rw [if_neg (by
        have := Nat.mul_le_mul_right (2 * h) (Nat.le_of_not_lt hlt)
        omega)]
      exact ⟨fun _ _ _ => by omega, fun _ _ _ => by omega, fun _ _ => rfl⟩

-- ---------------------------------------------------------------------------
-- Roots of unity
-- ---------------------------------------------------------------------------

/-- `cosf` and `sinf` of a stage's angle, exactly. -/
noncomputable def exactTwiddle (stage : Nat) : ℝ × ℝ :=
  (Real.cos (-2 * Real.pi / stage), Real.sin (-2 * Real.pi / stage))

noncomputable def root (n : Nat) : ℂ := Complex.exp (-2 * Real.pi / n * Complex.I)

theorem toComplex_exactTwiddle (n : Nat) : toComplex (exactTwiddle n) = root n := by
  unfold root
  have harg : (-2 * Real.pi / n * Complex.I : ℂ) = ((-2 * Real.pi / n : ℝ) : ℂ) * Complex.I := by
    push_cast
    rfl
  rw [harg]
  exact Complex.ext (Complex.exp_ofReal_mul_I_re _).symm (Complex.exp_ofReal_mul_I_im _).symm

theorem root_sq (n : Nat) : root (2 * n) ^ 2 = root n := by
  unfold root
  rw [← Complex.exp_nat_mul]
  congr 1
  push_cast
  by_cases hn : (n : ℂ) = 0
  · simp [hn]
  · field_simp

theorem root_pow_half {n : Nat} (hn : 0 < n) : root (2 * n) ^ n = -1 := by
  unfold root
  rw [← Complex.exp_nat_mul]
  have hne : (n : ℂ) ≠ 0 := Nat.cast_ne_zero.mpr hn.ne'
  have harg : (n : ℂ) * (-2 * Real.pi / (2 * n : Nat) * Complex.I) = -(Real.pi * Complex.I) := by
    push_cast
    field_simp
  rw [harg, Complex.exp_neg, Complex.exp_pi_mul_I]
  norm_num

-- ---------------------------------------------------------------------------
-- Blocks
-- ---------------------------------------------------------------------------

/-- `2 ^ r` blocks of length `2 ^ s`: each is the transform of every `2 ^ r`-th entry. -/
def Blocks (x : Nat → ℂ) (r s : Nat) (y : Nat → ℂ) : Prop :=
  ∀ g < 2 ^ r, ∀ k < 2 ^ s,
    y (g * 2 ^ s + k) = dft (root (2 ^ s)) (2 ^ s) (fun j => x (reverseBits r g + j * 2 ^ r)) k

theorem Blocks.stage {x y z : Nat → ℂ} {r s : Nat} (hb : Blocks x (r + 1) s y)
    (hz : Staged (root (2 * 2 ^ s)) (2 ^ s) 0 (2 ^ r) y z) : Blocks x r (s + 1) z := by
  intro g hg k hk
  have heven := hb (2 * g) (by rw [Nat.pow_succ]; omega)
  have hodd := hb (2 * g + 1) (by rw [Nat.pow_succ]; omega)
  rw [reverseBits_even] at heven
  rw [reverseBits_odd] at hodd
  have hx : ∀ k, dft (root (2 ^ s)) (2 ^ s)
      (fun j => x (reverseBits r g + j * 2 ^ (r + 1))) k =
      dft (root (2 * 2 ^ s) ^ 2) (2 ^ s) (fun j => x (reverseBits r g + 2 * j * 2 ^ r)) k := by
    intro k
    rw [root_sq]
    refine dft_congr (fun j _ => ?_) k
    rw [show j * 2 ^ (r + 1) = 2 * j * 2 ^ r by ring]
  have hx' : ∀ k, dft (root (2 ^ s)) (2 ^ s)
      (fun j => x (2 ^ r + reverseBits r g + j * 2 ^ (r + 1))) k =
      dft (root (2 * 2 ^ s) ^ 2) (2 ^ s)
        (fun j => x (reverseBits r g + (2 * j + 1) * 2 ^ r)) k := by
    intro k
    rw [root_sq]
    refine dft_congr (fun j _ => ?_) k
    rw [show 2 ^ r + reverseBits r g + j * 2 ^ (r + 1) =
      reverseBits r g + (2 * j + 1) * 2 ^ r by ring]
  rw [show 2 ^ (s + 1) = 2 * 2 ^ s by ring] at hk ⊢
  by_cases hlow : k < 2 ^ s
  · rw [hz.plus g (Nat.zero_le g) hg k hlow, dft_two_mul, ← hx, ← hx', ← heven k hlow,
      ← hodd k hlow, show g * (2 * 2 ^ s) + k = 2 * g * 2 ^ s + k by ring,
      show 2 * g * 2 ^ s + k + 2 ^ s = (2 * g + 1) * 2 ^ s + k by ring]
    ring
  · obtain ⟨p, rfl⟩ : ∃ p, k = p + 2 ^ s := ⟨k - 2 ^ s, by omega⟩
    have hp : p < 2 ^ s := by omega
    rw [← Nat.add_assoc, hz.minus g (Nat.zero_le g) hg p hp,
      dft_two_mul_add (root_pow_half (Nat.two_pow_pos s)), ← hx, ← hx', ← heven p hp,
      ← hodd p hp, show g * (2 * 2 ^ s) + p = 2 * g * 2 ^ s + p by ring,
      show 2 * g * 2 ^ s + p + 2 ^ s = (2 * g + 1) * 2 ^ s + p by ring]
    ring

theorem stages_spec (x : Nat → ℂ) (r s : Nat) {fuel : Nat} (hf : r ≤ fuel) (out : Signal ℝ)
    (hb : Blocks x r s (entry out)) :
    let out' := stages exactTwiddle (2 ^ (r + s)) fuel (2 ^ (s + 1)) out
    Blocks x 0 (r + s) (entry out') ∧ ∀ i, 2 ^ (r + s) ≤ i → entry out' i = entry out i := by
  induction r generalizing s fuel out with
  | zero =>
    have hstop : ¬2 ^ (s + 1) ≤ 2 ^ (0 + s) := by
      rw [Nat.zero_add, Nat.pow_succ]
      have := Nat.two_pow_pos s
      omega
    have hsame : stages exactTwiddle (2 ^ (0 + s)) fuel (2 ^ (s + 1)) out = out := by
      cases fuel with
      | zero => rfl
      | succ fuel => rw [stages, if_neg hstop]
    dsimp only
    rw [hsame, Nat.zero_add]
    exact ⟨hb, fun _ _ => rfl⟩
  | succ r ih =>
    obtain ⟨f, rfl⟩ : ∃ f, fuel = f + 1 := ⟨fuel - 1, by omega⟩
    have hlen : 2 ^ (r + 1 + s) = 2 ^ r * (2 * 2 ^ s) := by ring
    have hgo : 2 ^ (s + 1) ≤ 2 ^ (r + 1 + s) := Nat.pow_le_pow_right Nat.two_pos (by omega)
    have hfuel : 2 ^ r ≤ 0 + 2 ^ (r + 1 + s) := by
      rw [Nat.zero_add]
      exact Nat.pow_le_pow_right Nat.two_pos (by omega)
    have hstaged := groups_spec (exactTwiddle (2 * 2 ^ s)) (Nat.two_pow_pos s) hfuel out
    rw [toComplex_exactTwiddle, Nat.zero_mul, ← hlen] at hstaged
    have h := ih (s + 1) (Nat.le_of_succ_le_succ hf) _ (hb.stage hstaged)
    dsimp only at h ⊢
    rw [stages, if_pos hgo, Nat.shiftLeft_eq, Nat.pow_one, ← Nat.pow_succ]
    rw [show r + (s + 1) = r + 1 + s by omega] at h
    rw [show 2 ^ (s + 1) = 2 * 2 ^ s by ring]
    refine ⟨h.1, fun i hi => (h.2 i hi).trans (hstaged.rest i (.inr ?_))⟩
    rw [← hlen]
    exact hi

-- ---------------------------------------------------------------------------
-- The transform
-- ---------------------------------------------------------------------------

/-- The lengths that are transformed. -/
def FftLength (len : Nat) : Prop := 2 ≤ len ∧ len ≤ fftMaxLen ∧ ∃ k, len = 2 ^ k

theorem isPow2_iff {x : Nat} (hx : x ≠ 0) : isPow2 x = true ↔ ∃ k, x = 2 ^ k := by
  unfold isPow2
  rw [Bool.and_eq_true, decide_eq_true_iff, beq_iff_eq, and_iff_right hx]
  exact Nat.and_sub_one_eq_zero_iff_isPowerOfTwo hx

theorem fftLength_iff : FftLength len ↔
    ¬(len < 2 ∨ fftMaxLen < len ∨ isPow2 len = false) := by
  by_cases h : len = 0
  · subst h
    simp [FftLength]
  · unfold FftLength
    rw [← isPow2_iff h]
    cases isPow2 len with
    | false => simp
    | true =>
      simp only [Bool.true_eq_false, or_false, and_true]
      omega

/-- In exact arithmetic the transform of a length that is a power of two from 2 to 1024 is
the discrete Fourier transform of the input, in place or not; nothing behind it changes. Any
other length is refused. -/
theorem fft_is_dft (inp : Signal ℝ) (out : Option (Signal ℝ)) (len : Nat) :
    (FftLength len → ∃ res, softFftF32 exactTwiddle inp out len = .ok res ∧
      (∀ k < len, entry res k =
        dft (Complex.exp (-2 * Real.pi / len * Complex.I)) len (entry inp) k) ∧
      ∀ i, 2 * len ≤ i → res i = out.getD inp i) ∧
    (¬FftLength len → softFftF32 exactTwiddle inp out len = .error .einval) := by
  constructor
  · intro hlen
    obtain ⟨-, -, k, rfl⟩ := id hlen
    have hcopy : ∀ i, copyIn inp (2 ^ k) out i =
        if i < 2 * 2 ^ k then inp i else out.getD inp i := by
      intro i
      cases out with
      | none => simp [copyIn]
      | some out => rfl
    have hin : ∀ i < 2 ^ k, entry (copyIn inp (2 ^ k) out) i = entry inp i := by
      intro i hi
      unfold entry
      rw [hcopy, hcopy, if_pos (by omega), if_pos (by omega)]
    have hb : Blocks (entry inp) k 0
        (entry (permute (2 ^ k) (copyIn inp (2 ^ k) out) (2 ^ k)).1) := by
      intro g hg j hj
      obtain rfl : j = 0 := by simpa using hj
      rw [Nat.pow_zero, Nat.mul_one, Nat.add_zero, dft_one, Nat.zero_mul, Nat.add_zero,
        entry_permute, if_pos hg, hin _ (reverseBits_lt k g)]
    have h := stages_spec (entry inp) k 0 (Nat.lt_two_pow_self (n := k)).le _ hb
    dsimp only at h
    rw [Nat.add_zero, Nat.zero_add, Nat.pow_one] at h
    obtain ⟨hdft, hrest⟩ := h
    refine ⟨_, by rw [softFftF32, if_neg (fftLength_iff.mp hlen)], fun i hi => ?_, fun i hi => ?_⟩
    · have := hdft 0 (Nat.two_pow_pos 0) i hi
      rw [Nat.zero_mul, Nat.zero_add] at this
      rw [this]
      simp only [reverseBits, Nat.zero_add, Nat.pow_zero, Nat.mul_one]
      rfl
    · rw [eq_of_entry (hrest (i / 2) (by omega)), eq_of_entry ((entry_permute k _ _).trans
        (if_neg (by omega))), hcopy, if_neg (by omega)]
  · intro h
    rw [softFftF32, if_pos (not_not.mp fun hn => h (fftLength_iff.mpr hn))]

end SynapticOS.Dsp
