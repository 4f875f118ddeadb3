import SynapticOS.FlashPort
import Mathlib.Logic.Function.Basic

/-!
# Software DSP kernels

The radix-2 transform and the Q15 product of `syn_dsp_soft.c`. The transform is over any
kind of numbers: a signal is an array of `float` with real and imaginary parts interleaved,
entry `i` at `2 * i` and `2 * i + 1`, and the cosine and the sine of a stage's angle are a
parameter.
-/

namespace SynapticOS.Dsp

open Lib

abbrev Signal (K : Type) := Nat → K

def fftMaxLen : Nat := 1024

def isPow2 (x : Nat) : Bool := x ≠ 0 && x &&& (x - 1) == 0

-- ---------------------------------------------------------------------------
-- Bit reversal
-- ---------------------------------------------------------------------------

/-- The exchange of two entries through `tr` and `ti`. -/
def exchange (out : Signal K) (i j : Nat) : Signal K :=
  let tr := out (2 * i)
  let ti := out (2 * i + 1)
  let out₁ := Function.update out (2 * i) (out (2 * j))
  let out₂ := Function.update out₁ (2 * i + 1) (out₁ (2 * j + 1))
  let out₃ := Function.update out₂ (2 * j) tr
  Function.update out₃ (2 * j + 1) ti

/-- The loop over the set bits of `j` from `bit` down. -/
def clearBits : Nat → Nat → Nat → Nat × Nat
  | 0, j, bit => (j, bit)
  | fuel + 1, j, bit =>
    if j &&& bit ≠ 0 then clearBits fuel (j ^^^ bit) (bit >>> 1) else (j, bit)

/-- The index after `j`, in reversed order. -/
def nextReversed (len j : Nat) : Nat :=
  let (j, bit) := clearBits len j (len >>> 1)
  j ||| bit

/-- The signal and `j` after the rounds before `i`. -/
def permute (len : Nat) (out : Signal K) : Nat → Signal K × Nat
  | 0 => (out, 0)
  | i + 1 =>
    let (out, j) := permute len out i
    (if i < j then exchange out i j else out, nextReversed len j)

-- ---------------------------------------------------------------------------
-- Butterflies
-- ---------------------------------------------------------------------------

section
variable {K : Type} [Add K] [Sub K] [Mul K] [Zero K] [One K]

def butterfly (out : Signal K) (top bot : Nat) (w : K × K) : Signal K :=
  let br := out (2 * bot) * w.1 - out (2 * bot + 1) * w.2
  let bi := out (2 * bot) * w.2 + out (2 * bot + 1) * w.1
  let out₁ := Function.update out (2 * bot) (out (2 * top) - br)
  let out₂ := Function.update out₁ (2 * bot + 1) (out₁ (2 * top + 1) - bi)
  let out₃ := Function.update out₂ (2 * top) (out₂ (2 * top) + br)
  Function.update out₃ (2 * top + 1) (out₃ (2 * top + 1) + bi)

/-- `wr` and `wi` after one more pair. -/
def turn (w step : K × K) : K × K := (w.1 * step.1 - w.2 * step.2, w.1 * step.2 + w.2 * step.1)

/-- The pairs of a group before `pair`. -/
def pairs (step : K × K) (stage group : Nat) (out : Signal K) : Nat → Signal K × (K × K)
  | 0 => (out, (1, 0))
  | pair + 1 =>
    let (out, w) := pairs step stage group out pair
    let top := group + pair
    (butterfly out top (top + stage / 2) w, turn w step)

def groups (step : K × K) (len stage : Nat) : Nat → Nat → Signal K → Signal K
  | 0, _, out => out
  | fuel + 1, group, out =>
    if group < len then
      groups step len stage fuel (group + stage) (pairs step stage group out (stage / 2)).1
    else out

def stages (twiddle : Nat → K × K) (len : Nat) : Nat → Nat → Signal K → Signal K
  | 0, _, out => out
  | fuel + 1, stage, out =>
    if stage ≤ len then
      stages twiddle len fuel (stage <<< 1) (groups (twiddle stage) len stage len 0 out)
    else out

/-- `memcpy`, where the output is an array of its own. -/
def copyIn (inp : Signal K) (len : Nat) : Option (Signal K) → Signal K
  | none => inp
  | some out => fun i => if i < 2 * len then inp i else out i

/-- `syn_dsp_soft_fft_f32`, with no array of its own for the output where it is in place. -/
def softFftF32 (twiddle : Nat → K × K) (inp : Signal K) (out : Option (Signal K)) (len : Nat) :
    Except Errno (Signal K) :=
  if len < 2 ∨ fftMaxLen < len ∨ isPow2 len = false then .error .einval
  else .ok (stages twiddle len len 2 (permute len (copyIn inp len out) len).1)

end

-- ---------------------------------------------------------------------------
-- Q15 matrix-vector product
-- ---------------------------------------------------------------------------

/-- The sum of the first products of row `r`. -/
def rowSum (a b : Nat → Int16) (cols r : UInt16) : Nat → Int64
  | 0 => 0
  | c + 1 =>
    let at_ := r.toUInt32 * cols.toUInt32 + UInt32.ofNat c
    rowSum a b cols r c + ((a at_.toNat).toInt32 * (b c).toInt32).toInt64

def saturate (acc : Int64) : Int16 :=
  let acc := acc >>> 15
  if acc > 32767 then 32767
  else if acc < -32768 then -32768
  else acc.toInt16

/-- The rows before `r`. -/
def matRows (a b out : Nat → Int16) (cols : UInt16) : Nat → Nat → Int16
  | 0 => out
  | r + 1 => Function.update (matRows a b out cols r) r
    (saturate (rowSum a b cols (UInt16.ofNat r) cols.toNat))

/-- `syn_dsp_soft_mat_mult_q15`, with `out` an array of its own. -/
def softMatMultQ15 (a b out : Nat → Int16) (rows cols : UInt16) : Except Errno (Nat → Int16) :=
  if rows = 0 ∨ cols = 0 then .error .einval else .ok (matRows a b out cols rows.toNat)

end SynapticOS.Dsp
