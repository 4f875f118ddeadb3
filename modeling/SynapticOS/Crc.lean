import Mathlib.Algebra.Group.Nat.Defs
import Mathlib.Tactic.Common

/-!
# CRC-32 (IEEE)

The kernel's `crc32_ieee_update`: reflected polynomial `0xEDB88320`, the
register complemented on entry and exit, so that calls on consecutive pieces
compose.
-/

namespace SynapticOS

namespace Crc

def poly : Nat := 0xEDB88320
def mask : Nat := 0xFFFFFFFF

def bit (c : Nat) : Nat := (c / 2) ^^^ (poly * (c % 2))

def byte (c : Nat) (b : UInt8) : Nat := Nat.repeat bit 8 (c ^^^ b.toNat)

/-- The complemented register after `data`. -/
def fold (c : Nat) (data : List UInt8) : Nat := data.foldl byte (c ^^^ mask) ^^^ mask

theorem bit_lt (h : c < 2 ^ 32) : bit c < 2 ^ 32 := by
  refine Nat.xor_lt_two_pow (by omega) ?_
  rcases Nat.mod_two_eq_zero_or_one c with h | h <;> rw [h] <;> decide

theorem byte_lt (h : c < 2 ^ 32) (b : UInt8) : byte c b < 2 ^ 32 := by
  have hb : c ^^^ b.toNat < 2 ^ 32 := Nat.xor_lt_two_pow h (by have := b.toNat_lt; omega)
  have hr : ∀ n, Nat.repeat bit n (c ^^^ b.toNat) < 2 ^ 32 := by
    intro n
    induction n with
    | zero => exact hb
    | succ n ih => exact bit_lt ih
  exact hr 8

theorem foldl_lt (h : c < 2 ^ 32) (data : List UInt8) : data.foldl byte c < 2 ^ 32 := by
  induction data generalizing c with
  | nil => exact h
  | cons b bs ih => exact ih (byte_lt h b)

theorem fold_lt (h : c < 2 ^ 32) (data : List UInt8) : fold c data < 2 ^ 32 :=
  Nat.xor_lt_two_pow (foldl_lt (Nat.xor_lt_two_pow h (by decide)) data) (by decide)

theorem fold_append (c : Nat) (a b : List UInt8) : fold c (a ++ b) = fold (fold c a) b := by
  rw [fold, fold, fold, List.foldl_append, Nat.xor_assoc, Nat.xor_self, Nat.xor_zero]

end Crc

@[irreducible] def crc32IeeeUpdate (crc : UInt32) (data : List UInt8) : UInt32 :=
  UInt32.ofNat (Crc.fold crc.toNat data)

def crc32Ieee (data : List UInt8) : UInt32 := crc32IeeeUpdate 0 data

theorem crc32IeeeUpdate_append (crc : UInt32) (a b : List UInt8) :
    crc32IeeeUpdate crc (a ++ b) = crc32IeeeUpdate (crc32IeeeUpdate crc a) b := by
  have h : Crc.fold crc.toNat a < 2 ^ 32 := Crc.fold_lt crc.toNat_lt a
  simp only [crc32IeeeUpdate, Crc.fold_append]
  rw [UInt32.toNat_ofNat_of_lt' h]

@[simp] theorem crc32IeeeUpdate_nil (crc : UInt32) : crc32IeeeUpdate crc [] = crc := by
  rw [crc32IeeeUpdate, Crc.fold, List.foldl_nil, Nat.xor_assoc, Nat.xor_self, Nat.xor_zero,
    UInt32.ofNat_toNat]

/-- The check value of the CRC catalogue. -/
example : crc32Ieee [0x31, 0x32, 0x33, 0x34, 0x35, 0x36, 0x37, 0x38, 0x39] = 0xCBF43926 := by
  decide +kernel

end SynapticOS
