import Mathlib.Algebra.NeZero

/-!
# Index types with numerals

The sizes of the index types whose members are written as numerals. The instances are
named, so that a numeral is one term in whatever module it stands.
-/

namespace Lib

instance neZero_one : @NeZero Nat Zero.ofOfNat0 1 := ⟨by decide⟩
instance neZero_two : @NeZero Nat Zero.ofOfNat0 2 := ⟨by decide⟩
instance neZero_four : @NeZero Nat Zero.ofOfNat0 4 := ⟨by decide⟩
instance neZero_five : @NeZero Nat Zero.ofOfNat0 5 := ⟨by decide⟩

end Lib
