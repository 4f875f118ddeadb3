import SynapticOS.Lib.Bytes

/-!
# Patches

Bytes put over others in a list that keeps its length.
-/

namespace Lib

variable {blob data : List UInt8} {off n len : Nat}

def patch (blob : List UInt8) (off : Nat) (data : List UInt8) : List UInt8 :=
  blob.take off ++ (data ++ blob.drop (off + data.length))

theorem length_patch (h : off + data.length ≤ blob.length) :
    (patch blob off data).length = blob.length := by
  simp only [patch, List.length_append, List.length_take, List.length_drop]
  omega

/-- The bytes that were put. -/
theorem slice_patch (h : off ≤ blob.length) : slice (patch blob off data) off data.length =
    data := by
  have hlen : (blob.take off).length = off := by simp [h]
  rw [patch, slice_right_zero hlen, slice_front rfl]

/-- The bytes before and behind them. -/
theorem slice_patch_of_le (h : off + data.length ≤ blob.length)
    (ha : n + len ≤ off ∨ off + data.length ≤ n) :
    slice (patch blob off data) n len = slice blob n len := by
  have hlen : (blob.take off).length = off := by simp; omega
  rcases ha with ha | ha
  · rw [patch, slice_left (by omega), slice_take _ ha]
  · obtain ⟨i, rfl⟩ := Nat.exists_eq_add_of_le ha
    rw [patch, Nat.add_assoc, slice_right hlen, slice_right rfl]
    unfold slice
    rw [List.drop_drop, Nat.add_assoc]

/-- What was there, and then the bytes that were put. -/
theorem take_patch (blob data : List UInt8) (h : off ≤ blob.length) :
    (patch blob off data).take (off + data.length) = blob.take off ++ data := by
  have hlen : (blob.take off).length = off := by simp [h]
  rw [patch, ← List.append_assoc]
  exact List.take_left' (by rw [List.length_append, hlen])

end Lib
