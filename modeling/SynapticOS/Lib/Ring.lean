import Mathlib.Data.List.Basic
import Mathlib.Logic.Function.Basic
import Mathlib.Data.Nat.ModEq

/-!
# Rings with wrapping counters

A ring has `N` slots and two counters modulo `M`; the counter `x` names slot
`x % N`. Counted from `c`, message `i` has the counter `(c + i) % M`. Where `N`
divides `M`, this names slot `(c + i) % N`, so that `N` messages in a row lie in
different slots, also across the wrap. `Keeps` says where the messages of a queue
lie, when `got` of them have been taken.
-/

namespace Lib.Ring

variable {α : Type} {N M c i j a b got : Nat} {slots : Nat → α} {sent : List α} {x : α}

-- ---------------------------------------------------------------------------
-- Counters
-- ---------------------------------------------------------------------------

theorem slot_of_dvd (h : N ∣ M) (x : Nat) : x % M % N = x % N := Nat.mod_mod_of_dvd x h

theorem count_next (c a M : Nat) : ((c + a) % M + 1) % M = (c + (a + 1)) % M := by
  rw [Nat.mod_add_mod, Nat.add_assoc]

/-- The difference of two counters, as unsigned arithmetic computes it. -/
theorem count_sub (hab : b ≤ a) (hM : a - b < M) :
    ((c + a) % M + M - (c + b) % M) % M = a - b := by
  have hpos : 0 < M := by omega
  have hlt : (c + b) % M < M := Nat.mod_lt _ hpos
  -- both counters split at the same multiple of `M`
  have hb : (c + b) = M * ((c + b) / M) + (c + b) % M := (Nat.div_add_mod _ _).symm
  have hca : c + a = M * ((c + b) / M) + ((c + b) % M + (a - b)) := by omega
  rw [hca, Nat.mul_add_mod]
  by_cases hw : (c + b) % M + (a - b) < M
  · rw [Nat.mod_eq_of_lt hw, show (c + b) % M + (a - b) + M - (c + b) % M = (a - b) + M by omega,
      Nat.add_mod_right, Nat.mod_eq_of_lt hM]
  · have hm : ((c + b) % M + (a - b)) % M = (c + b) % M + (a - b) - M := by
      rw [Nat.mod_eq_sub_mod (by omega), Nat.mod_eq_of_lt (by omega)]
    rw [hm, show (c + b) % M + (a - b) - M + M - (c + b) % M = a - b by omega,
      Nat.mod_eq_of_lt hM]

theorem count_eq (hab : b ≤ a) (hM : a - b < M) : (c + a) % M = (c + b) % M ↔ a = b := by
  constructor
  · intro h
    have := count_sub (c := c) hab hM
    have hpos : 0 < M := by omega
    have hlt : (c + b) % M < M := Nat.mod_lt _ hpos
    rw [h, show (c + b) % M + M - (c + b) % M = M by omega, Nat.mod_self] at this
    omega
  · rintro rfl
    rfl

/-- Fewer than `N` apart, two counters name different slots. -/
theorem slot_ne (hij : i < j) (hN : j < i + N) : (c + i) % N ≠ (c + j) % N := fun h => by
  have := (count_eq (c := c) (M := N) hij.le (by omega)).mp h.symm
  omega

-- ---------------------------------------------------------------------------
-- The messages
-- ---------------------------------------------------------------------------

/-- The messages from `got` on lie in their slots. -/
structure Keeps (N c : Nat) (slots : Nat → α) (sent : List α) (got : Nat) : Prop where
  le : got ≤ sent.length
  room : sent.length ≤ got + N
  slot : ∀ i x, got ≤ i → sent[i]? = some x → slots ((c + i) % N) = x

namespace Keeps

theorem empty (N c : Nat) (slots : Nat → α) : Keeps N c slots [] 0 :=
  ⟨le_refl _, Nat.zero_le _, fun i x _ h => by simp at h⟩

/-- The slot of the next message holds none. -/
theorem write (h : Keeps N c slots sent got) (hr : sent.length < got + N) (x : α) :
    Keeps N c (Function.update slots ((c + sent.length) % N) x) sent got := by
  refine ⟨h.le, h.room, fun i y hi hy => ?_⟩
  obtain ⟨hlt, -⟩ := List.getElem?_eq_some_iff.mp hy
  rw [Function.update_of_ne (slot_ne hlt (by omega))]
  exact h.slot i y hi hy

theorem push (h : Keeps N c slots sent got) (hr : sent.length < got + N)
    (hx : slots ((c + sent.length) % N) = x) : Keeps N c slots (sent ++ [x]) got := by
  have hle := h.le
  refine ⟨by simp; omega, by simp; omega, fun i y hi hy => ?_⟩
  rcases lt_or_ge i sent.length with hlt | hge
  · rw [List.getElem?_append_left hlt] at hy
    exact h.slot i y hi hy
  · rw [List.getElem?_append_right hge] at hy
    have hi' : i - sent.length = 0 := by
      by_contra hne
      rw [List.getElem?_eq_none (by simp; omega)] at hy
      cases hy
    obtain rfl : i = sent.length := by omega
    rw [Nat.sub_self] at hy
    cases hy
    exact hx

theorem pop (h : Keeps N c slots sent got) (hl : got < sent.length) :
    Keeps N c slots sent (got + 1) :=
  ⟨hl, by have := h.room; omega, fun i x hi => h.slot i x (by omega)⟩

end Keeps

end Lib.Ring
