import Mathlib.Tactic.Common

/-!
# Alternating copies

A value is kept in two copies. Every commit overwrites the spare copy with a
value one generation above the kept one, so that a scan which adopts the newest
readable copy finds the old value or the new one. A commit that reports a
failure may have landed all the same; its value then lies in the spare copy,
one generation ahead, until the next commit overwrites it or a scan adopts it.
-/

namespace Lib

/-- One of the two copies. -/
inductive Copy
  | zero
  | one
  deriving DecidableEq, Repr

namespace Copy

def other : Copy → Copy
  | zero => one
  | one => zero

@[simp] theorem other_other (c : Copy) : c.other.other = c := by cases c <;> rfl

theorem other_ne (c : Copy) : c.other ≠ c := by cases c <;> decide

theorem eq_or_other (c d : Copy) : d = c ∨ d = c.other := by cases c <;> cases d <;> decide

end Copy

section
variable {α : Type} (gen : α → Nat) {p q : Copy → Option α} {c t : Copy} {kept : Bool} {a b x : α}
variable {P : α → Prop}

/-- The newer of the readable copies, and the first one on a tie. -/
def adopt (p : Copy → Option α) : Option (Copy × α) :=
  match p .zero, p .one with
  | some a, some b => if gen a < gen b then some (.one, b) else some (.zero, a)
  | some a, none => some (.zero, a)
  | none, some b => some (.one, b)
  | none, none => none

/-- `t` is the spare copy. The other one holds the kept value `a`, if there is
one; the spare is older, or one generation ahead of `a`. -/
structure Tracks (p : Copy → Option α) (t : Copy) (kept : Bool) (a : α) : Prop where
  other : p t.other = if kept then some a else none
  spare : ∀ b, p t = some b → kept = true ∧ gen b < gen a ∨ gen b = gen a + 1

/-- What a commit of `b` into `t` can leave behind, whatever it reports. -/
structure Lands (p q : Copy → Option α) (t : Copy) (b : α) : Prop where
  other : q t.other = p t.other
  target : q t = p t ∨ q t = none ∨ q t = some b

/-- `P` holds of `a` and of every copy that is not older. -/
structure Guards (P : α → Prop) (p : Copy → Option α) (a : α) : Prop where
  base : P a
  copies : ∀ c x, p c = some x → gen a ≤ gen x → P x

variable {gen}

theorem adopt_none (h : adopt gen p = none) (c : Copy) : p c = none := by
  unfold adopt at h
  split at h
  · split at h <;> cases h
  · cases h
  · cases h
  · cases c <;> assumption

theorem adopt_some (h : adopt gen p = some (c, a)) :
    p c = some a ∧ ∀ b, p c.other = some b → gen b ≤ gen a := by
  unfold adopt at h
  split at h
  next x y hx hy =>
    split at h
    · cases h
      exact ⟨hy, fun b hb => by simp only [Copy.other, hx, Option.some.injEq] at hb; subst hb; omega⟩
    · cases h
      exact ⟨hx, fun b hb => by simp only [Copy.other, hy, Option.some.injEq] at hb; subst hb; omega⟩
  next x hx hy =>
    cases h
    exact ⟨hx, fun b hb => by simp [Copy.other, hy] at hb⟩
  next y hx hy =>
    cases h
    exact ⟨hy, fun b hb => by simp [Copy.other, hx] at hb⟩
  next => cases h

/-- A scan over copies of different generations finds the newest. -/
theorem adopt_of_newest (ha : p c = some a) (hb : ∀ b, p c.other = some b → gen b < gen a) :
    adopt gen p = some (c, a) := by
  cases c with
  | zero =>
    cases ho : p .one with
    | none => simp [adopt, ha, ho]
    | some b =>
      have := hb b ho
      simp only [adopt, ha, ho]
      rw [if_neg (by omega)]
  | one =>
    cases ho : p .zero with
    | none => simp [adopt, ha, ho]
    | some b =>
      have := hb b ho
      simp only [adopt, ha, ho]
      rw [if_pos this]

/-- A scan over headers finds the copy that a scan over the values finds. -/
theorem adopt_map {β : Type} {gen' : β → Nat} (f : Copy → α → β)
    (hf : ∀ c a, gen' (f c a) = gen a) :
    adopt gen' (fun c => (p c).map (f c)) = (adopt gen p).map fun x => (x.1, f x.1 x.2) := by
  unfold adopt
  cases h0 : p .zero <;> cases h1 : p .one <;>
    simp only [h0, h1, Option.map_none, Option.map_some, hf]
  split <;> rfl

namespace Tracks

/-- A commit that landed and was verified swaps the copies. -/
theorem commit (h : Tracks gen p t kept a) (hg : gen b = gen a + 1) (ho : q t.other = p t.other)
    (ht : q t = some b) : Tracks gen q t.other true b where
  other := by simpa using ht
  spare x hx := by
    rw [ho, h.other] at hx
    split at hx
    · cases hx
      exact .inl ⟨rfl, by omega⟩
    · cases hx

/-- A commit that reports a failure leaves the kept value where it was. -/
theorem abort (h : Tracks gen p t kept a) (hl : Lands p q t b) (hg : gen b = gen a + 1) :
    Tracks gen q t kept a where
  other := hl.other.trans h.other
  spare x hx := by
    rcases hl.target with ht | ht | ht
    · exact h.spare x (ht ▸ hx)
    · simp [ht] at hx
    · rw [ht] at hx
      cases hx
      exact .inr hg

/-- A scan finds the kept value, or the one a failed commit left ahead of it. -/
theorem adopt_cases (h : Tracks gen p t kept a) :
    (adopt gen p = if kept then some (t.other, a) else none) ∨
    ∃ b, p t = some b ∧ gen b = gen a + 1 ∧ adopt gen p = some (t, b) := by
  cases ht : p t with
  | none =>
    left
    cases kept with
    | true => exact adopt_of_newest (by simpa using h.other) fun b hb => by simp [ht] at hb
    | false =>
      have ho := h.other
      cases t <;> simp_all [adopt, Copy.other]
  | some b =>
    rcases h.spare b ht with ⟨hk, hlt⟩ | hg
    · left
      subst hk
      refine adopt_of_newest (by simpa using h.other) fun x hx => ?_
      rw [Copy.other_other, ht] at hx
      cases hx
      exact hlt
    · right
      refine ⟨b, rfl, hg, adopt_of_newest ht fun x hx => ?_⟩
      rw [h.other] at hx
      split at hx
      · cases hx
        omega
      · cases hx

/-- The copies of a tracked pair never share a generation. -/
theorem gen_ne (h : Tracks gen p t kept a) (ho : p t.other = some x) (ht : p t = some b) :
    gen x ≠ gen b := by
  rw [h.other] at ho
  split at ho
  · cases ho
    rcases h.spare b ht with ⟨-, hlt⟩ | hg <;> omega
  · cases ho

/-- After a scan the adopted copy is the kept one. -/
theorem of_adopt (h : adopt gen p = some (c, a))
    (hne : ∀ b, p c.other = some b → gen b ≠ gen a) : Tracks gen p c.other true a where
  other := by simpa using (adopt_some h).1
  spare b hb := by
    have h1 := (adopt_some h).2 b hb
    have h2 := hne b hb
    exact .inl ⟨rfl, by omega⟩

end Tracks

namespace Guards

theorem commit (h : Tracks gen p t kept a) (hg : gen b = gen a + 1) (ho : q t.other = p t.other)
    (ht : q t = some b) (hb : P b) : Guards gen P q b where
  base := hb
  copies c x hx hle := by
    rcases Copy.eq_or_other t c with rfl | rfl
    · rw [ht] at hx
      cases hx
      exact hb
    · rw [ho, h.other] at hx
      split at hx
      · cases hx
        omega
      · cases hx

theorem abort (h : Guards gen P p a) (hl : Lands p q t b) (hb : P b) : Guards gen P q a where
  base := h.base
  copies c x hx hle := by
    rcases Copy.eq_or_other t c with rfl | rfl
    · rcases hl.target with ht | ht | ht
      · exact h.copies _ x (ht ▸ hx) hle
      · simp [ht] at hx
      · rw [ht] at hx
        cases hx
        exact hb
    · exact h.copies _ x (hl.other ▸ hx) hle

theorem mono (h : Guards gen P p a) {Q : α → Prop} (hq : ∀ x, P x → Q x) : Guards gen Q p a where
  base := hq a h.base
  copies c x hx hle := hq x (h.copies c x hx hle)

/-- What the kept value says of the spare copy: it is older, or it is known. -/
theorem of_tracks (h : Tracks gen p t kept a) (ha : P a)
    (hb : ∀ b, p t = some b → gen b = gen a + 1 → P b) : Guards gen P p a where
  base := ha
  copies c x hx hle := by
    rcases Copy.eq_or_other t c with rfl | rfl
    · rcases h.spare x hx with ⟨-, hlt⟩ | hg
      · omega
      · exact hb x hx hg
    · rw [h.other] at hx
      split at hx
      · cases hx
        exact ha
      · cases hx

/-- What a scan has adopted is alone at its generation. -/
theorem of_adopt (h : Lib.adopt gen p = some (c, a)) (hne : ∀ b, p c.other = some b → gen b ≠ gen a)
    (ha : P a) : Guards gen P p a :=
  of_tracks (Tracks.of_adopt h hne) ha fun b hb hg => by
    have := (adopt_some h).2 b hb
    omega

theorem of_empty (h : ∀ c, p c = none) (ha : P a) : Guards gen P p a where
  base := ha
  copies c x hx := by simp [h c] at hx

theorem and (h : Guards gen P p a) {Q : α → Prop} (hq : Guards gen Q p a) :
    Guards gen (fun x => P x ∧ Q x) p a where
  base := ⟨h.base, hq.base⟩
  copies c x hx hle := ⟨h.copies c x hx hle, hq.copies c x hx hle⟩

/-- Whatever a scan adopts satisfies `P`. -/
theorem adopt (h : Guards gen P p a) (ht : Tracks gen p t kept a)
    (hx : Lib.adopt gen p = some (c, x)) : P x := by
  rcases ht.adopt_cases with ha | ⟨b, hb, hg, ha⟩
  · rw [ha] at hx
    split at hx
    · cases hx
      exact h.base
    · cases hx
  · rw [ha] at hx
    cases hx
    exact h.copies _ _ hb (by omega)

end Guards

end

end Lib
