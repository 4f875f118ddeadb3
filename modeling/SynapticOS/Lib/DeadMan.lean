import Mathlib.Algebra.Order.Monoid.Unbundled.Basic
import Mathlib.Data.List.Count

/-!
# Dead man's switches

A switch goes off unless it is wound in time. Its keeper looks whether everyone that signs of
life are due from is fresh, and may wind it after a look that found them so. Between the look
and the winding time passes, and the others go on.
-/

namespace Lib.DeadMan

/-- Times are of any ordered type. -/
structure Switch (ι T : Type) where
  /-- Until when each one is fresh; none: nothing is due from it. -/
  due : ι → Option T
  /-- The look that the keeper has not acted on yet, and whether everyone was fresh. -/
  look : Option (T × Bool)
  /-- When it was wound, the latest first. -/
  wound : List T

variable {ι T : Type} [LinearOrder T]

def Switch.Fresh (s : Switch ι T) (now : T) : Prop := ∀ i u, s.due i = some u → now ≤ u

inductive Step (now : T) (s : Switch ι T) : Switch ι T → Prop
  /-- A sign of life is good for a time from now on. -/
  | sign {due : ι → Option T} (h : ∀ i, due i = s.due i ∨ ∀ u, due i = some u → now ≤ u) :
    Step now s { s with due := due }
  | look {ok : Bool} (h : ok = true → s.Fresh now) : Step now s { s with look := some (now, ok) }
  | wind {t : T} (h : s.look = some (t, true)) :
    Step now s { s with look := none, wound := now :: s.wound }
  | pass : Step now s { s with look := none }

/-- A look is not ahead of the clock, and who was fresh then has been so ever since. -/
structure Switch.Sound (s : Switch ι T) (clock : T) : Prop where
  past : ∀ t ok, s.look = some (t, ok) → t ≤ clock
  fresh : ∀ t, s.look = some (t, true) → s.Fresh t

/-- The watch on one that gives no signs any more and was good until `u`. Once it is overdue
the switch is wound on a look from before, which happens once. -/
structure Switch.Starved [Add T] (s : Switch ι T) (i : ι) (u d : T) (before : List T)
    (clock : T) : Prop where
  due : s.due i = some u
  look : ∀ t, s.look = some (t, true) → t ≤ u
  wound : ∃ late, s.wound = late ++ before ∧ (∀ f ∈ late, f ≤ u + d) ∧
    (late.countP (u < ·) = 0 ∨
      late.countP (u < ·) = 1 ∧ u < clock ∧ ∀ t, s.look ≠ some (t, true))

variable {s s' : Switch ι T} {i : ι} {u d clock now : T} {before : List T}

theorem Step.sound (h : Step now s s') (hc : clock ≤ now) (hs : s.Sound clock) :
    s'.Sound now := by
  have hpast : ∀ t ok, s.look = some (t, ok) → t ≤ now := fun t ok ht => (hs.past t ok ht).trans hc
  cases h with
  | sign h =>
    refine ⟨hpast, fun t ht i u hu => ?_⟩
    rcases h i with hi | hi
    · exact hs.fresh t ht i u (hi ▸ hu)
    · exact (hpast t true ht).trans (hi u hu)
  | look h =>
    constructor
    · rintro t ok ⟨⟩
      exact le_refl now
    · rintro t ⟨⟩
      exact h rfl
  | wind | pass => exact ⟨by simp, by simp⟩

theorem Switch.Sound.starved [Add T] (hs : s.Sound clock) (hi : s.due i = some u) :
    s.Starved i u d s.wound clock :=
  ⟨hi, fun t ht => hs.fresh t ht i u hi, [], rfl, by simp, .inl rfl⟩

/-- The clock is right, nothing comes from `i`, and the keeper acts on a look within `d`. -/
theorem Step.starved [Add T] [AddRightMono T] (h : Step now s s') (hc : clock ≤ now)
    (hi : s'.due i = s.due i)
    (hd : ∀ t ok, s.look = some (t, ok) → s'.look = none → now ≤ t + d)
    (hs : s.Starved i u d before clock) : s'.Starved i u d before now := by
  obtain ⟨late, hw, hle, hcount⟩ := hs.wound
  refine ⟨hi.trans hs.due, ?_, ?_⟩
  · cases h with
    | sign => exact hs.look
    | wind | pass => simp
    | look h =>
      rintro t ⟨⟩
      exact h rfl i u hs.due
  · cases h with
    | sign => exact ⟨late, hw, hle, hcount.imp_right fun h => ⟨h.1, h.2.1.trans_le hc, h.2.2⟩⟩
    | pass =>
      exact ⟨late, hw, hle, hcount.imp_right fun h => ⟨h.1, h.2.1.trans_le hc, by simp⟩⟩
    | look h =>
      refine ⟨late, hw, hle, hcount.imp_right fun hone => ⟨hone.1, hone.2.1.trans_le hc, ?_⟩⟩
      rintro t ⟨⟩
      exact absurd (hone.2.1.trans_le hc) (not_lt.mpr (h rfl i u hs.due))
    | @wind t ht =>
      have htu := hs.look t ht
      have hnow : now ≤ u + d := (hd t true ht rfl).trans (add_le_add_left htu d)
      refine ⟨now :: late, by simp [hw], by simpa [hnow] using hle, ?_⟩
      -- the look is from before; there was none since it was overdue
      have hzero : late.countP (u < ·) = 0 := hcount.resolve_right fun h => h.2.2 t ht
      by_cases hu : u < now
      · exact .inr ⟨by simp [hzero, hu], hu, by simp⟩
      · exact .inl (by simp [hzero, hu])

end Lib.DeadMan
