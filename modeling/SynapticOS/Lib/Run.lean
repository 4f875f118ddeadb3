import Mathlib.Data.List.Basic

/-!
# Runs

A run feeds a list of inputs to a step function. `Along C` says that every step
of a run is taken where `C` allows it; an invariant kept by the allowed steps
holds at the end, and so in every state passed.
-/

namespace Lib

variable {σ ι : Type}

def run (step : σ → ι → σ) (s : σ) (l : List ι) : σ := l.foldl step s

/-- Every step of the run meets `C` in the state it is taken from. -/
inductive Along (step : σ → ι → σ) (C : σ → ι → Prop) : σ → List ι → Prop
  | nil {s : σ} : Along step C s []
  | cons {s : σ} {i : ι} {l : List ι} (h : C s i) (t : Along step C (step s i) l) :
    Along step C s (i :: l)

variable {step : σ → ι → σ} {C D : σ → ι → Prop} {I : σ → Prop} {s : σ} {l l' : List ι}

@[simp] theorem run_nil : run step s [] = s := rfl
@[simp] theorem run_cons : run step s (i :: l) = run step (step s i) l := rfl

theorem run_append : run step s (l ++ l') = run step (run step s l) l' := List.foldl_append

/-- An invariant of the steps is one of the runs. -/
theorem run_invariant (l : List ι) (hi : I s) (hstep : ∀ s i, I s → I (step s i)) :
    I (run step s l) := by
  induction l generalizing s with
  | nil => exact hi
  | cons i l ih => exact ih (hstep s i hi)

namespace Along

theorem invariant (h : Along step C s l) (hi : I s) (hstep : ∀ s i, I s → C s i → I (step s i)) :
    I (run step s l) := by
  induction h with
  | nil => exact hi
  | cons hc _ ih => exact ih (hstep _ _ hi hc)

/-- Two runs that meet `C`, one after the other. -/
theorem append (h : Along step C s l) (h' : Along step C (run step s l) l') :
    Along step C s (l ++ l') := by
  induction h with
  | nil => exact h'
  | cons hc _ ih => exact .cons hc (ih h')

/-- The first part of a run is a run. -/
theorem left (h : Along step C s (l ++ l')) : Along step C s l := by
  induction l generalizing s with
  | nil => exact .nil
  | cons i l ih =>
    cases h with
    | cons hc t => exact .cons hc (ih t)

theorem right (h : Along step C s (l ++ l')) : Along step C (run step s l) l' := by
  induction l generalizing s with
  | nil => exact h
  | cons i l ih =>
    cases h with
    | cons hc t => exact ih t

theorem last (h : Along step C s (l ++ [i])) : C (run step s l) i := by
  cases h.right with
  | cons hc _ => exact hc

/-- Whether a given run meets `C` can be computed. -/
instance instDecidable [∀ s i, Decidable (C s i)] : (s : σ) → (l : List ι) → Decidable (Along step C s l)
  | _, [] => isTrue .nil
  | s, i :: l =>
    match inferInstanceAs (Decidable (C s i)), instDecidable (step s i) l with
    | isTrue hc, isTrue t => isTrue (.cons hc t)
    | isFalse hn, _ => isFalse fun | .cons hc _ => hn hc
    | _, isFalse hn => isFalse fun | .cons _ t => hn t

end Along

end Lib
