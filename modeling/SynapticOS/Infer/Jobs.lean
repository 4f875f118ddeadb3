import Mathlib.Algebra.Group.Nat.Defs
import Mathlib.Data.List.FinRange
import Mathlib.Tactic.Common

/-!
# The job table

What the scheduler thread and the calls see of a job, how they look for one, and
which of two goes first. Both models of the scheduler go by it.
-/

namespace SynapticOS.Infer

abbrev maxPipelines : Nat := 4

/-- Return codes: zero or a negative errno, of any value for stage functions. -/
abbrev Ret := Int

def einprogress : Ret := -119

inductive JobState
  | free | queued | running | suspended | done | error | cancelled
  deriving DecidableEq, Repr

def JobState.active : JobState → Bool
  | .queued | .running | .suspended => true
  | _ => false

structure Params where
  priority : Nat
  deadlineUs : Nat
  preemptible : Bool
  deriving DecidableEq, Repr

structure Entry where
  id : Nat
  state : JobState
  pipe : Fin maxPipelines
  params : Params
  result : Ret
  seq : Nat
  deadlineAt : Option Nat
  resuming : Bool
  deriving DecidableEq, Repr

def Entry.free : Entry :=
  { id := 0, state := .free, pipe := 0, params := ⟨0, 0, false⟩, result := 0, seq := 0
    deadlineAt := none, resuming := false }

/-- What a submission at `now` makes of it. -/
def Entry.queued (id seq : Nat) (p : Fin maxPipelines) (params : Params) (now : Nat) : Entry :=
  { id := id, state := .queued, pipe := p, params := params, result := einprogress, seq := seq
    deadlineAt := if params.deadlineUs ≠ 0 then some (now + params.deadlineUs) else none
    resuming := false }

def Entry.runnable (e : Entry) : Bool := decide (e.state = .queued ∨ e.state = .suspended)

def nextJobId (n : Nat) : Nat := if (n + 1) % 2 ^ 32 = 0 then 1 else (n + 1) % 2 ^ 32

def jobBefore (a b : Entry) : Bool :=
  if a.params.priority ≠ b.params.priority then decide (b.params.priority < a.params.priority)
  else if a.deadlineAt ≠ b.deadlineAt then
    match a.deadlineAt, b.deadlineAt with
    | some x, some y => decide (x < y)
    | some _, none => true
    | none, _ => false
  else decide (a.seq < b.seq)

namespace Table

variable {n : Nat} (jobs : Fin n → Entry)

def better (best : Option (Fin n)) (j : Fin n) : Option (Fin n) :=
  if (jobs j).runnable then
    match best with
    | none => some j
    | some b => if jobBefore (jobs j) (jobs b) then some j else some b
  else best

def pickNextJob : Option (Fin n) := (List.finRange n).foldl (better jobs) none

def findJob (id : Nat) : Option (Fin n) :=
  if id = 0 then none
  else (List.finRange n).find? fun j => decide ((jobs j).state ≠ .free) && decide ((jobs j).id = id)

/-- The slot a submission gets, if it is let in. -/
def freeJob (maxConcurrent : Nat) : Option (Fin n) :=
  if (List.finRange n).countP (fun j => (jobs j).state.active) ≥ maxConcurrent then none
  else (List.finRange n).find? fun j => decide ((jobs j).state = .free)

variable {jobs} {best : Option (Fin n)} {j b : Fin n}

theorem findJob_id {id : Nat} (h : findJob jobs id = some j) :
    (jobs j).state ≠ .free ∧ (jobs j).id = id := by
  unfold findJob at h
  split at h
  · cases h
  · have := List.find?_some h
    simpa using this

theorem freeJob_free {maxConcurrent : Nat} (h : freeJob jobs maxConcurrent = some j) :
    (jobs j).state = .free := by
  unfold freeJob at h
  split at h
  · cases h
  · have := List.find?_some h
    simpa using this

theorem better_none (h : better jobs best j = none) : best = none ∧ (jobs j).runnable = false := by
  unfold better at h
  split at h
  · split at h
    · cases h
    · split at h <;> cases h
  · rename_i hr
    exact ⟨h, by simpa using hr⟩

/-- There is a job to run, or there is none waiting. -/
theorem pickNextJob_none (h : pickNextJob jobs = none) (j : Fin n) : (jobs j).runnable = false := by
  have hfold : ∀ (l : List (Fin n)) (best : Option (Fin n)),
      l.foldl (better jobs) best = none → best = none ∧ ∀ i ∈ l, (jobs i).runnable = false := by
    intro l
    induction l with
    | nil => exact fun best hb => ⟨hb, fun i hi => (nomatch hi)⟩
    | cons x rest ih =>
      intro best hb
      obtain ⟨hx, hrest⟩ := ih _ hb
      obtain ⟨hbest, hr⟩ := better_none hx
      refine ⟨hbest, fun i hi => ?_⟩
      rcases List.mem_cons.mp hi with rfl | hi
      · exact hr
      · exact hrest i hi
  exact (hfold _ none h).2 j (List.mem_finRange j)

theorem better_runnable (h : better jobs best j = some b) :
    (jobs b).runnable = true ∨ best = some b := by
  unfold better at h
  split at h
  · rename_i hr
    split at h
    · cases h
      exact .inl hr
    · split at h
      · cases h
        exact .inl hr
      · exact .inr h
  · exact .inr h

theorem pickNextJob_runnable (h : pickNextJob jobs = some j) : (jobs j).runnable = true := by
  have hfold : ∀ (l : List (Fin n)) (best : Option (Fin n)),
      (∀ b, best = some b → (jobs b).runnable = true) →
      ∀ b, l.foldl (better jobs) best = some b → (jobs b).runnable = true := by
    intro l
    induction l with
    | nil => exact fun _ hb => hb
    | cons x rest ih =>
      refine fun best hb => ih _ fun b h => ?_
      rcases better_runnable h with h | h
      · exact h
      · exact hb b h
  exact hfold _ none (fun _ h => nomatch h) j h

end Table

end SynapticOS.Infer
