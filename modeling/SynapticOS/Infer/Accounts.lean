import SynapticOS.Infer.Order
import SynapticOS.Infer.Waiting
import Mathlib.Algebra.BigOperators.Group.Finset.Basic
import Mathlib.Algebra.BigOperators.Fin
import Mathlib.Algebra.Order.BigOperators.Group.Finset

/-!
# The scheduler's books

What the calls and the scheduler thread count and hand out, over `Sched`: the
counters of `syn_infer_stats_t`, the completion callbacks, and what `get_result`
returns. The counters are kept under the lock, so they agree with the job table
after every operation (`jobs_accounted`); a callback is called after its job's
result is there, from a snapshot.
-/

namespace SynapticOS.Infer

open Lib

variable {cfg : Cfg} {s s' : Sched cfg}

def enoent : Ret := -2
def ebusy : Ret := -16

/-- The counters of `syn_infer_stats_t`. -/
structure Stats where
  completed : UInt32
  errors : UInt32
  cancelled : UInt32
  deadlineMisses : UInt32
  preemptions : UInt32
  resumes : UInt32
  deriving DecidableEq, Repr

/-- An operation, with what it is given beyond the scheduler's own data. -/
structure Act (cfg : Cfg) where
  op : Op cfg
  /-- `params->callback`, for a submission. -/
  callback : Option Nat
  /-- Whether `get_result` has an output to write. -/
  output : Bool
  /-- `elapsed_us`, when a job ends. -/
  elapsed : Nat

/-- What the scheduler thread remembers of a job that is complete. -/
structure Report where
  ticket : Nat
  id : Nat
  callback : Option Nat
  /-- The callback gets the output. -/
  ok : Bool
  deriving DecidableEq, Repr

structure Books (cfg : Cfg) where
  sched : Sched cfg
  stats : Stats
  /-- `params.callback` of each submission. -/
  callback : Nat → Option Nat
  report : Option Report
  /-- The callbacks that were called. -/
  called : List Report
  /-- What `get_result` has returned for which id. -/
  delivered : List (Nat × Ret)
  /-- The jobs that have come to an end, and to which. -/
  endings : List (Nat × JobState)
  /-- How many were cancelled while they were suspended. -/
  cutShort : Nat

def Books.init (cfg : Cfg) : Books cfg :=
  { sched := .init cfg, stats := ⟨0, 0, 0, 0, 0, 0⟩, callback := fun _ => none, report := none
    called := [], delivered := [], endings := [], cutShort := 0 }

/-- Submissions that got a job. -/
def Books.accepted (b : Books cfg) : Nat := b.sched.tickets - cfg.jobs

-- ---------------------------------------------------------------------------
-- One operation
-- ---------------------------------------------------------------------------

/-- Which section on the job table an operation gets to. -/
inductive Deed (cfg : Cfg)
  | still
  | submit (j : Fin cfg.jobs)
  | cancel (j : Fin cfg.jobs)
  | destroy (p : Fin maxPipelines)
  | deliver (j : Fin cfg.jobs)
  | pick (j : Fin cfg.jobs)
  | settle (j : Fin cfg.jobs) (ret : Ret)
  deriving DecidableEq, Repr

def deed (s : Sched cfg) : Op cfg → Deed cfg
  | .submitLock t _ =>
    match s.threads t with
    | .submitting _ _ =>
      match freeJob s with
      | none => .still
      | some j => .submit j
    | _ => .still
  | .cancel id =>
    match findJob s id with
    | none => .still
    | some j => if (s.jobs j).runnable then .cancel j else .still
  | .destroyLock t =>
    match s.threads t with
    | .destroying p => .destroy p
    | _ => .still
  | .getResult id =>
    match findJob s id with
    | none => .still
    | some j => if (s.jobs j).state.ended then .deliver j else .still
  | .dispatch =>
    if s.pc = .waiting ∧ 0 < s.wakes ∧ s.paused = false then
      match pickNextJob s with
      | none => .still
      | some j => .pick j
    else .still
  | .schedule _ _ =>
    match s.pc with
    | .left j ret => .settle j ret
    | _ => .still
  | _ => .still

/-- How many jobs satisfy `q`. -/
def Sched.tally (s : Sched cfg) (q : JobState → Bool) : Nat := ∑ j, (q (s.jobs j).state).toNat

/-- How many jobs destroying pipeline `p` cancels. -/
def Sched.doomed (s : Sched cfg) (p : Fin maxPipelines) : Nat :=
  ∑ j, (decide ((s.jobs j).doomed p)).toNat

/-- The counters after a section. -/
def Stats.count (s : Sched cfg) (elapsed : Nat) (x : Stats) : Deed cfg → Stats
  | .cancel _ => { x with cancelled := x.cancelled + 1 }
  | .destroy p => { x with cancelled := x.cancelled + UInt32.ofNat (s.doomed p) }
  | .pick j => if (s.jobs j).state = .suspended then { x with resumes := x.resumes + 1 } else x
  | .settle j ret =>
    if ret = eintr then { x with preemptions := x.preemptions + 1 }
    else
      let x := if ret = 0 then { x with completed := x.completed + 1 }
        else { x with errors := x.errors + 1 }
      let due := (s.jobs j).params.deadlineUs
      if due ≠ 0 ∧ due < elapsed then { x with deadlineMisses := x.deadlineMisses + 1 } else x
  | _ => x

/-- What `syn_infer_get_result` returns. -/
def getResultRet (s : Sched cfg) (id : Nat) : Ret :=
  match findJob s id with
  | none => enoent
  | some j =>
    match (s.jobs j).state with
    | .done => 0
    | .error => (s.jobs j).result
    | .cancelled => ecanceled
    | _ => ebusy

/-- The jobs that an operation brings to an end. -/
def Sched.ends (s s' : Sched cfg) : List (Nat × JobState) :=
  (List.finRange cfg.jobs).filterMap fun j =>
    if (s'.jobs j).state.ended ∧ (s.jobs j).state ≠ (s'.jobs j).state then
      some ((s'.jobs j).ticket, (s'.jobs j).state)
    else none

/-- How many suspended jobs it cancels. -/
def Sched.cuts (s s' : Sched cfg) : Nat :=
  ∑ j, (decide ((s.jobs j).state = .suspended ∧ (s'.jobs j).state = .cancelled)).toNat

/-- The job's end as the scheduler thread takes it down, under the lock. -/
def Books.reportOf (b : Books cfg) (j : Fin cfg.jobs) (ret : Ret) : Report :=
  let job := b.sched.jobs j
  { ticket := job.ticket, id := job.id, callback := b.callback job.ticket, ok := decide (ret = 0) }

/-- The scheduler thread's local data, and the calls it makes. -/
def Books.tell (b : Books cfg) : Op cfg → Option Report × List Report
  | .schedule _ _ =>
    match b.sched.pc with
    | .left j ret => (if ret = eintr then b.report else some (b.reportOf j ret), b.called)
    | .reporting _ _ => (none, b.called ++ (b.report.filter (·.callback.isSome)).toList)
    | _ => (b.report, b.called)
  | _ => (b.report, b.called)

/-- A call that goes through. -/
def Books.enter (b : Books cfg) (a : Act cfg) : Books cfg :=
  let s := b.sched
  let s' := Infer.step s a.op
  { sched := s'
    stats := b.stats.count s a.elapsed (deed s a.op)
    callback := match deed s a.op with
      | .submit _ => Function.update b.callback s.tickets a.callback
      | _ => b.callback
    report := (b.tell a.op).1
    called := (b.tell a.op).2
    delivered := match a.op with
      | .getResult id => b.delivered ++ [(id, getResultRet s id)]
      | _ => b.delivered
    endings := b.endings ++ s.ends s'
    cutShort := b.cutShort + s.cuts s' }

/-- Without an output `get_result` returns `-EINVAL`, before the lock. -/
def Books.step (b : Books cfg) (a : Act cfg) : Books cfg :=
  match a.op, a.output with
  | .getResult _, false => b
  | _, _ => b.enter a

end SynapticOS.Infer
