import SynapticOS.Infer.Sched

/-!
# Dispatch, one semaphore operation at a time

`Sched` takes a locked section and the semaphore operations next to it as one
step. Here they are apart: a wakeup is taken before the lock and given after it,
the drain token is given on a snapshot of `dispatch_paused`, and a release
replays its deferred wakeups one by one. What is left of the system is what these
steps look at: the job table without its contexts, the two semaphores, the pause
and the residency gate. Where a thread is given, any caller can be that thread,
also a callback.
-/

namespace SynapticOS.Infer.Dispatch

/-- Where the scheduler thread is. -/
inductive Pc (cfg : Cfg)
  /-- At the wake semaphore. -/
  | waiting
  /-- Has taken a wakeup; at the lock. -/
  | awake
  /-- In `execute_pipeline`. -/
  | executing (j : Fin cfg.jobs)
  /-- The job is `SUSPENDED`. The drain token, if it is due, comes before the wakeup. -/
  | rested (drain : Bool)
  /-- The job is complete. The drain token, if it is due, comes before the callback. -/
  | reporting (j : Fin cfg.jobs) (drain : Bool)
  deriving DecidableEq, Repr

/-- Where a caller is. -/
inductive Call
  | idle
  /-- Its job is queued, the wakeup is not given yet. -/
  | submitted
  /-- Holds the residency gate; about to call quiesce. -/
  | gated
  /-- In quiesce, at the drain semaphore. -/
  | draining
  /-- Quiesce has returned. -/
  | quiesced
  /-- In release, past the lock, with `n` wakeups left to replay. -/
  | releasing (n : Nat)
  deriving DecidableEq, Repr

structure State (cfg : Cfg) where
  jobs : Fin cfg.jobs → Entry
  nextId : Nat
  nextSeq : Nat
  maxConcurrent : Nat
  paused : Bool
  jobRunning : Bool
  /-- A 32-bit counter. -/
  deferred : Nat
  /-- `sched_wake` and `drain_sem`. -/
  wakes : Nat
  drain : Bool
  pc : Pc cfg
  gate : Option (Fin cfg.threads)
  calls : Fin cfg.threads → Call

variable {cfg : Cfg}

def State.init (cfg : Cfg) : State cfg :=
  { jobs := fun _ => Entry.free, nextId := 1, nextSeq := 0, maxConcurrent := cfg.jobs
    paused := false, jobRunning := false, deferred := 0, wakes := 0, drain := false
    pc := .waiting, gate := none, calls := fun _ => .idle }

namespace State

def setJob (s : State cfg) (j : Fin cfg.jobs) (e : Entry) : State cfg :=
  { s with jobs := Function.update s.jobs j e }

def setCall (s : State cfg) (t : Fin cfg.threads) (c : Call) : State cfg :=
  { s with calls := Function.update s.calls t c }

def giveWake (s : State cfg) : State cfg := { s with wakes := min (s.wakes + 1) cfg.jobs }

end State

-- ---------------------------------------------------------------------------
-- The scheduler thread
-- ---------------------------------------------------------------------------

def pickNextJob (s : State cfg) : Option (Fin cfg.jobs) := Table.pickNextJob s.jobs

/-- Take a wakeup. -/
def wake (s : State cfg) : State cfg :=
  if s.pc = .waiting ∧ 0 < s.wakes then { s with wakes := s.wakes - 1, pc := .awake } else s

def dispatchJob (s : State cfg) (j : Fin cfg.jobs) : State cfg :=
  let e := s.jobs j
  { s.setJob j { e with state := .running, resuming := e.resuming || decide (e.state = .suspended) } with
    jobRunning := true, pc := .executing j }

/-- The locked section after the wakeup. -/
def look (s : State cfg) : State cfg :=
  match s.pc with
  | .awake =>
    if s.paused then { s with deferred := (s.deferred + 1) % 2 ^ 32, pc := .waiting }
    else
      match pickNextJob s with
      | none => { s with pc := .waiting }
      | some j => dispatchJob s j
  | _ => s

/-- The locked section after `execute_pipeline`, which has returned `ret`. -/
def settle (ret : Ret) (s : State cfg) : State cfg :=
  match s.pc with
  | .executing j =>
    if ret = eintr then
      { s.setJob j { s.jobs j with state := .suspended } with
        jobRunning := false, pc := .rested s.paused }
    else
      { s.setJob j { s.jobs j with result := ret, state := if ret = 0 then .done else .error } with
        jobRunning := false, pc := .reporting j s.paused }
  | _ => s

/-- The next of the semaphore operations after that section. -/
def proceed (s : State cfg) : State cfg :=
  match s.pc with
  | .rested true => { s with drain := true, pc := .rested false }
  | .rested false => { s.giveWake with pc := .waiting }
  | .reporting j true => { s with drain := true, pc := .reporting j false }
  | .reporting _ false => { s with pc := .waiting }
  | _ => s

-- ---------------------------------------------------------------------------
-- Quiesce and release
-- ---------------------------------------------------------------------------

/-- Take the residency gate. -/
def enter (t : Fin cfg.threads) (s : State cfg) : State cfg :=
  match s.calls t, s.gate with
  | .idle, none => { s.setCall t .gated with gate := some t }
  | _, _ => s

/-- The lock of `syn_infer_quiesce`. Resetting the semaphore sends away whoever
waits on it, and quiesce does not look at why its wait ended. -/
def quiesceLock (t : Fin cfg.threads) (s : State cfg) : State cfg :=
  let calls := fun i => if s.calls i = .draining then .quiesced else s.calls i
  { s with
    paused := true, drain := false
    calls := Function.update calls t (if s.jobRunning then .draining else .quiesced) }

/-- `syn_infer_quiesce`, by the holder of the gate or by a caller without it. -/
def quiesce (t : Fin cfg.threads) (s : State cfg) : State cfg :=
  match s.calls t with
  | .gated | .idle => quiesceLock t s
  | _ => s

/-- Take the drain token. -/
def drained (t : Fin cfg.threads) (s : State cfg) : State cfg :=
  match s.calls t with
  | .draining => if s.drain then { s.setCall t .quiesced with drain := false } else s
  | _ => s

/-- The lock of `syn_infer_release`. -/
def release (t : Fin cfg.threads) (s : State cfg) : State cfg :=
  match s.calls t with
  | .quiesced => { s.setCall t (.releasing s.deferred) with paused := false, deferred := 0 }
  | _ => s

/-- Replay a wakeup; the last one replayed, the call is over and its caller gives
the gate back. -/
def replay (t : Fin cfg.threads) (s : State cfg) : State cfg :=
  match s.calls t with
  | .releasing (n + 1) => (s.setCall t (.releasing n)).giveWake
  | .releasing 0 => { s.setCall t .idle with gate := if s.gate = some t then none else s.gate }
  | _ => s

-- ---------------------------------------------------------------------------
-- Jobs
-- ---------------------------------------------------------------------------

def findJob (s : State cfg) (id : Nat) : Option (Fin cfg.jobs) := Table.findJob s.jobs id

/-- The slot a submission gets, if it is let in. -/
def freeJob (s : State cfg) : Option (Fin cfg.jobs) := Table.freeJob s.jobs s.maxConcurrent

def submitJob (s : State cfg) (j : Fin cfg.jobs) (p : Fin maxPipelines) (params : Params)
    (now : Nat) : State cfg :=
  { s.setJob j (Entry.queued s.nextId s.nextSeq p params now) with
    nextId := nextJobId s.nextId
    nextSeq := (s.nextSeq + 1) % 2 ^ 32 }

/-- The locked section of a submission to pipeline `p`. -/
def submitLock (t : Fin cfg.threads) (p : Fin maxPipelines) (params : Params) (now : Nat) (s : State cfg) :
    State cfg :=
  match s.calls t with
  | .idle =>
    match freeJob s with
    | none => s
    | some j => (submitJob s j p params now).setCall t .submitted
  | _ => s

/-- The wakeup after it. -/
def submitGive (t : Fin cfg.threads) (s : State cfg) : State cfg :=
  match s.calls t with
  | .submitted => (s.setCall t .idle).giveWake
  | _ => s

def cancel (id : Nat) (s : State cfg) : State cfg :=
  match findJob s id with
  | none => s
  | some j =>
    if (s.jobs j).runnable then s.setJob j { s.jobs j with state := .cancelled, result := ecanceled }
    else s

/-- The locked section of `syn_pipeline_destroy`. -/
def destroy (p : Fin maxPipelines) (s : State cfg) : State cfg :=
  { s with
    jobs := fun j =>
      if (s.jobs j).runnable ∧ (s.jobs j).pipe = p then
        { s.jobs j with state := .cancelled, result := ecanceled }
      else s.jobs j }

def getResult (id : Nat) (s : State cfg) : State cfg :=
  match findJob s id with
  | none => s
  | some j =>
    match (s.jobs j).state with
    | .done | .error | .cancelled => s.setJob j { s.jobs j with state := .free }
    | _ => s

def setMaxConcurrent (n : Nat) (s : State cfg) : State cfg :=
  if 1 ≤ n ∧ n ≤ cfg.jobs then { s with maxConcurrent := n } else s

-- ---------------------------------------------------------------------------
-- Steps
-- ---------------------------------------------------------------------------

inductive Op (cfg : Cfg)
  | wake
  | look
  | settle (ret : Ret)
  | proceed
  | enter (t : Fin cfg.threads)
  | quiesce (t : Fin cfg.threads)
  | drained (t : Fin cfg.threads)
  | release (t : Fin cfg.threads)
  | replay (t : Fin cfg.threads)
  | submitLock (t : Fin cfg.threads) (p : Fin maxPipelines) (params : Params) (now : Nat)
  | submitGive (t : Fin cfg.threads)
  | cancel (id : Nat)
  | destroy (p : Fin maxPipelines)
  | getResult (id : Nat)
  | setMaxConcurrent (n : Nat)
  deriving DecidableEq, Repr

def step (s : State cfg) : Op cfg → State cfg
  | .wake => wake s
  | .look => look s
  | .settle ret => settle ret s
  | .proceed => proceed s
  | .enter t => enter t s
  | .quiesce t => quiesce t s
  | .drained t => drained t s
  | .release t => release t s
  | .replay t => replay t s
  | .submitLock t p params now => submitLock t p params now s
  | .submitGive t => submitGive t s
  | .cancel id => cancel id s
  | .destroy p => destroy p s
  | .getResult id => getResult id s
  | .setMaxConcurrent n => setMaxConcurrent n s

end SynapticOS.Infer.Dispatch
