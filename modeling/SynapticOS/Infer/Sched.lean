import SynapticOS.Infer.Jobs
import SynapticOS.Lib.Index
import Mathlib.Algebra.Group.Nat.Defs
import Mathlib.Logic.Function.Basic

/-!
# The inference scheduler and its callers

The scheduler thread, the threads that call the inference and registry API, and
what they share: pipelines, jobs, the layered engine's live session and its
suspension slots, the model registry. One operation is one stretch of code
between two points where another thread can run: a section under `infer_lock`,
or an access outside it. What the environment decides (the results of stage
functions and of the NPU, how many layers a model has, the clock) comes with the
operation; an operation that is not enabled changes nothing.

A session is named by the submission it belongs to. Submissions are counted
(`Job.ticket`), job ids are the code's and wrap.
-/

namespace SynapticOS.Infer

/-- The build's table sizes, and how many threads there are. -/
structure Cfg where
  jobs : Nat
  stages : Nat
  models : Nat
  threads : Nat

abbrev ctxSlots : Nat := 2

abbrev Handle := Nat

def eperm : Ret := -1
def eintr : Ret := -4
def eagain : Ret := -11
def einval : Ret := -22
def enoexec : Ret := -8
def ecanceled : Ret := -140

/-- Functions and their configurations are addresses. -/
inductive Stage
  | preprocess (fn config : Nat)
  | model
  | postprocess (fn config : Nat)
  deriving DecidableEq, Repr

structure Pipe where
  inUse : Bool
  built : Bool
  model : Handle
  stages : List Stage
  deriving DecidableEq, Repr

def Pipe.zero : Pipe := ⟨false, false, 0, []⟩

structure Job extends Entry where
  ctxSlot : Option (Fin ctxSlots)
  resumeStage : Nat
  /-- The token of the done semaphore. -/
  done : Bool
  /-- Which submission this is. -/
  ticket : Nat
  /-- The pipeline as it was submitted. -/
  asked : Pipe
  deriving DecidableEq, Repr

/-- A layered session: whose it is, and the layers left. -/
structure Ctx where
  owner : Nat
  rem : Nat
  deriving DecidableEq, Repr

structure Model where
  active : Bool
  loaded : Bool
  name : Nat
  data : Option Nat
  deriving DecidableEq, Repr

/-- Where the scheduler thread is. -/
inductive Pc (cfg : Cfg)
  /-- At the wake semaphore. -/
  | waiting
  /-- A job is `RUNNING`; before `execute_pipeline`. -/
  | start (j : Fin cfg.jobs)
  | stage (j : Fin cfg.jobs) (i : Nat)
  /-- In the layer loop of stage `i`; the live session counts the layers. -/
  | layer (j : Fin cfg.jobs) (i : Nat)
  /-- The session is parked; the job does not know its slot yet. -/
  | saved (j : Fin cfg.jobs) (i : Nat) (slot : Fin ctxSlots)
  /-- `execute_pipeline` has returned. -/
  | left (j : Fin cfg.jobs) (ret : Ret)
  /-- The job is `SUSPENDED`; the semaphores are not given yet. -/
  | rested (drain : Bool)
  /-- The job is complete; before its callback. -/
  | reporting (j : Fin cfg.jobs) (drain : Bool)
  /-- In the callback; the done semaphore is not given yet. -/
  | calling (j : Fin cfg.jobs)
  deriving DecidableEq, Repr

/-- A change of what is loaded, made while dispatch is paused. -/
inductive Change
  | load (h : Handle)
  | swap (old new : Handle)
  /-- `last` when an unregistration asked for it. -/
  | unload (h : Handle) (last : Bool)
  deriving DecidableEq, Repr

/-- Where a calling thread is inside an API function. -/
inductive Thread (cfg : Cfg)
  | idle
  | adding (p : Fin maxPipelines) (st : Stage) (h : Handle)
  | building (p : Fin maxPipelines)
  | destroying (p : Fin maxPipelines)
  | submitting (p : Fin maxPipelines) (params : Params)
  /-- `wait` saw the job in error; about to read its result. -/
  | errorSeen (j : Fin cfg.jobs) (ticket : Nat)
  /-- `wait` has left the lock; about to take the semaphore. -/
  | toTake (j : Fin cfg.jobs) (ticket : Nat)
  /-- Blocked on the semaphore. -/
  | pending (j : Fin cfg.jobs) (ticket : Nat)
  /-- Has the token, about to put it back. -/
  | taken (j : Fin cfg.jobs) (ticket : Nat)
  /-- Has put the token back, about to read the job's state. -/
  | gaveBack (j : Fin cfg.jobs) (ticket : Nat)
  /-- The job is not cancelled; about to read its result. -/
  | resultRead (j : Fin cfg.jobs) (ticket : Nat)
  | unregistering (h : Handle)
  | removing (h : Handle)
  /-- At the residency gate. -/
  | atGate (c : Change)
  /-- Waits for the running job to end or to be suspended. -/
  | draining (c : Change)
  | quiesced (c : Change)
  deriving DecidableEq, Repr

structure Sched (cfg : Cfg) where
  pipes : Fin maxPipelines → Pipe
  jobs : Fin cfg.jobs → Job
  nextId : Nat
  nextSeq : Nat
  maxConcurrent : Nat
  paused : Bool
  jobRunning : Bool
  deferred : Nat
  /-- `sched_wake` and `drain_sem`. -/
  wakes : Nat
  drain : Bool
  pc : Pc cfg
  live : Option Ctx
  ctx : Fin ctxSlots → Option Ctx
  models : Handle → Model
  resident : Option Nat
  gate : Bool
  threads : Fin cfg.threads → Thread cfg
  tickets : Nat
  /-- The results of the submissions that are complete or cancelled. -/
  final : Nat → Option Ret
  /-- What `wait` has returned for which submission. -/
  returns : List (Nat × Ret)

variable {cfg : Cfg}

def Job.idle (ticket : Nat) : Job :=
  { Entry.free with
    ctxSlot := none, resumeStage := 0, done := false, ticket := ticket, asked := Pipe.zero }

def Sched.init (cfg : Cfg) : Sched cfg :=
  { pipes := fun _ => Pipe.zero
    jobs := fun j => Job.idle j
    nextId := 1, nextSeq := 0, maxConcurrent := cfg.jobs
    paused := false, jobRunning := false, deferred := 0, wakes := 0, drain := false
    pc := .waiting, live := none, ctx := fun _ => none
    models := fun _ => ⟨false, false, 0, none⟩, resident := none, gate := false
    threads := fun _ => .idle
    tickets := cfg.jobs, final := fun _ => none, returns := [] }

-- ---------------------------------------------------------------------------
-- Updates
-- ---------------------------------------------------------------------------

namespace Sched

def setJob (s : Sched cfg) (j : Fin cfg.jobs) (f : Job → Job) : Sched cfg :=
  { s with jobs := Function.update s.jobs j (f (s.jobs j)) }

def setPipe (s : Sched cfg) (p : Fin maxPipelines) (x : Pipe) : Sched cfg :=
  { s with pipes := Function.update s.pipes p x }

def setModel (s : Sched cfg) (h : Handle) (f : Model → Model) : Sched cfg :=
  { s with models := Function.update s.models h (f (s.models h)) }

def setThread (s : Sched cfg) (t : Fin cfg.threads) (x : Thread cfg) : Sched cfg :=
  { s with threads := Function.update s.threads t x }

/-- `wait` returns `v` for the submission `ticket`. -/
def returned (s : Sched cfg) (t : Fin cfg.threads) (ticket : Nat) (v : Ret) : Sched cfg :=
  { s.setThread t .idle with returns := s.returns ++ [(ticket, v)] }

def giveWake (s : Sched cfg) : Sched cfg := { s with wakes := min (s.wakes + 1) cfg.jobs }

end Sched

-- ---------------------------------------------------------------------------
-- The registry
-- ---------------------------------------------------------------------------

/-- `syn_model_get_info`. -/
def Sched.info (s : Sched cfg) (h : Handle) : Option Model :=
  if 0 < h ∧ h ≤ cfg.models ∧ (s.models h).active then some (s.models h) else none

def Sched.modelSuspended (s : Sched cfg) (h : Handle) : Bool :=
  decide (h ≠ 0) && (List.finRange cfg.jobs).any fun j =>
    decide ((s.jobs j).state = .suspended) && decide ((s.pipes (s.jobs j).pipe).model = h)

def register (name : Nat) (s : Sched cfg) : Sched cfg :=
  let handles := (List.range cfg.models).map (· + 1)
  if handles.any fun h => (s.models h).active && decide ((s.models h).name = name) then s
  else
    match handles.find? fun h => !(s.models h).active with
    | none => s
    | some h => s.setModel h fun _ => ⟨true, false, name, none⟩

def setData (h : Handle) (data : Option Nat) (s : Sched cfg) : Sched cfg :=
  match s.info h with
  | none => s
  | some _ => s.setModel h fun m => { m with data := data }

/-- `syn_model_load` up to the residency gate. -/
def loadEnter (t : Fin cfg.threads) (h : Handle) (s : Sched cfg) : Sched cfg :=
  match s.threads t, s.info h with
  | .idle, some m => if m.loaded then s else s.setThread t (.atGate (.load h))
  | _, _ => s

def swapEnter (t : Fin cfg.threads) (old new : Handle) (s : Sched cfg) : Sched cfg :=
  match s.threads t, s.info old, s.info new with
  | .idle, some _, some _ => if old = new then s else s.setThread t (.atGate (.swap old new))
  | _, _, _ => s

/-- The checks of `syn_model_unload`, made by a caller that goes on to `next`. -/
def unloadChecks (t : Fin cfg.threads) (h : Handle) (last : Bool) (next : Thread cfg) (s : Sched cfg) :
    Sched cfg :=
  match s.info h with
  | none => s.setThread t next
  | some m =>
    if m.loaded = false ∨ s.modelSuspended h then s.setThread t next
    else
      let s := s.setModel h fun m => { m with loaded := false }
      if m.data ≠ none ∧ m.data = s.resident then s.setThread t (.atGate (.unload h last))
      else s.setThread t next

def unloadEnter (t : Fin cfg.threads) (h : Handle) (s : Sched cfg) : Sched cfg :=
  match s.threads t with
  | .idle => unloadChecks t h false .idle s
  | _ => s

def unregisterEnter (t : Fin cfg.threads) (h : Handle) (s : Sched cfg) : Sched cfg :=
  match s.threads t, s.info h with
  | .idle, some _ => if s.modelSuspended h then s else s.setThread t (.unregistering h)
  | _, _ => s

/-- A loaded model is unloaded first; what that returns is not looked at. -/
def unregisterUnload (t : Fin cfg.threads) (s : Sched cfg) : Sched cfg :=
  match s.threads t with
  | .unregistering h =>
    if (s.models h).loaded then unloadChecks t h true (.removing h) s
    else s.setThread t (.removing h)
  | _ => s

def unregisterRemove (t : Fin cfg.threads) (s : Sched cfg) : Sched cfg :=
  match s.threads t with
  | .removing h =>
    (s.setModel h fun m => { m with active := false, loaded := false, data := none }).setThread t .idle
  | _ => s

/-- Take the residency gate and pause dispatch. -/
def quiesce (t : Fin cfg.threads) (s : Sched cfg) : Sched cfg :=
  match s.threads t with
  | .atGate c =>
    if s.gate then s
    else { s.setThread t (if s.jobRunning then .draining c else .quiesced c) with
      gate := true, paused := true, drain := false }
  | _ => s

def drained (t : Fin cfg.threads) (s : Sched cfg) : Sched cfg :=
  match s.threads t with
  | .draining c => if s.drain then { s.setThread t (.quiesced c) with drain := false } else s
  | _ => s

/-- `model_do_load`; `res` is what the CRC check and the NPU say. -/
def doLoad (h : Handle) (res : Ret) (s : Sched cfg) : Sched cfg :=
  match (s.models h).data with
  | none => s.setModel h fun m => { m with loaded := true }
  | some d =>
    if res ≠ 0 then s
    else { s.setModel h fun m => { m with loaded := true } with resident := some d }

def Change.apply (res : Ret) (s : Sched cfg) : Change → Sched cfg
  | .load h => doLoad h res s
  | .swap old new =>
    let s := s.setModel old fun m => { m with loaded := false }
    if (s.models new).loaded then s else doLoad new res s
  | .unload _ _ => { s with resident := none }

def Change.next : Change → Thread cfg
  | .unload h true => .removing h
  | _ => .idle

/-- Make the change and release dispatch. -/
def change (t : Fin cfg.threads) (res : Ret) (s : Sched cfg) : Sched cfg :=
  match s.threads t with
  | .quiesced c =>
    let s := (c.apply res s).setThread t c.next
    { s with paused := false, deferred := 0, wakes := min (s.wakes + s.deferred) cfg.jobs, gate := false }
  | _ => s

-- ---------------------------------------------------------------------------
-- Pipelines
-- ---------------------------------------------------------------------------

def create (s : Sched cfg) : Sched cfg :=
  match (List.finRange maxPipelines).find? fun p => !(s.pipes p).inUse with
  | none => s
  | some p => s.setPipe p { Pipe.zero with inUse := true }

/-- The checks of the add functions; `h` is the handle for a model stage. -/
def addable (s : Sched cfg) (p : Pipe) (st : Stage) (h : Handle) : Bool :=
  p.inUse && !p.built && decide (p.stages.length < cfg.stages) &&
    match st with
    | .preprocess fn _ => decide (fn ≠ 0) && decide (p.model = 0)
    | .model => decide (h ≠ 0) && decide (p.model = 0) && (s.info h).isSome
    | .postprocess fn _ => decide (fn ≠ 0) && decide (p.model ≠ 0)

def addEnter (t : Fin cfg.threads) (p : Fin maxPipelines) (st : Stage) (h : Handle) (s : Sched cfg) :
    Sched cfg :=
  match s.threads t with
  | .idle => if addable s (s.pipes p) st h then s.setThread t (.adding p st h) else s
  | _ => s

def addWrite (t : Fin cfg.threads) (s : Sched cfg) : Sched cfg :=
  match s.threads t with
  | .adding p st h =>
    let x := s.pipes p
    (s.setPipe p { x with
      stages := x.stages ++ [st]
      model := if st = .model then h else x.model }).setThread t .idle
  | _ => s

def buildEnter (t : Fin cfg.threads) (p : Fin maxPipelines) (s : Sched cfg) : Sched cfg :=
  match s.threads t with
  | .idle =>
    let x := s.pipes p
    if x.inUse ∧ x.built = false ∧ x.model ≠ 0 ∧ (s.info x.model).isSome then
      s.setThread t (.building p)
    else s
  | _ => s

def buildWrite (t : Fin cfg.threads) (s : Sched cfg) : Sched cfg :=
  match s.threads t with
  | .building p => (s.setPipe p { s.pipes p with built := true }).setThread t .idle
  | _ => s

def destroyEnter (t : Fin cfg.threads) (p : Fin maxPipelines) (s : Sched cfg) : Sched cfg :=
  match s.threads t with
  | .idle => if (s.pipes p).inUse then s.setThread t (.destroying p) else s
  | _ => s

/-- The loop of `syn_pipeline_destroy` at one job. -/
def destroyJob (p : Fin maxPipelines) (job : Job) : Job :=
  let waiting : Bool := decide (job.state = .queued ∨ job.state = .suspended)
  let job := if job.state = .suspended then { job with ctxSlot := none } else job
  if waiting ∧ job.pipe = p then
    { job with state := .cancelled, result := ecanceled, done := true }
  else job

/-- The slots that the loop frees. -/
def destroyFrees (s : Sched cfg) (k : Fin ctxSlots) : Bool :=
  (List.finRange cfg.jobs).any fun j =>
    decide ((s.jobs j).state = .suspended) && decide ((s.jobs j).ctxSlot = some k)

/-- The results that the loop settles. -/
def destroySettles (p : Fin maxPipelines) (s : Sched cfg) (ticket : Nat) : Bool :=
  (List.finRange cfg.jobs).any fun j => decide ((s.jobs j).ticket = ticket) &&
    decide (((s.jobs j).state = .queued ∨ (s.jobs j).state = .suspended) ∧ (s.jobs j).pipe = p)

/-- The locked section of `syn_pipeline_destroy`. The turns of its loop touch
different jobs and slots. -/
def destroyPipe (p : Fin maxPipelines) (s : Sched cfg) : Sched cfg :=
  { s with
    jobs := fun j => destroyJob p (s.jobs j)
    ctx := fun k => if destroyFrees s k then none else s.ctx k
    final := fun ticket => if destroySettles p s ticket then some ecanceled else s.final ticket
    pipes := Function.update s.pipes p
      { s.pipes p with inUse := false, built := false, stages := [], model := 0 } }

def destroyLock (t : Fin cfg.threads) (s : Sched cfg) : Sched cfg :=
  match s.threads t with
  | .destroying p => (destroyPipe p s).setThread t .idle
  | _ => s

-- ---------------------------------------------------------------------------
-- Jobs
-- ---------------------------------------------------------------------------

def findJob (s : Sched cfg) (id : Nat) : Option (Fin cfg.jobs) :=
  Table.findJob (fun j => (s.jobs j).toEntry) id

def submitEnter (t : Fin cfg.threads) (p : Fin maxPipelines) (params : Params) (s : Sched cfg) : Sched cfg :=
  match s.threads t with
  | .idle =>
    if (s.pipes p).inUse ∧ (s.pipes p).built then s.setThread t (.submitting p params) else s
  | _ => s

/-- The slot a submission gets, if it is let in. -/
def freeJob (s : Sched cfg) : Option (Fin cfg.jobs) :=
  Table.freeJob (fun j => (s.jobs j).toEntry) s.maxConcurrent

/-- Resetting a semaphore sends its waiters away with `-EAGAIN`. -/
def abort (j : Fin cfg.jobs) : Thread cfg → Thread cfg
  | .pending i ticket => if i = j then .idle else .pending i ticket
  | x => x

def submitJob (s : Sched cfg) (j : Fin cfg.jobs) (p : Fin maxPipelines) (params : Params)
    (now : Nat) : Sched cfg :=
  { s.setJob j fun _ =>
      { Entry.queued s.nextId s.nextSeq p params now with
        ctxSlot := none, resumeStage := 0, done := false, ticket := s.tickets
        asked := s.pipes p } with
    nextId := nextJobId s.nextId
    nextSeq := (s.nextSeq + 1) % 2 ^ 32
    tickets := s.tickets + 1
    threads := fun t => abort j (s.threads t) }

def submitLock (t : Fin cfg.threads) (now : Nat) (s : Sched cfg) : Sched cfg :=
  match s.threads t with
  | .submitting p params =>
    match freeJob s with
    | none => s.setThread t .idle
    | some j => ((submitJob s j p params now).setThread t .idle).giveWake
  | _ => s

def cancelJob (s : Sched cfg) (j : Fin cfg.jobs) : Sched cfg :=
  { s.setJob j fun job => { job with state := .cancelled, result := ecanceled, done := true } with
    final := Function.update s.final (s.jobs j).ticket (some ecanceled) }

/-- `syn_npu_layered_slot_free`, and the job forgets the slot. -/
def dropCtx (s : Sched cfg) (j : Fin cfg.jobs) : Sched cfg :=
  { s.setJob j fun job => { job with ctxSlot := none } with
    ctx := fun k => if (s.jobs j).ctxSlot = some k then none else s.ctx k }

def cancel (id : Nat) (s : Sched cfg) : Sched cfg :=
  match findJob s id with
  | none => s
  | some j =>
    match (s.jobs j).state with
    | .queued => cancelJob s j
    | .suspended => cancelJob (dropCtx s j) j
    | _ => s

def getResult (id : Nat) (s : Sched cfg) : Sched cfg :=
  match findJob s id with
  | none => s
  | some j =>
    match (s.jobs j).state with
    | .done | .error | .cancelled => s.setJob j fun job => { job with state := .free }
    | _ => s

def setMaxConcurrent (n : Nat) (s : Sched cfg) : Sched cfg :=
  if 1 ≤ n ∧ n ≤ cfg.jobs then { s with maxConcurrent := n } else s

-- ---------------------------------------------------------------------------
-- Waiting
-- ---------------------------------------------------------------------------

/-- The locked section of `syn_infer_wait`. -/
def waitEnter (t : Fin cfg.threads) (id : Nat) (s : Sched cfg) : Sched cfg :=
  match s.threads t, findJob s id with
  | .idle, some j =>
    match (s.jobs j).state with
    | .done => s.returned t (s.jobs j).ticket 0
    | .error => s.setThread t (.errorSeen j (s.jobs j).ticket)
    | .cancelled => s.returned t (s.jobs j).ticket ecanceled
    | _ => s.setThread t (.toTake j (s.jobs j).ticket)
  | _, _ => s

/-- The next step of a `wait` that has left the lock. -/
def waitStep (t : Fin cfg.threads) (s : Sched cfg) : Sched cfg :=
  match s.threads t with
  | .errorSeen j ticket => s.returned t ticket (s.jobs j).result
  | .toTake j ticket =>
    if (s.jobs j).done then
      (s.setJob j fun job => { job with done := false }).setThread t (.taken j ticket)
    else s.setThread t (.pending j ticket)
  | .pending j ticket =>
    if (s.jobs j).done then
      (s.setJob j fun job => { job with done := false }).setThread t (.taken j ticket)
    else s
  | .taken j ticket =>
    (s.setJob j fun job => { job with done := true }).setThread t (.gaveBack j ticket)
  | .gaveBack j ticket =>
    if (s.jobs j).state = .cancelled then s.returned t ticket ecanceled
    else s.setThread t (.resultRead j ticket)
  | .resultRead j ticket => s.returned t ticket (s.jobs j).result
  | _ => s

def waitTimeout (t : Fin cfg.threads) (s : Sched cfg) : Sched cfg :=
  match s.threads t with
  | .pending _ ticket => s.returned t ticket eagain
  | _ => s

-- ---------------------------------------------------------------------------
-- The scheduler thread
-- ---------------------------------------------------------------------------

def pickNextJob (s : Sched cfg) : Option (Fin cfg.jobs) :=
  Table.pickNextJob fun j => (s.jobs j).toEntry

def dispatchJob (s : Sched cfg) (j : Fin cfg.jobs) : Sched cfg :=
  { s.setJob j fun job =>
      { job with state := .running, resuming := job.resuming || decide (job.state = .suspended) } with
    jobRunning := true, pc := .start j }

/-- A wakeup, up to the end of the locked section. -/
def dispatch (s : Sched cfg) : Sched cfg :=
  if s.pc = .waiting ∧ 0 < s.wakes then
    let s := { s with wakes := s.wakes - 1 }
    if s.paused then { s with deferred := s.deferred + 1 }
    else
      match pickNextJob s with
      | none => s
      | some j => dispatchJob s j
  else s

/-- The checks on the model before the first stage; `res` is what the CRC check
and the NPU say if a swap is needed. -/
def enterPipeline (s : Sched cfg) (j : Fin cfg.jobs) (res : Ret) : Sched cfg :=
  let job := s.jobs j
  match s.info (s.pipes job.pipe).model with
  | none => { s with pc := .left j einval }
  | some m =>
    if job.resuming then { s with pc := .stage j job.resumeStage }
    else if m.loaded = false then { s with pc := .left j enoexec }
    else if m.data = none ∨ m.data = s.resident then { s with pc := .stage j 0 }
    else if res ≠ 0 then { s with pc := .left j res }
    else { s with resident := m.data, pc := .stage j 0 }

/-- The end of the model stage. -/
def endModel (s : Sched cfg) (j : Fin cfg.jobs) (i : Nat) (res : Ret) : Sched cfg :=
  if res = 0 then { s with pc := .stage j (i + 1) }
  else if res = eintr then
    { s.setJob j fun job => { job with resumeStage := i } with pc := .left j eintr }
  else { s with pc := .left j res }

/-- Resume the parked session; `-EINVAL` when there is none. -/
def resume (s : Sched cfg) (j : Fin cfg.jobs) (i : Nat) : Sched cfg :=
  let s' := s.setJob j fun job => { job with resuming := false }
  match (s.jobs j).ctxSlot with
  | none => { s' with pc := .left j einval }
  | some k =>
    match s.ctx k with
    | none => { s' with pc := .left j einval }
    | some c =>
      { s'.setJob j fun job => { job with ctxSlot := none } with
        live := some c, ctx := Function.update s.ctx k none, pc := .layer j i }

/-- Stage `i` of job `j`. `res` is what its function or the NPU returns; `layers`
is what a layered session begins with: none when it refuses the input, zero when
the resident model is not layered. -/
def runStage (s : Sched cfg) (j : Fin cfg.jobs) (i : Nat) (res : Ret) (layers : Option Nat) :
    Sched cfg :=
  let job := s.jobs j
  match (s.pipes job.pipe).stages[i]? with
  | none => { s with pc := .left j 0 }
  | some .model =>
    if job.resuming then resume s j i
    else
      match layers with
      | none => endModel s j i einval
      | some 0 => endModel s j i res
      | some n => { s with live := some ⟨job.ticket, n⟩, pc := .layer j i }
  | some _ =>
    if res = 0 then { s with pc := .stage j (i + 1) } else { s with pc := .left j res }

def preemptPending (s : Sched cfg) (j : Fin cfg.jobs) : Bool :=
  (List.finRange cfg.jobs).any fun i => decide ((s.jobs i).state = .queued) &&
    decide ((s.jobs j).params.priority < (s.jobs i).params.priority)

def freeSlot (s : Sched cfg) : Option (Fin ctxSlots) :=
  (List.finRange ctxSlots).find? fun k => (s.ctx k).isNone

/-- One turn of the layer loop, or the output after it: `res` is what allocating
and filling the output tensor gives. -/
def runLayer (s : Sched cfg) (j : Fin cfg.jobs) (i : Nat) (res : Ret) : Sched cfg :=
  match s.live with
  | none => endModel s j i eperm
  | some ⟨_, 0⟩ => endModel { s with live := if res = 0 then none else s.live } j i res
  | some ⟨owner, rem + 1⟩ =>
    if 0 < rem ∧ (s.jobs j).params.preemptible ∧ preemptPending s j then
      match freeSlot s with
      | none => { s with live := some ⟨owner, rem⟩, pc := .layer j i }
      | some k =>
        { s with live := none, ctx := Function.update s.ctx k (some ⟨owner, rem⟩), pc := .saved j i k }
    else { s with live := some ⟨owner, rem⟩, pc := .layer j i }

/-- The job learns its slot and leaves `execute_pipeline`. -/
def park (s : Sched cfg) (j : Fin cfg.jobs) (i : Nat) (k : Fin ctxSlots) : Sched cfg :=
  { s.setJob j fun job => { job with ctxSlot := some k, resumeStage := i } with
    pc := .left j eintr }

/-- The locked section after `execute_pipeline`. -/
def settle (s : Sched cfg) (j : Fin cfg.jobs) (ret : Ret) : Sched cfg :=
  if ret = eintr then
    { s.setJob j fun job => { job with state := .suspended } with
      jobRunning := false, pc := .rested s.paused }
  else
    { s.setJob j fun job =>
        { job with result := ret, state := if ret = 0 then .done else .error } with
      jobRunning := false, pc := .reporting j s.paused
      final := Function.update s.final (s.jobs j).ticket (some ret) }

/-- The scheduler thread, anywhere but at the wake semaphore. -/
def schedule (res : Ret) (layers : Option Nat) (s : Sched cfg) : Sched cfg :=
  match s.pc with
  | .waiting => s
  | .start j => enterPipeline s j res
  | .stage j i => runStage s j i res layers
  | .layer j i => runLayer s j i res
  | .saved j i k => park s j i k
  | .left j ret => settle s j ret
  | .rested d => { s.giveWake with drain := s.drain || d, pc := .waiting }
  | .reporting j d => { s with drain := s.drain || d, pc := .calling j }
  | .calling j => { s.setJob j fun job => { job with done := true } with pc := .waiting }

-- ---------------------------------------------------------------------------
-- Steps
-- ---------------------------------------------------------------------------

inductive Op (cfg : Cfg)
  | register (name : Nat)
  | setData (h : Handle) (data : Option Nat)
  | loadEnter (t : Fin cfg.threads) (h : Handle)
  | swapEnter (t : Fin cfg.threads) (old new : Handle)
  | unloadEnter (t : Fin cfg.threads) (h : Handle)
  | unregisterEnter (t : Fin cfg.threads) (h : Handle)
  | unregisterUnload (t : Fin cfg.threads)
  | unregisterRemove (t : Fin cfg.threads)
  | quiesce (t : Fin cfg.threads)
  | drained (t : Fin cfg.threads)
  | change (t : Fin cfg.threads) (res : Ret)
  | create
  | addEnter (t : Fin cfg.threads) (p : Fin maxPipelines) (st : Stage) (h : Handle)
  | addWrite (t : Fin cfg.threads)
  | buildEnter (t : Fin cfg.threads) (p : Fin maxPipelines)
  | buildWrite (t : Fin cfg.threads)
  | destroyEnter (t : Fin cfg.threads) (p : Fin maxPipelines)
  | destroyLock (t : Fin cfg.threads)
  | submitEnter (t : Fin cfg.threads) (p : Fin maxPipelines) (params : Params)
  | submitLock (t : Fin cfg.threads) (now : Nat)
  | cancel (id : Nat)
  | getResult (id : Nat)
  | setMaxConcurrent (n : Nat)
  | waitEnter (t : Fin cfg.threads) (id : Nat)
  | waitStep (t : Fin cfg.threads)
  | waitTimeout (t : Fin cfg.threads)
  | dispatch
  | schedule (res : Ret) (layers : Option Nat)
  deriving DecidableEq, Repr

def step (s : Sched cfg) : Op cfg → Sched cfg
  | .register name => register name s
  | .setData h data => setData h data s
  | .loadEnter t h => loadEnter t h s
  | .swapEnter t old new => swapEnter t old new s
  | .unloadEnter t h => unloadEnter t h s
  | .unregisterEnter t h => unregisterEnter t h s
  | .unregisterUnload t => unregisterUnload t s
  | .unregisterRemove t => unregisterRemove t s
  | .quiesce t => quiesce t s
  | .drained t => drained t s
  | .change t res => change t res s
  | .create => create s
  | .addEnter t p st h => addEnter t p st h s
  | .addWrite t => addWrite t s
  | .buildEnter t p => buildEnter t p s
  | .buildWrite t => buildWrite t s
  | .destroyEnter t p => destroyEnter t p s
  | .destroyLock t => destroyLock t s
  | .submitEnter t p params => submitEnter t p params s
  | .submitLock t now => submitLock t now s
  | .cancel id => cancel id s
  | .getResult id => getResult id s
  | .setMaxConcurrent n => setMaxConcurrent n s
  | .waitEnter t id => waitEnter t id s
  | .waitStep t => waitStep t s
  | .waitTimeout t => waitTimeout t s
  | .dispatch => dispatch s
  | .schedule res layers => schedule res layers s

end SynapticOS.Infer
