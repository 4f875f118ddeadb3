import SynapticOS.Infer.Lives
import SynapticOS.Infer.StoreCalls

/-!
# Synchronous runs

`syn_infer_run_sync` over `Sched`: a thread in it begins one call after the other,
and the operations of `Sched` take it through each. The other threads make any
calls they like.

Runs are numbered; `made` and `sent` say for which run a pipeline was created and a
job submitted.
-/

namespace SynapticOS.Infer

open Lib

variable {cfg : Cfg} {s s' : Sched cfg}

def enomem : Ret := -12
def ealready : Ret := -120

/-- Where a thread is in `syn_infer_run_sync`; `ticket` is the submission that `id`
names. -/
inductive SyncPc
  /-- The model is registered. -/
  | checking
  | creating
  | adding (p : Fin maxPipelines)
  | building (p : Fin maxPipelines)
  | submitting (p : Fin maxPipelines)
  /-- Inside `syn_infer_submit`. -/
  | submitted (p : Fin maxPipelines)
  | waiting (p : Fin maxPipelines) (id ticket : Nat)
  /-- Inside `syn_infer_wait`. -/
  | waits (p : Fin maxPipelines) (id ticket : Nat)
  /-- `syn_infer_wait` has returned `ret`. -/
  | fetching (p : Fin maxPipelines) (id ticket : Nat) (ret : Ret)
  | destroying (p : Fin maxPipelines) (ret : Ret)
  /-- Inside `syn_pipeline_destroy`. -/
  | leaving (p : Fin maxPipelines) (ret : Ret)
  deriving DecidableEq, Repr

structure SyncRun where
  number : Nat
  model : Handle
  priority : Nat
  /-- `input->data` is not NULL. -/
  data : Bool
  pc : SyncPc
  deriving DecidableEq, Repr

def SyncRun.params (r : SyncRun) : Params := ⟨r.priority, 0, false⟩

structure Syncs (cfg : Cfg) where
  sched : Sched cfg
  runs : Fin cfg.threads → Option SyncRun
  count : Nat
  made : Fin maxPipelines → Option Nat
  sent : Nat → Option Nat
  /-- What the runs have returned. -/
  returns : List (Nat × Ret)

def Syncs.init (cfg : Cfg) : Syncs cfg :=
  { sched := .init cfg, runs := fun _ => none, count := 0, made := fun _ => none
    sent := fun _ => none, returns := [] }

-- ---------------------------------------------------------------------------
-- The calls that a run makes
-- ---------------------------------------------------------------------------

/-- The pipeline that `syn_pipeline_create` takes. -/
def Sched.freePipe (s : Sched cfg) : Option (Fin maxPipelines) :=
  (List.finRange maxPipelines).find? fun p => !(s.pipes p).inUse

/-- `syn_pipeline_add_model`. -/
def addModelRet (s : Sched cfg) (p : Pipe) (h : Handle) : Ret :=
  if p.inUse = false ∨ h = 0 then einval
  else if p.built then eperm
  else if p.model ≠ 0 then ealready
  else if (s.info h).isNone then enoent
  else if cfg.stages ≤ p.stages.length then enomem
  else 0

/-- `syn_pipeline_build`. -/
def buildRet (s : Sched cfg) (p : Pipe) : Ret :=
  if p.inUse = false then einval
  else if p.built then ealready
  else if p.model = 0 then einval
  else if (s.info p.model).isNone then einval
  else 0

/-- What `syn_infer_wait` has returned in an operation. -/
def newReturn (s s' : Sched cfg) : Option Ret :=
  (s'.returns.drop s.returns.length).head?.map Prod.snd

namespace Syncs

def goto (m : Syncs cfg) (t : Fin cfg.threads) (r : SyncRun) (pc : SyncPc) : Syncs cfg :=
  { m with runs := Function.update m.runs t (some { r with pc := pc }) }

def leave (m : Syncs cfg) (t : Fin cfg.threads) (r : SyncRun) (ret : Ret) : Syncs cfg :=
  { m with runs := Function.update m.runs t none, returns := m.returns ++ [(r.number, ret)] }

/-- The thread makes one operation, and goes on at `pc`. -/
def call (m : Syncs cfg) (t : Fin cfg.threads) (r : SyncRun) (o : Op cfg) (pc : SyncPc) :
    Syncs cfg :=
  { m with sched := Infer.step m.sched o }.goto t r pc

/-- A thread that is inside no other function goes on in its run. -/
def next (t : Fin cfg.threads) (m : Syncs cfg) : Syncs cfg :=
  match m.runs t with
  | none => m
  | some r =>
    let s := m.sched
    if s.threads t ≠ .idle then m
    else
      match r.pc with
      | .checking => if (s.info r.model).any Model.loaded then m.goto t r .creating
        else m.leave t r enoexec
      | .creating =>
        match s.freePipe with
        | none => m.leave t r enomem
        | some p =>
          { m with made := Function.update m.made p (some r.number) }.call t r .create (.adding p)
      | .adding p =>
        let ret := addModelRet s (s.pipes p) r.model
        if ret ≠ 0 then m.goto t r (.destroying p ret)
        else m.call t r (.addEnter t p .model r.model) (.building p)
      | .building p =>
        let ret := buildRet s (s.pipes p)
        if ret ≠ 0 then m.goto t r (.destroying p ret)
        else m.call t r (.buildEnter t p) (.submitting p)
      | .submitting p =>
        if (s.pipes p).inUse ∧ (s.pipes p).built ∧ r.data then
          m.call t r (.submitEnter t p r.params) (.submitted p)
        else m.goto t r (.destroying p ebusy)
      | .submitted _ => m
      | .waiting p id ticket =>
        match findJob s id with
        | none => m.goto t r (.fetching p id ticket enoent)
        | some _ =>
          m.call t r (.waitEnter t id)
            (match newReturn s (Infer.step s (.waitEnter t id)) with
            | none => .waits p id ticket
            | some ret => .fetching p id ticket ret)
      -- a reset of the semaphore has sent the waiter away
      | .waits p id ticket => m.goto t r (.fetching p id ticket eagain)
      | .fetching p id _ ret =>
        m.call t r (.getResult id) (.destroying p (if ret = 0 then getResultRet s id else ret))
      | .destroying p ret =>
        if (s.pipes p).inUse then m.call t r (.destroyEnter t p) (.leaving p ret)
        else m.leave t r ret
      | .leaving _ ret => m.leave t r ret

/-- What a run learns from an operation that is made inside one of its calls. -/
def learn (o : Op cfg) (m : Syncs cfg) : Syncs cfg :=
  let s := m.sched
  match o with
  | .create =>
    match s.freePipe with
    | none => m
    | some p => { m with made := Function.update m.made p none }
  | .submitLock t _ =>
    match m.runs t, s.threads t with
    | some r, .submitting _ _ =>
      match r.pc, freeJob s with
      | .submitted p, none => m.goto t r (.destroying p ebusy)
      | .submitted p, some _ =>
        { m with sent := Function.update m.sent s.tickets (some r.number) }.goto t r
          (.waiting p s.nextId s.tickets)
      | _, _ => m
    | _, _ => m
  | .waitStep t | .waitTimeout t =>
    match m.runs t, newReturn s (Infer.step s o) with
    | some r, some ret =>
      match r.pc with
      | .waits p id ticket => m.goto t r (.fetching p id ticket ret)
      | _ => m
    | _, _ => m
  | _ => m

end Syncs

inductive SyncOp (cfg : Cfg)
  | api (o : Op cfg)
  /-- Of `input` the data may be NULL, or all of it (`none`). -/
  | runSync (t : Fin cfg.threads) (model : Handle) (priority : Nat) (input : Option Bool)
    (output : Bool)
  | next (t : Fin cfg.threads)
  deriving DecidableEq, Repr

namespace Syncs

/-- `syn_infer_run_sync` up to the question whether the model is registered. -/
def enter (t : Fin cfg.threads) (model : Handle) (priority : Nat) (input : Option Bool)
    (output : Bool) (m : Syncs cfg) : Syncs cfg :=
  match m.runs t, m.sched.threads t with
  | none, .idle =>
    if input.isNone ∨ output = false then
      { m with count := m.count + 1, returns := m.returns ++ [(m.count, einval)] }
    else
      let pc : SyncPc := if (m.sched.info model).isSome then .checking else .creating
      { m with
        runs := Function.update m.runs t (some ⟨m.count, model, priority, input.getD false, pc⟩)
        count := m.count + 1 }
  | _, _ => m

/-- A thread in a run begins no other call. -/
def step (m : Syncs cfg) : SyncOp cfg → Syncs cfg
  | .api o =>
    if o.caller.any fun t => (m.runs t).isSome then m
    else { m.learn o with sched := Infer.step m.sched o }
  | .runSync t model priority input output => m.enter t model priority input output
  | .next t => m.next t

end Syncs

-- ---------------------------------------------------------------------------
-- The property
-- ---------------------------------------------------------------------------

/-- The run has not returned. -/
def Syncs.inProgress (m : Syncs cfg) (n : Nat) : Prop :=
  ∃ t, (m.runs t).map SyncRun.number = some n

instance (m : Syncs cfg) (n : Nat) : Decidable (m.inProgress n) := by
  unfold Syncs.inProgress
  infer_instance

/-- What a run that has returned has used is free again, its job unless it is still
running. -/
structure LeavesNothing (m : Syncs cfg) : Prop where
  jobs : ∀ j n, m.sent (m.sched.jobs j).ticket = some n → ¬m.inProgress n →
    (m.sched.jobs j).state = .running ∨ (m.sched.jobs j).state = .free
  pipes : ∀ p n, m.made p = some n → ¬m.inProgress n → (m.sched.pipes p).inUse = false

/-- The job whose result a run is about to fetch. -/
def Syncs.fetches (m : Syncs cfg) : SyncOp cfg → Option (Nat × Nat)
  | .next t =>
    match m.runs t, m.sched.threads t with
    | some r, .idle =>
      match r.pc with
      | .fetching _ id ticket _ => some (id, ticket)
      | _ => none
    | _, _ => none
  | _ => none

/-- The job is neither queued nor running nor suspended when its result is fetched,
and its id names it. -/
def Collects (m : Syncs cfg) (o : SyncOp cfg) : Prop :=
  ∀ b, m.fetches o = some b → ∀ j, (m.sched.jobs j).ticket = b.2 →
    (m.sched.jobs j).state ≠ .free →
      (m.sched.jobs j).state.active = false ∧ findJob m.sched b.1 = some j

instance (m : Syncs cfg) (o : SyncOp cfg) : Decidable (Collects m o) := by
  unfold Collects
  infer_instance

end SynapticOS.Infer
