import SynapticOS.Infer.Sched

/-!
# What the operations leave alone

Most operations touch neither the jobs nor the scheduler thread (`SameJobs`);
the steps of a wait touch the token of one job. What is left are the locked
sections on jobs and the scheduler's own steps.
-/

namespace SynapticOS.Infer

variable {cfg : Cfg} {s s' s'' : Sched cfg}

-- ---------------------------------------------------------------------------
-- Updates
-- ---------------------------------------------------------------------------

theorem Sched.setJob_jobs (s : Sched cfg) (j : Fin cfg.jobs) (f : Job → Job) (i : Fin cfg.jobs) :
    (s.setJob j f).jobs i = if i = j then f (s.jobs j) else s.jobs i :=
  Function.update_apply ..

@[simp] theorem Sched.setJob_self (s : Sched cfg) (j : Fin cfg.jobs) (f : Job → Job) :
    (s.setJob j f).jobs j = f (s.jobs j) := by rw [setJob_jobs, if_pos rfl]

-- ---------------------------------------------------------------------------
-- Operations that leave the jobs alone
-- ---------------------------------------------------------------------------

/-- The jobs, the scheduler thread and the layered engine are as they were. -/
structure SameJobs (s s' : Sched cfg) : Prop where
  jobs : s'.jobs = s.jobs
  pc : s'.pc = s.pc
  live : s'.live = s.live
  ctx : s'.ctx = s.ctx

/-- The operations of the registry. -/
def Op.ofRegistry : Op cfg → Bool
  | .register _ | .setData _ _ | .loadEnter _ _ | .swapEnter _ _ _ | .unloadEnter _ _
  | .unregisterEnter _ _ | .unregisterUnload _ | .unregisterRemove _ | .quiesce _ | .drained _
  | .change _ _ => true
  | _ => false

/-- The operations that build pipelines, and the checks before a lock. -/
def Op.ofBuilder : Op cfg → Bool
  | .create | .addEnter _ _ _ _ | .addWrite _ | .buildEnter _ _ | .buildWrite _
  | .destroyEnter _ _ | .submitEnter _ _ _ | .setMaxConcurrent _ => true
  | _ => false

/-- The thread is inside `syn_infer_wait`. -/
def Thread.waits : Thread cfg → Bool
  | .errorSeen _ _ | .toTake _ _ | .pending _ _ | .taken _ _ | .gaveBack _ _ | .resultRead _ _ => true
  | _ => false

/-- Nor are results, and no thread goes into a wait. -/
structure Quiet (s s' : Sched cfg) : Prop where
  same : SameJobs s s'
  tickets : s'.tickets = s.tickets
  final : s'.final = s.final
  returns : s'.returns = s.returns
  threads : ∀ t, s'.threads t = s.threads t ∨ (s'.threads t).waits = false

theorem Quiet.refl (s : Sched cfg) : Quiet s s :=
  ⟨⟨rfl, rfl, rfl, rfl⟩, rfl, rfl, rfl, fun _ => .inl rfl⟩

theorem Quiet.trans (h : Quiet s s') (h' : Quiet s' s'') : Quiet s s'' := by
  refine ⟨⟨?_, ?_, ?_, ?_⟩, ?_, ?_, ?_, fun t => ?_⟩
  · exact h'.same.jobs.trans h.same.jobs
  · exact h'.same.pc.trans h.same.pc
  · exact h'.same.live.trans h.same.live
  · exact h'.same.ctx.trans h.same.ctx
  · exact h'.tickets.trans h.tickets
  · exact h'.final.trans h.final
  · exact h'.returns.trans h.returns
  · rcases h'.threads t with he | hw
    · rw [he]
      exact h.threads t
    · exact .inr hw

theorem quiet_setModel (s : Sched cfg) (h : Handle) (f : Model → Model) : Quiet s (s.setModel h f) :=
  ⟨⟨rfl, rfl, rfl, rfl⟩, rfl, rfl, rfl, fun _ => .inl rfl⟩

theorem quiet_setPipe (s : Sched cfg) (p : Fin maxPipelines) (x : Pipe) : Quiet s (s.setPipe p x) :=
  ⟨⟨rfl, rfl, rfl, rfl⟩, rfl, rfl, rfl, fun _ => .inl rfl⟩

theorem waits_update {th : Fin cfg.threads → Thread cfg} {x : Thread cfg} (hx : x.waits = false) (t i : Fin cfg.threads) :
    Function.update th t x i = th i ∨ (Function.update th t x i).waits = false := by
  rw [Function.update_apply]
  split
  · exact .inr hx
  · exact .inl rfl

theorem quiet_setThread (s : Sched cfg) (t : Fin cfg.threads) {x : Thread cfg} (hx : x.waits = false) :
    Quiet s (s.setThread t x) :=
  ⟨⟨rfl, rfl, rfl, rfl⟩, rfl, rfl, rfl, waits_update hx t⟩

theorem quiet_unloadChecks (t : Fin cfg.threads) (h : Handle) (last : Bool) {next : Thread cfg}
    (hn : next.waits = false) (s : Sched cfg) : Quiet s (unloadChecks t h last next s) := by
  unfold unloadChecks
  split
  · exact quiet_setThread s t hn
  · split
    · exact quiet_setThread s t hn
    · dsimp only
      split
      · exact (quiet_setModel s h _).trans (quiet_setThread _ t rfl)
      · exact (quiet_setModel s h _).trans (quiet_setThread _ t hn)

theorem quiet_doLoad (h : Handle) (res : Ret) (s : Sched cfg) : Quiet s (doLoad h res s) := by
  unfold doLoad
  split
  · exact quiet_setModel s h _
  · split
    · exact .refl s
    · exact ⟨⟨rfl, rfl, rfl, rfl⟩, rfl, rfl, rfl, fun _ => .inl rfl⟩

theorem quiet_apply (c : Change) (res : Ret) (s : Sched cfg) : Quiet s (c.apply res s) := by
  cases c with
  | load h => exact quiet_doLoad h res s
  | unload h last => exact ⟨⟨rfl, rfl, rfl, rfl⟩, rfl, rfl, rfl, fun _ => .inl rfl⟩
  | swap old new =>
    unfold Change.apply
    dsimp only
    split
    · exact quiet_setModel s old _
    · exact (quiet_setModel s old _).trans (quiet_doLoad new res _)

theorem Change.next_waits (c : Change) : (c.next : Thread cfg).waits = false := by
  cases c with
  | unload h last => cases last <;> rfl
  | _ => rfl

theorem quiet_of_registry (s : Sched cfg) (o : Op cfg) (h : o.ofRegistry = true) :
    Quiet s (step s o) := by
  cases o with
  | register name =>
    unfold step register
    dsimp only
    split
    · exact .refl s
    · split
      · exact .refl s
      · exact quiet_setModel s _ _
  | setData hd d =>
    unfold step setData
    dsimp only
    split
    · exact .refl s
    · exact quiet_setModel s hd _
  | loadEnter t hd =>
    unfold step loadEnter
    dsimp only
    split
    · split
      · exact .refl s
      · exact quiet_setThread s t rfl
    · exact .refl s
  | swapEnter t old new =>
    unfold step swapEnter
    dsimp only
    split
    · split
      · exact .refl s
      · exact quiet_setThread s t rfl
    · exact .refl s
  | unloadEnter t hd =>
    unfold step unloadEnter
    dsimp only
    split
    · exact quiet_unloadChecks t hd false rfl s
    · exact .refl s
  | unregisterEnter t hd =>
    unfold step unregisterEnter
    dsimp only
    split
    · split
      · exact .refl s
      · exact quiet_setThread s t rfl
    · exact .refl s
  | unregisterUnload t =>
    unfold step unregisterUnload
    dsimp only
    split
    · split
      · exact quiet_unloadChecks t _ true rfl s
      · exact quiet_setThread s t rfl
    · exact .refl s
  | unregisterRemove t =>
    unfold step unregisterRemove
    dsimp only
    split
    · exact (quiet_setModel s _ _).trans (quiet_setThread _ t rfl)
    · exact .refl s
  | quiesce t =>
    unfold step quiesce
    dsimp only
    split
    · split
      · exact .refl s
      · refine ⟨⟨rfl, rfl, rfl, rfl⟩, rfl, rfl, rfl, waits_update ?_ t⟩
        split <;> rfl
    · exact .refl s
  | drained t =>
    unfold step drained
    dsimp only
    split
    · split
      · exact ⟨⟨rfl, rfl, rfl, rfl⟩, rfl, rfl, rfl, waits_update rfl t⟩
      · exact .refl s
    · exact .refl s
  | change t res =>
    unfold step change
    dsimp only
    split
    · rename_i c _
      have h := (quiet_apply c res s).trans (quiet_setThread _ t c.next_waits)
      exact h.trans ⟨⟨rfl, rfl, rfl, rfl⟩, rfl, rfl, rfl, fun _ => .inl rfl⟩
    · exact .refl s
  | _ => cases h

theorem quiet_of_builder (s : Sched cfg) (o : Op cfg) (h : o.ofBuilder = true) :
    Quiet s (step s o) := by
  cases o with
  | create =>
    unfold step create
    dsimp only
    split
    · exact .refl s
    · exact quiet_setPipe s _ _
  | addEnter t p st hd =>
    unfold step addEnter
    dsimp only
    split
    · split
      · exact quiet_setThread s t rfl
      · exact .refl s
    · exact .refl s
  | addWrite t =>
    unfold step addWrite
    dsimp only
    split
    · exact (quiet_setPipe s _ _).trans (quiet_setThread _ t rfl)
    · exact .refl s
  | buildEnter t p =>
    unfold step buildEnter
    dsimp only
    split
    · split
      · exact quiet_setThread s t rfl
      · exact .refl s
    · exact .refl s
  | buildWrite t =>
    unfold step buildWrite
    dsimp only
    split
    · exact (quiet_setPipe s _ _).trans (quiet_setThread _ t rfl)
    · exact .refl s
  | destroyEnter t p =>
    unfold step destroyEnter
    dsimp only
    split
    · split
      · exact quiet_setThread s t rfl
      · exact .refl s
    · exact .refl s
  | submitEnter t p params =>
    unfold step submitEnter
    dsimp only
    split
    · split
      · exact quiet_setThread s t rfl
      · exact .refl s
    · exact .refl s
  | setMaxConcurrent n =>
    unfold step setMaxConcurrent
    dsimp only
    split
    · exact ⟨⟨rfl, rfl, rfl, rfl⟩, rfl, rfl, rfl, fun _ => .inl rfl⟩
    · exact .refl s
  | _ => cases h

/-- A wait before and after its use of the semaphore. -/
theorem sameJobs_waitEnter (t : Fin cfg.threads) (n : Nat) (s : Sched cfg) : SameJobs s (waitEnter t n s) := by
  unfold waitEnter
  split
  · split <;> exact ⟨rfl, rfl, rfl, rfl⟩
  · exact ⟨rfl, rfl, rfl, rfl⟩

theorem sameJobs_waitTimeout (t : Fin cfg.threads) (s : Sched cfg) : SameJobs s (waitTimeout t s) := by
  unfold waitTimeout
  split <;> exact ⟨rfl, rfl, rfl, rfl⟩

-- ---------------------------------------------------------------------------
-- Operations that leave the pipelines and the numbers alone
-- ---------------------------------------------------------------------------

/-- The pipelines, and the next numbers that a submission takes. -/
def Sched.kept (s : Sched cfg) : (Fin maxPipelines → Pipe) × Nat × Nat :=
  (s.pipes, s.nextSeq, s.nextId)

theorem kept_unloadChecks (t : Fin cfg.threads) (h : Handle) (last : Bool) (next : Thread cfg)
    (s : Sched cfg) : (unloadChecks t h last next s).kept = s.kept := by
  unfold unloadChecks
  split
  · rfl
  · split
    · rfl
    · dsimp only
      split <;> rfl

theorem kept_doLoad (h : Handle) (res : Ret) (s : Sched cfg) : (doLoad h res s).kept = s.kept := by
  unfold doLoad
  split
  · rfl
  · split <;> rfl

theorem kept_apply (c : Change) (res : Ret) (s : Sched cfg) : (c.apply res s).kept = s.kept := by
  cases c with
  | load h => exact kept_doLoad h res s
  | unload h last => rfl
  | swap old new =>
    unfold Change.apply
    dsimp only
    split
    · rfl
    · exact kept_doLoad new res _

theorem kept_of_registry (s : Sched cfg) (o : Op cfg) (h : o.ofRegistry = true) :
    (step s o).kept = s.kept := by
  cases o with
  | unloadEnter t hd =>
    unfold step unloadEnter
    dsimp only
    split
    · exact kept_unloadChecks ..
    · rfl
  | unregisterUnload t =>
    unfold step unregisterUnload
    dsimp only
    split
    · split
      · exact kept_unloadChecks ..
      · rfl
    · rfl
  | change t res =>
    unfold step change
    dsimp only
    split
    · exact kept_apply _ res s
    · rfl
  | register name =>
    unfold step register
    dsimp only
    repeat' split
    all_goals rfl
  | setData hd d =>
    unfold step setData
    dsimp only
    split <;> rfl
  | loadEnter t hd =>
    unfold step loadEnter
    dsimp only
    repeat' split
    all_goals rfl
  | swapEnter t old new =>
    unfold step swapEnter
    dsimp only
    repeat' split
    all_goals rfl
  | unregisterEnter t hd =>
    unfold step unregisterEnter
    dsimp only
    repeat' split
    all_goals rfl
  | unregisterRemove t =>
    unfold step unregisterRemove
    dsimp only
    split <;> rfl
  | quiesce t =>
    unfold step quiesce
    dsimp only
    repeat' split
    all_goals rfl
  | drained t =>
    unfold step drained
    dsimp only
    repeat' split
    all_goals rfl
  | _ => cases h

theorem pipes_of_registry (s : Sched cfg) (o : Op cfg) (h : o.ofRegistry = true) :
    (step s o).pipes = s.pipes := congrArg (·.1) (kept_of_registry s o h)

theorem nextSeq_of_registry (s : Sched cfg) (o : Op cfg) (h : o.ofRegistry = true) :
    (step s o).nextSeq = s.nextSeq := congrArg (·.2.1) (kept_of_registry s o h)

theorem nextId_of_registry (s : Sched cfg) (o : Op cfg) (h : o.ofRegistry = true) :
    (step s o).nextId = s.nextId := congrArg (·.2.2) (kept_of_registry s o h)

theorem numbers_of_builder (s : Sched cfg) (o : Op cfg) (h : o.ofBuilder = true) :
    (step s o).nextSeq = s.nextSeq ∧ (step s o).nextId = s.nextId := by
  cases o with
  | create | addEnter | addWrite | buildEnter | buildWrite | destroyEnter | submitEnter
  | setMaxConcurrent =>
    simp only [step, create, addEnter, addWrite, buildEnter, buildWrite, destroyEnter, submitEnter,
      setMaxConcurrent]
    repeat' split
    all_goals exact ⟨rfl, rfl⟩
  | _ => cases h

/-- The checks before a lock. -/
def Op.checks : Op cfg → Bool
  | .addEnter _ _ _ _ | .buildEnter _ _ | .destroyEnter _ _ | .submitEnter _ _ _
  | .setMaxConcurrent _ | .waitEnter _ _ | .waitTimeout _ => true
  | _ => false

theorem pipes_of_checks (s : Sched cfg) (o : Op cfg) (h : o.checks = true) :
    (step s o).pipes = s.pipes ∧ (step s o).jobs = s.jobs := by
  cases o with
  | addEnter t p st hd =>
    unfold step addEnter
    dsimp only
    repeat' split
    all_goals exact ⟨rfl, rfl⟩
  | buildEnter t p =>
    unfold step buildEnter
    dsimp only
    repeat' split
    all_goals exact ⟨rfl, rfl⟩
  | destroyEnter t p =>
    unfold step destroyEnter
    dsimp only
    repeat' split
    all_goals exact ⟨rfl, rfl⟩
  | submitEnter t p params =>
    unfold step submitEnter
    dsimp only
    repeat' split
    all_goals exact ⟨rfl, rfl⟩
  | setMaxConcurrent n =>
    unfold step setMaxConcurrent
    dsimp only
    split <;> exact ⟨rfl, rfl⟩
  | waitEnter t n =>
    unfold step waitEnter
    dsimp only
    repeat' split
    all_goals exact ⟨rfl, rfl⟩
  | waitTimeout t =>
    unfold step waitTimeout
    dsimp only
    split <;> exact ⟨rfl, rfl⟩
  | _ => cases h

-- ---------------------------------------------------------------------------
-- Looking for a job
-- ---------------------------------------------------------------------------

theorem findJob_id (h : findJob s n = some j) : (s.jobs j).state ≠ .free ∧ (s.jobs j).id = n :=
  Table.findJob_id h

theorem freeJob_free (h : freeJob s = some j) : (s.jobs j).state = .free := Table.freeJob_free h

theorem freeSlot_none (h : freeSlot s = some k) : s.ctx k = none := by
  have := List.find?_some h
  simpa using this

/-- The job that is picked is queued or suspended. -/
theorem pickNextJob_runnable (h : pickNextJob s = some j) :
    (s.jobs j).state = .queued ∨ (s.jobs j).state = .suspended := by
  simpa [Entry.runnable] using Table.pickNextJob_runnable h

-- ---------------------------------------------------------------------------
-- The running job
-- ---------------------------------------------------------------------------

/-- The job that the scheduler thread executes. -/
def Pc.job : Pc cfg → Option (Fin cfg.jobs)
  | .start j | .stage j _ | .layer j _ | .saved j _ _ | .left j _ => some j
  | _ => none

/-- One job is `RUNNING`, the one that the scheduler thread executes. -/
def RunningOk (s : Sched cfg) : Prop := ∀ j, (s.jobs j).state = .running ↔ s.pc.job = some j

theorem RunningOk.of_states (h : RunningOk s) (hp : s'.pc.job = s.pc.job)
    (hj : ∀ j, (s'.jobs j).state = .running ↔ (s.jobs j).state = .running) : RunningOk s' :=
  fun j => by rw [hj, hp]; exact h j

theorem RunningOk.of_sameJobs (h : RunningOk s) (hp : s'.pc.job = s.pc.job)
    (hj : s'.jobs = s.jobs) : RunningOk s' := h.of_states hp fun j => by rw [hj]

theorem RunningOk.of_calm (h : RunningOk s) (hs : SameJobs s s') : RunningOk s' :=
  h.of_sameJobs (by rw [hs.pc]) hs.jobs

theorem RunningOk.of_set (h : RunningOk s) (hj : s'.jobs = Function.update s.jobs j x)
    (hp : s'.pc.job = s.pc.job) (hx : x.state = .running ↔ (s.jobs j).state = .running) :
    RunningOk s' := by
  refine h.of_states hp fun i => ?_
  rw [hj, Function.update_apply]
  split
  · rename_i he
    rw [he, hx]
  · exact Iff.rfl

/-- Jobs that neither ran nor run. -/
theorem RunningOk.of_other (h : RunningOk s) (hj : s'.jobs = Function.update s.jobs j x)
    (hp : s'.pc.job = s.pc.job) (hx : x.state ≠ .running) (hs : (s.jobs j).state ≠ .running) :
    RunningOk s' :=
  h.of_set hj hp ⟨fun h => absurd h hx, fun h => absurd h hs⟩

/-- The jobs that destroying pipeline `p` cancels. -/
def Job.doomed (p : Fin maxPipelines) (job : Job) : Prop :=
  (job.state = .queued ∨ job.state = .suspended) ∧ job.pipe = p

instance (p : Fin maxPipelines) (job : Job) : Decidable (job.doomed p) := by
  unfold Job.doomed; infer_instance

theorem destroyJob_of_doomed (h : job.doomed p) : destroyJob p job =
    { job with
      ctxSlot := if job.state = .suspended then none else job.ctxSlot
      state := .cancelled, result := ecanceled, done := true } := by
  obtain ⟨hw, hp⟩ := h
  unfold destroyJob
  by_cases h1 : job.state = .suspended
  · simp [h1, hp]
  · have h2 : job.state = .queued := hw.resolve_right h1
    simp [h2, hp]

theorem destroyJob_of_not_doomed (h : ¬job.doomed p) : destroyJob p job =
    { job with ctxSlot := if job.state = .suspended then none else job.ctxSlot } := by
  unfold destroyJob
  unfold Job.doomed at h
  by_cases h1 : job.state = .suspended
  · have hp : job.pipe ≠ p := fun hp => h ⟨.inr h1, hp⟩
    simp [h1, hp]
  · simp only [h1, ↓reduceIte]
    rw [if_neg fun hw => h (by simpa [h1] using hw)]

theorem destroyJob_running (p : Fin maxPipelines) (job : Job) :
    (destroyJob p job).state = .running ↔ job.state = .running := by
  by_cases h : job.doomed p
  · rw [destroyJob_of_doomed h]
    refine ⟨fun h' => (nomatch h'), fun h' => ?_⟩
    have hw := h.1
    rw [h'] at hw
    rcases hw with hw | hw <;> cases hw
  · rw [destroyJob_of_not_doomed h]

theorem runningOk_schedule (h : RunningOk s) (res : Ret) (layers : Option Nat) :
    RunningOk (schedule res layers s) := by
  have hend : ∀ (s : Sched cfg) (j : Fin cfg.jobs) (i : Nat) (r : Ret), RunningOk s →
      s.pc.job = some j → RunningOk (endModel s j i r) := by
    intro s j i r h hp
    unfold endModel
    split
    · exact h.of_sameJobs hp.symm rfl
    · split
      · exact h.of_set rfl hp.symm Iff.rfl
      · exact h.of_sameJobs hp.symm rfl
  unfold schedule
  split
  · exact h
  · rename_i j hp
    have hp' : s.pc.job = some j := by rw [hp]; rfl
    unfold enterPipeline
    dsimp only
    repeat' split
    all_goals exact h.of_sameJobs hp'.symm rfl
  · rename_i j i hp
    have hp' : s.pc.job = some j := by rw [hp]; rfl
    unfold runStage
    dsimp only
    split
    · exact h.of_sameJobs hp'.symm rfl
    · split
      · have hset : RunningOk (s.setJob j fun job => { job with resuming := false }) :=
          h.of_set rfl rfl Iff.rfl
        unfold resume
        dsimp only
        split
        · exact hset.of_sameJobs hp'.symm rfl
        · split
          · exact hset.of_sameJobs hp'.symm rfl
          · exact hset.of_set rfl hp'.symm Iff.rfl
      · split
        · exact hend s j i _ h hp'
        · exact hend s j i _ h hp'
        · exact h.of_sameJobs hp'.symm rfl
    · split <;> exact h.of_sameJobs hp'.symm rfl
  · rename_i j i hp
    have hp' : s.pc.job = some j := by rw [hp]; rfl
    unfold runLayer
    split
    · exact hend s j i _ h hp'
    · refine hend _ j i _ ?_ hp'
      exact h.of_sameJobs rfl rfl
    · split
      · split <;> exact h.of_sameJobs hp'.symm rfl
      · exact h.of_sameJobs hp'.symm rfl
  · rename_i j i k hp
    exact h.of_set rfl (by rw [hp]; rfl) Iff.rfl
  · rename_i j ret hp
    have hp' : s.pc.job = some j := by rw [hp]; rfl
    -- the job that ran runs no more
    have hset : ∀ (s' : Sched cfg) (x : Job), s'.jobs = Function.update s.jobs j x →
        s'.pc.job = none → x.state ≠ .running → RunningOk s' := by
      intro s' x hj hpc hx i
      rw [hj, hpc, Function.update_apply]
      split
      · exact ⟨fun h' => absurd h' hx, fun h' => nomatch h'⟩
      · rename_i hne
        rw [h i, hp']
        exact ⟨fun h' => absurd (Option.some.inj h').symm hne, fun h' => nomatch h'⟩
    unfold settle
    split
    · exact hset _ { s.jobs j with state := .suspended } rfl rfl (fun h' => nomatch h')
    · refine hset _ { s.jobs j with result := ret, state := if ret = 0 then .done else .error } rfl
        rfl ?_
      dsimp only
      split <;> exact fun h' => nomatch h'
  · rename_i hp
    exact h.of_sameJobs (by rw [hp]; rfl) rfl
  · rename_i hp
    exact h.of_sameJobs (by rw [hp]; rfl) rfl
  · rename_i hp
    exact h.of_set rfl (by rw [hp]; rfl) Iff.rfl

theorem runningOk_step (h : RunningOk s) (o : Op cfg) : RunningOk (step s o) := by
  cases o with
  | destroyLock t =>
    unfold step destroyLock
    dsimp only
    split
    · exact h.of_states rfl fun j => destroyJob_running _ (s.jobs j)
    · exact h
  | submitLock t now =>
    unfold step submitLock
    dsimp only
    split
    · split
      · exact h.of_sameJobs rfl rfl
      · rename_i j hf
        exact h.of_other (j := j) rfl rfl (fun h' => nomatch h')
          (by rw [freeJob_free hf]; exact fun h' => nomatch h')
    · exact h
  | cancel n =>
    unfold step cancel
    dsimp only
    split
    · exact h
    · rename_i j _
      split
      · rename_i hs
        exact h.of_other (j := j) rfl rfl (fun h' => nomatch h')
          (by rw [hs]; exact fun h' => nomatch h')
      · rename_i hs
        have hd : RunningOk (dropCtx s j) := h.of_set rfl rfl Iff.rfl
        have hst : ((dropCtx s j).jobs j).state = .suspended := by
          have hj : (dropCtx s j).jobs j = { s.jobs j with ctxSlot := none } :=
            Function.update_self ..
          rw [hj]
          exact hs
        exact hd.of_other (j := j) rfl rfl (fun h' => nomatch h')
          (by rw [hst]; exact fun h' => nomatch h')
      · exact h
  | getResult n =>
    unfold step getResult
    dsimp only
    split
    · exact h
    · rename_i j _
      split
      · rename_i hs
        exact h.of_other (j := j) rfl rfl (fun h' => nomatch h')
          (by rw [hs]; exact fun h' => nomatch h')
      · rename_i hs
        exact h.of_other (j := j) rfl rfl (fun h' => nomatch h')
          (by rw [hs]; exact fun h' => nomatch h')
      · rename_i hs
        exact h.of_other (j := j) rfl rfl (fun h' => nomatch h')
          (by rw [hs]; exact fun h' => nomatch h')
      · exact h
  | waitStep t =>
    unfold step waitStep
    dsimp only
    split
    · exact h.of_sameJobs rfl rfl
    · split
      · exact h.of_set rfl rfl Iff.rfl
      · exact h.of_sameJobs rfl rfl
    · split
      · exact h.of_set rfl rfl Iff.rfl
      · exact h
    · exact h.of_set rfl rfl Iff.rfl
    · split <;> exact h.of_sameJobs rfl rfl
    · exact h.of_sameJobs rfl rfl
    · exact h
  | dispatch =>
    unfold step dispatch
    dsimp only
    split
    · rename_i hp
      split
      · exact h.of_sameJobs rfl rfl
      · split
        · exact h.of_sameJobs rfl rfl
        · rename_i j _
          intro i
          show (Function.update s.jobs j _ i).state = .running ↔ some j = some i
          rw [Function.update_apply]
          split
          · rename_i he
            exact ⟨fun _ => by rw [he], fun _ => rfl⟩
          · rename_i hne
            rw [h i, hp.1]
            exact ⟨fun h' => (nomatch h'), fun h' => absurd (Option.some.inj h').symm hne⟩
    · exact h
  | schedule res layers => exact runningOk_schedule h res layers
  | waitEnter t n => exact h.of_calm (sameJobs_waitEnter t n s)
  | waitTimeout t => exact h.of_calm (sameJobs_waitTimeout t s)
  | create | addEnter | addWrite | buildEnter | buildWrite | destroyEnter | submitEnter
  | setMaxConcurrent => exact h.of_calm (quiet_of_builder s _ rfl).same
  | _ => exact h.of_calm (quiet_of_registry s _ rfl).same

theorem RunningOk.init : RunningOk (Sched.init cfg) := fun _ =>
  ⟨fun h => (nomatch h), fun h => (nomatch h)⟩

-- ---------------------------------------------------------------------------
-- A small system
-- ---------------------------------------------------------------------------

abbrev twoJobs : Cfg := ⟨2, 8, 4, 2⟩

theorem zero_or_one (j : Fin twoJobs.jobs) : j = 0 ∨ j = 1 := by
  revert j
  decide

/-- Job ids go round, without the invalid one. -/
def idAt (n : Nat) : Nat := n % (2 ^ 32 - 1) + 1

def plain : Params := ⟨0, 0, false⟩

theorem idAt_succ (n : Nat) :
    idAt (n + 1) = if (idAt n + 1) % 2 ^ 32 = 0 then 1 else (idAt n + 1) % 2 ^ 32 := by
  unfold idAt
  split <;> omega

/-- A model is registered and loaded. -/
def modelOps (name h : Nat) : List (Op twoJobs) :=
  [.register name, .loadEnter 0 h, .quiesce 0, .change 0 0]

/-- A pipeline of one model stage. -/
def pipeOps (p : Fin maxPipelines) (h : Nat) : List (Op twoJobs) :=
  [.create, .addEnter 0 p .model h, .addWrite 0, .buildEnter 0 p, .buildWrite 0]

def submitOps (p : Fin maxPipelines) (params : Params) : List (Op twoJobs) :=
  [.submitEnter 0 p params, .submitLock 0 0]

/-- The scheduler thread takes `n` steps in which nothing fails. -/
def scheduleOps (n layers : Nat) : List (Op twoJobs) :=
  List.replicate n (.schedule 0 (some layers))

/-- Job 0 is suspended after one of three layers; job 1 is queued. -/
def suspendOps : List (Op twoJobs) :=
  modelOps 7 1 ++ pipeOps 0 1 ++ pipeOps 1 1 ++ submitOps 0 ⟨0, 0, true⟩ ++
    .dispatch :: scheduleOps 2 3 ++ submitOps 1 ⟨2, 0, false⟩ ++ scheduleOps 4 0

/-- Job 1 runs to its end, and job 0 is resumed and ends. -/
def resumeOps : List (Op twoJobs) :=
  .dispatch :: scheduleOps 6 0 ++ .dispatch :: scheduleOps 9 0

end SynapticOS.Infer
