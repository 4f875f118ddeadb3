import SynapticOS.Infer.SchedLaws
import SynapticOS.Lib.Run

/-!
# Live jobs use live pipelines

Where no pipeline is destroyed under its running job, and what a submission or an
added stage checked before the lock still holds after it, every job that is not
complete finds its pipeline as it was submitted (`live_pipes`).
-/

namespace SynapticOS.Infer

open Lib

variable {cfg : Cfg} {s s' : Sched cfg}

/-- Every queued, running or suspended job's pipeline is in use and built, and has
the stages it had at the submission. -/
def PipesLive (s : Sched cfg) : Prop :=
  ∀ j, (s.jobs j).state.active = true → (s.pipes (s.jobs j).pipe).inUse = true ∧
    (s.pipes (s.jobs j).pipe).built = true ∧
    (s.pipes (s.jobs j).pipe).stages = (s.jobs j).asked.stages

/-- The pipeline that a thread is about to change or to submit a job for. -/
def Thread.pipe : Thread cfg → Option (Fin maxPipelines)
  | .adding p _ _ | .destroying p | .submitting p _ => some p
  | _ => none

/-- What the steps that change pipelines or submit jobs must find. -/
def PipeSafe (s : Sched cfg) : Op cfg → Prop
  | .destroyLock t => ∀ p, (s.threads t).pipe = some p →
    ∀ j, (s.jobs j).state = .running → (s.jobs j).pipe ≠ p
  | .submitLock t _ => ∀ p, (s.threads t).pipe = some p →
    (s.pipes p).inUse = true ∧ (s.pipes p).built = true
  | .addWrite t => ∀ p, (s.threads t).pipe = some p → (s.pipes p).built = false
  | _ => True

instance (s : Sched cfg) (o : Op cfg) : Decidable (PipeSafe s o) := by
  unfold PipeSafe
  cases o <;> dsimp only <;> infer_instance

-- ---------------------------------------------------------------------------
-- Steps that keep pipelines
-- ---------------------------------------------------------------------------

/-- Jobs may end, but the ones that are left were there. -/
theorem PipesLive.of_jobs (h : PipesLive s) (hp : s'.pipes = s.pipes)
    (hj : ∀ j, (s'.jobs j).state.active = true → (s.jobs j).state.active = true ∧
      (s'.jobs j).pipe = (s.jobs j).pipe ∧ (s'.jobs j).asked = (s.jobs j).asked) :
    PipesLive s' := by
  intro j ha
  obtain ⟨ha', hpipe, hasked⟩ := hj j ha
  rw [hp, hpipe, hasked]
  exact h j ha'

theorem PipesLive.of_sameJobs (h : PipesLive s) (hp : s'.pipes = s.pipes)
    (hj : s'.jobs = s.jobs) : PipesLive s' :=
  h.of_jobs hp fun j ha => by rw [hj] at ha ⊢; exact ⟨ha, rfl, rfl⟩

theorem PipesLive.of_set (h : PipesLive s) (hj : s'.jobs = Function.update s.jobs j x)
    (hp : s'.pipes = s.pipes)
    (hx : x.state.active = true → (s.jobs j).state.active = true ∧
      x.pipe = (s.jobs j).pipe ∧ x.asked = (s.jobs j).asked) : PipesLive s' := by
  refine h.of_jobs hp fun i ha => ?_
  rw [hj, Function.update_apply] at ha ⊢
  split at ha
  · rename_i he
    rw [if_pos he, he]
    exact hx ha
  · rename_i hne
    rw [if_neg hne]
    exact ⟨ha, rfl, rfl⟩

/-- Pipelines that no job needs may change. -/
theorem PipesLive.of_pipe (h : PipesLive s) (hj : s'.jobs = s.jobs)
    (hp : ∀ q, (s.pipes q).inUse = true → (s.pipes q).built = true → s'.pipes q = s.pipes q) :
    PipesLive s' := by
  intro j ha
  rw [hj] at ha ⊢
  obtain ⟨hu, hb, -⟩ := h j ha
  rw [hp _ hu hb]
  exact h j ha

theorem pipesLive_create (h : PipesLive s) : PipesLive (create s) := by
  unfold create
  split
  · exact h
  · rename_i p hf
    refine h.of_pipe rfl fun q hu _ => Function.update_of_ne ?_ _ _
    rintro rfl
    have := List.find?_some hf
    simp [hu] at this

theorem pipesLive_addWrite (h : PipesLive s) (t : Fin cfg.threads)
    (hs : ∀ p, (s.threads t).pipe = some p → (s.pipes p).built = false) :
    PipesLive (addWrite t s) := by
  unfold addWrite
  split
  · rename_i p st hd ht
    refine h.of_pipe rfl fun q _ hb => Function.update_of_ne ?_ _ _
    rintro rfl
    rw [hs q (by rw [ht]; rfl)] at hb
    cases hb
  · exact h

theorem pipesLive_buildWrite (h : PipesLive s) (t : Fin cfg.threads) : PipesLive (buildWrite t s) := by
  unfold buildWrite
  split
  · rename_i p _
    refine h.of_pipe rfl fun q _ hb => ?_
    show Function.update s.pipes p _ q = s.pipes q
    rw [Function.update_apply]
    split
    · rename_i he
      subst he
      rw [← hb]
    · rfl
  · exact h

theorem pipesLive_destroyPipe (h : PipesLive s) (p : Fin maxPipelines)
    (hs : ∀ j, (s.jobs j).state = .running → (s.jobs j).pipe ≠ p) :
    PipesLive (destroyPipe p s) := by
  intro j ha
  have hjob : (destroyJob p (s.jobs j)).state = (s.jobs j).state ∧
      (destroyJob p (s.jobs j)).pipe = (s.jobs j).pipe ∧
      (destroyJob p (s.jobs j)).asked = (s.jobs j).asked ∧ (s.jobs j).pipe ≠ p := by
    have ha' : (destroyJob p (s.jobs j)).state.active = true := ha
    unfold destroyJob at ha' ⊢
    dsimp only at ha' ⊢
    by_cases hw : (s.jobs j).state = .queued ∨ (s.jobs j).state = .suspended
    · by_cases hp : (s.jobs j).pipe = p
      · exfalso
        by_cases h1 : (s.jobs j).state = .suspended <;> simp [h1, hp, JobState.active] at ha'
        simp [h1] at hw
        simp [hw] at ha'
      · by_cases h1 : (s.jobs j).state = .suspended <;> simp [h1, hp]
    · rw [if_neg (fun h1 => hw (.inr h1))] at ha' ⊢
      rw [if_neg (fun h1 => hw (by simpa using h1.1))] at ha' ⊢
      refine ⟨rfl, rfl, rfl, hs j ?_⟩
      cases hst : (s.jobs j).state <;> rw [hst] at ha' hw <;> simp [JobState.active] at ha' hw ⊢
  obtain ⟨hst, hpipe, hasked, hne⟩ := hjob
  show (Function.update s.pipes p _ (destroyJob p (s.jobs j)).pipe).inUse = true ∧ _
  have ha' : (s.jobs j).state.active = true := by rw [← hst]; exact ha
  have hq : (destroyPipe p s).pipes ((destroyPipe p s).jobs j).pipe = s.pipes (s.jobs j).pipe := by
    show Function.update s.pipes p _ (destroyJob p (s.jobs j)).pipe = _
    rw [hpipe, Function.update_of_ne hne]
  obtain ⟨h1, h2, h3⟩ := h j ha'
  refine ⟨?_, ?_, ?_⟩
  · exact (congrArg Pipe.inUse hq).trans h1
  · exact (congrArg Pipe.built hq).trans h2
  · exact (congrArg Pipe.stages hq).trans (h3.trans (congrArg Pipe.stages hasked).symm)

theorem pipesLive_submitLock (h : PipesLive s) (t : Fin cfg.threads) (now : Nat)
    (hs : ∀ p, (s.threads t).pipe = some p → (s.pipes p).inUse = true ∧ (s.pipes p).built = true) : PipesLive (submitLock t now s) := by
  unfold submitLock
  split
  · rename_i p params ht
    split
    · exact h.of_sameJobs rfl rfl
    · rename_i j hf
      intro i ha
      by_cases hi : i = j
      · subst hi
        obtain ⟨hu, hb⟩ := hs p (by rw [ht]; rfl)
        have hjob : (((submitJob s i p params now).setThread t .idle).giveWake).jobs i =
            _ := Function.update_self ..
        rw [hjob]
        exact ⟨hu, hb, rfl⟩
      · have hjob : (((submitJob s j p params now).setThread t .idle).giveWake).jobs i = s.jobs i :=
          Function.update_of_ne hi _ _
        rw [hjob] at ha ⊢
        exact h i ha
  · exact h

theorem pipesLive_cancelJob (h : PipesLive s) (j : Fin cfg.jobs) : PipesLive (cancelJob s j) :=
  h.of_set rfl rfl fun ha => nomatch ha

theorem pipesLive_dropCtx (h : PipesLive s) (j : Fin cfg.jobs) : PipesLive (dropCtx s j) :=
  h.of_set rfl rfl fun ha => ⟨ha, rfl, rfl⟩

theorem pipesLive_cancel (h : PipesLive s) (n : Nat) : PipesLive (cancel n s) := by
  unfold cancel
  split
  · exact h
  · split
    · exact pipesLive_cancelJob h _
    · exact pipesLive_cancelJob (pipesLive_dropCtx h _) _
    · exact h

theorem pipesLive_getResult (h : PipesLive s) (n : Nat) : PipesLive (getResult n s) := by
  unfold getResult
  split
  · exact h
  · split
    · exact h.of_set rfl rfl fun ha => nomatch ha
    · exact h.of_set rfl rfl fun ha => nomatch ha
    · exact h.of_set rfl rfl fun ha => nomatch ha
    · exact h

theorem pipesLive_waitStep (h : PipesLive s) (t : Fin cfg.threads) : PipesLive (waitStep t s) := by
  unfold waitStep
  split
  · exact h.of_sameJobs rfl rfl
  · split
    · exact h.of_set rfl rfl fun ha => ⟨ha, rfl, rfl⟩
    · exact h.of_sameJobs rfl rfl
  · split
    · exact h.of_set rfl rfl fun ha => ⟨ha, rfl, rfl⟩
    · exact h
  · exact h.of_set rfl rfl fun ha => ⟨ha, rfl, rfl⟩
  · split <;> exact h.of_sameJobs rfl rfl
  · exact h.of_sameJobs rfl rfl
  · exact h

theorem pipesLive_dispatch (h : PipesLive s) : PipesLive (dispatch s) := by
  unfold dispatch
  split
  · dsimp only
    split
    · exact h.of_sameJobs rfl rfl
    · split
      · exact h.of_sameJobs rfl rfl
      · rename_i j hj
        refine h.of_set rfl rfl fun _ => ⟨?_, rfl, rfl⟩
        rcases pickNextJob_runnable hj with hst | hst
        · show (s.jobs j).state.active = true
          rw [show (s.jobs j).state = .queued from hst]
          rfl
        · show (s.jobs j).state.active = true
          rw [show (s.jobs j).state = .suspended from hst]
          rfl
  · exact h

-- ---------------------------------------------------------------------------
-- The scheduler thread
-- ---------------------------------------------------------------------------

theorem pipesLive_endModel (h : PipesLive s) (j : Fin cfg.jobs) (i : Nat) (res : Ret) :
    PipesLive (endModel s j i res) := by
  unfold endModel
  split
  · exact h.of_sameJobs rfl rfl
  · split
    · exact h.of_set rfl rfl fun ha => ⟨ha, rfl, rfl⟩
    · exact h.of_sameJobs rfl rfl

theorem pipesLive_enterPipeline (h : PipesLive s) (j : Fin cfg.jobs) (res : Ret) :
    PipesLive (enterPipeline s j res) := by
  unfold enterPipeline
  dsimp only
  repeat' split
  all_goals exact h.of_sameJobs rfl rfl

theorem pipesLive_resume (h : PipesLive s) (j : Fin cfg.jobs) (i : Nat) :
    PipesLive (resume s j i) := by
  have h' : PipesLive (s.setJob j fun job => { job with resuming := false }) :=
    h.of_set rfl rfl fun ha => ⟨ha, rfl, rfl⟩
  unfold resume
  dsimp only
  split
  · exact h'.of_sameJobs rfl rfl
  · split
    · exact h'.of_sameJobs rfl rfl
    · exact h'.of_set rfl rfl fun ha => ⟨ha, rfl, rfl⟩

theorem pipesLive_runStage (h : PipesLive s) (j : Fin cfg.jobs) (i : Nat) (res : Ret)
    (layers : Option Nat) : PipesLive (runStage s j i res layers) := by
  unfold runStage
  dsimp only
  split
  · exact h.of_sameJobs rfl rfl
  · split
    · exact pipesLive_resume h j i
    · split
      · exact pipesLive_endModel h j i _
      · exact pipesLive_endModel h j i _
      · exact h.of_sameJobs rfl rfl
  · split <;> exact h.of_sameJobs rfl rfl

theorem pipesLive_runLayer (h : PipesLive s) (j : Fin cfg.jobs) (i : Nat) (res : Ret) :
    PipesLive (runLayer s j i res) := by
  unfold runLayer
  split
  · exact pipesLive_endModel h j i _
  · refine pipesLive_endModel ?_ j i _
    exact h.of_sameJobs rfl rfl
  · split
    · split <;> exact h.of_sameJobs rfl rfl
    · exact h.of_sameJobs rfl rfl

theorem pipesLive_settle (h : PipesLive s) (j : Fin cfg.jobs) (ret : Ret)
    (hr : (s.jobs j).state = .running) : PipesLive (settle s j ret) := by
  unfold settle
  split
  · exact h.of_set rfl rfl fun _ => ⟨by rw [hr]; rfl, rfl, rfl⟩
  · refine h.of_set rfl rfl fun ha => ?_
    dsimp only at ha
    split at ha <;> cases ha

theorem pipesLive_schedule (h : PipesLive s) (hr : RunningOk s) (res : Ret) (layers : Option Nat) :
    PipesLive (schedule res layers s) := by
  unfold schedule
  split
  · exact h
  · exact pipesLive_enterPipeline h _ res
  · exact pipesLive_runStage h _ _ res layers
  · exact pipesLive_runLayer h _ _ res
  · exact h.of_set rfl rfl fun ha => ⟨ha, rfl, rfl⟩
  · rename_i hp
    exact pipesLive_settle h _ _ ((hr _).mpr (by rw [hp]; rfl))
  · exact h.of_sameJobs rfl rfl
  · exact h.of_sameJobs rfl rfl
  · exact h.of_set rfl rfl fun ha => ⟨ha, rfl, rfl⟩

-- ---------------------------------------------------------------------------
-- Runs
-- ---------------------------------------------------------------------------

theorem pipesLive_step (h : PipesLive s) (hr : RunningOk s) (o : Op cfg) (hs : PipeSafe s o) :
    PipesLive (step s o) := by
  cases o with
  | destroyLock t =>
    unfold step destroyLock
    dsimp only
    split
    · rename_i p hp
      exact (pipesLive_destroyPipe h p (hs p (by rw [hp]; rfl))).of_sameJobs rfl rfl
    · exact h
  | create => exact pipesLive_create h
  | addWrite t => exact pipesLive_addWrite h t hs
  | buildWrite t => exact pipesLive_buildWrite h t
  | submitLock t now => exact pipesLive_submitLock h t now hs
  | cancel n => exact pipesLive_cancel h n
  | getResult n => exact pipesLive_getResult h n
  | waitStep t => exact pipesLive_waitStep h t
  | dispatch => exact pipesLive_dispatch h
  | schedule res layers => exact pipesLive_schedule h hr res layers
  | addEnter | buildEnter | destroyEnter | submitEnter | setMaxConcurrent | waitEnter
  | waitTimeout =>
    exact h.of_sameJobs (pipes_of_checks s _ rfl).1 (pipes_of_checks s _ rfl).2
  | _ => exact h.of_sameJobs (pipes_of_registry s _ rfl) (quiet_of_registry s _ rfl).same.jobs

theorem PipesLive.init : PipesLive (Sched.init cfg) := fun _ h => nomatch h

/-- Live jobs use live pipelines. -/
theorem live_pipes (ops : List (Op cfg)) (h : Along step PipeSafe (Sched.init cfg) ops) :
    PipesLive (run step (Sched.init cfg) ops) :=
  (h.invariant (I := fun s => PipesLive s ∧ RunningOk s) ⟨PipesLive.init, RunningOk.init⟩
    fun _ o hi hs => ⟨pipesLive_step hi.1 hi.2 o hs, runningOk_step hi.2 o⟩).1

theorem live_pipes_suspend : PipesLive (run step (Sched.init twoJobs) suspendOps) :=
  live_pipes _ (by decide +kernel)

/-- A synchronous run times out while its job is running, and destroys its
pipeline; the next pipeline that is created is the same. -/
def timeoutOps : List (Op twoJobs) :=
  modelOps 7 1 ++ pipeOps 0 1 ++ submitOps 0 ⟨1, 0, false⟩ ++
    [.dispatch, .waitEnter 0 1, .waitStep 0, .waitTimeout 0, .getResult 1,
      .destroyEnter 0 0, .destroyLock 0, .create]

theorem timeout_frees_pipe : ¬PipesLive (run step (Sched.init twoJobs) timeoutOps) := by
  intro h
  have hj := (h 0 (by decide)).2.1
  revert hj
  decide

end SynapticOS.Infer
