import SynapticOS.Infer.LivePipes
import SynapticOS.Infer.Lives
import SynapticOS.Infer.Registry

/-!
# Unregistration and suspended jobs

`syn_model_unregister` looks for suspended jobs once, before it drains the running
one. A job needs its model from the check in `execute_pipeline` on until it leaves
without being suspended (`Needs`); a thread takes a model from the first look on
until the slot is free (`Thread.takes`). Where no job is suspended while its model is
taken, and no slot is freed under a job past its check, no model is taken from a
suspended job.
-/

namespace SynapticOS.Infer

open Lib

variable {cfg : Cfg} {s s' s'' : Sched cfg}

def Change.takes : Change → Option Handle
  | .unload h true => some h
  | _ => none

/-- The model that an unregistration is about to remove. -/
def Thread.takes : Thread cfg → Option Handle
  | .unregistering h | .removing h => some h
  | .atGate c | .draining c | .quiesced c => c.takes
  | _ => none

/-- The job that is past the check on its model, and can still be suspended. -/
def Pc.past : Pc cfg → Option (Fin cfg.jobs)
  | .stage j _ | .layer j _ | .saved j _ _ => some j
  | .left j ret => if ret = eintr then some j else none
  | _ => none

def Sched.modelOf (s : Sched cfg) (j : Fin cfg.jobs) : Handle := (s.pipes (s.jobs j).pipe).model

/-- The job needs its model. -/
def Needs (s : Sched cfg) (j : Fin cfg.jobs) : Prop :=
  (s.jobs j).state = .suspended ∨ s.pc.past = some j

/-- No job is suspended while a thread takes its model, and no thread frees the slot of
a model while a job is past its check on it. -/
def DrainSafe (s : Sched cfg) : Op cfg → Prop
  | .schedule _ _ => ∀ j, s.pc = .left j eintr → ∀ t, (s.threads t).takes ≠ some (s.modelOf j)
  | .unregisterRemove t => ∀ j, s.pc.past = some j → (s.threads t).takes ≠ some (s.modelOf j)
  | _ => True

def TakeSafe (s : Sched cfg) (o : Op cfg) : Prop := PipeSafe s o ∧ DrainSafe s o

instance (s : Sched cfg) (o : Op cfg) : Decidable (DrainSafe s o) := by
  apply Op.casesOn (motive := fun o => Decidable (DrainSafe s o)) o <;> intros <;>
    unfold DrainSafe <;> dsimp only <;> infer_instance

instance (s : Sched cfg) (o : Op cfg) : Decidable (TakeSafe s o) := by
  unfold TakeSafe; infer_instance

-- ---------------------------------------------------------------------------
-- The threads that take a model
-- ---------------------------------------------------------------------------

/-- The threads take the models that they took. -/
def SameTakes (s s' : Sched cfg) : Prop := ∀ i, (s'.threads i).takes = (s.threads i).takes

theorem SameTakes.of_threads (h : s'.threads = s.threads) : SameTakes s s' := fun i => by rw [h]

theorem SameTakes.trans (h : SameTakes s s') (h' : SameTakes s' s'') : SameTakes s s'' :=
  fun i => (h' i).trans (h i)

theorem SameTakes.of_update (t : Fin cfg.threads) (h : s'.threads = Function.update s.threads t x)
    (hx : x.takes = (s.threads t).takes) : SameTakes s s' := by
  intro i
  rw [h, Function.update_apply]
  split
  · rename_i he
    rw [hx, he]
  · rfl

theorem sameTakes_unloadChecks (t : Fin cfg.threads) (h : Handle) (last : Bool) (next : Thread cfg)
    (hn : next.takes = (s.threads t).takes)
    (hl : (Change.unload h last).takes = (s.threads t).takes) :
    SameTakes s (unloadChecks t h last next s) := by
  unfold unloadChecks
  split
  · exact .of_update t rfl hn
  · split
    · exact .of_update t rfl hn
    · dsimp only
      split
      · exact .of_update t rfl hl
      · exact .of_update t rfl hn

theorem Change.next_takes (c : Change) : (c.next : Thread cfg).takes = c.takes := by
  cases c with
  | unload h last => cases last <;> rfl
  | _ => rfl

theorem threads_doLoad (h : Handle) (res : Ret) (s : Sched cfg) :
    (doLoad h res s).threads = s.threads := by
  unfold doLoad
  split
  · rfl
  · split <;> rfl

theorem threads_apply (c : Change) (res : Ret) (s : Sched cfg) :
    (c.apply res s).threads = s.threads := by
  cases c with
  | load h => exact threads_doLoad h res s
  | unload h last => rfl
  | swap old new =>
    unfold Change.apply
    dsimp only
    split
    · rfl
    · exact threads_doLoad new res _

theorem sameTakes_returned (ht : (s.threads t).takes = none) (ticket : Nat) (v : Ret) :
    SameTakes s (s.returned t ticket v) := .of_update t rfl ht.symm

theorem sameTakes_waitEnter (t : Fin cfg.threads) (n : Nat) (s : Sched cfg) :
    SameTakes s (waitEnter t n s) := by
  unfold waitEnter
  split
  · split
    · exact sameTakes_returned (by rw [‹s.threads t = _›]; rfl) _ _
    · exact .of_update t rfl (by rw [‹s.threads t = _›]; rfl)
    · exact sameTakes_returned (by rw [‹s.threads t = _›]; rfl) _ _
    · exact .of_update t rfl (by rw [‹s.threads t = _›]; rfl)
  · exact .of_threads rfl

theorem sameTakes_waitStep (t : Fin cfg.threads) (s : Sched cfg) : SameTakes s (waitStep t s) := by
  unfold waitStep
  split
  · exact sameTakes_returned (by rw [‹s.threads t = _›]; rfl) _ _
  · split <;> exact .of_update t rfl (by rw [‹s.threads t = _›]; rfl)
  · split
    · exact .of_update t rfl (by rw [‹s.threads t = _›]; rfl)
    · exact .of_threads rfl
  · exact .of_update t rfl (by rw [‹s.threads t = _›]; rfl)
  · split
    · exact sameTakes_returned (by rw [‹s.threads t = _›]; rfl) _ _
    · exact .of_update t rfl (by rw [‹s.threads t = _›]; rfl)
  · exact sameTakes_returned (by rw [‹s.threads t = _›]; rfl) _ _
  · exact .of_threads rfl

theorem abort_takes (j : Fin cfg.jobs) (x : Thread cfg) : (abort j x).takes = x.takes := by
  cases x with
  | pending i ticket =>
    unfold abort
    dsimp only
    split <;> rfl
  | _ => rfl

theorem sameTakes_submitLock (t : Fin cfg.threads) (now : Nat) (s : Sched cfg) :
    SameTakes s (submitLock t now s) := by
  unfold submitLock
  split
  · split
    · exact .of_update t rfl (by rw [‹s.threads t = _›]; rfl)
    · rename_i p params ht _ j _
      have habort : SameTakes s (submitJob s j p params now) := fun i => abort_takes j (s.threads i)
      refine habort.trans (.of_update t rfl ?_)
      rw [habort t, ht]
      rfl
  · exact .of_threads rfl

theorem sameTakes_unregisterUnload (t : Fin cfg.threads) (s : Sched cfg) :
    SameTakes s (unregisterUnload t s) := by
  unfold unregisterUnload
  split
  · rename_i h ht
    have htk : (s.threads t).takes = some h := by rw [ht]; rfl
    split
    · exact sameTakes_unloadChecks t h true _ htk.symm htk.symm
    · exact .of_update t rfl htk.symm
  · exact .of_threads rfl

theorem sameTakes_quiesce (t : Fin cfg.threads) (s : Sched cfg) : SameTakes s (quiesce t s) := by
  unfold quiesce
  split
  · rename_i c ht
    split
    · exact .of_threads rfl
    · refine .of_update t rfl ?_
      rw [ht]
      split <;> rfl
  · exact .of_threads rfl

theorem sameTakes_change (t : Fin cfg.threads) (res : Ret) (s : Sched cfg) :
    SameTakes s (change t res s) := by
  unfold change
  split
  · rename_i c ht
    have hth : ((c.apply res s).setThread t c.next).threads = Function.update s.threads t c.next := by
      show Function.update (c.apply res s).threads t _ = _
      rw [threads_apply]
    refine .of_update t hth ?_
    rw [c.next_takes, ht]
    rfl
  · exact .of_threads rfl

/-- The beginning and the end of an unregistration. -/
def Op.takes : Op cfg → Bool
  | .unregisterEnter _ _ | .unregisterRemove _ => true
  | _ => false

theorem sameTakes_step (s : Sched cfg) (o : Op cfg) (ho : o.takes = false) :
    SameTakes s (step s o) := by
  cases o with
  | unregisterEnter | unregisterRemove => cases ho
  | unregisterUnload t => exact sameTakes_unregisterUnload t s
  | quiesce t => exact sameTakes_quiesce t s
  | drained t =>
    unfold step drained
    dsimp only
    split
    · rename_i c ht
      split
      · exact .of_update t rfl (by rw [ht]; rfl)
      · exact .of_threads rfl
    · exact .of_threads rfl
  | change t res => exact sameTakes_change t res s
  | unloadEnter t h =>
    unfold step unloadEnter
    dsimp only
    split
    · have hidle : (s.threads t).takes = none := by rw [‹s.threads t = _›]; rfl
      exact sameTakes_unloadChecks t h false .idle hidle.symm hidle.symm
    · exact .of_threads rfl
  | register name =>
    unfold step
    dsimp only
    rw [register_eq]
    split <;> exact .of_threads rfl
  | setData h d =>
    unfold step setData
    dsimp only
    split <;> exact .of_threads rfl
  | loadEnter t h =>
    unfold step loadEnter
    dsimp only
    split
    · split
      · exact .of_threads rfl
      · exact .of_update t rfl (by rw [‹s.threads t = _›]; rfl)
    · exact .of_threads rfl
  | swapEnter t old new =>
    unfold step swapEnter
    dsimp only
    split
    · split
      · exact .of_threads rfl
      · exact .of_update t rfl (by rw [‹s.threads t = _›]; rfl)
    · exact .of_threads rfl
  | create =>
    unfold step create
    dsimp only
    split <;> exact .of_threads rfl
  | addEnter t p st h =>
    unfold step addEnter
    dsimp only
    split
    · split
      · exact .of_update t rfl (by rw [‹s.threads t = _›]; rfl)
      · exact .of_threads rfl
    · exact .of_threads rfl
  | addWrite t =>
    unfold step addWrite
    dsimp only
    split
    · exact .of_update t rfl (by rw [‹s.threads t = _›]; rfl)
    · exact .of_threads rfl
  | buildEnter t p =>
    unfold step buildEnter
    dsimp only
    split
    · split
      · exact .of_update t rfl (by rw [‹s.threads t = _›]; rfl)
      · exact .of_threads rfl
    · exact .of_threads rfl
  | buildWrite t =>
    unfold step buildWrite
    dsimp only
    split
    · exact .of_update t rfl (by rw [‹s.threads t = _›]; rfl)
    · exact .of_threads rfl
  | destroyEnter t p =>
    unfold step destroyEnter
    dsimp only
    split
    · split
      · exact .of_update t rfl (by rw [‹s.threads t = _›]; rfl)
      · exact .of_threads rfl
    · exact .of_threads rfl
  | destroyLock t =>
    unfold step destroyLock
    dsimp only
    split
    · exact .of_update t rfl (by rw [‹s.threads t = _›]; rfl)
    · exact .of_threads rfl
  | submitEnter t p params =>
    unfold step submitEnter
    dsimp only
    split
    · split
      · exact .of_update t rfl (by rw [‹s.threads t = _›]; rfl)
      · exact .of_threads rfl
    · exact .of_threads rfl
  | submitLock t now => exact sameTakes_submitLock t now s
  | cancel n =>
    unfold step cancel
    dsimp only
    repeat' split
    all_goals exact .of_threads rfl
  | getResult n =>
    unfold step getResult
    dsimp only
    repeat' split
    all_goals exact .of_threads rfl
  | setMaxConcurrent n =>
    unfold step setMaxConcurrent
    dsimp only
    split <;> exact .of_threads rfl
  | waitEnter t n => exact sameTakes_waitEnter t n s
  | waitStep t => exact sameTakes_waitStep t s
  | waitTimeout t =>
    unfold step waitTimeout
    dsimp only
    split
    · exact sameTakes_returned (by rw [‹s.threads t = _›]; rfl) _ _
    · exact .of_threads rfl
  | dispatch => exact .of_threads (aside_dispatch s).threads
  | schedule res layers => exact .of_threads (aside_schedule s res layers).threads

/-- A thread begins to take a model where an unregistration finds no suspended job. -/
theorem takes_step (s : Sched cfg) (o : Op cfg) (i : Fin cfg.threads)
    (h : ((step s o).threads i).takes = some n) :
    (s.threads i).takes = some n ∨
      (∃ t, o = .unregisterEnter t n ∧ s.modelSuspended n = false ∧ n ≠ 0) := by
  cases o with
  | unregisterEnter t hd =>
    unfold step unregisterEnter at h
    dsimp only at h
    split at h
    · rename_i m ht hi
      split at h
      · exact .inl h
      · rename_i hs
        change (Function.update s.threads t _ i).takes = some n at h
        rw [Function.update_apply] at h
        split at h
        · cases h
          refine .inr ⟨t, rfl, by simpa using hs, ?_⟩
          rintro rfl
          exact absurd (info_active hi).1.1 (Nat.lt_irrefl 0)
        · exact .inl h
    · exact .inl h
  | unregisterRemove t =>
    unfold step unregisterRemove at h
    dsimp only at h
    split at h
    · change (Function.update s.threads t _ i).takes = some n at h
      rw [Function.update_apply] at h
      split at h
      · cases h
      · exact .inl h
    · exact .inl h
  | _ => exact .inl ((sameTakes_step s _ rfl i).symm.trans h)

/-- A thread that takes a model takes it until it is removed. -/
theorem takes_kept (s : Sched cfg) (o : Op cfg) (i : Fin cfg.threads)
    (h : (s.threads i).takes = some n) :
    ((step s o).threads i).takes = some n ∨ (step s o).info n = none := by
  cases o with
  | unregisterEnter t hd =>
    refine .inl ?_
    unfold step unregisterEnter
    dsimp only
    split
    · rename_i m ht hi
      split
      · exact h
      · show (Function.update s.threads t _ i).takes = some n
        rw [Function.update_of_ne]
        · exact h
        · rintro rfl
          rw [ht] at h
          cases h
    · exact h
  | unregisterRemove t =>
    unfold step unregisterRemove
    dsimp only
    split
    · rename_i hd ht
      by_cases hit : i = t
      · subst hit
        rw [ht] at h
        cases h
        refine .inr ?_
        show (if 0 < n ∧ n ≤ cfg.models ∧ (Function.update s.models n _ n).active = true then
          some (Function.update s.models n _ n) else none) = none
        rw [Function.update_self, if_neg (fun hc => nomatch hc.2.2)]
      · refine .inl ?_
        show (Function.update s.threads t _ i).takes = some n
        rw [Function.update_of_ne hit]
        exact h
    · exact .inl h
  | _ => exact .inl ((sameTakes_step s _ rfl i).trans h)

-- ---------------------------------------------------------------------------
-- The jobs that need their model
-- ---------------------------------------------------------------------------

/-- No job begins to need its model, or changes it. -/
def NoNeed (s s' : Sched cfg) : Prop := ∀ j, Needs s' j → Needs s j ∧ s'.modelOf j = s.modelOf j

theorem NoNeed.of_jobs (hp : s'.pipes = s.pipes) (hj : ∀ j, (s'.jobs j).pipe = (s.jobs j).pipe)
    (hs : ∀ j, (s'.jobs j).state = .suspended → Needs s j)
    (hpc : ∀ j, s'.pc.past = some j → s.pc.past = some j) : NoNeed s s' := by
  intro j hn
  refine ⟨?_, ?_⟩
  · rcases hn with h | h
    · exact hs j h
    · exact .inr (hpc j h)
  · unfold Sched.modelOf
    rw [hp, hj]

theorem NoNeed.of_sameJobs (h : SameJobs s s') (hp : s'.pipes = s.pipes) : NoNeed s s' := by
  refine .of_jobs hp (fun j => by rw [h.jobs]) (fun j hs => .inl ?_) fun j hpc => ?_
  · rw [h.jobs] at hs
    exact hs
  · rw [h.pc] at hpc
    exact hpc

/-- One job changes, and does not become suspended. -/
theorem NoNeed.of_set (hp : s'.pipes = s.pipes) (hpc : s'.pc = s.pc)
    (hj : s'.jobs = Function.update s.jobs j x) (hx : x.pipe = (s.jobs j).pipe)
    (hs : x.state = .suspended → (s.jobs j).state = .suspended) : NoNeed s s' := by
  refine .of_jobs hp (fun i => ?_) (fun i h => .inl ?_) fun i h => by rwa [hpc] at h
  · rw [hj, Function.update_apply]
    split
    · rename_i he
      rw [hx, he]
    · rfl
  · rw [hj, Function.update_apply] at h
    split at h
    · rename_i he
      rw [he]
      exact hs h
    · exact h

theorem past_job {pc : Pc cfg} (h : pc.past = some j) : pc.job = some j := by
  unfold Pc.past at h
  unfold Pc.job
  split at h
  · exact h
  · exact h
  · exact h
  · split at h
    · exact h
    · cases h
  · cases h

theorem Needs.active (hr : RunningOk s) (h : Needs s j) : (s.jobs j).state.active = true := by
  rcases h with h | h
  · rw [h]
    rfl
  · rw [(hr j).mpr (past_job h)]
    rfl

/-- Pipelines may change that no live job uses. -/
theorem NoNeed.of_pipes (hl : PipesLive s) (hr : RunningOk s) (h : SameJobs s s')
    (hp : ∀ q, (s.pipes q).inUse = true → (s.pipes q).built = true →
      (s'.pipes q).model = (s.pipes q).model) : NoNeed s s' := by
  intro j hn
  have hn' : Needs s j := by
    unfold Needs at hn ⊢
    rw [h.jobs, h.pc] at hn
    exact hn
  obtain ⟨hu, hb, -⟩ := hl j (hn'.active hr)
  refine ⟨hn', ?_⟩
  unfold Sched.modelOf
  rw [h.jobs]
  exact hp _ hu hb

theorem noNeed_create (hl : PipesLive s) (hr : RunningOk s) : NoNeed s (create s) := by
  refine .of_pipes hl hr (quiet_of_builder s .create rfl).same fun q hu _ => ?_
  unfold create
  split
  · rfl
  · rename_i p hf
    have hne : q ≠ p := by
      rintro rfl
      have := List.find?_some hf
      simp [hu] at this
    exact congrArg Pipe.model (Function.update_of_ne hne _ _)

theorem noNeed_addWrite (hl : PipesLive s) (hr : RunningOk s) (t : Fin cfg.threads)
    (hs : PipeSafe s (.addWrite t)) : NoNeed s (addWrite t s) := by
  refine .of_pipes hl hr (quiet_of_builder s (.addWrite t) rfl).same fun q _ hb => ?_
  unfold addWrite
  split
  · rename_i p st hd ht
    have hne : q ≠ p := by
      rintro rfl
      rw [hs q (by rw [ht]; rfl)] at hb
      cases hb
    exact congrArg Pipe.model (Function.update_of_ne hne _ _)
  · rfl

theorem noNeed_buildWrite (hl : PipesLive s) (hr : RunningOk s) (t : Fin cfg.threads) :
    NoNeed s (buildWrite t s) := by
  refine .of_pipes hl hr (quiet_of_builder s (.buildWrite t) rfl).same fun q _ _ => ?_
  unfold buildWrite
  split
  · rename_i p _
    show (Function.update s.pipes p _ q).model = _
    rw [Function.update_apply]
    split
    · rename_i he
      rw [he]
    · rfl
  · rfl

theorem noNeed_destroyPipe (hr : RunningOk s) (p : Fin maxPipelines)
    (hs : ∀ j, (s.jobs j).state = .running → (s.jobs j).pipe ≠ p) :
    NoNeed s (destroyPipe p s) := by
  intro j hn
  have hjob : (destroyJob p (s.jobs j)).pipe = (s.jobs j).pipe := by
    by_cases hd : (s.jobs j).doomed p
    · rw [destroyJob_of_doomed hd]
    · rw [destroyJob_of_not_doomed hd]
  have hkeep : Needs s j ∧ (s.jobs j).pipe ≠ p := by
    rcases hn with h | h
    · change (destroyJob p (s.jobs j)).state = .suspended at h
      by_cases hd : (s.jobs j).doomed p
      · rw [destroyJob_of_doomed hd] at h
        cases h
      · rw [destroyJob_of_not_doomed hd] at h
        exact ⟨.inl h, fun he => hd ⟨.inr h, he⟩⟩
    · exact ⟨.inr h, hs j ((hr j).mpr (past_job h))⟩
  refine ⟨hkeep.1, ?_⟩
  show (Function.update s.pipes p _ (destroyJob p (s.jobs j)).pipe).model = _
  rw [hjob, Function.update_of_ne hkeep.2]
  rfl

theorem noNeed_submitLock (hr : RunningOk s) (t : Fin cfg.threads) (now : Nat) :
    NoNeed s (submitLock t now s) := by
  unfold submitLock
  split
  · split
    · exact .of_jobs rfl (fun _ => rfl) (fun _ h => .inl h) fun _ h => h
    · rename_i p params _ _ j hf
      -- the job that is submitted is neither suspended nor running
      intro i hn
      have hne : i ≠ j := by
        rintro rfl
        rcases hn with h | h
        · change (Function.update s.jobs i _ i).state = .suspended at h
          rw [Function.update_self] at h
          cases h
        · have := (hr i).mpr (past_job (show s.pc.past = some i from h))
          rw [freeJob_free hf] at this
          cases this
      have hjob : (((submitJob s j p params now).setThread t .idle).giveWake).jobs i = s.jobs i :=
        Function.update_of_ne hne _ _
      refine ⟨?_, ?_⟩
      · rcases hn with h | h
        · rw [hjob] at h
          exact .inl h
        · exact .inr h
      · unfold Sched.modelOf
        rw [hjob]
        rfl
  · exact .of_jobs rfl (fun _ => rfl) (fun _ h => .inl h) fun _ h => h

theorem NoNeed.refl (s : Sched cfg) : NoNeed s s := fun _ h => ⟨h, rfl⟩

theorem NoNeed.trans (h : NoNeed s s') (h' : NoNeed s' s'') : NoNeed s s'' := fun j hn =>
  ⟨(h j (h' j hn).1).1, (h' j hn).2.trans (h j (h' j hn).1).2⟩

theorem noNeed_cancel (n : Nat) (s : Sched cfg) : NoNeed s (cancel n s) := by
  unfold cancel
  split
  · exact .refl s
  · rename_i j _
    have hcancel : ∀ s : Sched cfg, NoNeed s (cancelJob s j) := fun s =>
      .of_set rfl rfl rfl rfl fun h => nomatch h
    split
    · exact hcancel s
    · have hdrop : NoNeed s (dropCtx s j) := .of_set rfl rfl rfl rfl fun h => h
      exact hdrop.trans (hcancel (dropCtx s j))
    · exact .refl s

theorem noNeed_getResult (n : Nat) (s : Sched cfg) : NoNeed s (getResult n s) := by
  unfold getResult
  split
  · exact .refl s
  · split
    · exact .of_set rfl rfl rfl rfl fun h => nomatch h
    · exact .of_set rfl rfl rfl rfl fun h => nomatch h
    · exact .of_set rfl rfl rfl rfl fun h => nomatch h
    · exact .refl s

theorem noNeed_waitStep (t : Fin cfg.threads) (s : Sched cfg) : NoNeed s (waitStep t s) := by
  have hsame : ∀ {s' : Sched cfg}, s'.jobs = s.jobs → s'.pipes = s.pipes → s'.pc = s.pc →
      NoNeed s s' := fun hj hp hpc =>
    .of_jobs hp (fun j => by rw [hj]) (fun j h => .inl (by rwa [hj] at h)) fun j h => by rwa [hpc] at h
  unfold waitStep
  split
  · exact hsame rfl rfl rfl
  · split
    · exact .of_set rfl rfl rfl rfl fun h => h
    · exact hsame rfl rfl rfl
  · split
    · exact .of_set rfl rfl rfl rfl fun h => h
    · exact .refl s
  · exact .of_set rfl rfl rfl rfl fun h => h
  · split <;> exact hsame rfl rfl rfl
  · exact hsame rfl rfl rfl
  · exact .refl s

theorem noNeed_dispatch (s : Sched cfg) : NoNeed s (dispatch s) := by
  unfold dispatch
  split
  · dsimp only
    split
    · exact .of_jobs rfl (fun _ => rfl) (fun _ h => .inl h) fun _ h => h
    · split
      · exact .of_jobs rfl (fun _ => rfl) (fun _ h => .inl h) fun _ h => h
      · rename_i j _
        refine .of_jobs rfl (fun i => ?_) (fun i h => .inl ?_) fun i h => nomatch h
        · show (Function.update s.jobs j _ i).pipe = _
          rw [Function.update_apply]
          split
          · rename_i he
            rw [he]
          · rfl
        · change (Function.update s.jobs j _ i).state = .suspended at h
          rw [Function.update_apply] at h
          split at h
          · cases h
          · exact h
  · exact .refl s

-- ---------------------------------------------------------------------------
-- The scheduler thread
-- ---------------------------------------------------------------------------

/-- The scheduler thread goes on with its job. -/
theorem NoNeed.of_goto (hp : s'.pipes = s.pipes) (hj : s'.jobs = s.jobs)
    (hpast : s.pc.past = some j) (hpc : s'.pc.job = some j) : NoNeed s s' := by
  refine .of_jobs hp (fun i => by rw [hj]) (fun i h => .inl (by rwa [hj] at h)) fun i h => ?_
  have := past_job h
  rw [hpc] at this
  cases this
  exact hpast

/-- And writes to it. -/
theorem NoNeed.of_move (hp : s'.pipes = s.pipes) (hj : s'.jobs = Function.update s.jobs j x)
    (hx : x.pipe = (s.jobs j).pipe ∧ x.state = (s.jobs j).state) (hpast : s.pc.past = some j)
    (hpc : s'.pc.job = some j) : NoNeed s s' := by
  have hset : NoNeed s { s with jobs := Function.update s.jobs j x } :=
    .of_set rfl rfl rfl hx.1 fun h => by rwa [hx.2] at h
  exact hset.trans (.of_goto hp hj hpast hpc)

theorem noNeed_endModel (hpast : s.pc.past = some j) (i : Nat) (res : Ret) :
    NoNeed s (endModel s j i res) := by
  unfold endModel
  split
  · exact .of_goto rfl rfl hpast rfl
  · split
    · exact .of_move rfl rfl ⟨rfl, rfl⟩ hpast rfl
    · exact .of_goto rfl rfl hpast rfl

theorem noNeed_resume (hpast : s.pc.past = some j) (i : Nat) : NoNeed s (resume s j i) := by
  have hset : NoNeed s (s.setJob j fun job => { job with resuming := false }) :=
    .of_set rfl rfl rfl rfl fun h => h
  unfold resume
  dsimp only
  split
  · exact hset.trans (.of_goto rfl rfl hpast rfl)
  · split
    · exact hset.trans (.of_goto rfl rfl hpast rfl)
    · exact hset.trans (.of_move rfl rfl ⟨rfl, rfl⟩ hpast rfl)

theorem noNeed_runStage (hpast : s.pc.past = some j) (i : Nat) (res : Ret) (layers : Option Nat) :
    NoNeed s (runStage s j i res layers) := by
  unfold runStage
  dsimp only
  split
  · exact .of_goto rfl rfl hpast rfl
  · split
    · exact noNeed_resume hpast i
    · split
      · exact noNeed_endModel hpast i _
      · exact noNeed_endModel hpast i _
      · exact .of_goto rfl rfl hpast rfl
  · split <;> exact .of_goto rfl rfl hpast rfl

theorem noNeed_runLayer (hpast : s.pc.past = some j) (i : Nat) (res : Ret) :
    NoNeed s (runLayer s j i res) := by
  unfold runLayer
  split
  · exact noNeed_endModel hpast i _
  · have hlive : NoNeed s { s with live := if res = 0 then none else s.live } :=
      .of_goto rfl rfl hpast (past_job hpast)
    refine hlive.trans (noNeed_endModel ?_ i res)
    exact hpast
  · repeat' split
    all_goals exact .of_goto rfl rfl hpast rfl

theorem noNeed_settle (hp : s.pc = .left j ret) : NoNeed s (settle s j ret) := by
  have hset : ∀ {s' : Sched cfg} {x : Job}, s'.pipes = s.pipes → s'.pc.past = none →
      s'.jobs = Function.update s.jobs j x → x.pipe = (s.jobs j).pipe →
      (x.state = .suspended → Needs s j) → NoNeed s s' := by
    intro s' x hpipes hpc hj hx hs
    refine .of_jobs hpipes (fun i => ?_) (fun i h => ?_) fun i h => by rw [hpc] at h; cases h
    · rw [hj, Function.update_apply]
      split
      · rename_i he
        rw [hx, he]
      · rfl
    · rw [hj, Function.update_apply] at h
      split at h
      · rename_i he
        rw [he]
        exact hs h
      · exact .inl h
  unfold settle
  split
  · rename_i hr
    refine hset rfl rfl rfl rfl fun _ => .inr ?_
    rw [hp, hr]
    rfl
  · refine hset rfl rfl rfl rfl fun h => ?_
    dsimp only at h
    split at h <;> cases h

/-- A job gets past the check on its model. -/
structure Enters (s s' : Sched cfg) (j : Fin cfg.jobs) : Prop where
  start : s.pc = .start j
  model : s'.modelOf j = s.modelOf j
  registered : (s.info (s.modelOf j)).isSome

theorem jobs_enterPipeline (s : Sched cfg) (k : Fin cfg.jobs) (res : Ret) :
    (enterPipeline s k res).jobs = s.jobs := by
  unfold enterPipeline
  dsimp only
  repeat' split
  all_goals rfl

theorem modelOf_enterPipeline (s : Sched cfg) (k : Fin cfg.jobs) (res : Ret) (j : Fin cfg.jobs) :
    (enterPipeline s k res).modelOf j = s.modelOf j := by
  unfold Sched.modelOf
  rw [jobs_enterPipeline, (aside_enterPipeline s k res).pipes]

theorem enterPipeline_enters (hp : s.pc = .start k) (res : Ret)
    (h : (enterPipeline s k res).pc.past = some j) : Enters s (enterPipeline s k res) j := by
  have hjk : j = k := by
    have hpc : (enterPipeline s k res).pc.job = some k := by
      unfold enterPipeline
      dsimp only
      repeat' split
      all_goals rfl
    rw [past_job h] at hpc
    exact Option.some.inj hpc
  subst hjk
  refine ⟨hp, modelOf_enterPipeline s j res j, ?_⟩
  unfold enterPipeline at h
  dsimp only at h
  split at h
  · cases h
  · rename_i m hi
    exact Option.isSome_iff_exists.mpr ⟨m, hi⟩

theorem needs_schedule (s : Sched cfg) (res : Ret) (layers : Option Nat)
    (hn : Needs (schedule res layers s) j) :
    (Needs s j ∧ (schedule res layers s).modelOf j = s.modelOf j) ∨
      Enters s (schedule res layers s) j := by
  unfold schedule at hn ⊢
  split at hn
  · exact .inl ⟨hn, rfl⟩
  · rename_i k hp
    rcases hn with h | h
    · rw [jobs_enterPipeline] at h
      exact .inl ⟨.inl h, modelOf_enterPipeline s k res j⟩
    · exact .inr (enterPipeline_enters hp res h)
  · rename_i k i hp
    exact .inl (noNeed_runStage (by rw [hp]; rfl) i res layers j hn)
  · rename_i k i hp
    exact .inl (noNeed_runLayer (by rw [hp]; rfl) i res j hn)
  · rename_i k i slot hp
    have hpast : s.pc.past = some k := by rw [hp]; rfl
    have hpark : NoNeed s (park s k i slot) := .of_move rfl rfl ⟨rfl, rfl⟩ hpast rfl
    exact .inl (hpark j hn)
  · rename_i k ret hp
    exact .inl (noNeed_settle hp j hn)
  · rename_i d _
    have hrest : NoNeed s { s.giveWake with drain := s.drain || d, pc := .waiting } :=
      .of_jobs rfl (fun _ => rfl) (fun _ h => .inl h) fun _ h => nomatch h
    exact .inl (hrest j hn)
  · rename_i k d _
    have hreport : NoNeed s { s with drain := s.drain || d, pc := .calling k } :=
      .of_jobs rfl (fun _ => rfl) (fun _ h => .inl h) fun _ h => nomatch h
    exact .inl (hreport j hn)
  · rename_i k hp
    have hset : NoNeed s (s.setJob k fun job => { job with done := true }) :=
      .of_set rfl rfl rfl rfl fun h => h
    have hgo : NoNeed (s.setJob k fun job => { job with done := true })
        { s.setJob k fun job => { job with done := true } with pc := .waiting } :=
      .of_jobs rfl (fun _ => rfl) (fun _ h => .inl h) fun _ h => nomatch h
    exact .inl (hset.trans hgo j hn)

theorem needs_step (hl : PipesLive s) (hr : RunningOk s) (o : Op cfg) (hs : PipeSafe s o)
    (hn : Needs (step s o) j) :
    (Needs s j ∧ (step s o).modelOf j = s.modelOf j) ∨
      ((∃ res layers, o = .schedule res layers) ∧ Enters s (step s o) j) := by
  cases o with
  | schedule res layers =>
    rcases needs_schedule s res layers hn with h | h
    · exact .inl h
    · exact .inr ⟨⟨res, layers, rfl⟩, h⟩
  | create => exact .inl (noNeed_create hl hr j hn)
  | addWrite t => exact .inl (noNeed_addWrite hl hr t hs j hn)
  | buildWrite t => exact .inl (noNeed_buildWrite hl hr t j hn)
  | destroyLock t =>
    refine .inl ((?_ : NoNeed s (destroyLock t s)) j hn)
    unfold destroyLock
    split
    · rename_i p hp
      exact (noNeed_destroyPipe hr p (hs p (by rw [hp]; rfl))).trans
        (.of_jobs rfl (fun _ => rfl) (fun _ h => .inl h) fun _ h => h)
    · exact .refl s
  | submitLock t now => exact .inl (noNeed_submitLock hr t now j hn)
  | cancel n => exact .inl (noNeed_cancel n s j hn)
  | getResult n => exact .inl (noNeed_getResult n s j hn)
  | waitStep t => exact .inl (noNeed_waitStep t s j hn)
  | dispatch => exact .inl (noNeed_dispatch s j hn)
  | waitEnter t n =>
    exact .inl (NoNeed.of_sameJobs (sameJobs_waitEnter t n s) (pipes_step s (.waitEnter t n) rfl) j hn)
  | waitTimeout t =>
    exact .inl (NoNeed.of_sameJobs (sameJobs_waitTimeout t s) (pipes_step s (.waitTimeout t) rfl) j hn)
  | addEnter | buildEnter | destroyEnter | submitEnter | setMaxConcurrent =>
    exact .inl (NoNeed.of_sameJobs (quiet_of_builder s _ rfl).same (pipes_step s _ rfl) j hn)
  | _ => exact .inl (NoNeed.of_sameJobs (quiet_of_registry s _ rfl).same (pipes_step s _ rfl) j hn)

-- ---------------------------------------------------------------------------
-- Runs
-- ---------------------------------------------------------------------------

/-- The model of every suspended job is registered. -/
def SuspendedHaveModels (s : Sched cfg) : Prop :=
  ∀ j, (s.jobs j).state = .suspended → (s.info (s.modelOf j)).isSome

structure Standing (s : Sched cfg) : Prop where
  pipes : PipesLive s
  running : RunningOk s
  registered : ∀ j, Needs s j → (s.info (s.modelOf j)).isSome
  untaken : ∀ t h, (s.threads t).takes = some h → ∀ j, (s.jobs j).state = .suspended →
    s.modelOf j ≠ h

/-- A model is removed by a thread that takes it, and by no other. -/
theorem info_kept (s : Sched cfg) (o : Op cfg) (hi : (s.info n).isSome = true)
    (ht : ∀ t, o = .unregisterRemove t → (s.threads t).takes ≠ some n) :
    ((step s o).info n).isSome = true := by
  cases o with
  | unregisterRemove t =>
    unfold step unregisterRemove
    dsimp only
    split
    · rename_i h hth
      have hne : n ≠ h := by
        rintro rfl
        exact ht t rfl (by rw [hth]; rfl)
      show (if 0 < n ∧ n ≤ cfg.models ∧ (Function.update s.models h _ n).active = true then
        some (Function.update s.models h _ n) else none).isSome = true
      rw [Function.update_of_ne hne]
      exact hi
    · exact hi
  | register name =>
    unfold step
    dsimp only
    rw [register_eq]
    split
    · exact hi
    · rename_i h hh
      show (if 0 < n ∧ n ≤ cfg.models ∧ (Function.update s.models h _ n).active = true then
        some (Function.update s.models h _ n) else none).isSome = true
      rw [Function.update_apply]
      unfold Sched.info at hi
      split at hi
      · rename_i hc
        rw [if_pos]
        · rfl
        · refine ⟨hc.1, hc.2.1, ?_⟩
          split
          · rfl
          · exact hc.2.2
      · cases hi
  | _ =>
    rw [(keeps_step s _ rfl).isSome]
    exact hi

theorem modelSuspended_of (hj : (s.jobs j).state = .suspended) (hn : s.modelOf j ≠ 0) :
    s.modelSuspended (s.modelOf j) = true := by
  unfold Sched.modelSuspended
  rw [Bool.and_eq_true_iff]
  refine ⟨by simpa using hn, List.any_eq_true.mpr ⟨j, List.mem_finRange j, ?_⟩⟩
  rw [Bool.and_eq_true_iff]
  exact ⟨by simpa using hj, by simp [Sched.modelOf]⟩

theorem standing_step (h : Standing s) (o : Op cfg) (hs : TakeSafe s o) : Standing (step s o) := by
  obtain ⟨hpipe, hdrain⟩ := hs
  refine ⟨pipesLive_step h.pipes h.running o hpipe, runningOk_step h.running o, fun j hn => ?_,
    fun t n ht j hj => ?_⟩
  · rcases needs_step h.pipes h.running o hpipe hn with ⟨hn', hm⟩ | ⟨⟨res, layers, rfl⟩, he⟩
    · rw [hm]
      refine info_kept s o (h.registered j hn') fun t ho ht => ?_
      subst ho
      rcases hn' with hj | hj
      · exact h.untaken t _ ht j hj rfl
      · exact hdrain j hj ht
    · rw [he.model]
      exact info_kept s _ he.registered fun t hne => nomatch hne
  · have hm : (step s o).modelOf j = s.modelOf j := by
      rcases needs_step h.pipes h.running o hpipe (.inl hj) with ⟨-, hm⟩ | ⟨-, he⟩
      · exact hm
      · exact he.model
    rw [hm]
    rcases suspends_step h.running o hj with hj' | hd
    · rcases takes_step s o t ht with ht' | ⟨t', rfl, hsus, h0⟩
      · exact h.untaken t n ht' j hj'
      · rintro rfl
        rw [modelSuspended_of hj' h0] at hsus
        cases hsus
    · obtain ⟨hpc, res, layers, rfl⟩ := deed_settle hd
      rcases takes_step s _ t ht with ht' | ⟨t', hne, -, -⟩
      · rintro rfl
        exact hdrain j hpc t ht'
      · cases hne

theorem Standing.init : Standing (Sched.init cfg) := by
  refine ⟨PipesLive.init, RunningOk.init, fun j hn => ?_, fun t h ht => nomatch ht⟩
  rcases hn with h | h <;> cases h

theorem Standing.suspended (h : Standing s) : SuspendedHaveModels s :=
  fun j hj => h.registered j (.inl hj)

end SynapticOS.Infer
