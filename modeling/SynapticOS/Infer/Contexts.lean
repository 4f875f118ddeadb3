import SynapticOS.Infer.SchedLaws
import SynapticOS.Lib.Run

/-!
# Jobs and suspension slots

A slot that a job remembers is occupied, and no other job remembers it
(`Slots`): this holds in every reachable state. Destroying a pipeline drops the
slot of every suspended job, whatever its pipeline, so it leaves the other jobs
alone exactly when none of these is suspended in a slot
(`destroy_others_iff`).
-/

namespace SynapticOS.Infer

open Lib

variable {cfg : Cfg} {s s' : Sched cfg}

structure Slots (s : Sched cfg) : Prop where
  held : ∀ j k, (s.jobs j).ctxSlot = some k → s.ctx k ≠ none
  inj : ∀ i j k, (s.jobs i).ctxSlot = some k → (s.jobs j).ctxSlot = some k → i = j
  /-- A session that has just been parked has a slot to itself. -/
  fresh : ∀ j i k, s.pc = .saved j i k → s.ctx k ≠ none ∧ ∀ x, (s.jobs x).ctxSlot ≠ some k

-- ---------------------------------------------------------------------------
-- Steps that drop slots, or keep them all
-- ---------------------------------------------------------------------------

/-- No job learns a slot, and the slots still remembered are not touched. -/
theorem Slots.of_drop (h : Slots s)
    (hj : ∀ j k, (s'.jobs j).ctxSlot = some k → (s.jobs j).ctxSlot = some k ∧ s'.ctx k = s.ctx k)
    (hp : ∀ j i k, s'.pc = .saved j i k → s.pc = .saved j i k ∧ s'.ctx k = s.ctx k) : Slots s' := by
  refine ⟨fun j k hk => ?_, fun i j k hi hk => h.inj i j k (hj i k hi).1 (hj j k hk).1,
    fun j i k hpc => ?_⟩
  · obtain ⟨hk', hc⟩ := hj j k hk
    rw [hc]
    exact h.held j k hk'
  · obtain ⟨hpc', hc⟩ := hp j i k hpc
    obtain ⟨ho, hn⟩ := h.fresh j i k hpc'
    exact ⟨by rw [hc]; exact ho, fun x hx => hn x (hj x k hx).1⟩

/-- The slots are as they were, and the scheduler thread is elsewhere or where it
was. -/
theorem Slots.of_keep (h : Slots s) (hj : ∀ j, (s'.jobs j).ctxSlot = (s.jobs j).ctxSlot)
    (hc : s'.ctx = s.ctx) (hp : ∀ j i k, s'.pc = .saved j i k → s.pc = .saved j i k) : Slots s' :=
  h.of_drop (fun j k hk => ⟨(hj j).symm.trans hk, by rw [hc]⟩)
    fun j i k hpc => ⟨hp j i k hpc, by rw [hc]⟩

theorem Slots.of_sameJobs' (h : Slots s) (hj : s'.jobs = s.jobs) (hp : s'.pc = s.pc)
    (hc : s'.ctx = s.ctx) : Slots s' :=
  h.of_keep (fun j => by rw [hj]) hc fun j i k h => hp ▸ h

theorem Slots.of_sameJobs (h : Slots s) (hs : SameJobs s s') : Slots s' :=
  h.of_keep (fun j => by rw [hs.jobs]) hs.ctx fun j i k hp => hs.pc ▸ hp

/-- A job is changed, but not in the slot it remembers. -/
theorem Slots.of_set (h : Slots s) (hj : s'.jobs = Function.update s.jobs j x)
    (hx : x.ctxSlot = (s.jobs j).ctxSlot) (hc : s'.ctx = s.ctx)
    (hp : ∀ j i k, s'.pc = .saved j i k → s.pc = .saved j i k) : Slots s' := by
  refine h.of_keep (fun i => ?_) hc hp
  rw [hj, Function.update_apply]
  split
  · rename_i he
    rw [he, hx]
  · rfl

theorem slots_waitStep (h : Slots s) (t : Fin cfg.threads) : Slots (waitStep t s) := by
  unfold waitStep
  split
  · exact h.of_sameJobs ⟨rfl, rfl, rfl, rfl⟩
  · split
    · exact h.of_set rfl rfl rfl fun _ _ _ hp => hp
    · exact h.of_sameJobs ⟨rfl, rfl, rfl, rfl⟩
  · split
    · exact h.of_set rfl rfl rfl fun _ _ _ hp => hp
    · exact h
  · exact h.of_set rfl rfl rfl fun _ _ _ hp => hp
  · split <;> exact h.of_sameJobs ⟨rfl, rfl, rfl, rfl⟩
  · exact h.of_sameJobs ⟨rfl, rfl, rfl, rfl⟩
  · exact h

theorem destroyJob_ctxSlot (p : Fin maxPipelines) (job : Job) :
    (destroyJob p job).ctxSlot = if job.state = .suspended then none else job.ctxSlot := by
  unfold destroyJob
  dsimp only
  split <;> split <;> rfl

theorem destroyFrees_iff : destroyFrees s k = true ↔
    ∃ j, (s.jobs j).state = .suspended ∧ (s.jobs j).ctxSlot = some k := by
  simp [destroyFrees]

theorem slots_destroyPipe (h : Slots s) (p : Fin maxPipelines) : Slots (destroyPipe p s) := by
  refine h.of_drop (fun j k hk => ?_) (fun j i k hp => ⟨hp, if_neg fun hf => ?_⟩)
  · have hk' : (destroyJob p (s.jobs j)).ctxSlot = some k := hk
    rw [destroyJob_ctxSlot] at hk'
    split at hk'
    · cases hk'
    · rename_i hns
      refine ⟨hk', if_neg fun hf => ?_⟩
      obtain ⟨i, hi, hik⟩ := destroyFrees_iff.mp hf
      exact hns (h.inj i j k hik hk' ▸ hi)
  · obtain ⟨x, -, hx⟩ := destroyFrees_iff.mp hf
    exact (h.fresh j i k hp).2 x hx

theorem slots_submitLock (h : Slots s) (t : Fin cfg.threads) (now : Nat) : Slots (submitLock t now s) := by
  unfold submitLock
  split
  · split
    · exact h.of_sameJobs ⟨rfl, rfl, rfl, rfl⟩
    · rename_i p params _ j _
      refine h.of_drop (fun i k hk => ?_) (fun _ _ _ hp => ⟨hp, rfl⟩)
      refine ⟨?_, rfl⟩
      have hk' : (Function.update s.jobs j _ i).ctxSlot = some k := hk
      rw [Function.update_apply] at hk'
      split at hk'
      · cases hk'
      · exact hk'
  · exact h

theorem slots_cancelJob (h : Slots s) (j : Fin cfg.jobs) : Slots (cancelJob s j) :=
  h.of_set rfl rfl rfl fun _ _ _ hp => hp

theorem slots_dropCtx (h : Slots s) (j : Fin cfg.jobs) : Slots (dropCtx s j) := by
  refine h.of_drop (fun i k hk => ?_) (fun x i k hp => ⟨hp, if_neg ((h.fresh x i k hp).2 j)⟩)
  have hk' : (Function.update s.jobs j _ i).ctxSlot = some k := hk
  rw [Function.update_apply] at hk'
  split at hk'
  · cases hk'
  · rename_i hne
    exact ⟨hk', if_neg fun hj => hne (h.inj i j k hk' hj)⟩

theorem slots_cancel (h : Slots s) (n : Nat) : Slots (cancel n s) := by
  unfold cancel
  split
  · exact h
  · split
    · exact slots_cancelJob h _
    · exact slots_cancelJob (slots_dropCtx h _) _
    · exact h

theorem slots_getResult (h : Slots s) (n : Nat) : Slots (getResult n s) := by
  unfold getResult
  split
  · exact h
  · split
    · exact h.of_set rfl rfl rfl fun _ _ _ hp => hp
    · exact h.of_set rfl rfl rfl fun _ _ _ hp => hp
    · exact h.of_set rfl rfl rfl fun _ _ _ hp => hp
    · exact h

theorem slots_dispatch (h : Slots s) : Slots (dispatch s) := by
  unfold dispatch
  split
  · dsimp only
    split
    · exact h.of_sameJobs ⟨rfl, rfl, rfl, rfl⟩
    · split
      · exact h.of_sameJobs ⟨rfl, rfl, rfl, rfl⟩
      · exact h.of_set rfl rfl rfl fun _ _ _ hp => nomatch hp
  · exact h

-- ---------------------------------------------------------------------------
-- The scheduler thread
-- ---------------------------------------------------------------------------

theorem slots_enterPipeline (h : Slots s) (j : Fin cfg.jobs) (res : Ret) :
    Slots (enterPipeline s j res) := by
  have hmove : ∀ s' : Sched cfg, s'.jobs = s.jobs → s'.ctx = s.ctx →
      (∀ x i k, s'.pc ≠ .saved x i k) → Slots s' := fun s' hj hc hp =>
    h.of_keep (fun j => by rw [hj]) hc fun x i k hpc => absurd hpc (hp x i k)
  unfold enterPipeline
  dsimp only
  split
  · exact hmove _ rfl rfl fun _ _ _ hp => nomatch hp
  · repeat' split
    all_goals exact hmove _ rfl rfl fun _ _ _ hp => nomatch hp

theorem slots_endModel (h : Slots s) (j : Fin cfg.jobs) (i : Nat) (res : Ret) :
    Slots (endModel s j i res) := by
  unfold endModel
  split
  · exact h.of_keep (fun _ => rfl) rfl fun _ _ _ hp => nomatch hp
  · split
    · exact h.of_set rfl rfl rfl fun _ _ _ hp => nomatch hp
    · exact h.of_keep (fun _ => rfl) rfl fun _ _ _ hp => nomatch hp

theorem slots_resume (h : Slots s) (j : Fin cfg.jobs) (i : Nat) : Slots (resume s j i) := by
  unfold resume
  dsimp only
  split
  · exact h.of_set rfl rfl rfl fun _ _ _ hp => nomatch hp
  · rename_i k hk
    split
    · exact h.of_set rfl rfl rfl fun _ _ _ hp => nomatch hp
    · refine h.of_drop (fun x k' hk' => ?_) (fun _ _ _ hp => nomatch hp)
      have hx : (Function.update (Function.update s.jobs j _) j _ x).ctxSlot = some k' := hk'
      rw [Function.update_idem, Function.update_apply] at hx
      split at hx
      · cases hx
      · rename_i hne
        refine ⟨hx, Function.update_of_ne (fun he => hne ?_) _ _⟩
        exact h.inj x j k (he ▸ hx) hk

theorem slots_runStage (h : Slots s) (j : Fin cfg.jobs) (i : Nat) (res : Ret) (layers : Option Nat) :
    Slots (runStage s j i res layers) := by
  unfold runStage
  dsimp only
  split
  · exact h.of_keep (fun _ => rfl) rfl fun _ _ _ hp => nomatch hp
  · split
    · exact slots_resume h j i
    · split
      · exact slots_endModel h j i _
      · exact slots_endModel h j i _
      · exact h.of_keep (fun _ => rfl) rfl fun _ _ _ hp => nomatch hp
  · split <;> exact h.of_keep (fun _ => rfl) rfl fun _ _ _ hp => nomatch hp

theorem slots_runLayer (h : Slots s) (j : Fin cfg.jobs) (i : Nat) (res : Ret) :
    Slots (runLayer s j i res) := by
  unfold runLayer
  split
  · exact slots_endModel h j i _
  · refine slots_endModel ?_ j i _
    exact h.of_sameJobs' rfl rfl rfl
  · rename_i owner rem _
    split
    · split
      · exact h.of_keep (fun _ => rfl) rfl fun _ _ _ hp => nomatch hp
      · -- a free slot is nobody's
        rename_i k hk
        have hfree := freeSlot_none hk
        have hnone : ∀ x, (s.jobs x).ctxSlot ≠ some k := fun x hx => h.held x k hx hfree
        refine ⟨fun x k' hx => ?_, h.inj, fun x i' k' hp => ?_⟩
        · have hne : k' ≠ k := fun he => hnone x (he ▸ hx)
          show Function.update s.ctx k _ k' ≠ none
          rw [Function.update_of_ne hne]
          exact h.held x k' hx
        · cases hp
          refine ⟨?_, hnone⟩
          show Function.update s.ctx k _ k ≠ none
          rw [Function.update_self]
          exact Option.some_ne_none _
    · exact h.of_keep (fun _ => rfl) rfl fun _ _ _ hp => nomatch hp

theorem slots_park (h : Slots s) (hp : s.pc = .saved j i k) : Slots (park s j i k) := by
  obtain ⟨ho, hn⟩ := h.fresh j i k hp
  have hj : ∀ x k', ((park s j i k).jobs x).ctxSlot = some k' →
      x = j ∧ k' = k ∨ x ≠ j ∧ (s.jobs x).ctxSlot = some k' := by
    intro x k' hx
    have hx' : (Function.update s.jobs j _ x).ctxSlot = some k' := hx
    rw [Function.update_apply] at hx'
    split at hx'
    · rename_i he
      cases hx'
      exact .inl ⟨he, rfl⟩
    · rename_i hne
      exact .inr ⟨hne, hx'⟩
  refine ⟨fun x k' hx => ?_, fun x y k' hx hy => ?_, fun _ _ _ hp' => nomatch hp'⟩
  · rcases hj x k' hx with ⟨-, rfl⟩ | ⟨-, hx⟩
    · exact ho
    · exact h.held x k' hx
  · rcases hj x k' hx with ⟨hxj, hk⟩ | ⟨-, hx'⟩ <;> rcases hj y k' hy with ⟨hyj, hk'⟩ | ⟨-, hy'⟩
    · rw [hxj, hyj]
    · exact absurd (hk ▸ hy') (hn y)
    · exact absurd (hk' ▸ hx') (hn x)
    · exact h.inj x y k' hx' hy'

theorem slots_settle (h : Slots s) (j : Fin cfg.jobs) (ret : Ret) : Slots (settle s j ret) := by
  unfold settle
  split
  · exact h.of_set rfl rfl rfl fun _ _ _ hp => nomatch hp
  · exact h.of_set rfl rfl rfl fun _ _ _ hp => nomatch hp

theorem slots_schedule (h : Slots s) (res : Ret) (layers : Option Nat) :
    Slots (schedule res layers s) := by
  unfold schedule
  split
  · exact h
  · exact slots_enterPipeline h _ res
  · exact slots_runStage h _ _ res layers
  · exact slots_runLayer h _ _ res
  · rename_i hp
    exact slots_park h hp
  · exact slots_settle h _ _
  · exact h.of_keep (fun _ => rfl) rfl fun _ _ _ hp => nomatch hp
  · exact h.of_keep (fun _ => rfl) rfl fun _ _ _ hp => nomatch hp
  · exact h.of_set rfl rfl rfl fun _ _ _ hp => nomatch hp

theorem Slots.init : Slots (Sched.init cfg) :=
  ⟨fun _ _ h => (nomatch h), fun _ _ _ h => (nomatch h), fun _ _ _ h => (nomatch h)⟩

theorem slots_step (h : Slots s) (o : Op cfg) : Slots (step s o) := by
  cases o with
  | destroyLock t =>
    unfold step destroyLock
    dsimp only
    split
    · exact (slots_destroyPipe h _).of_sameJobs ⟨rfl, rfl, rfl, rfl⟩
    · exact h
  | submitLock t now => exact slots_submitLock h t now
  | cancel n => exact slots_cancel h n
  | getResult n => exact slots_getResult h n
  | waitEnter t n => exact h.of_sameJobs (sameJobs_waitEnter t n s)
  | waitStep t => exact slots_waitStep h t
  | waitTimeout t => exact h.of_sameJobs (sameJobs_waitTimeout t s)
  | dispatch => exact slots_dispatch h
  | schedule res layers => exact slots_schedule h res layers
  | create | addEnter | addWrite | buildEnter | buildWrite | destroyEnter | submitEnter
  | setMaxConcurrent => exact h.of_sameJobs (quiet_of_builder s _ rfl).same
  | _ => exact h.of_sameJobs (quiet_of_registry s _ rfl).same

theorem slots_run (ops : List (Op cfg)) : Slots (run step (Sched.init cfg) ops) :=
  run_invariant ops Slots.init fun _ o h => slots_step h o

-- ---------------------------------------------------------------------------
-- Destroying a pipeline
-- ---------------------------------------------------------------------------

/-- The jobs of other pipelines, and the sessions that are parked for them, are as
they were. -/
def OthersKept (p : Fin maxPipelines) (s s' : Sched cfg) : Prop :=
  ∀ j, (s.jobs j).pipe ≠ p → s'.jobs j = s.jobs j ∧
    ∀ k, (s.jobs j).ctxSlot = some k → s'.ctx k = s.ctx k

/-- Destroying a pipeline leaves the other jobs alone exactly when none of them
is suspended in a slot. -/
theorem destroy_others_iff (ops : List (Op cfg)) (p : Fin maxPipelines) :
    let s := run step (Sched.init cfg) ops
    OthersKept p s (destroyPipe p s) ↔
      ∀ j, (s.jobs j).state = .suspended → (s.jobs j).pipe ≠ p → (s.jobs j).ctxSlot = none := by
  intro s
  have h : Slots s := slots_run ops
  constructor
  · intro hk j hs hp
    have hj : destroyJob p (s.jobs j) = s.jobs j := (hk j hp).1
    rw [← hj, destroyJob_ctxSlot, if_pos hs]
  · intro hn j hp
    have hjob : destroyJob p (s.jobs j) = s.jobs j := by
      unfold destroyJob
      dsimp only
      rw [if_neg (fun hw => hp ?_)]
      · split
        · rename_i hs
          have := hn j hs hp
          cases hjob : s.jobs j
          rw [hjob] at this
          dsimp only at this ⊢
          rw [this]
        · rfl
      · split at hw <;> exact hw.2
    refine ⟨hjob, fun k hk => if_neg fun hf => ?_⟩
    obtain ⟨i, hi, hik⟩ := destroyFrees_iff.mp hf
    have he := h.inj i j k hik hk
    subst he
    rw [hn i hi hp] at hik
    cases hik

/-- Destroying a pipeline that no job uses takes the slot of a suspended job. -/
theorem destroy_takes_slot :
    ¬OthersKept 2 (run step (Sched.init twoJobs) suspendOps)
      (destroyPipe 2 (run step (Sched.init twoJobs) suspendOps)) := by
  intro h
  have hj := (h 0 (by decide)).1
  have hc := congrArg Job.ctxSlot hj
  revert hc
  decide

end SynapticOS.Infer
