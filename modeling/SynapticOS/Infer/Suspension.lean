import SynapticOS.Infer.Contexts

/-!
# Suspended jobs and occupied slots

Where no unrelated pipeline is destroyed under a suspended job, no stage returns
`-EINTR` of its own, and a resumed job gets back into its layer loop, suspended
jobs and occupied slots correspond one to one (`OneToOne`).
-/

namespace SynapticOS.Infer

open Lib

variable {cfg : Cfg} {s s' : Sched cfg}

-- ---------------------------------------------------------------------------
-- The property
-- ---------------------------------------------------------------------------

/-- Slot `k` belongs to job `j`: it is suspended in it, it is being resumed from
it, or it is on its way into it. -/
inductive Holds (s : Sched cfg) (j : Fin cfg.jobs) (k : Fin ctxSlots) : Prop
  | suspended (h : (s.jobs j).state = .suspended) (hk : (s.jobs j).ctxSlot = some k)
  | resuming (h : (s.jobs j).state = .running) (hr : (s.jobs j).resuming = true)
      (hk : (s.jobs j).ctxSlot = some k)
  | saved (i : Nat) (h : s.pc = .saved j i k)
  | leaving (h : s.pc = .left j eintr) (hk : (s.jobs j).ctxSlot = some k)

structure OneToOne (s : Sched cfg) : Prop where
  suspended : ∀ j, (s.jobs j).state = .suspended →
    ∃ k c, (s.jobs j).ctxSlot = some k ∧ s.ctx k = some c ∧ c.owner = (s.jobs j).ticket
  distinct : ∀ i j k, i ≠ j → (s.jobs i).ctxSlot = some k → (s.jobs j).ctxSlot ≠ some k
  occupied : ∀ k, s.ctx k ≠ none → ∃ j, Holds s j k ∧ ∀ i, Holds s i k → i = j

/-- What the scheduler thread does not go through: `-EINTR` from anything but a
preemption, and a resumed job that does not get back into its layer loop. -/
def ScheduleSafe (s : Sched cfg) (res : Ret) : Prop :=
  res ≠ eintr ∧ match s.pc with
    | .start j => (s.jobs j).resuming = true → s.info (s.pipes (s.jobs j).pipe).model ≠ none
    | .stage j i => (s.jobs j).resuming = true →
      (s.pipes (s.jobs j).pipe).stages[i]? = some .model
    | _ => True

instance (s : Sched cfg) (res : Ret) : Decidable (ScheduleSafe s res) := by
  unfold ScheduleSafe
  cases s.pc <;> dsimp only <;> infer_instance

def SuspensionSafe (s : Sched cfg) : Op cfg → Prop
  | .destroyLock t => ∀ p, s.threads t = .destroying p →
    ∀ j, (s.jobs j).state = .suspended → (s.jobs j).pipe = p
  | .schedule res _ => ScheduleSafe s res
  | _ => True

instance (s : Sched cfg) (o : Op cfg) : Decidable (SuspensionSafe s o) := by
  apply Op.casesOn (motive := fun o => Decidable (SuspensionSafe s o)) o <;> intros <;>
    unfold SuspensionSafe <;> dsimp only <;> infer_instance

-- ---------------------------------------------------------------------------
-- The invariant
-- ---------------------------------------------------------------------------

/-- What is known of the running job, by where the scheduler thread is. -/
def PcOk (s : Sched cfg) : Pc cfg → Prop
  | .start j | .stage j _ => (s.jobs j).resuming = true ↔ (s.jobs j).ctxSlot ≠ none
  | .layer j _ => (s.jobs j).ctxSlot = none ∧ (s.jobs j).resuming = false ∧
    ∃ c, s.live = some c ∧ c.owner = (s.jobs j).ticket
  | .saved j _ k => (s.jobs j).ctxSlot = none ∧ (s.jobs j).resuming = false ∧
    ∃ c, s.ctx k = some c ∧ c.owner = (s.jobs j).ticket
  | .left j ret => (s.jobs j).resuming = false ∧ (ret = eintr ↔ (s.jobs j).ctxSlot ≠ none)
  | _ => True

def JobState.atRest : JobState → Bool
  | .suspended | .running => false
  | _ => true

structure Matched (s : Sched cfg) : Prop where
  slots : Slots s
  own : ∀ j k, (s.jobs j).ctxSlot = some k → ∃ c, s.ctx k = some c ∧ c.owner = (s.jobs j).ticket
  atRest : ∀ j, (s.jobs j).state.atRest = true → (s.jobs j).ctxSlot = none ∧ (s.jobs j).resuming = false
  suspended : ∀ j, (s.jobs j).state = .suspended →
    (s.jobs j).ctxSlot ≠ none ∧ (s.jobs j).resuming = false
  occupied : ∀ k, s.ctx k ≠ none → (∃ j, (s.jobs j).ctxSlot = some k) ∨ ∃ j i, s.pc = .saved j i k
  running : ∀ j, (s.jobs j).state = .running ↔ s.pc.job = some j
  at_pc : PcOk s s.pc

theorem Matched.oneToOne (h : Matched s) : OneToOne s := by
  refine ⟨fun j hs => ?_, fun i j k hne hi hj => hne (h.slots.inj i j k hi hj), fun k hk => ?_⟩
  · obtain ⟨k, hk⟩ := Option.ne_none_iff_exists'.mp (h.suspended j hs).1
    obtain ⟨c, hc, ho⟩ := h.own j k hk
    exact ⟨k, c, hk, hc, ho⟩
  · have huniq : ∀ i j, Holds s i k → (s.jobs j).ctxSlot = some k → i = j := by
      intro i j hi hj
      cases hi with
      | suspended _ hk => exact h.slots.inj i j k hk hj
      | resuming _ _ hk => exact h.slots.inj i j k hk hj
      | saved n hp => exact absurd hj ((h.slots.fresh i n k hp).2 j)
      | leaving _ hk => exact h.slots.inj i j k hk hj
    rcases h.occupied k hk with ⟨j, hj⟩ | ⟨j, i, hp⟩
    · refine ⟨j, ?_, fun i hi => huniq i j hi hj⟩
      by_cases hs : (s.jobs j).state = .suspended
      · exact .suspended hs hj
      · have hr : (s.jobs j).state = .running := by
          by_contra hr
          have hrest : (s.jobs j).state.atRest = true := by
            cases hst : (s.jobs j).state <;> first | rfl | contradiction
          rw [(h.atRest j hrest).1] at hj
          cases hj
        have hpc := (h.running j).mp hr
        have hok := h.at_pc
        cases hp : s.pc with
        | start x =>
          rw [hp] at hpc hok
          cases hpc
          exact .resuming hr (hok.mpr (by rw [hj]; exact Option.some_ne_none _)) hj
        | stage x i =>
          rw [hp] at hpc hok
          cases hpc
          exact .resuming hr (hok.mpr (by rw [hj]; exact Option.some_ne_none _)) hj
        | layer x i =>
          rw [hp] at hpc hok
          cases hpc
          rw [hok.1] at hj
          cases hj
        | saved x i k' =>
          rw [hp] at hpc hok
          cases hpc
          rw [hok.1] at hj
          cases hj
        | left x ret =>
          rw [hp] at hpc hok
          cases hpc
          have he := hok.2.mpr (by rw [hj]; exact Option.some_ne_none _)
          subst he
          exact .leaving hp hj
        | _ => rw [hp] at hpc; cases hpc
    · refine ⟨j, .saved i hp, fun x hx => ?_⟩
      cases hx with
      | saved n hp' =>
        rw [hp] at hp'
        cases hp'
        rfl
      | suspended _ hk => exact absurd hk ((h.slots.fresh j i k hp).2 x)
      | resuming _ _ hk => exact absurd hk ((h.slots.fresh j i k hp).2 x)
      | leaving _ hk => exact absurd hk ((h.slots.fresh j i k hp).2 x)

-- ---------------------------------------------------------------------------
-- Steps that keep what matters of the jobs
-- ---------------------------------------------------------------------------

/-- What the invariant sees of a job. -/
def Job.view (job : Job) : JobState × Option (Fin ctxSlots) × Bool × Nat :=
  (job.state, job.ctxSlot, job.resuming, job.ticket)

theorem view_eq {a b : Job} (h : a.view = b.view) : a.state = b.state ∧ a.ctxSlot = b.ctxSlot ∧
    a.resuming = b.resuming ∧ a.ticket = b.ticket := by
  cases a
  cases b
  simpa [Job.view] using h

theorem Matched.of_view (h : Matched s) (hv : ∀ j, (s'.jobs j).view = (s.jobs j).view)
    (hp : s'.pc = s.pc) (hl : s'.live = s.live) (hc : s'.ctx = s.ctx) : Matched s' := by
  have hst := fun j => (view_eq (hv j)).1
  have hcs := fun j => (view_eq (hv j)).2.1
  have hre := fun j => (view_eq (hv j)).2.2.1
  have hti := fun j => (view_eq (hv j)).2.2.2
  refine ⟨h.slots.of_keep hcs hc fun j i k => by rw [hp]; exact id, ?_, ?_, ?_, ?_, ?_, ?_⟩
  · intro j k
    rw [hcs, hc, hti]
    exact h.own j k
  · intro j
    rw [hst, hcs, hre]
    exact h.atRest j
  · intro j
    rw [hst, hcs, hre]
    exact h.suspended j
  · intro k
    rw [hc, hp]
    simp only [hcs]
    exact h.occupied k
  · intro j
    rw [hst, hp]
    exact h.running j
  · have := h.at_pc
    rw [hp]
    cases hpc : s.pc <;> rw [hpc] at this <;> simp only [PcOk, hcs, hre, hti, hl, hc] at this ⊢ <;>
      exact this

theorem Matched.of_sameJobs (h : Matched s) (hs : SameJobs s s') : Matched s' :=
  h.of_view (fun j => by rw [hs.jobs]) hs.pc hs.live hs.ctx

theorem Matched.of_set (h : Matched s) (hj : s'.jobs = Function.update s.jobs j x)
    (hx : x.view = (s.jobs j).view) (hp : s'.pc = s.pc) (hl : s'.live = s.live)
    (hc : s'.ctx = s.ctx) : Matched s' := by
  refine h.of_view (fun i => ?_) hp hl hc
  rw [hj, Function.update_apply]
  split
  · rename_i he
    rw [he, hx]
  · rfl

theorem matched_waitStep (h : Matched s) (t : Fin cfg.threads) : Matched (waitStep t s) := by
  unfold waitStep
  split
  · exact h.of_sameJobs ⟨rfl, rfl, rfl, rfl⟩
  · split
    · exact h.of_set rfl rfl rfl rfl rfl
    · exact h.of_sameJobs ⟨rfl, rfl, rfl, rfl⟩
  · split
    · exact h.of_set rfl rfl rfl rfl rfl
    · exact h
  · exact h.of_set rfl rfl rfl rfl rfl
  · split <;> exact h.of_sameJobs ⟨rfl, rfl, rfl, rfl⟩
  · exact h.of_sameJobs ⟨rfl, rfl, rfl, rfl⟩
  · exact h

-- ---------------------------------------------------------------------------
-- Jobs at rest
-- ---------------------------------------------------------------------------

/-- The running job is not the one that is changed. -/
theorem PcOk.of_ne (h : PcOk s pc) (hl : s'.live = s.live) (hc : s'.ctx = s.ctx)
    (hj : ∀ i, pc.job = some i → s'.jobs i = s.jobs i) : PcOk s' pc := by
  cases pc with
  | start x => simpa only [PcOk, hj x rfl] using h
  | stage x i => simpa only [PcOk, hj x rfl] using h
  | layer x i => simpa only [PcOk, hj x rfl, hl] using h
  | saved x i k => simpa only [PcOk, hj x rfl, hc] using h
  | left x ret => simpa only [PcOk, hj x rfl] using h
  | _ => trivial

/-- A job at rest stays at rest: submitted, cancelled while queued, consumed. -/
theorem Matched.of_atRest (h : Matched s) (hj : s'.jobs = Function.update s.jobs j x)
    (hr : (s.jobs j).state.atRest = true) (hx : x.state.atRest = true) (hxs : x.ctxSlot = none)
    (hxr : x.resuming = false) (hp : s'.pc = s.pc) (hl : s'.live = s.live)
    (hc : s'.ctx = s.ctx) : Matched s' := by
  have hne : ∀ i, i ≠ j → s'.jobs i = s.jobs i := fun i hi => by
    rw [hj, Function.update_of_ne hi]
  have hself : s'.jobs j = x := by rw [hj, Function.update_self]
  have hslot : ∀ i, (s'.jobs i).ctxSlot = (s.jobs i).ctxSlot := by
    intro i
    by_cases hi : i = j
    · rw [hi, hself, hxs, (h.atRest j hr).1]
    · rw [hne i hi]
  refine ⟨h.slots.of_keep hslot hc fun _ _ _ => by rw [hp]; exact id, ?_, ?_, ?_, ?_, ?_, ?_⟩
  · intro i k hk
    by_cases hi : i = j
    · rw [hi, hself, hxs] at hk
      cases hk
    · rw [hne i hi] at hk ⊢
      rw [hc]
      exact h.own i k hk
  · intro i hi'
    by_cases hi : i = j
    · rw [hi, hself]
      exact ⟨hxs, hxr⟩
    · rw [hne i hi] at hi' ⊢
      exact h.atRest i hi'
  · intro i hi'
    by_cases hi : i = j
    · rw [hi, hself] at hi'
      rw [hi'] at hx
      cases hx
    · rw [hne i hi] at hi' ⊢
      exact h.suspended i hi'
  · intro k
    rw [hc, hp]
    simp only [hslot]
    exact h.occupied k
  · intro i
    rw [hp, ← h.running i]
    by_cases hi : i = j
    · rw [hi, hself]
      refine ⟨fun h' => ?_, fun h' => ?_⟩
      · rw [h'] at hx
        cases hx
      · rw [h'] at hr
        cases hr
    · rw [hne i hi]
  · rw [hp]
    refine h.at_pc.of_ne hl hc fun i hi => hne i ?_
    rintro rfl
    rw [(h.running i).mpr hi] at hr
    cases hr

theorem matched_submitLock (h : Matched s) (t : Fin cfg.threads) (now : Nat) : Matched (submitLock t now s) := by
  unfold submitLock
  split
  · split
    · exact h.of_sameJobs ⟨rfl, rfl, rfl, rfl⟩
    · rename_i j hf
      exact h.of_atRest rfl (by rw [freeJob_free hf]; rfl) rfl rfl rfl rfl rfl rfl
  · exact h

theorem matched_getResult (h : Matched s) (n : Nat) : Matched (getResult n s) := by
  have hget : ∀ j, (s.jobs j).state.atRest = true →
      Matched (s.setJob j fun job => { job with state := .free }) := fun j hj =>
    h.of_atRest rfl hj rfl (h.atRest j hj).1 (h.atRest j hj).2 rfl rfl rfl
  unfold getResult
  split
  · exact h
  · rename_i j _
    split
    · rename_i hs
      exact hget j (by rw [hs]; rfl)
    · rename_i hs
      exact hget j (by rw [hs]; rfl)
    · rename_i hs
      exact hget j (by rw [hs]; rfl)
    · exact h

-- ---------------------------------------------------------------------------
-- Suspended jobs that are cancelled
-- ---------------------------------------------------------------------------

/-- A suspended job is cancelled and its slot is freed. -/
theorem Matched.of_drop (h : Matched s) (hs : (s.jobs j).state = .suspended)
    (hj : s'.jobs = Function.update s.jobs j x) (hx : x.state.atRest = true)
    (hxs : x.ctxSlot = none) (hxr : x.resuming = false) (hp : s'.pc = s.pc)
    (hl : s'.live = s.live)
    (hc : ∀ k, s'.ctx k = if (s.jobs j).ctxSlot = some k then none else s.ctx k) : Matched s' := by
  have hne : ∀ i, i ≠ j → s'.jobs i = s.jobs i := fun i hi => by
    rw [hj, Function.update_of_ne hi]
  have hself : s'.jobs j = x := by rw [hj, Function.update_self]
  have hkeep : ∀ i k, i ≠ j → (s.jobs i).ctxSlot = some k → s'.ctx k = s.ctx k := by
    intro i k hi hk
    rw [hc, if_neg fun hjk => hi (h.slots.inj i j k hk hjk)]
  have hrun : ∀ i, s.pc.job = some i → i ≠ j := by
    rintro i hi rfl
    rw [(h.running i).mpr hi] at hs
    cases hs
  refine ⟨h.slots.of_drop (fun i k hk => ?_) (fun y i k hpc => ?_), ?_, ?_, ?_, ?_, ?_, ?_⟩
  · by_cases hi : i = j
    · rw [hi, hself, hxs] at hk
      cases hk
    · rw [hne i hi] at hk
      exact ⟨hk, hkeep i k hi hk⟩
  · rw [hp] at hpc
    exact ⟨hpc, by rw [hc, if_neg ((h.slots.fresh y i k hpc).2 j)]⟩
  · intro i k hk
    by_cases hi : i = j
    · rw [hi, hself, hxs] at hk
      cases hk
    · rw [hne i hi] at hk ⊢
      rw [hkeep i k hi hk]
      exact h.own i k hk
  · intro i hi'
    by_cases hi : i = j
    · rw [hi, hself]
      exact ⟨hxs, hxr⟩
    · rw [hne i hi] at hi' ⊢
      exact h.atRest i hi'
  · intro i hi'
    by_cases hi : i = j
    · rw [hi, hself] at hi'
      rw [hi'] at hx
      cases hx
    · rw [hne i hi] at hi' ⊢
      exact h.suspended i hi'
  · intro k hk
    rw [hc] at hk
    split at hk
    · exact absurd rfl hk
    · rename_i hjk
      rw [hp]
      rcases h.occupied k hk with ⟨i, hi⟩ | hsaved
      · have hij : i ≠ j := fun he => hjk (he ▸ hi)
        exact .inl ⟨i, by rw [hne i hij]; exact hi⟩
      · exact .inr hsaved
  · intro i
    rw [hp, ← h.running i]
    by_cases hi : i = j
    · rw [hi, hself, hs]
      refine ⟨fun h' => ?_, fun h' => nomatch h'⟩
      rw [h'] at hx
      cases hx
    · rw [hne i hi]
  · rw [hp]
    have hok := h.at_pc
    cases hpc : s.pc with
    | saved y i k =>
      rw [hpc] at hok hrun
      simp only [PcOk, hne y (hrun y rfl)] at hok ⊢
      rw [hc, if_neg ((h.slots.fresh y i k hpc).2 j)]
      exact hok
    | start y => rw [hpc] at hok hrun; simpa only [PcOk, hne y (hrun y rfl)] using hok
    | stage y i => rw [hpc] at hok hrun; simpa only [PcOk, hne y (hrun y rfl)] using hok
    | layer y i => rw [hpc] at hok hrun; simpa only [PcOk, hne y (hrun y rfl), hl] using hok
    | left y ret => rw [hpc] at hok hrun; simpa only [PcOk, hne y (hrun y rfl)] using hok
    | _ => trivial

theorem matched_cancel (h : Matched s) (n : Nat) : Matched (cancel n s) := by
  unfold cancel
  split
  · exact h
  · rename_i j _
    split
    · rename_i hs
      have hr : (s.jobs j).state.atRest = true := by rw [hs]; rfl
      exact h.of_atRest (j := j) rfl hr rfl (h.atRest j hr).1 (h.atRest j hr).2 rfl rfl rfl
    · rename_i hs
      have hj : (cancelJob (dropCtx s j) j).jobs = Function.update s.jobs j
          { s.jobs j with
            ctxSlot := none, state := .cancelled, result := ecanceled, done := true } := by
        have hd : (dropCtx s j).jobs j = { s.jobs j with ctxSlot := none } :=
          Function.update_self ..
        show Function.update (Function.update s.jobs j _) j _ = _
        rw [Function.update_idem, hd]
      exact h.of_drop hs hj rfl rfl (h.suspended j hs).2 rfl rfl fun _ => rfl
    · exact h

theorem destroyJob_view (hs : job.state = .suspended → job.pipe = p) :
    (destroyJob p job).resuming = job.resuming ∧ (destroyJob p job).ticket = job.ticket ∧
      ((destroyJob p job).state = .running ↔ job.state = .running) ∧
      (destroyJob p job).state ≠ .suspended ∧
      ((destroyJob p job).state = job.state ∨ job.state = .queued ∨ job.state = .suspended) ∧
      (job.state = .running → destroyJob p job = job) := by
  unfold destroyJob
  dsimp only
  by_cases h1 : job.state = .suspended
  · rw [if_pos h1, if_pos (by simp [h1, hs h1])]
    simp [h1]
  · rw [if_neg h1]
    by_cases h2 : job.state = .queued
    · by_cases hp : job.pipe = p <;> simp [h2, hp]
    · rw [if_neg (by simp [h1, h2])]
      simp [h1]

theorem matched_destroyPipe (h : Matched s) (p : Fin maxPipelines)
    (hp : ∀ j, (s.jobs j).state = .suspended → (s.jobs j).pipe = p) : Matched (destroyPipe p s) := by
  have hv := fun j => destroyJob_view (hp j)
  have hslot : ∀ j, ((destroyPipe p s).jobs j).ctxSlot =
      if (s.jobs j).state = .suspended then none else (s.jobs j).ctxSlot := fun j =>
    destroyJob_ctxSlot p (s.jobs j)
  have hkeep : ∀ j k, (s.jobs j).state ≠ .suspended → (s.jobs j).ctxSlot = some k →
      (destroyPipe p s).ctx k = s.ctx k := by
    intro j k hns hk
    refine if_neg fun hf => ?_
    obtain ⟨i, hi, hik⟩ := destroyFrees_iff.mp hf
    exact hns (h.slots.inj i j k hik hk ▸ hi)
  have hsaved : ∀ j i k, s.pc = .saved j i k → (destroyPipe p s).ctx k = s.ctx k := by
    intro j i k hpc
    refine if_neg fun hf => ?_
    obtain ⟨x, -, hx⟩ := destroyFrees_iff.mp hf
    exact (h.slots.fresh j i k hpc).2 x hx
  refine ⟨slots_destroyPipe h.slots p, ?_, ?_, ?_, ?_, ?_, ?_⟩
  · intro j k hk
    rw [hslot] at hk
    split at hk
    · cases hk
    · rename_i hns
      obtain ⟨c, hc, ho⟩ := h.own j k hk
      exact ⟨c, (hkeep j k hns hk).trans hc, ho.trans (hv j).2.1.symm⟩
  · intro j hr
    rw [hslot]
    refine ⟨?_, ?_⟩
    · split
      · rfl
      · rename_i hns
        refine (h.atRest j ?_).1
        cases hst : (s.jobs j).state with
        | running =>
          have hrun : (destroyJob p (s.jobs j)).state = .running := (hv j).2.2.1.mpr hst
          have : ((destroyPipe p s).jobs j).state.atRest = true := hr
          rw [show ((destroyPipe p s).jobs j).state = .running from hrun] at this
          cases this
        | suspended => exact absurd hst hns
        | _ => rfl
    · show (destroyJob p (s.jobs j)).resuming = false
      rw [(hv j).1]
      by_cases hs : (s.jobs j).state = .suspended
      · exact (h.suspended j hs).2
      · refine (h.atRest j ?_).2
        cases hst : (s.jobs j).state with
        | running =>
          have hrun : (destroyJob p (s.jobs j)).state = .running := (hv j).2.2.1.mpr hst
          have : ((destroyPipe p s).jobs j).state.atRest = true := hr
          rw [show ((destroyPipe p s).jobs j).state = .running from hrun] at this
          cases this
        | suspended => exact absurd hst hs
        | _ => rfl
  · exact fun j hs => absurd hs (hv j).2.2.2.1
  · intro k hk
    have hnf : ¬destroyFrees s k = true := fun hf => hk (if_pos hf)
    have hk' : s.ctx k ≠ none := fun hn => hk (by
      show (if destroyFrees s k then none else s.ctx k) = none
      rw [if_neg hnf]
      exact hn)
    rcases h.occupied k hk' with ⟨j, hj⟩ | hs
    · refine .inl ⟨j, ?_⟩
      rw [hslot, if_neg fun hs => hnf (destroyFrees_iff.mpr ⟨j, hs, hj⟩)]
      exact hj
    · exact .inr hs
  · exact fun j => (hv j).2.2.1.trans (h.running j)
  · have hrun : ∀ i, s.pc.job = some i → (destroyPipe p s).jobs i = s.jobs i := fun i hi =>
      (hv i).2.2.2.2.2 ((h.running i).mpr hi)
    have hok := h.at_pc
    show PcOk (destroyPipe p s) s.pc
    cases hpc : s.pc with
    | saved y i k =>
      rw [hpc] at hok hrun
      simp only [PcOk, hrun y rfl, hsaved y i k hpc] at hok ⊢
      exact hok
    | start y => rw [hpc] at hok hrun; simpa only [PcOk, hrun y rfl] using hok
    | stage y i => rw [hpc] at hok hrun; simpa only [PcOk, hrun y rfl] using hok
    | layer y i => rw [hpc] at hok hrun; simp only [PcOk, hrun y rfl] at hok ⊢; exact hok
    | left y ret => rw [hpc] at hok hrun; simpa only [PcOk, hrun y rfl] using hok
    | _ => trivial

-- ---------------------------------------------------------------------------
-- The scheduler thread
-- ---------------------------------------------------------------------------

theorem matched_dispatchJob (h : Matched s) (hp : s.pc = .waiting)
    (hr : (s.jobs j).state = .queued ∨ (s.jobs j).state = .suspended) :
    Matched (dispatchJob s j) := by
  have hnone : ∀ i, (s.jobs i).state ≠ .running := fun i hi => by
    have := (h.running i).mp hi
    rw [hp] at this
    cases this
  have hself : (dispatchJob s j).jobs j = { s.jobs j with
      state := .running
      resuming := (s.jobs j).resuming || decide ((s.jobs j).state = .suspended) } :=
    Function.update_self ..
  have hne : ∀ i, i ≠ j → (dispatchJob s j).jobs i = s.jobs i := fun i hi =>
    Function.update_of_ne hi _ _
  have hslot : ∀ i, ((dispatchJob s j).jobs i).ctxSlot = (s.jobs i).ctxSlot := by
    intro i
    by_cases hi : i = j
    · rw [hi, hself]
    · rw [hne i hi]
  refine ⟨h.slots.of_set rfl rfl rfl fun _ _ _ hp => (nomatch hp), ?_, ?_, ?_, ?_, ?_, ?_⟩
  · intro i k
    rw [hslot]
    by_cases hi : i = j
    · rw [hi, hself]
      exact h.own j k
    · rw [hne i hi]
      exact h.own i k
  · intro i hi'
    by_cases hi : i = j
    · rw [hi, hself] at hi'
      cases hi'
    · rw [hne i hi] at hi' ⊢
      exact h.atRest i hi'
  · intro i hi'
    by_cases hi : i = j
    · rw [hi, hself] at hi'
      cases hi'
    · rw [hne i hi] at hi' ⊢
      exact h.suspended i hi'
  · intro k hk
    simp only [hslot]
    rcases h.occupied k hk with hj | ⟨x, i, hs⟩
    · exact .inl hj
    · rw [hp] at hs
      cases hs
  · intro i
    show _ ↔ some j = some i
    by_cases hi : i = j
    · rw [hi, hself]
      exact ⟨fun _ => rfl, fun _ => rfl⟩
    · rw [hne i hi]
      refine ⟨fun h' => absurd h' (hnone i), fun h' => ?_⟩
      cases h'
      exact absurd rfl hi
  · show ((dispatchJob s j).jobs j).resuming = true ↔ ((dispatchJob s j).jobs j).ctxSlot ≠ none
    rw [hself]
    dsimp only
    rcases hr with hr | hr
    · obtain ⟨hc, hre⟩ := h.atRest j (by rw [hr]; rfl)
      rw [hc, hre, hr]
      simp
    · obtain ⟨hc, -⟩ := h.suspended j hr
      rw [hr]
      simpa using hc

theorem matched_dispatch (h : Matched s) : Matched (dispatch s) := by
  unfold dispatch
  split
  · rename_i hp
    dsimp only
    split
    · exact h.of_sameJobs ⟨rfl, rfl, rfl, rfl⟩
    · split
      · exact h.of_sameJobs ⟨rfl, rfl, rfl, rfl⟩
      · rename_i j hj
        exact matched_dispatchJob (h.of_sameJobs ⟨rfl, rfl, rfl, rfl⟩) hp.1 (pickNextJob_runnable hj)
  · exact h

/-- The running job goes on inside `execute_pipeline`. -/
theorem Matched.of_running (h : Matched s) (hrun : s.pc.job = some j)
    (hj : s'.jobs = Function.update s.jobs j x) (hxs : x.state = .running)
    (hp : s'.pc.job = some j) (hslots : Slots s') (hok : PcOk s' s'.pc)
    (hown : ∀ k, x.ctxSlot = some k → ∃ c, s'.ctx k = some c ∧ c.owner = x.ticket)
    (hothers : ∀ i k, i ≠ j → (s.jobs i).ctxSlot = some k → s'.ctx k = s.ctx k)
    (hocc : ∀ k, s'.ctx k ≠ none → (∃ i, i ≠ j ∧ (s.jobs i).ctxSlot = some k) ∨
      x.ctxSlot = some k ∨ ∃ i, s'.pc = .saved j i k) : Matched s' := by
  have hne : ∀ i, i ≠ j → s'.jobs i = s.jobs i := fun i hi => by
    rw [hj, Function.update_of_ne hi]
  have hself : s'.jobs j = x := by rw [hj, Function.update_self]
  refine ⟨hslots, ?_, ?_, ?_, ?_, ?_, hok⟩
  · intro i k hk
    by_cases hi : i = j
    · rw [hi, hself] at hk ⊢
      exact hown k hk
    · rw [hne i hi] at hk ⊢
      rw [hothers i k hi hk]
      exact h.own i k hk
  · intro i hi'
    by_cases hi : i = j
    · rw [hi, hself, hxs] at hi'
      cases hi'
    · rw [hne i hi] at hi' ⊢
      exact h.atRest i hi'
  · intro i hi'
    by_cases hi : i = j
    · rw [hi, hself, hxs] at hi'
      cases hi'
    · rw [hne i hi] at hi' ⊢
      exact h.suspended i hi'
  · intro k hk
    rcases hocc k hk with ⟨i, hi, hik⟩ | hx | ⟨i, hs⟩
    · exact .inl ⟨i, by rw [hne i hi]; exact hik⟩
    · exact .inl ⟨j, by rw [hself]; exact hx⟩
    · exact .inr ⟨j, i, hs⟩
  · intro i
    rw [hp]
    by_cases hi : i = j
    · rw [hi, hself, hxs]
      exact ⟨fun _ => rfl, fun _ => rfl⟩
    · rw [hne i hi, h.running i, hrun]

/-- The running job goes on and keeps the slot it remembers. -/
theorem Matched.of_move (h : Matched s) (hrun : s.pc.job = some j)
    (hj : s'.jobs = Function.update s.jobs j x) (hx : x.view = (s.jobs j).view)
    (hp : s'.pc.job = some j) (hc : s'.ctx = s.ctx) (hns : ∀ y i k, s.pc ≠ .saved y i k)
    (hns' : ∀ y i k, s'.pc ≠ .saved y i k) (hok : PcOk s' s'.pc) : Matched s' := by
  obtain ⟨hst, hsl, -, hti⟩ := view_eq hx
  refine h.of_running hrun hj (hst.trans ((h.running j).mpr hrun)) hp
    (h.slots.of_set hj hsl hc fun y i k hs => absurd hs (hns' y i k)) hok ?_ ?_ ?_
  · intro k hk
    rw [hsl] at hk
    obtain ⟨c, hc', ho⟩ := h.own j k hk
    exact ⟨c, by rw [hc]; exact hc', ho.trans hti.symm⟩
  · exact fun i k _ _ => by rw [hc]
  · intro k hk
    rw [hc] at hk
    rcases h.occupied k hk with ⟨i, hi⟩ | ⟨y, i, hs⟩
    · by_cases hij : i = j
      · exact .inr (.inl (by rw [hsl, ← hij]; exact hi))
      · exact .inl ⟨i, hij, hi⟩
    · exact absurd hs (hns y i k)

/-- Only the place of the scheduler thread, and the live session, change. -/
theorem Matched.of_goto (h : Matched s) (hrun : s.pc.job = some j) (hj : s'.jobs = s.jobs)
    (hp : s'.pc.job = some j) (hc : s'.ctx = s.ctx) (hns : ∀ y i k, s.pc ≠ .saved y i k)
    (hns' : ∀ y i k, s'.pc ≠ .saved y i k) (hok : PcOk s' s'.pc) : Matched s' :=
  h.of_move (x := s.jobs j) hrun (by rw [hj, Function.update_eq_self]) rfl hp hc hns hns' hok

/-- A job that is not being resumed leaves without a slot. -/
theorem left_ok (hr : (s.jobs j).resuming = false) (hc : (s.jobs j).ctxSlot = none)
    (hret : ret ≠ eintr) : PcOk s (.left j ret) :=
  ⟨hr, ⟨fun h => absurd h hret, fun h => absurd hc h⟩⟩

theorem eintr_ne_zero : (0 : Ret) ≠ eintr := by decide
theorem einval_ne_eintr : einval ≠ eintr := by decide
theorem enoexec_ne_eintr : enoexec ≠ eintr := by decide
theorem eperm_ne_eintr : eperm ≠ eintr := by decide

theorem matched_enterPipeline (h : Matched s) (hp : s.pc = .start j) (hs : ScheduleSafe s res) :
    Matched (enterPipeline s j res) := by
  obtain ⟨hres, hsafe⟩ := hs
  have hok := h.at_pc
  rw [hp] at hsafe hok
  have hrun : s.pc.job = some j := by rw [hp]; rfl
  have hns : ∀ y i k, s.pc ≠ .saved y i k := fun _ _ _ he => by rw [hp] at he; cases he
  have hleft : ∀ ret, ret ≠ eintr → (s.jobs j).resuming ≠ true →
      PcOk s (.left j ret) := fun ret hret hr =>
    left_ok (Bool.eq_false_iff.mpr hr) (by_contra fun hc => hr (hok.mpr hc)) hret
  unfold enterPipeline
  dsimp only
  split
  · rename_i hi
    exact h.of_goto hrun rfl rfl rfl hns (fun _ _ _ he => nomatch he)
      (hleft einval einval_ne_eintr fun hr => hsafe hr hi)
  · split
    · exact h.of_goto hrun rfl rfl rfl hns (fun _ _ _ he => nomatch he) hok
    · rename_i hr
      split
      · exact h.of_goto hrun rfl rfl rfl hns (fun _ _ _ he => nomatch he)
          (hleft enoexec enoexec_ne_eintr hr)
      · split
        · exact h.of_goto hrun rfl rfl rfl hns (fun _ _ _ he => nomatch he) hok
        · split
          · exact h.of_goto hrun rfl rfl rfl hns (fun _ _ _ he => nomatch he) (hleft res hres hr)
          · exact h.of_goto hrun rfl rfl rfl hns (fun _ _ _ he => nomatch he) hok

theorem matched_endModel (h : Matched s) (hrun : s.pc.job = some j)
    (hns : ∀ y i k, s.pc ≠ .saved y i k) (hr : (s.jobs j).resuming = false)
    (hc : (s.jobs j).ctxSlot = none) (i : Nat) (hres : res ≠ eintr) (live : Option Ctx) :
    Matched (endModel { s with live := live } j i res) := by
  unfold endModel
  split
  · refine h.of_goto hrun rfl rfl rfl hns (fun _ _ _ he => nomatch he) ?_
    exact ⟨fun h' => absurd (hr.symm.trans h') Bool.noConfusion, fun h' => absurd hc h'⟩
  · exact h.of_goto hrun rfl rfl rfl hns (fun _ _ _ he => nomatch he) (left_ok hr hc hres)

theorem matched_resume (h : Matched s) (hp : s.pc = .stage j i)
    (hr : (s.jobs j).resuming = true) : Matched (resume s j i) := by
  have hok := h.at_pc
  rw [hp] at hok
  have hrun : s.pc.job = some j := by rw [hp]; rfl
  obtain ⟨k, hk⟩ := Option.ne_none_iff_exists'.mp (hok.mp hr)
  obtain ⟨c, hc, ho⟩ := h.own j k hk
  have hslots := slots_resume h.slots j i
  have he : resume s j i = { s with
      jobs := Function.update s.jobs j { s.jobs j with resuming := false, ctxSlot := none }
      live := some c, ctx := Function.update s.ctx k none, pc := .layer j i } := by
    unfold resume
    simp only [hk, hc]
    unfold Sched.setJob
    simp only [Function.update_self, Function.update_idem]
  rw [he] at hslots ⊢
  refine h.of_running hrun rfl ((h.running j).mpr hrun) rfl hslots ?_ (fun _ h' => nomatch h') ?_ ?_
  · simp only [PcOk, Function.update_self, true_and]
    exact ⟨c, rfl, ho⟩
  · intro x k' hx hk'
    refine Function.update_of_ne (fun (he : k' = k) => hx ?_) _ _
    exact h.slots.inj x j k (by rw [← he]; exact hk') hk
  · intro k' hk'
    have hne : k' ≠ k := by
      rintro rfl
      exact hk' (Function.update_self _ _ _)
    have hk'' : s.ctx k' ≠ none := fun hn => hk' ((Function.update_of_ne hne _ _).trans hn)
    rcases h.occupied k' hk'' with ⟨x, hx⟩ | ⟨y, n, hs⟩
    · refine .inl ⟨x, ?_, hx⟩
      rintro rfl
      rw [hk] at hx
      exact hne (Option.some.inj hx).symm
    · rw [hp] at hs
      cases hs

theorem matched_runStage (h : Matched s) (hp : s.pc = .stage j i) (hs : ScheduleSafe s res)
    (layers : Option Nat) : Matched (runStage s j i res layers) := by
  obtain ⟨hres, hsafe⟩ := hs
  have hok := h.at_pc
  rw [hp] at hsafe hok
  have hrun : s.pc.job = some j := by rw [hp]; rfl
  have hns : ∀ y i k, s.pc ≠ .saved y i k := fun _ _ _ he => by rw [hp] at he; cases he
  have hslot : ∀ hr : (s.jobs j).resuming ≠ true, (s.jobs j).ctxSlot = none := fun hr =>
    by_contra fun hc => hr (hok.mpr hc)
  unfold runStage
  dsimp only
  split
  · rename_i hi
    have hr : (s.jobs j).resuming ≠ true := fun hr => by
      rw [hsafe hr] at hi
      cases hi
    exact h.of_goto hrun rfl rfl rfl hns (fun _ _ _ he => nomatch he)
      (left_ok (Bool.eq_false_iff.mpr hr) (hslot hr) eintr_ne_zero)
  · split
    · rename_i hr
      exact matched_resume h hp hr
    · rename_i hr
      have hr' := Bool.eq_false_iff.mpr hr
      split
      · exact matched_endModel h hrun hns hr' (hslot hr) i einval_ne_eintr s.live
      · exact matched_endModel h hrun hns hr' (hslot hr) i hres s.live
      · exact h.of_goto hrun rfl rfl rfl hns (fun _ _ _ he => nomatch he)
          ⟨hslot hr, hr', _, rfl, rfl⟩
  · rename_i st hst hi
    have hr : (s.jobs j).resuming ≠ true := fun hr => by
      rw [hsafe hr] at hi
      exact hst (Option.some.inj hi).symm
    split
    · exact h.of_goto hrun rfl rfl rfl hns (fun _ _ _ he => nomatch he) hok
    · exact h.of_goto hrun rfl rfl rfl hns (fun _ _ _ he => nomatch he)
        (left_ok (Bool.eq_false_iff.mpr hr) (hslot hr) hres)

theorem matched_runLayer (h : Matched s) (hp : s.pc = .layer j i) (hres : res ≠ eintr) :
    Matched (runLayer s j i res) := by
  have hok := h.at_pc
  rw [hp] at hok
  obtain ⟨hc, hr, c, hl, ho⟩ := hok
  have hrun : s.pc.job = some j := by rw [hp]; rfl
  have hns : ∀ y i k, s.pc ≠ .saved y i k := fun _ _ _ he => by rw [hp] at he; cases he
  have hslots := slots_runLayer h.slots j i res
  unfold runLayer at hslots ⊢
  split
  · exact matched_endModel h hrun hns hr hc i eperm_ne_eintr s.live
  · exact matched_endModel h hrun hns hr hc i hres _
  · rename_i owner rem hl'
    rw [hl] at hl'
    cases hl'
    split
    · split
      · exact h.of_goto hrun rfl rfl rfl hns (fun _ _ _ he => nomatch he) ⟨hc, hr, _, rfl, ho⟩
      · rename_i hpre _ k hk
        simp only [hl, if_pos hpre, hk] at hslots
        have hnone : ∀ x, (s.jobs x).ctxSlot ≠ some k := fun x hx =>
          h.slots.held x k hx (freeSlot_none hk)
        refine h.of_running (x := s.jobs j) hrun (Function.update_eq_self j s.jobs).symm
          ((h.running j).mpr hrun) rfl hslots ?_ ?_ ?_ ?_
        · refine ⟨hc, hr, _, Function.update_self _ _ _, ho⟩
        · intro k' hk'
          rw [hc] at hk'
          cases hk'
        · intro x k' _ hx
          exact Function.update_of_ne (fun (he : k' = k) => hnone x (by rw [← he]; exact hx)) _ _
        · intro k' hk'
          by_cases he : k' = k
          · exact .inr (.inr ⟨i, by rw [he]⟩)
          · have hk'' : s.ctx k' ≠ none := fun hn => hk' ((Function.update_of_ne he _ _).trans hn)
            rcases h.occupied k' hk'' with ⟨x, hx⟩ | ⟨y, n, hs⟩
            · refine .inl ⟨x, ?_, hx⟩
              rintro rfl
              rw [hc] at hx
              cases hx
            · exact absurd hs (hns y n k')
    · exact h.of_goto hrun rfl rfl rfl hns (fun _ _ _ he => nomatch he) ⟨hc, hr, _, rfl, ho⟩

theorem matched_park (h : Matched s) (hp : s.pc = .saved j i k) : Matched (park s j i k) := by
  have hok := h.at_pc
  rw [hp] at hok
  obtain ⟨hc, hr, c, hk, ho⟩ := hok
  have hrun : s.pc.job = some j := by rw [hp]; rfl
  refine h.of_running hrun rfl ((h.running j).mpr hrun) rfl (slots_park h.slots hp) ?_ ?_ ?_ ?_
  · have hself : (park s j i k).jobs j = { s.jobs j with ctxSlot := some k, resumeStage := i } :=
      Function.update_self ..
    show ((park s j i k).jobs j).resuming = false ∧
      (eintr = eintr ↔ ((park s j i k).jobs j).ctxSlot ≠ none)
    rw [hself]
    exact ⟨hr, ⟨fun _ => Option.some_ne_none _, fun _ => rfl⟩⟩
  · intro k' hk'
    cases hk'
    exact ⟨c, hk, ho⟩
  · exact fun _ _ _ _ => rfl
  · intro k' hk'
    rcases h.occupied k' hk' with ⟨x, hx⟩ | ⟨y, n, hs⟩
    · refine .inl ⟨x, ?_, hx⟩
      rintro rfl
      rw [hc] at hx
      cases hx
    · rw [hp] at hs
      cases hs
      exact .inr (.inl rfl)

/-- The running job ends or is suspended. -/
theorem matched_settle (h : Matched s) (hp : s.pc = .left j ret) : Matched (settle s j ret) := by
  have hok := h.at_pc
  rw [hp] at hok
  obtain ⟨hr, hret⟩ := hok
  have hrun : s.pc.job = some j := by rw [hp]; rfl
  have hrunning := (h.running j).mpr hrun
  have hsettle : ∀ x : Job, x.ctxSlot = (s.jobs j).ctxSlot → x.resuming = (s.jobs j).resuming →
      x.ticket = (s.jobs j).ticket → x.state ≠ .running →
      (x.state = .suspended → x.ctxSlot ≠ none) → (x.state.atRest = true → x.ctxSlot = none) →
      ∀ s' : Sched cfg, s'.jobs = Function.update s.jobs j x → s'.ctx = s.ctx →
      (s'.pc.job = none ∧ PcOk s' s'.pc) → Matched s' := by
    intro x hxc hxr hxt hxs hxsu hxre s' hj hc ⟨hp', hok'⟩
    have hne : ∀ i, i ≠ j → s'.jobs i = s.jobs i := fun i hi => by
      rw [hj, Function.update_of_ne hi]
    have hself : s'.jobs j = x := by rw [hj, Function.update_self]
    refine ⟨h.slots.of_set hj hxc hc fun y i k hs => ?_, ?_, ?_, ?_, ?_, ?_, hok'⟩
    · rw [hs] at hp'
      cases hp'
    · intro i k hk
      rw [hc]
      by_cases hi : i = j
      · rw [hi, hself] at hk ⊢
        rw [hxt]
        exact h.own j k (hxc ▸ hk)
      · rw [hne i hi] at hk ⊢
        exact h.own i k hk
    · intro i hi'
      by_cases hi : i = j
      · rw [hi, hself] at hi' ⊢
        exact ⟨hxre hi', hxr.trans hr⟩
      · rw [hne i hi] at hi' ⊢
        exact h.atRest i hi'
    · intro i hi'
      by_cases hi : i = j
      · rw [hi, hself] at hi' ⊢
        exact ⟨hxsu hi', hxr.trans hr⟩
      · rw [hne i hi] at hi' ⊢
        exact h.suspended i hi'
    · intro k hk
      rw [hc] at hk
      rcases h.occupied k hk with ⟨i, hi⟩ | ⟨y, i, hs⟩
      · refine .inl ⟨i, ?_⟩
        by_cases hij : i = j
        · rw [hij, hself, hxc, ← hij]
          exact hi
        · rw [hne i hij]
          exact hi
      · rw [hp] at hs
        cases hs
    · intro i
      rw [hp']
      by_cases hi : i = j
      · rw [hi, hself]
        exact ⟨fun h' => absurd h' hxs, fun h' => nomatch h'⟩
      · rw [hne i hi, h.running i, hrun]
        refine ⟨fun h' => absurd (Option.some.inj h').symm hi, fun h' => nomatch h'⟩
  unfold settle
  split
  · rename_i he
    exact hsettle { s.jobs j with state := .suspended } rfl rfl rfl (fun h' => nomatch h')
      (fun _ => hret.mp he) (fun h' => nomatch h') _ rfl rfl ⟨rfl, trivial⟩
  · rename_i he
    have hnone : (s.jobs j).ctxSlot = none := by_contra fun hc => he (hret.mpr hc)
    refine hsettle { s.jobs j with result := ret, state := if ret = 0 then .done else .error }
      rfl rfl rfl ?_ ?_ (fun _ => hnone) _ rfl rfl ⟨rfl, trivial⟩
    · dsimp only
      split <;> exact fun h' => nomatch h'
    · dsimp only
      split <;> exact fun h' => nomatch h'

/-- The scheduler thread goes on where no job is running. -/
theorem Matched.of_resting (h : Matched s) (hj : ∀ i, (s'.jobs i).view = (s.jobs i).view)
    (hp : s.pc.job = none) (hp' : s'.pc.job = none) (hc : s'.ctx = s.ctx) : Matched s' := by
  have hst := fun j => (view_eq (hj j)).1
  have hcs := fun j => (view_eq (hj j)).2.1
  have hre := fun j => (view_eq (hj j)).2.2.1
  have hti := fun j => (view_eq (hj j)).2.2.2
  have hns : ∀ {t : Sched cfg}, t.pc.job = none → ∀ y i k, t.pc ≠ .saved y i k := by
    intro t ht y i k hs
    rw [hs] at ht
    cases ht
  refine ⟨h.slots.of_keep hcs hc fun y i k hs => absurd hs (hns hp' y i k), ?_, ?_, ?_, ?_, ?_, ?_⟩
  · intro j k
    rw [hcs, hc, hti]
    exact h.own j k
  · intro j
    rw [hst, hcs, hre]
    exact h.atRest j
  · intro j
    rw [hst, hcs, hre]
    exact h.suspended j
  · intro k hk
    rw [hc] at hk
    rcases h.occupied k hk with ⟨i, hi⟩ | ⟨y, i, hs⟩
    · exact .inl ⟨i, (hcs i).trans hi⟩
    · exact absurd hs (hns hp y i k)
  · intro j
    rw [hst, hp', h.running j, hp]
  · cases hpc : s'.pc <;> rw [hpc] at hp' <;> trivial

theorem matched_schedule (h : Matched s) (hs : ScheduleSafe s res) (layers : Option Nat) :
    Matched (schedule res layers s) := by
  unfold schedule
  split
  · exact h
  · rename_i hp
    exact matched_enterPipeline h hp hs
  · rename_i hp
    exact matched_runStage h hp hs layers
  · rename_i hp
    exact matched_runLayer h hp hs.1
  · rename_i hp
    exact matched_park h hp
  · rename_i hp
    exact matched_settle h hp
  · rename_i hp
    exact h.of_resting (fun _ => rfl) (by rw [hp]; rfl) rfl rfl
  · rename_i hp
    exact h.of_resting (fun _ => rfl) (by rw [hp]; rfl) rfl rfl
  · rename_i j hp
    refine h.of_resting (fun i => ?_) (by rw [hp]; rfl) rfl rfl
    show (Function.update s.jobs j _ i).view = _
    rw [Function.update_apply]
    split
    · rename_i he
      rw [he]
      rfl
    · rfl

-- ---------------------------------------------------------------------------
-- Runs
-- ---------------------------------------------------------------------------

theorem Matched.init : Matched (Sched.init cfg) :=
  ⟨Slots.init, fun _ _ h => (nomatch h), fun _ _ => ⟨rfl, rfl⟩, fun _ h => (nomatch h),
    fun _ h => absurd rfl h, fun _ => ⟨fun h => (nomatch h), fun h => (nomatch h)⟩, trivial⟩

theorem matched_step (h : Matched s) (o : Op cfg) (hs : SuspensionSafe s o) : Matched (step s o) := by
  cases o with
  | destroyLock t =>
    unfold step destroyLock
    dsimp only
    split
    · rename_i p hp
      exact (matched_destroyPipe h p (hs p hp)).of_sameJobs ⟨rfl, rfl, rfl, rfl⟩
    · exact h
  | submitLock t now => exact matched_submitLock h t now
  | cancel n => exact matched_cancel h n
  | getResult n => exact matched_getResult h n
  | waitEnter t n => exact h.of_sameJobs (sameJobs_waitEnter t n s)
  | waitStep t => exact matched_waitStep h t
  | waitTimeout t => exact h.of_sameJobs (sameJobs_waitTimeout t s)
  | dispatch => exact matched_dispatch h
  | schedule res layers => exact matched_schedule h hs layers
  | create | addEnter | addWrite | buildEnter | buildWrite | destroyEnter | submitEnter
  | setMaxConcurrent => exact h.of_sameJobs (quiet_of_builder s _ rfl).same
  | _ => exact h.of_sameJobs (quiet_of_registry s _ rfl).same

/-- Suspension slots and suspended jobs correspond one to one. -/
theorem suspension_one_to_one (ops : List (Op cfg))
    (h : Along step SuspensionSafe (Sched.init cfg) ops) :
    OneToOne (run step (Sched.init cfg) ops) :=
  (h.invariant Matched.init fun _ o hi hs => matched_step hi o hs).oneToOne

theorem suspension_one_to_one_resume :
    OneToOne (run step (Sched.init twoJobs) (suspendOps ++ resumeOps)) :=
  suspension_one_to_one _ (by decide +kernel)

/-- Destroying an unrelated pipeline leaves a suspended job without a slot. -/
theorem destroy_breaks_one_to_one :
    ¬OneToOne (run step (Sched.init twoJobs)
      (suspendOps ++ [.create, .destroyEnter 0 2, .destroyLock 0])) := by
  intro h
  obtain ⟨k, c, hk, -⟩ := h.suspended 0 (by decide +kernel)
  have hn : ((run step (Sched.init twoJobs) (suspendOps ++
      [.create, .destroyEnter 0 2, .destroyLock 0])).jobs 0).ctxSlot = none := by decide +kernel
  rw [hn] at hk
  cases hk

end SynapticOS.Infer
