import SynapticOS.Infer.Accounts

/-!
# What an operation does to the job table

It leaves the life of every job as it was, or it is one of the `Deed`s, each of
which moves one job on (or, when a pipeline is destroyed, some jobs to
`CANCELLED`).
-/

namespace SynapticOS.Infer

open Lib

variable {cfg : Cfg} {s s' s'' : Sched cfg} {j : Fin cfg.jobs}

-- ---------------------------------------------------------------------------
-- The life of a job
-- ---------------------------------------------------------------------------

/-- State, submission and id. -/
def Job.life (job : Job) : JobState × Nat × Nat := (job.state, job.ticket, job.id)

/-- What dispatch goes by. -/
def Job.claim (job : Job) : Params × Option Nat × Nat := (job.params, job.deadlineAt, job.seq)

/-- Nothing is submitted. -/
structure SameIds (s s' : Sched cfg) : Prop where
  tickets : s'.tickets = s.tickets
  nextId : s'.nextId = s.nextId

structure Still (s s' : Sched cfg) : Prop where
  ids : SameIds s s'
  life : ∀ j, (s'.jobs j).life = (s.jobs j).life
  claim : ∀ j, (s'.jobs j).claim = (s.jobs j).claim

/-- Job `j` goes to `st`. -/
structure Moved (s s' : Sched cfg) (j : Fin cfg.jobs) (st : JobState) : Prop where
  ids : SameIds s s'
  life : (s'.jobs j).life = (st, (s.jobs j).ticket, (s.jobs j).id)
  other : ∀ i, i ≠ j → (s'.jobs i).life = (s.jobs i).life
  claim : ∀ i, (s'.jobs i).claim = (s.jobs i).claim

/-- Slot `j` gets a new job. -/
structure Submitted (s s' : Sched cfg) (j : Fin cfg.jobs) : Prop where
  free : (s.jobs j).state = .free
  tickets : s'.tickets = s.tickets + 1
  nextId : s'.nextId = nextJobId s.nextId
  life : (s'.jobs j).life = (.queued, s.tickets, s.nextId)
  other : ∀ i, i ≠ j → (s'.jobs i).life = (s.jobs i).life
  claim : ∀ i, i ≠ j → (s'.jobs i).claim = (s.jobs i).claim

/-- Where `execute_pipeline` leaves a job. -/
def outcome (ret : Ret) : JobState :=
  if ret = eintr then .suspended else if ret = 0 then .done else .error

def Done (s s' : Sched cfg) : Deed cfg → Prop
  | .still => Still s s'
  | .submit j => Submitted s s' j
  | .cancel j => (s.jobs j).runnable = true ∧ Moved s s' j .cancelled
  | .destroy p => SameIds s s' ∧ ∀ j, s'.jobs j = destroyJob p (s.jobs j)
  | .deliver j => (s.jobs j).state.ended = true ∧ Moved s s' j .free
  | .pick j => (s.jobs j).runnable = true ∧ Moved s s' j .running
  | .settle j ret => (s.jobs j).state = .running ∧ Moved s s' j (outcome ret)

theorem life_state {job : Job} {st : JobState} {ticket id : Nat}
    (h : job.life = (st, ticket, id)) : job.state = st := congrArg Prod.fst h

theorem state_of_life {a b : Job} (h : a.life = b.life) : a.state = b.state := congrArg Prod.fst h

theorem Moved.state_of_ne (h : Moved s s' j st) (hi : (s'.jobs i).state ≠ st) :
    (s'.jobs i).state = (s.jobs i).state := by
  refine state_of_life (h.other i fun he => hi ?_)
  rw [he]
  exact life_state h.life

/-- The state of a job after destroying a pipeline. -/
theorem destroyJob_state_or (p : Fin maxPipelines) (job : Job) :
    (destroyJob p job).state = job.state ∨ (destroyJob p job).state = .cancelled := by
  by_cases h : job.doomed p
  · rw [destroyJob_of_doomed h]
    exact .inr rfl
  · rw [destroyJob_of_not_doomed h]
    exact .inl rfl

theorem Done.tickets {d : Deed cfg} (h : Done s s' d) : s.tickets ≤ s'.tickets := by
  cases d with
  | submit j =>
    have := Submitted.tickets h
    omega
  | still => exact Nat.le_of_eq h.ids.tickets.symm
  | cancel j | deliver j | pick j | settle j ret => exact Nat.le_of_eq h.2.ids.tickets.symm
  | destroy p => exact Nat.le_of_eq h.1.tickets.symm

theorem Still.of_jobs (hi : SameIds s s') (hj : s'.jobs = s.jobs) : Still s s' :=
  ⟨hi, fun j => by rw [hj], fun j => by rw [hj]⟩

theorem claim_set {f : Fin cfg.jobs → Job} (hx : x.claim = (f j).claim) (i : Fin cfg.jobs) :
    (Function.update f j x i).claim = (f i).claim := by
  rw [Function.update_apply]
  split
  · rename_i he
    rw [he, hx]
  · rfl

/-- One job is written, for something else. -/
theorem Still.of_set (hi : SameIds s s') (hj : s'.jobs = Function.update s.jobs j x)
    (hx : x.life = (s.jobs j).life) (hc : x.claim = (s.jobs j).claim) : Still s s' := by
  refine ⟨hi, fun i => ?_, fun i => by rw [hj]; exact claim_set hc i⟩
  rw [hj, Function.update_apply]
  split
  · rename_i he
    rw [he, hx]
  · rfl

theorem Still.trans (h : Still s s') (h' : Still s' s'') : Still s s'' where
  ids := ⟨h'.ids.tickets.trans h.ids.tickets, h'.ids.nextId.trans h.ids.nextId⟩
  life j := (h'.life j).trans (h.life j)
  claim j := (h'.claim j).trans (h.claim j)

theorem Moved.of_set (hi : SameIds s s') (hj : s'.jobs = Function.update s.jobs j x)
    (hx : x.life = (st, (s.jobs j).ticket, (s.jobs j).id)) (hc : x.claim = (s.jobs j).claim) :
    Moved s s' j st := by
  refine ⟨hi, ?_, fun i hne => ?_, fun i => by rw [hj]; exact claim_set hc i⟩
  · rw [hj, Function.update_self, hx]
  · rw [hj, Function.update_of_ne hne]

theorem Still.moved (h : Still s s') (h' : Moved s' s'' j st) : Moved s s'' j st where
  ids := ⟨h'.ids.tickets.trans h.ids.tickets, h'.ids.nextId.trans h.ids.nextId⟩
  life := by
    have hj := h.life j
    rw [h'.life]
    simp only [Job.life, Prod.mk.injEq] at hj
    rw [hj.2.1, hj.2.2]
  other i hne := (h'.other i hne).trans (h.life i)
  claim i := (h'.claim i).trans (h.claim i)

theorem SameIds.refl (s : Sched cfg) : SameIds s s := ⟨rfl, rfl⟩

theorem Still.refl (s : Sched cfg) : Still s s := ⟨.refl s, fun _ => rfl, fun _ => rfl⟩

theorem Still.of_quiet (h : Quiet s s') (hn : s'.nextId = s.nextId) : Still s s' :=
  .of_jobs ⟨h.tickets, hn⟩ h.same.jobs

theorem still_endModel (s : Sched cfg) (j : Fin cfg.jobs) (i : Nat) (res : Ret) :
    Still s (endModel s j i res) := by
  unfold endModel
  split
  · exact .of_jobs ⟨rfl, rfl⟩ rfl
  · split
    · exact .of_set ⟨rfl, rfl⟩ rfl rfl rfl
    · exact .of_jobs ⟨rfl, rfl⟩ rfl

theorem still_resume (s : Sched cfg) (j : Fin cfg.jobs) (i : Nat) : Still s (resume s j i) := by
  have hset : Still s (s.setJob j fun job => { job with resuming := false }) :=
    .of_set ⟨rfl, rfl⟩ rfl rfl rfl
  unfold resume
  dsimp only
  split
  · exact hset.trans (.of_jobs ⟨rfl, rfl⟩ rfl)
  · split
    · exact hset.trans (.of_jobs ⟨rfl, rfl⟩ rfl)
    · exact hset.trans (.of_set ⟨rfl, rfl⟩ rfl rfl rfl)

/-- The scheduler thread outside the section after `execute_pipeline`. -/
theorem still_schedule (res : Ret) (layers : Option Nat) (h : ∀ j ret, s.pc ≠ .left j ret) :
    Still s (schedule res layers s) := by
  unfold schedule
  split
  · exact .refl s
  · unfold enterPipeline
    dsimp only
    repeat' split
    all_goals exact .of_jobs ⟨rfl, rfl⟩ rfl
  · unfold runStage
    dsimp only
    split
    · exact .of_jobs ⟨rfl, rfl⟩ rfl
    · split
      · exact still_resume ..
      · split
        · exact still_endModel ..
        · exact still_endModel ..
        · exact .of_jobs ⟨rfl, rfl⟩ rfl
    · split <;> exact .of_jobs ⟨rfl, rfl⟩ rfl
  · unfold runLayer
    split
    · exact still_endModel ..
    · refine .trans ?_ (still_endModel ..)
      exact .of_jobs ⟨rfl, rfl⟩ rfl
    · split
      · split <;> exact .of_jobs ⟨rfl, rfl⟩ rfl
      · exact .of_jobs ⟨rfl, rfl⟩ rfl
  · exact .of_set ⟨rfl, rfl⟩ rfl rfl rfl
  · rename_i j ret hp
    exact absurd hp (h j ret)
  · exact .of_jobs ⟨rfl, rfl⟩ rfl
  · exact .of_jobs ⟨rfl, rfl⟩ rfl
  · exact .of_set ⟨rfl, rfl⟩ rfl rfl rfl

theorem done_settle (hr : RunningOk s) (hp : s.pc = .left j ret) (res : Ret)
    (layers : Option Nat) : Done s (schedule res layers s) (.settle j ret) := by
  refine ⟨(hr j).mpr (by rw [hp]; rfl), ?_⟩
  unfold schedule settle outcome
  rw [hp]
  dsimp only
  split
  · exact .of_set ⟨rfl, rfl⟩ rfl rfl rfl
  · exact .of_set ⟨rfl, rfl⟩ rfl rfl rfl

theorem done_cancel (s : Sched cfg) (n : Nat) : Done s (cancel n s) (deed s (.cancel n)) := by
  unfold cancel deed
  dsimp only
  cases findJob s n with
  | none => exact Still.refl s
  | some j =>
    have hr : (s.jobs j).runnable = decide ((s.jobs j).state = .queued ∨
      (s.jobs j).state = .suspended) := rfl
    dsimp only
    split
    · rename_i hs
      rw [if_pos (by simp [hr, hs])]
      exact ⟨by simp [hr, hs], .of_set ⟨rfl, rfl⟩ rfl rfl rfl⟩
    · rename_i hs
      rw [if_pos (by simp [hr, hs])]
      have hd : Still s (dropCtx s j) := .of_set ⟨rfl, rfl⟩ rfl rfl rfl
      exact ⟨by simp [hr, hs], hd.moved (.of_set ⟨rfl, rfl⟩ rfl rfl rfl)⟩
    · rename_i h1 h2
      rw [if_neg]
      · exact Still.refl s
      · intro hd
        rcases of_decide_eq_true (hr ▸ hd) with h | h
        · exact h1 h
        · exact h2 h

theorem done_getResult (s : Sched cfg) (n : Nat) :
    Done s (getResult n s) (deed s (.getResult n)) := by
  have hfree : ∀ j, (s.jobs j).state.ended = true →
      Done s (s.setJob j fun job => { job with state := .free }) (.deliver j) :=
    fun j he => ⟨he, .of_set ⟨rfl, rfl⟩ rfl rfl rfl⟩
  unfold getResult deed
  dsimp only
  cases findJob s n with
  | none => exact Still.refl s
  | some j =>
    have hj := hfree j
    dsimp only
    cases hs : (s.jobs j).state with
    | done | error | cancelled => exact hj (by rw [hs]; rfl)
    | free | queued | running | suspended => exact Still.refl s

theorem done_dispatch (s : Sched cfg) : Done s (dispatch s) (deed s .dispatch) := by
  have hpick : pickNextJob { s with wakes := s.wakes - 1 } = pickNextJob s := rfl
  unfold dispatch deed
  dsimp only
  by_cases hp : s.pc = .waiting ∧ 0 < s.wakes
  · rw [if_pos hp]
    by_cases hpa : s.paused = true
    · rw [if_pos hpa, if_neg fun h => Bool.false_ne_true (h.2.2.symm.trans hpa)]
      exact Still.of_jobs ⟨rfl, rfl⟩ rfl
    · rw [if_neg hpa, if_pos ⟨hp.1, hp.2, Bool.eq_false_iff.mpr hpa⟩, hpick]
      cases hj : pickNextJob s with
      | none => exact Still.of_jobs ⟨rfl, rfl⟩ rfl
      | some j =>
        refine ⟨?_, .of_set ⟨rfl, rfl⟩ rfl rfl rfl⟩
        simpa [Entry.runnable] using pickNextJob_runnable hj
  · rw [if_neg hp, if_neg fun h => hp ⟨h.1, h.2.1⟩]
    exact Still.refl s

theorem done_submitLock (s : Sched cfg) (t : Fin cfg.threads) (now : Nat) :
    Done s (submitLock t now s) (deed s (.submitLock t now)) := by
  unfold submitLock deed
  dsimp only
  cases s.threads t with
  | submitting p params =>
    dsimp only
    cases hj : freeJob s with
    | none => exact Still.of_jobs ⟨rfl, rfl⟩ rfl
    | some j =>
      refine ⟨freeJob_free hj, rfl, rfl, ?_, fun i hne => ?_, fun i hne => ?_⟩
      · show (Function.update s.jobs j _ j).life = _
        rw [Function.update_self]
        rfl
      · show (Function.update s.jobs j _ i).life = _
        rw [Function.update_of_ne hne]
      · show (Function.update s.jobs j _ i).claim = _
        rw [Function.update_of_ne hne]
  | _ => exact Still.refl s

theorem done_destroyLock (s : Sched cfg) (t : Fin cfg.threads) :
    Done s (destroyLock t s) (deed s (.destroyLock t)) := by
  unfold destroyLock deed
  dsimp only
  cases s.threads t with
  | destroying p => exact ⟨⟨rfl, rfl⟩, fun _ => rfl⟩
  | _ => exact Still.refl s

/-- What every operation does to the job table. -/
theorem done_step (hr : RunningOk s) (o : Op cfg) : Done s (step s o) (deed s o) := by
  cases o with
  | submitLock t now => exact done_submitLock s t now
  | destroyLock t => exact done_destroyLock s t
  | cancel n => exact done_cancel s n
  | getResult n => exact done_getResult s n
  | dispatch => exact done_dispatch s
  | schedule res layers =>
    unfold deed
    dsimp only
    split
    · rename_i j ret hp
      exact done_settle hr hp res layers
    · rename_i hp
      exact still_schedule res layers fun j ret h => hp j ret h
  | waitStep t =>
    show Still s (waitStep t s)
    unfold waitStep
    split
    · exact .of_jobs ⟨rfl, rfl⟩ rfl
    · split
      · exact .of_set ⟨rfl, rfl⟩ rfl rfl rfl
      · exact .of_jobs ⟨rfl, rfl⟩ rfl
    · split
      · exact .of_set ⟨rfl, rfl⟩ rfl rfl rfl
      · exact .refl s
    · exact .of_set ⟨rfl, rfl⟩ rfl rfl rfl
    · split <;> exact .of_jobs ⟨rfl, rfl⟩ rfl
    · exact .of_jobs ⟨rfl, rfl⟩ rfl
    · exact .refl s
  | waitEnter t n =>
    show Still s (waitEnter t n s)
    unfold waitEnter
    repeat' split
    all_goals exact .of_jobs ⟨rfl, rfl⟩ rfl
  | waitTimeout t =>
    show Still s (waitTimeout t s)
    unfold waitTimeout
    split
    · exact .of_jobs ⟨rfl, rfl⟩ rfl
    · exact .refl s
  | create | addEnter | addWrite | buildEnter | buildWrite | destroyEnter | submitEnter
  | setMaxConcurrent =>
    exact Still.of_quiet (quiet_of_builder s _ rfl) (numbers_of_builder s _ rfl).2
  | _ => exact Still.of_quiet (quiet_of_registry s _ rfl) (nextId_of_registry s _ rfl)

theorem deed_settle {o : Op cfg} {ret : Ret} (h : deed s o = .settle j ret) :
    s.pc = .left j ret ∧ ∃ res layers, o = .schedule res layers := by
  cases o with
  | schedule res layers =>
    unfold deed at h
    dsimp only at h
    split at h
    · rename_i hp
      cases h
      exact ⟨hp, res, layers, rfl⟩
    · cases h
  | submitLock t now | destroyLock t | cancel n | getResult n | dispatch =>
    unfold deed at h
    dsimp only at h
    repeat' split at h
    all_goals cases h
  | _ => cases h

/-- A job becomes suspended where `execute_pipeline` returns `-EINTR`. -/
theorem suspends_step (hr : RunningOk s) (o : Op cfg)
    (h : ((step s o).jobs j).state = .suspended) :
    (s.jobs j).state = .suspended ∨ deed s o = .settle j eintr := by
  have hd := done_step hr o
  have hmoved : ∀ {i st}, Moved s (step s o) i st → st ≠ .suspended →
      (s.jobs j).state = .suspended := fun hm hne => by
    rwa [hm.state_of_ne fun he => hne (he.symm.trans h)] at h
  cases hdeed : deed s o with
  | still =>
    rw [hdeed] at hd
    exact .inl ((state_of_life (Still.life hd j)).symm.trans h)
  | submit i =>
    rw [hdeed] at hd
    by_cases hij : j = i
    · rw [hij, life_state (Submitted.life hd)] at h
      cases h
    · exact .inl ((state_of_life (Submitted.other hd j hij)).symm.trans h)
  | cancel i | deliver i | pick i =>
    rw [hdeed] at hd
    exact .inl (hmoved hd.2 fun h => nomatch h)
  | destroy p =>
    rw [hdeed] at hd
    rw [hd.2 j] at h
    rcases destroyJob_state_or p (s.jobs j) with he | he
    · exact .inl (he.symm.trans h)
    · rw [he] at h
      cases h
  | settle i ret =>
    rw [hdeed] at hd
    by_cases hret : ret = eintr
    · by_cases hij : j = i
      · rw [hij, hret]
        exact .inr rfl
      · exact .inl ((state_of_life (hd.2.other j hij)).symm.trans h)
    · refine .inl (hmoved hd.2 ?_)
      unfold outcome
      rw [if_neg hret]
      split <;> exact fun h => nomatch h

end SynapticOS.Infer
