import SynapticOS.Infer.Lives

/-!
# The preemption decision

`preempt_pending` looks at queued jobs only. The job that runs was picked before
every job that is suspended (`Ahead`), so none of those outranks it, and the
answer is right; and the queued job that was the reason is still there when the
scheduler picks again.
-/

namespace SynapticOS.Infer

open Lib

variable {cfg : Cfg} {s s' : Sched cfg} {r i j : Fin cfg.jobs} {d : Deed cfg}

-- ---------------------------------------------------------------------------
-- The order of dispatch
-- ---------------------------------------------------------------------------

/-- Of the two, dispatch takes `r`. -/
def Before (s : Sched cfg) (r i : Fin cfg.jobs) : Prop :=
  (s.jobs r).key < (s.jobs i).key ∨ (s.jobs r).key = (s.jobs i).key ∧ r < i

/-- The job that runs comes before every job that is suspended. -/
def Ahead (s : Sched cfg) : Prop :=
  ∀ r i, (s.jobs r).state = .running → (s.jobs i).state = .suspended → Before s r i

theorem key_of_claim {a b : Job} (h : a.claim = b.claim) : a.key = b.key := by
  simp only [Job.claim, Prod.mk.injEq] at h
  obtain ⟨hp, hd, hs⟩ := h
  unfold Entry.key Entry.due
  rw [hp, hd, hs]

theorem Before.of_claims (h : Before s r i) (hr : (s'.jobs r).claim = (s.jobs r).claim)
    (hi : (s'.jobs i).claim = (s.jobs i).claim) : Before s' r i := by
  unfold Before
  rw [key_of_claim hr, key_of_claim hi]
  exact h

theorem Before.priority_le (h : Before s r i) :
    (s.jobs i).params.priority ≤ (s.jobs r).params.priority := by
  rcases Prod.Lex.toLex_le_toLex.mp (key_le h) with hlt | ⟨heq, -⟩
  · exact (OrderDual.toDual_lt_toDual.mp hlt).le
  · exact (OrderDual.toDual_inj.mp heq).ge

theorem destroyJob_claim (p : Fin maxPipelines) (job : Job) :
    (destroyJob p job).claim = job.claim := by
  by_cases h : job.doomed p
  · rw [destroyJob_of_doomed h]
    rfl
  · rw [destroyJob_of_not_doomed h]
    rfl

/-- No new job is suspended, and none runs that did not. -/
theorem Ahead.of_fewer (h : Ahead s) (hc : ∀ i, (s'.jobs i).state = .running ∨
      (s'.jobs i).state = .suspended → (s'.jobs i).state = (s.jobs i).state ∧
        (s'.jobs i).claim = (s.jobs i).claim) : Ahead s' := by
  intro r i hr hi
  obtain ⟨hr1, hr2⟩ := hc r (.inl hr)
  obtain ⟨hi1, hi2⟩ := hc i (.inr hi)
  exact (h r i (hr1 ▸ hr) (hi1 ▸ hi)).of_claims hr2 hi2

theorem Ahead.moved (h : Ahead s) (hm : Moved s s' j st) (h1 : st ≠ .running)
    (h2 : st ≠ .suspended) : Ahead s' := by
  refine h.of_fewer fun i hi => ⟨hm.state_of_ne fun he => ?_, hm.claim i⟩
  rw [he] at hi
  exact hi.elim h1 h2

/-- The job that is picked comes before all that are left. -/
theorem ahead_picked (hr : RunningOk s) (hp : s.pc.job = none) (hj : pickNextJob s = some j)
    (hm : Moved s s' j .running) : Ahead s' := by
  obtain ⟨-, hmin⟩ := pickNextJob_iff.mp hj
  have hnone : ∀ i, (s.jobs i).state ≠ .running := fun i hi => by
    rw [hr i, hp] at hi
    cases hi
  intro r i hrun hsus
  have hrj : r = j := by
    by_contra hne
    rw [state_of_life (hm.other r hne)] at hrun
    exact hnone r hrun
  have hij : i ≠ j := by
    intro he
    rw [he, life_state hm.life] at hsus
    cases hsus
  rw [state_of_life (hm.other i hij)] at hsus
  have hb : Before s j i := hmin i (by simp [Entry.runnable, hsus]) hij
  rw [hrj]
  exact hb.of_claims (hm.claim j) (hm.claim i)

/-- What a settled job leaves: nothing runs. -/
theorem ahead_settled (hr : RunningOk s) (hj : (s.jobs j).state = .running) (ret : Ret)
    (hm : Moved s s' j (outcome ret)) : Ahead s' := by
  intro r i hrun _
  by_cases he : r = j
  · rw [he, life_state hm.life] at hrun
    unfold outcome at hrun
    repeat' split at hrun
    all_goals cases hrun
  · rw [state_of_life (hm.other r he)] at hrun
    exact absurd (Option.some.inj (((hr r).mp hrun).symm.trans ((hr j).mp hj))) he

theorem deed_pick {o : Op cfg} (h : deed s o = .pick j) : Picks s o ∧ pickNextJob s = some j := by
  cases o with
  | dispatch =>
    unfold deed at h
    dsimp only at h
    split at h
    · rename_i hp
      split at h
      · cases h
      · rename_i hj
        cases h
        exact ⟨⟨rfl, hp⟩, hj⟩
    · cases h
  | submitLock t now | destroyLock t | cancel n | getResult n | schedule res layers =>
    unfold deed at h
    dsimp only at h
    repeat' split at h
    all_goals cases h
  | _ => cases h

theorem ahead_step (h : Ahead s) (hr : RunningOk s) (o : Op cfg) : Ahead (step s o) := by
  have hd := done_step hr o
  cases hdeed : deed s o with
  | still =>
    rw [hdeed] at hd
    exact h.of_fewer fun i _ => ⟨state_of_life (Still.life hd i), Still.claim hd i⟩
  | submit j =>
    rw [hdeed] at hd
    refine h.of_fewer fun i hi => ?_
    have hne : i ≠ j := by
      intro he
      rw [he, life_state (Submitted.life hd)] at hi
      rcases hi with hi | hi <;> cases hi
    exact ⟨state_of_life (Submitted.other hd i hne), Submitted.claim hd i hne⟩
  | cancel j =>
    rw [hdeed] at hd
    exact h.moved hd.2 (fun h => nomatch h) fun h => nomatch h
  | deliver j =>
    rw [hdeed] at hd
    exact h.moved hd.2 (fun h => nomatch h) fun h => nomatch h
  | destroy p =>
    rw [hdeed] at hd
    refine h.of_fewer fun i hi => ?_
    rw [hd.2 i] at hi ⊢
    refine ⟨(destroyJob_state_or p (s.jobs i)).resolve_right fun hc => ?_, destroyJob_claim p _⟩
    rw [hc] at hi
    rcases hi with hi | hi <;> cases hi
  | pick j =>
    rw [hdeed] at hd
    obtain ⟨hp, hj⟩ := deed_pick hdeed
    exact ahead_picked hr (by rw [hp.2.1]; rfl) hj hd.2
  | settle j ret =>
    rw [hdeed] at hd
    exact ahead_settled hr hd.1 ret hd.2

theorem Ahead.init : Ahead (Sched.init cfg) := fun _ _ h => nomatch h

/-- No suspended job outranks the one that runs, so the queued ones decide. -/
theorem Ahead.preemptPending (h : Ahead s) (hr : (s.jobs r).state = .running) :
    preemptPending s r = true ↔
      ∃ i, (s.jobs i).runnable = true ∧
          (s.jobs r).params.priority < (s.jobs i).params.priority := by
  unfold Infer.preemptPending
  simp only [List.any_eq_true, List.mem_finRange, true_and, Bool.and_eq_true, decide_eq_true_eq]
  constructor
  · rintro ⟨i, hq, hp⟩
    exact ⟨i, by simp [Entry.runnable, hq], hp⟩
  · rintro ⟨i, hq, hp⟩
    rcases of_decide_eq_true hq with hq | hq
    · exact ⟨i, hq, hp⟩
    · exact absurd (h r i hr hq).priority_le hp.not_ge

-- ---------------------------------------------------------------------------
-- After a suspension
-- ---------------------------------------------------------------------------

/-- No cancellation, no pipeline destroyed, and no job picked. -/
def Op.harmless (s : Sched cfg) : Op cfg → Prop
  | .cancel _ | .destroyLock _ => False
  | .dispatch => ¬Picks s .dispatch
  | _ => True

/-- A job is queued, with a priority above `p`. -/
def Outranked (s : Sched cfg) (p : Nat) : Prop :=
  ∃ i, (s.jobs i).state = .queued ∧ p < (s.jobs i).params.priority

theorem params_of_claim {a b : Job} (h : a.claim = b.claim) : a.params = b.params :=
  congrArg Prod.fst h

theorem outranked_step (h : Outranked s p) (hr : RunningOk s) {o : Op cfg} (ho : o.harmless s) :
    Outranked (step s o) p := by
  obtain ⟨i, hq, hp⟩ := h
  have hd := done_step hr o
  have hkept : ((step s o).jobs i).state = (s.jobs i).state →
      ((step s o).jobs i).claim = (s.jobs i).claim → Outranked (step s o) p := fun h1 h2 =>
    ⟨i, h1.trans hq, by rw [params_of_claim h2]; exact hp⟩
  have hmoved : ∀ {j st}, Moved s (step s o) j st → (s.jobs j).state ≠ .queued →
      Outranked (step s o) p := by
    intro j st hm hj
    exact hkept (state_of_life (hm.other i fun he => hj (he ▸ hq))) (hm.claim i)
  cases hdeed : deed s o with
  | still =>
    rw [hdeed] at hd
    exact hkept (state_of_life (Still.life hd i)) (Still.claim hd i)
  | submit j =>
    rw [hdeed] at hd
    have hne : i ≠ j := by
      intro he
      rw [he, Submitted.free hd] at hq
      cases hq
    exact hkept (state_of_life (Submitted.other hd i hne)) (Submitted.claim hd i hne)
  | deliver j =>
    rw [hdeed] at hd
    refine hmoved hd.2 fun hj => ?_
    have he := hd.1
    rw [hj] at he
    cases he
  | settle j ret =>
    rw [hdeed] at hd
    exact hmoved hd.2 (by rw [hd.1]; exact fun h => nomatch h)
  | pick j =>
    obtain ⟨hp', -⟩ := deed_pick hdeed
    rw [hp'.1] at ho hp'
    exact absurd hp' ho
  | cancel j =>
    cases o with
    | cancel n => exact ho.elim
    | submitLock t now | destroyLock t | getResult n | dispatch | schedule res layers =>
      unfold deed at hdeed
      dsimp only at hdeed
      repeat' split at hdeed
      all_goals cases hdeed
    | _ => cases hdeed
  | destroy p =>
    cases o with
    | destroyLock t => exact ho.elim
    | submitLock t now | cancel n | getResult n | dispatch | schedule res layers =>
      unfold deed at hdeed
      dsimp only at hdeed
      repeat' split at hdeed
      all_goals cases hdeed
    | _ => cases hdeed

theorem outranked_run (h : Outranked s p) (hr : RunningOk s) {l : List (Op cfg)}
    (hl : Along step (fun s o => o.harmless s) s l) :
    Outranked (run step s l) p ∧ RunningOk (run step s l) :=
  hl.invariant (I := fun s => Outranked s p ∧ RunningOk s) ⟨h, hr⟩
    fun _ o hi hc => ⟨outranked_step hi.1 hi.2 hc, runningOk_step hi.2 o⟩

/-- The job that is picked has a priority above `p` as well. -/
theorem Outranked.pick (h : Outranked s p) (hj : pickNextJob s = some j) :
    p < (s.jobs j).params.priority := by
  obtain ⟨i, hq, hp⟩ := h
  exact hp.trans_le ((pickNextJob_foremost hj).priority i (by simp [Entry.runnable, hq]))

/-- A layer boundary suspends a job for a queued job above it. -/
theorem suspended_outranked {n : Nat} {res : Ret} {layers : Option Nat} {k : Fin ctxSlots}
    (hp : s.pc = .layer r n) (hs : (step s (.schedule res layers)).pc = .saved r n k) :
    Outranked (step s (.schedule res layers)) (s.jobs r).params.priority := by
  have hpe : preemptPending s r = true ∧ (step s (.schedule res layers)).jobs = s.jobs := by
    have he : step s (.schedule res layers) = runLayer s r n res := by
      show schedule res layers s = _
      unfold schedule
      rw [hp]
    rw [he] at hs ⊢
    have hend : ∀ (s : Sched cfg) (ret : Ret), (endModel s r n ret).pc ≠ .saved r n k := by
      intro s ret
      unfold endModel
      split
      · exact fun h => nomatch h
      · split <;> exact fun h => nomatch h
    unfold runLayer at hs ⊢
    split at hs
    · exact absurd hs (hend _ _)
    · exact absurd hs (hend _ _)
    · split at hs
      · rename_i hc
        rw [if_pos hc]
        split at hs
        · cases hs
        · exact ⟨hc.2.2, rfl⟩
      · cases hs
  obtain ⟨hpre, hjobs⟩ := hpe
  unfold preemptPending at hpre
  simp only [List.any_eq_true, List.mem_finRange, true_and, Bool.and_eq_true,
    decide_eq_true_eq] at hpre
  obtain ⟨i, hq, hlt⟩ := hpre
  exact ⟨i, by rw [hjobs]; exact hq, by rw [hjobs]; exact hlt⟩

/-- In every run: the job that runs comes before every suspended job; so
`preempt_pending` says whether some runnable job has a higher priority; and after
a suspension at a layer boundary, with nothing cancelled or destroyed since, the
next job that is dispatched has a higher priority. -/
theorem preemption_right (l : List (Op cfg)) :
    let s := run step (Sched.init cfg) l
    ∀ r, (s.jobs r).state = .running →
      (∀ i, (s.jobs i).state = .suspended → Before s r i) ∧
      (preemptPending s r = true ↔ ∃ i, (s.jobs i).runnable = true ∧
        (s.jobs r).params.priority < (s.jobs i).params.priority) ∧
      ∀ n res layers k, s.pc = .layer r n →
        (step s (.schedule res layers)).pc = .saved r n k →
        ∀ l', Along step (fun s o => o.harmless s) (step s (.schedule res layers)) l' →
          ∀ j, pickNextJob (run step (step s (.schedule res layers)) l') = some j →
            (s.jobs r).params.priority <
              ((run step (step s (.schedule res layers)) l').jobs j).params.priority := by
  have hinv : Ahead (run step (Sched.init cfg) l) ∧ RunningOk (run step (Sched.init cfg) l) :=
    run_invariant (I := fun s => Ahead s ∧ RunningOk s) l ⟨Ahead.init, RunningOk.init⟩
      fun _ o h => ⟨ahead_step h.1 h.2 o, runningOk_step h.2 o⟩
  generalize run step (Sched.init cfg) l = s at *
  intro s r hr
  refine ⟨fun i hi => hinv.1 r i hr hi, hinv.1.preemptPending hr, ?_⟩
  intro n res layers k hp hs l' hl j hj
  exact (outranked_run (suspended_outranked hp hs) (runningOk_step hinv.2 _) hl).1.pick hj

end SynapticOS.Infer
