import SynapticOS.Infer.DispatchLaws

/-!
# Quiesce excludes the scheduler

Callers that hold the residency gate around quiesce and release exclude each
other. The one that has quiesced also excludes the scheduler: no job runs until
it releases. A quiesce that blocks does so for one job, the one that ran when it
took the lock, and the token it waits for is the one that this job's end gives.
-/

namespace SynapticOS.Infer.Dispatch

open Lib (Along run)

variable {cfg : Cfg} {s s' : State cfg}

/-- Quiesce is called by holders of the residency gate only. -/
def Serialised (s : State cfg) (o : Op cfg) : Prop := ∀ t, o = .quiesce t → s.calls t ≠ .idle

instance (s : State cfg) (o : Op cfg) : Decidable (Serialised s o) := by
  unfold Serialised; infer_instance

/-- How the wait of thread `t` for job `j` stands. -/
inductive Served (s : State cfg) (t : Fin cfg.threads) (j : Fin cfg.jobs) : Prop
  /-- The job runs and there is no token; however it ends, the next operation of
  the scheduler thread is to give the token. -/
  | running (hj : (s.jobs j).state = .running) (hd : s.drain = false)
    (hg : ∀ ret, ((step s (.settle ret)).jobs j).state ≠ .running ∧
        (step s (.settle ret)).drain = false ∧
      (step (step s (.settle ret)) .proceed).drain = true)
  /-- The job has left `RUNNING`, and that operation is next. -/
  | left (hj : ∀ i, (s.jobs i).state ≠ .running) (hd : s.drain = false)
    (hg : (step s .proceed).drain = true)
  /-- The token is there, and ends the wait. -/
  | given (hj : ∀ i, (s.jobs i).state ≠ .running) (hd : s.drain = true)
    (hg : (step s (.drained t)).calls t = .quiesced)

/-- Thread `t` is in a quiesce that began in the state before `s`, in which job `j` ran:
as long as it waits, it waits for `j`. -/
def WaitsFor (s : State cfg) (t : Fin cfg.threads) (j : Fin cfg.jobs) : Prop :=
  ∀ ops, Along step (fun s o => Serialised s o ∧ s.calls t = .draining) s ops →
    (run step s ops).calls t = .draining → Served (run step s ops) t j

structure Excludes (s : State cfg) : Prop where
  /-- From the return of quiesce to the release, no job runs. -/
  quiesced : ∀ t, s.calls t = .quiesced → ∀ j, (s.jobs j).state ≠ .running
  /-- A quiesce returns at once or waits for the running job. -/
  quiesces : ∀ t, s.calls t = .gated → (step s (.quiesce t)).calls t = .quiesced ∨
    ∃ j, (s.jobs j).state = .running ∧ WaitsFor (step s (.quiesce t)) t j

-- ---------------------------------------------------------------------------
-- The invariant
-- ---------------------------------------------------------------------------

/-- The caller is between taking the residency gate and giving it back. -/
def Call.changes : Call → Bool
  | .gated | .draining | .quiesced | .releasing _ => true
  | _ => false

/-- The scheduler thread executes no job. -/
def Pc.Free (pc : Pc cfg) : Prop := ∀ j, pc ≠ .executing j

/-- Job `j` runs or is about to give the token, or the token is there. -/
def Awaits (s : State cfg) (j : Fin cfg.jobs) : Prop :=
  (s.drain = false ∧ (s.pc = .executing j ∨ s.pc = .rested true ∨ s.pc = .reporting j true)) ∨
    s.drain = true ∧ s.pc.Free

/-- The scheduler thread has not given the token for its last job yet. -/
def Pc.owesToken : Pc cfg → Bool
  | .executing _ | .rested true | .reporting _ true => true
  | _ => false

/-- Past its give of the token, the scheduler thread leaves the token behind. -/
theorem Awaits.token (h : Awaits s j) (hp : s.pc.owesToken = false) : s.drain = true := by
  rcases h with ⟨-, he | he | he⟩ | h
  · rw [he] at hp
    cases hp
  · rw [he] at hp
    cases hp
  · rw [he] at hp
    cases hp
  · exact h.1

/-- It stays there while the scheduler thread has no job. -/
theorem Awaits.idle (h : Awaits s j) (hp : s.pc.owesToken = false) (hd : s'.drain = s.drain)
    (hf : s'.pc.Free) : Awaits s' j := .inr ⟨hd.trans (h.token hp), hf⟩

structure Gated (s : State cfg) : Prop where
  running : ∀ j, (s.jobs j).state = .running ↔ s.pc = .executing j
  flag : s.jobRunning = true ↔ ∃ j, s.pc = .executing j
  held : ∀ t, (s.calls t).changes = true → s.gate = some t
  draining : ∀ t, s.calls t = .draining → s.paused = true ∧ ∃ j, Awaits s j
  quiesced : ∀ t, s.calls t = .quiesced → s.paused = true ∧ s.pc.Free

theorem Gated.unique (h : Gated s) (hi : (s.calls i).changes = true)
    (ht : (s.calls t).changes = true) :
    i = t := Option.some.inj ((h.held i hi).symm.trans (h.held t ht))

theorem Gated.no_running (h : Gated s) (hp : s.pc.Free) (j : Fin cfg.jobs) :
    (s.jobs j).state ≠ .running := fun hr => hp j ((h.running j).mp hr)

/-- A step that leaves the running job, the pause and the changers alone. -/
theorem Gated.of_frame (h : Gated s)
    (hr : ∀ j, (s'.jobs j).state = .running ↔ (s.jobs j).state = .running)
    (hpc : ∀ j, s'.pc = .executing j ↔ s.pc = .executing j) (hf : s'.jobRunning = s.jobRunning)
    (hg : s'.gate = s.gate) (hp : s'.paused = s.paused)
    (hc : ∀ t, (s'.calls t).changes = true → s'.calls t = s.calls t)
    (ha : ∀ j, Awaits s j → Awaits s' j) : Gated s' where
  running j := by rw [hr, hpc]; exact h.running j
  flag := by
    rw [hf, h.flag]
    exact exists_congr fun j => (hpc j).symm
  held t ht := by
    rw [hg]
    exact h.held t (by rw [← hc t ht]; exact ht)
  draining t ht := by
    rw [hc t (by rw [ht]; rfl)] at ht
    obtain ⟨hpd, j, hj⟩ := h.draining t ht
    exact ⟨hp.trans hpd, j, ha j hj⟩
  quiesced t ht := by
    rw [hc t (by rw [ht]; rfl)] at ht
    obtain ⟨hpd, hfree⟩ := h.quiesced t ht
    exact ⟨hp.trans hpd, fun j he => hfree j ((hpc j).mp he)⟩

/-- The scheduler thread moves on without a job. -/
theorem Gated.of_idle (h : Gated s) (hr : s'.jobs = s.jobs) (hpc : s.pc.Free) (hpc' : s'.pc.Free)
    (hf : s'.jobRunning = s.jobRunning) (hg : s'.gate = s.gate) (hp : s'.paused = s.paused)
    (hc : s'.calls = s.calls) (ha : ∀ j, Awaits s j → Awaits s' j) : Gated s' :=
  h.of_frame (fun j => by rw [hr])
      (fun j => ⟨fun he => absurd he (hpc' j), fun he => absurd he (hpc j)⟩)
    hf hg hp (fun t _ => by rw [hc]) ha

/-- A job that does not run is written. -/
theorem Gated.of_job (h : Gated s) (hj : s'.jobs = Function.update s.jobs j e)
    (hn : (s.jobs j).state ≠ .running) (he : e.state ≠ .running) (hpc : s'.pc = s.pc)
    (hf : s'.jobRunning = s.jobRunning) (hg : s'.gate = s.gate) (hp : s'.paused = s.paused)
    (hd : s'.drain = s.drain) (hc : ∀ t, (s'.calls t).changes = true → s'.calls t = s.calls t) :
    Gated s' := by
  refine h.of_frame (fun i => ?_) (fun i => by rw [hpc]) hf hg hp hc fun i ha => ?_
  · rw [hj, Function.update_apply]
    split
    · rename_i hi
      rw [hi]
      exact ⟨fun h => absurd h he, fun h => absurd h hn⟩
    · exact Iff.rfl
  · unfold Awaits
    rw [hpc, hd]
    exact ha

theorem Gated.of_calls (h : Gated s) (hj : s'.jobs = s.jobs) (hpc : s'.pc = s.pc)
    (hf : s'.jobRunning = s.jobRunning) (hg : s'.gate = s.gate) (hp : s'.paused = s.paused)
    (hd : s'.drain = s.drain) (hc : ∀ t, (s'.calls t).changes = true → s'.calls t = s.calls t) :
    Gated s' := by
  refine h.of_frame (fun i => by rw [hj]) (fun i => by rw [hpc]) hf hg hp hc fun i ha => ?_
  unfold Awaits
  rw [hpc, hd]
  exact ha

/-- A change by the holder of the gate: nobody else is between gate and gate. -/
theorem Gated.of_holder (h : Gated s) (t : Fin cfg.threads) (hj : s'.jobs = s.jobs)
    (hpc : s'.pc = s.pc)
    (hf : s'.jobRunning = s.jobRunning) (hc : ∀ i, i ≠ t → (s'.calls i).changes = false)
    (hg : (s'.calls t).changes = true → s'.gate = some t)
    (hd : s'.calls t = .draining → s'.paused = true ∧ ∃ j, Awaits s' j)
    (hq : s'.calls t = .quiesced → s'.paused = true ∧ s'.pc.Free) : Gated s' := by
  have hi : ∀ i, (s'.calls i).changes = true → i = t := by
    intro i hi
    by_contra hne
    rw [hc i hne] at hi
    cases hi
  refine ⟨fun j => by rw [hj, hpc]; exact h.running j, by rw [hf, hpc]; exact h.flag,
      fun i ht => ?_,
    fun i ht => ?_, fun i ht => ?_⟩
  · have := hi i ht
    subst this
    exact hg ht
  · have := hi i (by rw [ht]; rfl)
    subst this
    exact hd ht
  · have := hi i (by rw [ht]; rfl)
    subst this
    exact hq ht

-- ---------------------------------------------------------------------------
-- The scheduler thread
-- ---------------------------------------------------------------------------

theorem pc_free {pc pc' : Pc cfg} (h : pc = pc') (hp : ∀ j, pc' ≠ .executing j) : pc.Free := by
  rw [h]
  exact hp

theorem gated_wake (h : Gated s) : Gated (wake s) := by
  unfold wake
  split
  · rename_i hw
    refine h.of_idle rfl (pc_free hw.1 fun j he => (nomatch he))
        (fun j he => (nomatch he)) rfl rfl rfl rfl
      fun j ha => ha.idle ?_ rfl fun j he => (nomatch he)
    rw [hw.1]
    rfl
  · exact h

theorem gated_look (h : Gated s) : Gated (look s) := by
  unfold look
  split
  · rename_i hpc
    have hfree : s.pc.Free := pc_free hpc fun j he => (nomatch he)
    have hgiven : s.pc.owesToken = false := by
      rw [hpc]
      rfl
    split
    · exact h.of_idle rfl hfree (fun j he => (nomatch he)) rfl rfl rfl rfl
        fun j ha => ha.idle hgiven rfl fun j he => (nomatch he)
    · rename_i hp
      split
      · exact h.of_idle rfl hfree (fun j he => (nomatch he)) rfl rfl rfl rfl
          fun j ha => ha.idle hgiven rfl fun j he => (nomatch he)
      · rename_i j _
        -- dispatch is not paused, so nobody drains or has quiesced
        refine ⟨fun i => ?_, ?_, h.held, fun t ht => absurd (h.draining t ht).1 hp,
          fun t ht => absurd (h.quiesced t ht).1 hp⟩
        · show (Function.update s.jobs j _ i).state = .running ↔ Pc.executing j = .executing i
          rw [Function.update_apply]
          split
          · rename_i hi
            rw [hi]
            exact ⟨fun _ => rfl, fun _ => rfl⟩
          · rename_i hi
            refine ⟨fun hr => absurd ((h.running i).mp hr) (hfree i), fun he => ?_⟩
            cases he
            exact absurd rfl hi
        · exact ⟨fun _ => ⟨j, rfl⟩, fun _ => rfl⟩
  · exact h

/-- The running job leaves, and the pause is seen. -/
theorem gated_leave (h : Gated s) (hpc : s.pc = .executing j)
    (hj : s'.jobs = Function.update s.jobs j e)
    (he : e.state ≠ .running) (hf : s'.jobRunning = false) (hg : s'.gate = s.gate)
    (hp : s'.paused = s.paused) (hd : s'.drain = s.drain) (hc : s'.calls = s.calls)
        (hfree : s'.pc.Free)
    (hnext : s.paused = true → s'.pc = .rested true ∨ s'.pc = .reporting j true) : Gated s' := by
  refine ⟨fun i => ?_, ?_, ?_, fun t ht => ?_, fun t ht => ?_⟩
  · rw [hj, Function.update_apply]
    split
    · exact ⟨fun hr => absurd hr he, fun hr => absurd hr (hfree i)⟩
    · rename_i hi
      refine ⟨fun hr => ?_, fun hr => absurd hr (hfree i)⟩
      have := (h.running i).mp hr
      rw [hpc] at this
      cases this
      exact absurd rfl hi
  · rw [hf]
    exact ⟨fun h => (nomatch h), fun ⟨i, hi⟩ => absurd hi (hfree i)⟩
  · rw [hg, hc]
    exact h.held
  · rw [hc] at ht
    obtain ⟨hpd, i, hi⟩ := h.draining t ht
    refine ⟨hp.trans hpd, j, ?_⟩
    rcases hi with ⟨hd0, -⟩ | ⟨-, hfr⟩
    · exact .inl ⟨hd.trans hd0, .inr (hnext hpd)⟩
    · exact absurd hpc (hfr j)
  · rw [hc] at ht
    exact absurd hpc ((h.quiesced t ht).2 j)

theorem gated_settle (h : Gated s) (ret : Ret) : Gated (settle ret s) := by
  unfold settle
  split
  · rename_i j hpc
    split
    · refine gated_leave h hpc (e := { s.jobs j with state := .suspended }) rfl
          (fun he => (nomatch he))
        rfl rfl rfl rfl rfl (fun i he => (nomatch he)) fun hp => .inl ?_
      show Pc.rested s.paused = .rested true
      rw [hp]
    · refine gated_leave h hpc
        (e := { s.jobs j with result := ret, state := if ret = 0 then .done else .error }) rfl ?_ rfl rfl rfl rfl rfl (fun i he => (nomatch he)) fun hp => .inr ?_
      · dsimp only
        split <;> exact fun he => nomatch he
      · show Pc.reporting j s.paused = .reporting j true
        rw [hp]
  · exact h

theorem gated_proceed (h : Gated s) : Gated (proceed s) := by
  unfold proceed
  split
  · rename_i hpc
    exact h.of_idle rfl (pc_free hpc fun j he => (nomatch he))
        (fun j he => (nomatch he)) rfl rfl rfl rfl
      fun j _ => .inr ⟨rfl, fun j he => (nomatch he)⟩
  · rename_i hpc
    refine h.of_idle rfl (pc_free hpc fun j he => (nomatch he))
        (fun j he => (nomatch he)) rfl rfl rfl rfl
      fun j ha => ha.idle ?_ rfl fun j he => (nomatch he)
    rw [hpc]
    rfl
  · rename_i hpc
    exact h.of_idle rfl (pc_free hpc fun j he => (nomatch he))
        (fun j he => (nomatch he)) rfl rfl rfl rfl
      fun j _ => .inr ⟨rfl, fun j he => (nomatch he)⟩
  · rename_i hpc
    refine h.of_idle rfl (pc_free hpc fun j he => (nomatch he))
        (fun j he => (nomatch he)) rfl rfl rfl rfl
      fun j ha => ha.idle ?_ rfl fun j he => (nomatch he)
    rw [hpc]
    rfl
  · exact h

-- ---------------------------------------------------------------------------
-- The callers
-- ---------------------------------------------------------------------------

/-- With the gate free nobody is between gate and gate; with it held, nobody else. -/
theorem Gated.others (h : Gated s) (hg : s.gate = none ∨ s.gate = some t) (i : Fin cfg.threads)
    (hi : i ≠ t) : (s.calls i).changes = false := by
  cases hc : (s.calls i).changes with
  | false => rfl
  | true =>
    have hheld := h.held i hc
    rcases hg with hg | hg
    · rw [hg] at hheld
      cases hheld
    · rw [hg] at hheld
      exact absurd (Option.some.inj hheld).symm hi

theorem calls_update (s : State cfg) (t : Fin cfg.threads) (c : Call) :
    (Function.update s.calls t c) t = c := Function.update_self ..

theorem calls_update_other (s : State cfg) {i t : Fin cfg.threads} (c : Call) (h : i ≠ t) :
    (Function.update s.calls t c) i = s.calls i := Function.update_of_ne h ..

/-- The thread takes on a call outside the gate. -/
theorem setCall_changes (s : State cfg) (t : Fin cfg.threads) {c : Call} (hc : c.changes = false)
    (i : Fin cfg.threads) (hi : ((s.setCall t c).calls i).changes = true) :
    (s.setCall t c).calls i = s.calls i := by
  by_cases he : i = t
  · subst he
    have : (s.setCall i c).calls i = c := calls_update s i c
    rw [this, hc] at hi
    cases hi
  · exact calls_update_other s c he

/-- A thread that holds the gate, or finds it free, moves on in its call. -/
theorem Gated.of_call (h : Gated s) (hg : s.gate = none ∨ s.gate = some t)
    (hc : s'.calls = Function.update s.calls t c) (hj : s'.jobs = s.jobs) (hpc : s'.pc = s.pc)
    (hf : s'.jobRunning = s.jobRunning) (hheld : c.changes = true → s'.gate = some t)
    (hd : c ≠ .draining) (hq : c = .quiesced → s'.paused = true ∧ s'.pc.Free) : Gated s' := by
  have hself : s'.calls t = c := by rw [hc, Function.update_self]
  refine h.of_holder t hj hpc hf (fun i hi => ?_) (fun ht => hheld (hself ▸ ht))
    (fun ht => absurd (hself.symm.trans ht) hd) fun ht => hq (hself.symm.trans ht)
  rw [hc, Function.update_of_ne hi]
  exact h.others hg i hi

theorem quiesceLock_calls (s : State cfg) (t : Fin cfg.threads) :
    (quiesceLock t s).calls t = if s.jobRunning then .draining else .quiesced := by
  simp [quiesceLock]

theorem quiesceLock_others (h : (s.calls i).changes = false) (hi : i ≠ t) :
    (quiesceLock t s).calls i = s.calls i := by
  unfold quiesceLock
  dsimp only
  rw [Function.update_of_ne hi]
  split
  · rename_i hd
    rw [hd] at h
    cases h
  · rfl

/-- The holder pauses dispatch: it waits for the job that runs, if one does. -/
theorem gated_quiesceLock (h : Gated s) (hg : s.gate = some t) : Gated (quiesceLock t s) := by
  refine h.of_holder t rfl rfl rfl (fun i hi => ?_) (fun _ => hg) (fun hd => ⟨rfl, ?_⟩) fun hq =>
      ⟨rfl, ?_⟩
  · have hi' := h.others (.inr hg) i hi
    rw [quiesceLock_others hi' hi]
    exact hi'
  · rw [quiesceLock_calls] at hd
    split at hd
    · rename_i hf
      obtain ⟨j, hj⟩ := h.flag.mp hf
      exact ⟨j, .inl ⟨rfl, .inl hj⟩⟩
    · cases hd
  · rw [quiesceLock_calls] at hq
    split at hq
    · cases hq
    · rename_i hf
      exact fun j hj => hf (h.flag.mpr ⟨j, hj⟩)

/-- The wait ends with the token, and the job it was for has left. -/
theorem gated_drained (h : Gated s) (t : Fin cfg.threads) : Gated (drained t s) := by
  unfold drained
  split
  · rename_i hc
    have hg := h.held t (by rw [hc]; rfl)
    split
    · rename_i hd
      obtain ⟨hp, j, hj⟩ := h.draining t hc
      refine h.of_call (c := .quiesced) (.inr hg) rfl rfl rfl rfl (fun _ => hg)
        (fun he => (nomatch he)) fun _ => ⟨hp, ?_⟩
      rcases hj with ⟨hd', -⟩ | ⟨-, hfree⟩
      · rw [hd] at hd'
        cases hd'
      · exact hfree
    · exact h
  · exact h

theorem gated_step (h : Gated s) (o : Op cfg) (hs : Serialised s o) : Gated (step s o) := by
  cases o with
  | wake => exact gated_wake h
  | look => exact gated_look h
  | settle ret => exact gated_settle h ret
  | proceed => exact gated_proceed h
  | enter t =>
    unfold step enter
    dsimp only
    split
    · rename_i hg
      exact h.of_call (c := .gated) (.inl hg) rfl rfl rfl rfl (fun _ => rfl)
        (fun he => (nomatch he)) fun he => (nomatch he)
    · exact h
  | quiesce t =>
    unfold step quiesce
    dsimp only
    split
    · rename_i hc
      exact gated_quiesceLock h (h.held t (by rw [hc]; rfl))
    · rename_i hc
      exact absurd hc (hs t rfl)
    · exact h
  | drained t => exact gated_drained h t
  | release t =>
    unfold step release
    dsimp only
    split
    · rename_i hc
      have hg := h.held t (by rw [hc]; rfl)
      exact h.of_call (c := .releasing s.deferred) (.inr hg) rfl rfl rfl rfl (fun _ => hg)
        (fun he => (nomatch he)) fun he => (nomatch he)
    · exact h
  | replay t =>
    unfold step replay
    dsimp only
    split
    · rename_i n hc
      have hg := h.held t (by rw [hc]; rfl)
      exact h.of_call (c := .releasing n) (.inr hg) rfl rfl rfl rfl (fun _ => hg)
        (fun he => (nomatch he)) fun he => (nomatch he)
    · rename_i hc
      have hg := h.held t (by rw [hc]; rfl)
      exact h.of_call (c := .idle) (.inr hg) rfl rfl rfl rfl (fun he => (nomatch he))
        (fun he => (nomatch he)) fun he => (nomatch he)
    · exact h
  | submitLock t p params now =>
    unfold step submitLock
    dsimp only
    split
    · split
      · exact h
      · rename_i j hf
        exact h.of_job (j := j) rfl (by rw [Table.freeJob_free hf]; exact fun he => nomatch he)
            (fun he => (nomatch he)) rfl rfl rfl rfl rfl
          (setCall_changes s t rfl)
    · exact h
  | submitGive t =>
    unfold step submitGive
    dsimp only
    split
    · exact h.of_calls rfl rfl rfl rfl rfl rfl (setCall_changes s t rfl)
    · exact h
  | cancel id =>
    unfold step cancel
    dsimp only
    split
    · exact h
    · split
      · rename_i j _ hr
        refine h.of_job (j := j) rfl (fun he => ?_) (fun he => (nomatch he)) rfl rfl rfl rfl rfl
            fun _ _ => rfl
        unfold Entry.runnable at hr
        rw [he] at hr
        cases hr
      · exact h
  | destroy p =>
    refine h.of_frame (fun j => ?_) (fun _ => Iff.rfl) rfl rfl rfl (fun _ _ => rfl) fun _ ha => ha
    unfold step destroy
    dsimp only
    split
    · rename_i hd
      refine ⟨fun he => (nomatch he), fun he => ?_⟩
      have hr := hd.1
      unfold Entry.runnable at hr
      rw [he] at hr
      cases hr
    · exact Iff.rfl
  | getResult id =>
    unfold step getResult
    dsimp only
    split
    · exact h
    · rename_i j _
      have hfreed : (s.jobs j).state ≠ .running →
          Gated (s.setJob j { s.jobs j with state := .free }) := fun hn =>
        h.of_job (j := j) rfl hn (fun he => (nomatch he)) rfl rfl rfl rfl rfl fun _ _ => rfl
      split
      · rename_i hst
        exact hfreed fun he => nomatch hst.symm.trans he
      · rename_i hst
        exact hfreed fun he => nomatch hst.symm.trans he
      · rename_i hst
        exact hfreed fun he => nomatch hst.symm.trans he
      · exact h
  | setMaxConcurrent n =>
    unfold step setMaxConcurrent
    dsimp only
    split
    · exact h.of_calls rfl rfl rfl rfl rfl rfl fun _ _ => rfl
    · exact h

theorem Gated.init : Gated (State.init cfg) where
  running _ := ⟨fun he => (nomatch he), fun he => (nomatch he)⟩
  flag := ⟨fun he => (nomatch he), fun ⟨_, he⟩ => (nomatch he)⟩
  held _ ht := nomatch ht
  draining _ ht := nomatch ht
  quiesced _ ht := nomatch ht

-- ---------------------------------------------------------------------------
-- The wait
-- ---------------------------------------------------------------------------

/-- The end of the running job during a pause: the token is the next thing given. -/
theorem settle_gives (hpc : s.pc = .executing j) (hp : s.paused = true) (ret : Ret) :
    ((settle ret s).jobs j).state ≠ .running ∧ (settle ret s).drain = s.drain ∧
      ((settle ret s).pc = .rested true ∨ (settle ret s).pc = .reporting j true) := by
  unfold settle
  rw [hpc]
  dsimp only
  split
  · refine ⟨?_, rfl, .inl ?_⟩
    · simp [State.setJob]
    · rw [hp]
  · refine ⟨?_, rfl, .inr ?_⟩
    · simp only [State.setJob, Function.update_self]
      split <;> (intro he; cases he)
    · rw [hp]

theorem proceed_gives (h : s.pc = .rested true ∨ s.pc = .reporting j true) :
    (proceed s).drain = true ∧ (proceed s).pc.Free := by
  unfold proceed
  rcases h with h | h
  · rw [h]
    exact ⟨rfl, fun i he => (nomatch he)⟩
  · rw [h]
    exact ⟨rfl, fun i he => (nomatch he)⟩

theorem Gated.served (h : Gated s) (hc : s.calls t = .draining) (ha : Awaits s j) :
    Served s t j := by
  have hp := (h.draining t hc).1
  rcases ha with ⟨hd, he | he⟩ | ⟨hd, hfree⟩
  · refine .running ((h.running j).mpr he) hd fun ret => ?_
    obtain ⟨hj, hd', hpc⟩ := settle_gives he hp ret
    exact ⟨hj, hd'.trans hd, (proceed_gives hpc).1⟩
  · refine .left (h.no_running fun i hi => ?_) hd (proceed_gives he).1
    rcases he with he | he
    · cases he.symm.trans hi
    · cases he.symm.trans hi
  · refine .given (h.no_running hfree) hd ?_
    show (drained t s).calls t = .quiesced
    unfold drained
    rw [hc]
    dsimp only
    rw [if_pos hd]
    exact calls_update s t _

theorem Awaits.congr (h : Awaits s j) (hpc : s'.pc = s.pc) (hd : s'.drain = s.drain) :
    Awaits s' j := by
  unfold Awaits
  rw [hpc, hd]
  exact h

/-- While thread `t` waits, only the scheduler thread moves its wait on. -/
theorem awaits_step (h : Gated s) (hc : s.calls t = .draining) (ha : Awaits s j) (o : Op cfg)
    (hs : Serialised s o) (hc' : (step s o).calls t = .draining) : Awaits (step s o) j := by
  have hp := (h.draining t hc).1
  have hme : ∀ i, (s.calls i).changes = true → i = t := fun i hi => h.unique hi (by rw [hc]; rfl)
  cases o with
  | wake =>
    unfold step wake
    dsimp only
    split
    · rename_i hw
      refine ha.idle ?_ rfl fun j he => (nomatch he)
      rw [hw.1]
      rfl
    · exact ha
  | look =>
    unfold step look
    dsimp only
    split
    · rename_i hpc
      rw [if_pos hp]
      refine ha.idle ?_ rfl fun j he => (nomatch he)
      rw [hpc]
      rfl
    · exact ha
  | settle ret =>
    by_cases hex : ∃ i, s.pc = .executing i
    · obtain ⟨i, hi⟩ := hex
      rcases ha with ⟨hd, he | he | he⟩ | ⟨-, hfree⟩
      · obtain ⟨-, hd', hpc⟩ := settle_gives he hp ret
        exact .inl ⟨hd'.trans hd, .inr hpc⟩
      · cases hi.symm.trans he
      · cases hi.symm.trans he
      · exact absurd hi (hfree i)
    · have hsame : settle ret s = s := by
        unfold settle
        split
        · rename_i i hi
          exact absurd ⟨i, hi⟩ hex
        · rfl
      show Awaits (settle ret s) j
      rw [hsame]
      exact ha
  | proceed =>
    unfold step proceed
    dsimp only
    split
    · exact .inr ⟨rfl, fun i he => (nomatch he)⟩
    · rename_i hpc
      refine ha.idle ?_ rfl fun j he => (nomatch he)
      rw [hpc]
      rfl
    · exact .inr ⟨rfl, fun i he => (nomatch he)⟩
    · rename_i hpc
      refine ha.idle ?_ rfl fun j he => (nomatch he)
      rw [hpc]
      rfl
    · exact ha
  | enter i =>
    unfold step enter
    dsimp only
    split
    · exact ha.congr rfl rfl
    · exact ha
  | quiesce i =>
    unfold step quiesce
    dsimp only
    split
    · rename_i hi
      have := hme i (by rw [hi]; rfl)
      subst this
      cases hi.symm.trans hc
    · rename_i hi
      exact absurd hi (hs i rfl)
    · exact ha
  | drained i =>
    by_cases hi : s.calls i = .draining
    · have := hme i (by rw [hi]; rfl)
      subst this
      unfold step drained at hc' ⊢
      dsimp only at hc' ⊢
      rw [hi] at hc' ⊢
      dsimp only at hc' ⊢
      split
      · rename_i hd
        rw [if_pos hd] at hc'
        cases (calls_update s i .quiesced).symm.trans hc'
      · exact ha
    · have hsame : drained i s = s := by
        unfold drained
        split
        · rename_i h'
          exact absurd h' hi
        · rfl
      show Awaits (drained i s) j
      rw [hsame]
      exact ha
  | release i =>
    unfold step release
    dsimp only
    split <;> exact ha.congr rfl rfl
  | replay i =>
    unfold step replay
    dsimp only
    split <;> exact ha.congr rfl rfl
  | submitLock i p params now =>
    unfold step submitLock
    dsimp only
    repeat' split
    all_goals exact ha.congr rfl rfl
  | submitGive i =>
    unfold step submitGive
    dsimp only
    split <;> exact ha.congr rfl rfl
  | cancel id =>
    unfold step cancel
    dsimp only
    repeat' split
    all_goals exact ha.congr rfl rfl
  | destroy p => exact ha.congr rfl rfl
  | getResult id =>
    unfold step getResult
    dsimp only
    repeat' split
    all_goals exact ha.congr rfl rfl
  | setMaxConcurrent n =>
    unfold step setMaxConcurrent
    dsimp only
    split <;> exact ha.congr rfl rfl

theorem Gated.waitsFor (h : Gated s) (ha : s.calls t = .draining → Awaits s j) :
    WaitsFor s t j := by
  intro ops hal hc
  have hinv : Gated (run step s ops) ∧
      ((run step s ops).calls t = .draining → Awaits (run step s ops) j) :=
    hal.invariant (I := fun s => Gated s ∧ (s.calls t = .draining → Awaits s j)) ⟨h, ha⟩
      fun s o hi hs => ⟨gated_step hi.1 o hs.1, awaits_step hi.1 hs.2 (hi.2 hs.2) o hs.1⟩
  exact hinv.1.served hc (hinv.2 hc)

theorem Gated.excludes (h : Gated s) : Excludes s where
  quiesced t ht := h.no_running (h.quiesced t ht).2
  quiesces t ht := by
    have hq : quiesce t s = quiesceLock t s := by
      unfold quiesce
      rw [ht]
    have hg : Gated (quiesceLock t s) := gated_quiesceLock h (h.held t (by rw [ht]; rfl))
    show (quiesce t s).calls t = .quiesced ∨ ∃ j, _ ∧ WaitsFor (quiesce t s) t j
    rw [hq, quiesceLock_calls]
    by_cases hf : s.jobRunning
    · obtain ⟨j, hj⟩ := h.flag.mp hf
      exact .inr ⟨j, (h.running j).mpr hj, hg.waitsFor fun _ => .inl ⟨rfl, .inl hj⟩⟩
    · rw [if_neg hf]
      exact .inl rfl

/-- In every state that residency changers under the gate can reach. -/
theorem quiesce_excludes (ops : List (Op cfg)) (h : Along step Serialised (State.init cfg) ops) :
    Excludes (run step (State.init cfg) ops) :=
  (h.invariant Gated.init fun _ o hi hs => gated_step hi o hs).excludes

/-- A load that waits for a running job, and its release. -/
def loadOps : List (Op twoJobs) :=
  [.submitLock 1 0 plain 0, .submitGive 1, .wake, .look, .enter 0, .quiesce 0, .settle 0, .proceed,
    .drained 0]

theorem quiesce_excludes_load : Excludes (run step (State.init twoJobs) loadOps) :=
  quiesce_excludes loadOps (by decide)

example : (run step (State.init twoJobs) loadOps).calls 0 = .quiesced := by decide

end SynapticOS.Infer.Dispatch
