import SynapticOS.Infer.Dispatch
import SynapticOS.Infer.SchedLaws
import SynapticOS.Lib.Run
import Mathlib.Algebra.BigOperators.Fin
import Mathlib.Algebra.Order.BigOperators.Group.Finset

/-!
# No waiting job is stranded

Every waiting job is paid for by a wakeup: one in the semaphore, one that was
deferred during a pause, or one that a thread has in hand. The semaphore
saturates at the number of jobs, which is always enough. The deferred wakeups are
counted in 32 bits; a pause in which the counter wraps loses them all.
-/

namespace SynapticOS.Infer.Dispatch

open Lib (Along run)

variable {cfg : Cfg} {s s' : State cfg}

-- ---------------------------------------------------------------------------
-- Counting
-- ---------------------------------------------------------------------------

/-- The wakeups that a caller has still to give. -/
def Call.owed : Call → Nat
  | .submitted => 1
  | .releasing n => n
  | _ => 0

/-- The scheduler thread has taken a wakeup, or has still to give one. -/
def Pc.owed : Pc cfg → Nat
  | .awake | .rested _ => 1
  | _ => 0

def owedByCalls (s : State cfg) : Nat := ∑ t, (s.calls t).owed

def owed (s : State cfg) : Nat := s.pc.owed + owedByCalls s

/-- How many jobs are `QUEUED` or `SUSPENDED`. -/
def waiting (s : State cfg) : Nat := ∑ j, if (s.jobs j).runnable then 1 else 0

/-- The scheduler thread can not go on. -/
def Blocked (s : State cfg) : Prop := s.pc = .waiting ∧ s.wakes = 0

structure NotStranded (s : State cfg) : Prop where
  covered : waiting s ≤ s.wakes + s.deferred + owed s
  awake : s.paused = false → (∀ t, (s.calls t).owed = 0) → 0 < waiting s → ¬Blocked s

/-- The step defers a wakeup. -/
def Defers (s : State cfg) (o : Op cfg) : Prop := o = .look ∧ s.pc = .awake ∧ s.paused = true

/-- The counter of deferred wakeups does not wrap. -/
def DeferSafe (s : State cfg) (o : Op cfg) : Prop := Defers s o → s.deferred + 1 < 2 ^ 32

instance (s : State cfg) (o : Op cfg) : Decidable (DeferSafe s o) := by
  unfold DeferSafe Defers; infer_instance

/-- Writing one entry of a table changes its sum by that entry. -/
theorem sum_update (f : Fin n → Nat) (i : Fin n) (x : Nat) :
    ∑ k, Function.update f i x k + f i = ∑ k, f k + x := by
  have hrest := Finset.add_sum_erase Finset.univ f (Finset.mem_univ i)
  calc ∑ k, Function.update f i x k + f i = x + ∑ k ∈ Finset.univ \ {i}, f k + f i := by
        rw [Finset.sum_update_of_mem (Finset.mem_univ i)]
    _ = x + (f i + ∑ k ∈ Finset.univ.erase i, f k) := by
        rw [Finset.sdiff_singleton_eq_erase]
        omega
    _ = ∑ k, f k + x := by
        rw [hrest]
        omega

theorem owedByCalls_setCall (s : State cfg) (t : Fin cfg.threads) (c : Call) :
    owedByCalls (s.setCall t c) + (s.calls t).owed = owedByCalls s + c.owed := by
  have h : ∀ k, ((s.setCall t c).calls k).owed =
      Function.update (fun k => (s.calls k).owed) t c.owed k := by
    intro k
    exact Function.apply_update (fun _ => Call.owed) s.calls t c k
  unfold owedByCalls
  rw [Finset.sum_congr rfl fun k _ => h k]
  exact sum_update _ t _

theorem waiting_setJob (s : State cfg) (j : Fin cfg.jobs) (e : Entry) :
    waiting (s.setJob j e) + (if (s.jobs j).runnable then 1 else 0) =
      waiting s + (if e.runnable then 1 else 0) := by
  have h : ∀ k, (if ((s.setJob j e).jobs k).runnable then 1 else 0) =
      Function.update (fun k => if (s.jobs k).runnable then 1 else 0) j
          (if e.runnable then 1 else 0) k := by
    intro k
    exact Function.apply_update (fun _ (e : Entry) => if e.runnable then 1 else 0) s.jobs j e k
  unfold waiting
  rw [Finset.sum_congr rfl fun k _ => h k]
  exact sum_update _ j _

theorem waiting_le (s : State cfg) : waiting s ≤ cfg.jobs := by
  unfold waiting
  calc ∑ j, (if (s.jobs j).runnable then 1 else 0) ≤ ∑ _j : Fin cfg.jobs, 1 :=
        Finset.sum_le_sum fun j _ => by split <;> omega
    _ = cfg.jobs := by simp

theorem waiting_congr (h : ∀ j, (s'.jobs j).runnable = true → (s.jobs j).runnable = true) :
    waiting s' ≤ waiting s := by
  refine Finset.sum_le_sum fun j _ => ?_
  by_cases hj : (s'.jobs j).runnable
  · rw [if_pos hj, if_pos (h j hj)]
  · rw [if_neg hj]
    exact Nat.zero_le _

-- ---------------------------------------------------------------------------
-- The invariant
-- ---------------------------------------------------------------------------

structure Counted (s : State cfg) : Prop where
  covered : waiting s ≤ s.wakes + s.deferred + owed s
  deferred : s.deferred ≠ 0 → s.paused = true

theorem Counted.notStranded (h : Counted s) : NotStranded s where
  covered := h.covered
  awake hp hc hw hb := by
    have hd : s.deferred = 0 := by
      by_contra hd
      rw [h.deferred hd] at hp
      cases hp
    have ho : owed s = 0 := by
      unfold owed owedByCalls
      rw [hb.1, Finset.sum_congr rfl fun t _ => hc t, Finset.sum_const_zero]
      rfl
    have hcov := h.covered
    rw [hb.2, hd, ho] at hcov
    exact absurd hcov (Nat.not_le.mpr hw)

/-- No job starts to wait, and no wakeup is lost. -/
theorem Counted.of_le (h : Counted s) (hw : waiting s' ≤ waiting s)
    (hk : s.wakes + s.deferred + owed s ≤ s'.wakes + s'.deferred + owed s')
    (hd : s'.deferred ≠ 0 → s'.paused = true) : Counted s' :=
  ⟨hw.trans (h.covered.trans hk), hd⟩

/-- A wakeup that was owed is given: the semaphore counts it, or is at its limit. -/
theorem Counted.of_give (h : Counted s) (hj : s'.jobs = s.jobs)
    (hwk : s'.wakes = min (s.wakes + 1) cfg.jobs)
    (ho : owed s' + 1 = owed s) (hd : s'.deferred = s.deferred) (hp : s'.paused = s.paused) :
    Counted s' := by
  have hw : waiting s' = waiting s := by
    unfold waiting
    rw [hj]
  refine ⟨?_, by rw [hd, hp]; exact h.deferred⟩
  have hcov := h.covered
  have hle := waiting_le s
  rw [hw, hwk, hd]
  omega

theorem counted_look (h : Counted s) (hs : DeferSafe s .look) : Counted (look s) := by
  unfold look
  split
  · rename_i hpc
    have ho : owed s = 1 + owedByCalls s := by
      unfold owed
      rw [hpc]
      rfl
    split
    · rename_i hp
      have hlt := hs ⟨rfl, hpc, hp⟩
      refine ⟨?_, fun _ => hp⟩
      have hcov := h.covered
      show waiting s ≤ s.wakes + (s.deferred + 1) % 2 ^ 32 + (0 + owedByCalls s)
      rw [Nat.mod_eq_of_lt hlt]
      omega
    · split
      · rename_i hn
        refine ⟨?_, h.deferred⟩
        have hw : waiting s = 0 := by
          unfold waiting
          exact Finset.sum_eq_zero fun j _ => by rw [Table.pickNextJob_none hn j]; rfl
        exact hw.le.trans (Nat.zero_le _)
      · rename_i j hj
        refine ⟨?_, h.deferred⟩
        have hw := waiting_setJob s j { s.jobs j with
          state := .running
          resuming := (s.jobs j).resuming || decide ((s.jobs j).state = .suspended) }
        rw [if_pos (Table.pickNextJob_runnable hj)] at hw
        have hcov := h.covered
        show waiting (s.setJob j _) ≤ s.wakes + s.deferred + (0 + owedByCalls s)
        have hnr : Entry.runnable { s.jobs j with
          state := .running
          resuming := (s.jobs j).resuming || decide ((s.jobs j).state = .suspended) } = false := rfl
        rw [hnr] at hw
        simp only [Bool.false_eq_true, ↓reduceIte] at hw
        omega
  · exact h

theorem waiting_setJob_le (s : State cfg) (j : Fin cfg.jobs) {e : Entry}
    (h : e.runnable = true → (s.jobs j).runnable = true) : waiting (s.setJob j e) ≤ waiting s := by
  have hw := waiting_setJob s j e
  by_cases he : e.runnable
  · rw [if_pos he, if_pos (h he)] at hw
    omega
  · rw [if_neg he] at hw
    omega

theorem waiting_setJob_succ (s : State cfg) (j : Fin cfg.jobs) (e : Entry) :
    waiting (s.setJob j e) ≤ waiting s + 1 := by
  have hw := waiting_setJob s j e
  split at hw <;> split at hw <;> omega

theorem counted_settle (h : Counted s) (ret : Ret) : Counted (settle ret s) := by
  unfold settle
  split
  · rename_i j hpc
    have ho : owed s = owedByCalls s := by
      unfold owed
      rw [hpc]
      exact Nat.zero_add _
    have hcov := h.covered
    split
    · refine ⟨?_, h.deferred⟩
      have hw := waiting_setJob_succ s j { s.jobs j with state := .suspended }
      show waiting (s.setJob j _) ≤ s.wakes + s.deferred + (1 + owedByCalls s)
      omega
    · refine ⟨?_, h.deferred⟩
      have hw := waiting_setJob_le s j (e := { s.jobs j with
        result := ret, state := if ret = 0 then .done else .error }) fun he => by
          unfold Entry.runnable at he
          dsimp only at he
          split at he <;> cases he
      show waiting (s.setJob j _) ≤ s.wakes + s.deferred + (0 + owedByCalls s)
      omega
  · exact h

theorem counted_proceed (h : Counted s) : Counted (proceed s) := by
  unfold proceed
  split
  · rename_i hpc
    refine h.of_le (Nat.le_refl _) ?_ h.deferred
    show s.wakes + s.deferred + owed s ≤ s.wakes + s.deferred + (1 + owedByCalls s)
    unfold owed
    rw [hpc]
    exact Nat.le_refl _
  · rename_i hpc
    refine h.of_give rfl rfl ?_ rfl rfl
    unfold owed
    rw [hpc]
    show 0 + owedByCalls s + 1 = 1 + owedByCalls s
    omega
  · rename_i hpc
    refine h.of_le (Nat.le_refl _) ?_ h.deferred
    show s.wakes + s.deferred + owed s ≤ s.wakes + s.deferred + (0 + owedByCalls s)
    unfold owed
    rw [hpc]
    exact Nat.le_refl _
  · rename_i hpc
    refine h.of_le (Nat.le_refl _) ?_ h.deferred
    show s.wakes + s.deferred + owed s ≤ s.wakes + s.deferred + (0 + owedByCalls s)
    unfold owed
    rw [hpc]
    exact Nat.le_refl _
  · exact h

theorem counted_wake (h : Counted s) : Counted (wake s) := by
  unfold wake
  split
  · rename_i hw
    refine h.of_le (Nat.le_refl _) ?_ h.deferred
    show s.wakes + s.deferred + owed s ≤ s.wakes - 1 + s.deferred + (1 + owedByCalls s)
    unfold owed
    rw [hw.1]
    show s.wakes + s.deferred + (0 + owedByCalls s) ≤ _
    have := hw.2
    omega
  · exact h

theorem counted_quiesceLock (h : Counted s) (t : Fin cfg.threads) (hc : (s.calls t).owed = 0) :
    Counted (quiesceLock t s) := by
  have hcalls : ∀ i, ((quiesceLock t s).calls i).owed = (s.calls i).owed := by
    intro i
    unfold quiesceLock
    dsimp only
    rw [Function.update_apply]
    split
    · rename_i he
      rw [he, hc]
      split <;> rfl
    · split
      · rename_i hd
        rw [hd]
        rfl
      · rfl
  have ho : owedByCalls (quiesceLock t s) = owedByCalls s := Finset.sum_congr rfl fun i _ =>
      hcalls i
  refine h.of_le (Nat.le_refl _) ?_ fun _ => rfl
  show s.wakes + s.deferred + owed s ≤ s.wakes + s.deferred +
      (s.pc.owed + owedByCalls (quiesceLock t s))
  rw [ho]
  exact Nat.le_refl _

theorem counted_setCall (h : Counted s) (t : Fin cfg.threads) {c : Call}
    (hc : c.owed = (s.calls t).owed) : Counted (s.setCall t c) := by
  have ho := owedByCalls_setCall s t c
  refine h.of_le (Nat.le_refl _) ?_ h.deferred
  show _ + _ + (s.pc.owed + owedByCalls s) ≤ _ + _ + (s.pc.owed + owedByCalls (s.setCall t c))
  show s.wakes + s.deferred + _ ≤ s.wakes + s.deferred + _
  omega

theorem Counted.of_same (h : Counted s) (hw : waiting s' ≤ waiting s) (hk : s'.wakes = s.wakes)
    (hd : s'.deferred = s.deferred) (hp : s'.paused = s.paused) (hpc : s'.pc = s.pc)
    (hc : s'.calls = s.calls) : Counted s' := by
  refine h.of_le hw ?_ (by rw [hd, hp]; exact h.deferred)
  unfold owed owedByCalls
  rw [hk, hd, hpc, hc]

theorem counted_release (h : Counted s) (t : Fin cfg.threads) : Counted (release t s) := by
  unfold release
  split
  · rename_i hc
    have ho := owedByCalls_setCall s t (.releasing s.deferred)
    rw [hc] at ho
    refine h.of_le (Nat.le_refl _) ?_ fun h0 => absurd rfl h0
    show s.wakes + s.deferred + (s.pc.owed + owedByCalls s) ≤
      s.wakes + 0 + (s.pc.owed + owedByCalls (s.setCall t (.releasing s.deferred)))
    have h1 : (Call.quiesced).owed = 0 := rfl
    have h2 : (Call.releasing s.deferred).owed = s.deferred := rfl
    omega
  · exact h

theorem counted_replay (h : Counted s) (t : Fin cfg.threads) : Counted (replay t s) := by
  unfold replay
  split
  · rename_i n hc
    have ho := owedByCalls_setCall s t (.releasing n)
    rw [hc] at ho
    refine h.of_give rfl rfl ?_ rfl rfl
    show s.pc.owed + owedByCalls (s.setCall t (.releasing n)) + 1 = s.pc.owed + owedByCalls s
    have h1 : (Call.releasing n).owed = n := rfl
    have h2 : (Call.releasing n.succ).owed = n + 1 := rfl
    omega
  · rename_i hc
    have hset := counted_setCall h t (c := .idle) (by rw [hc]; rfl)
    exact hset.of_same (Nat.le_refl _) rfl rfl rfl rfl rfl
  · exact h

theorem counted_submitLock (h : Counted s) (t : Fin cfg.threads) (p : Fin maxPipelines)
    (params : Params) (now : Nat) : Counted (submitLock t p params now s) := by
  unfold submitLock
  split
  · rename_i hc
    split
    · exact h
    · rename_i j _
      have ho := owedByCalls_setCall s t .submitted
      rw [hc] at ho
      refine ⟨?_, h.deferred⟩
      have hw : waiting (submitJob s j p params now) ≤ waiting s + 1 := waiting_setJob_succ s j _
      have hcov := h.covered
      show waiting (submitJob s j p params now) ≤
        s.wakes + s.deferred + (s.pc.owed + owedByCalls (s.setCall t .submitted))
      have h1 : (Call.idle).owed = 0 := rfl
      have h2 : (Call.submitted).owed = 1 := rfl
      have h3 : owed s = s.pc.owed + owedByCalls s := rfl
      omega
  · exact h

theorem counted_submitGive (h : Counted s) (t : Fin cfg.threads) : Counted (submitGive t s) := by
  unfold submitGive
  split
  · rename_i hc
    have ho := owedByCalls_setCall s t .idle
    rw [hc] at ho
    refine h.of_give rfl rfl ?_ rfl rfl
    show s.pc.owed + owedByCalls (s.setCall t .idle) + 1 = s.pc.owed + owedByCalls s
    have h1 : (Call.idle).owed = 0 := rfl
    have h2 : (Call.submitted).owed = 1 := rfl
    omega
  · exact h

theorem counted_step (h : Counted s) (o : Op cfg) (hs : DeferSafe s o) : Counted (step s o) := by
  cases o with
  | wake => exact counted_wake h
  | look => exact counted_look h hs
  | settle ret => exact counted_settle h ret
  | proceed => exact counted_proceed h
  | enter t =>
    unfold step enter
    dsimp only
    split
    · rename_i hc _
      have hset := counted_setCall h t (c := .gated) (by rw [hc]; rfl)
      exact hset.of_same (Nat.le_refl _) rfl rfl rfl rfl rfl
    · exact h
  | quiesce t =>
    unfold step quiesce
    dsimp only
    split
    · rename_i hc
      exact counted_quiesceLock h t (by rw [hc]; rfl)
    · rename_i hc
      exact counted_quiesceLock h t (by rw [hc]; rfl)
    · exact h
  | drained t =>
    unfold step drained
    dsimp only
    split
    · rename_i hc
      split
      · have hset := counted_setCall h t (c := .quiesced) (by rw [hc]; rfl)
        exact hset.of_same (Nat.le_refl _) rfl rfl rfl rfl rfl
      · exact h
    · exact h
  | release t => exact counted_release h t
  | replay t => exact counted_replay h t
  | submitLock t p params now => exact counted_submitLock h t p params now
  | submitGive t => exact counted_submitGive h t
  | cancel id =>
    unfold step cancel
    dsimp only
    split
    · exact h
    · split
      · exact h.of_same (waiting_setJob_le s _ fun he => (nomatch he)) rfl rfl rfl rfl rfl
      · exact h
  | destroy p =>
    refine h.of_same (waiting_congr fun j hj => ?_) rfl rfl rfl rfl rfl
    unfold step destroy at hj
    dsimp only at hj
    split at hj
    · rename_i hd
      exact hd.1
    · exact hj
  | getResult id =>
    unfold step getResult
    dsimp only
    split
    · exact h
    · split
      · exact h.of_same (waiting_setJob_le s _ fun he => (nomatch he)) rfl rfl rfl rfl rfl
      · exact h.of_same (waiting_setJob_le s _ fun he => (nomatch he)) rfl rfl rfl rfl rfl
      · exact h.of_same (waiting_setJob_le s _ fun he => (nomatch he)) rfl rfl rfl rfl rfl
      · exact h
  | setMaxConcurrent n =>
    unfold step setMaxConcurrent
    dsimp only
    split
    · exact h.of_same (Nat.le_refl _) rfl rfl rfl rfl rfl
    · exact h

theorem Counted.init : Counted (State.init cfg) := by
  refine ⟨?_, fun h => absurd rfl h⟩
  have hw : waiting (State.init cfg) = 0 := Finset.sum_eq_zero fun _ _ => rfl
  exact hw.le.trans (Nat.zero_le _)

/-- As long as no pause defers 2 ^ 32 wakeups, waiting jobs are paid for and the
scheduler is awake for them. -/
theorem no_job_stranded (ops : List (Op cfg)) (h : Along step DeferSafe (State.init cfg) ops) :
    NotStranded (run step (State.init cfg) ops) :=
  (h.invariant Counted.init fun _ o hi hs => counted_step hi o hs).notStranded

/-- A job is submitted during a pause; its wakeup is deferred and replayed. -/
def pauseOps : List (Op twoJobs) :=
  [.enter 0, .quiesce 0, .submitLock 1 0 plain 0, .submitGive 1, .wake, .look, .release 0,
      .replay 0]

theorem no_job_stranded_pause : NotStranded (run step (State.init twoJobs) pauseOps) :=
  no_job_stranded pauseOps (by decide)

-- ---------------------------------------------------------------------------
-- A pause that defers too much
-- ---------------------------------------------------------------------------

/-- A submission whose wakeup the scheduler thread takes and defers. -/
def deferOps : List (Op twoJobs) := [.submitLock 1 0 plain 0, .submitGive 1, .wake, .look]

/-- One that is cancelled and consumed before the next. -/
def churns : Nat → List (Op twoJobs)
  | 0 => []
  | n + 1 => churns n ++ deferOps ++ [.cancel (idAt n), .getResult (idAt n)]

/-- Dispatch is paused, and `n` wakeups have been deferred. -/
structure Deferred (n : Nat) (s : State twoJobs) : Prop where
  last : (s.jobs 1).state = .free
  most : s.maxConcurrent = 2
  quiesced : s.calls 0 = .quiesced
  idle : s.calls 1 = .idle
  waiting : s.pc = .waiting
  paused : s.paused = true
  wakes : s.wakes = 0
  deferred : s.deferred = n % 2 ^ 32

/-- No job is in the table. -/
structure Emptied (n : Nat) (s : State twoJobs) : Prop extends Deferred n s where
  nextId : s.nextId = idAt n
  free : (s.jobs 0).state = .free

/-- The `n`-th submission is queued. -/
structure Queued (n : Nat) (s : State twoJobs) : Prop extends Deferred (n + 1) s where
  nextId : s.nextId = idAt (n + 1)
  job : (s.jobs 0).state = .queued ∧ (s.jobs 0).id = idAt n

theorem freeJob_zero {s : State twoJobs} (h0 : (s.jobs 0).state = .free)
    (h1 : (s.jobs 1).state = .free)
    (hmost : s.maxConcurrent = 2) : freeJob s = some 0 := by
  simp [freeJob, Table.freeJob, List.finRange_succ, h0, h1, hmost, JobState.active]

theorem findJob_zero {s : State twoJobs} (hid : n ≠ 0) (hs : (s.jobs 0).state ≠ .free)
    (hn : (s.jobs 0).id = n) : findJob s n = some 0 := by
  simp [findJob, Table.findJob, List.finRange_succ, hid, hs, hn]

theorem Emptied.queue {s : State twoJobs} (h : Emptied n s) : Queued n (run step s deferOps) := by
  have h1 : step s (.submitLock 1 0 plain 0) = (submitJob s 0 0 plain 0).setCall 1 .submitted := by
    unfold step submitLock
    dsimp only
    rw [h.idle]
    dsimp only
    rw [freeJob_zero h.free h.last h.most]
  generalize hs1 : submitJob s 0 0 plain 0 = s1 at h1
  have h2 : step (s1.setCall 1 .submitted) (.submitGive 1) =
      ((s1.setCall 1 .submitted).setCall 1 .idle).giveWake := by
    unfold step submitGive State.setCall
    dsimp only
    rw [Function.update_self]
  generalize hs2 : ((s1.setCall 1 .submitted).setCall 1 .idle).giveWake = s2 at h2
  have hwaiting : s2.pc = .waiting := by
    rw [← hs2, ← hs1]
    exact h.waiting
  have hwakes : s2.wakes = 1 := by
    rw [← hs2, ← hs1]
    show min (s.wakes + 1) 2 = 1
    rw [h.wakes]
    rfl
  have h3 : step s2 .wake = { s2 with wakes := 0, pc := .awake } := by
    unfold step wake
    dsimp only
    rw [if_pos ⟨hwaiting, by rw [hwakes]; decide⟩, hwakes]
  have hpaused : s2.paused = true := by
    rw [← hs2, ← hs1]
    exact h.paused
  have h4 : step { s2 with wakes := 0, pc := .awake } .look =
      { s2 with wakes := 0, pc := .waiting, deferred := (s2.deferred + 1) % 2 ^ 32 } := by
    unfold step look
    dsimp only
    rw [if_pos hpaused]
  show Queued n (step (step (step (step s (.submitLock 1 0 plain 0)) (.submitGive 1)) .wake) .look)
  rw [h1, h2, h3, h4]
  refine ⟨⟨?_, ?_, ?_, ?_, rfl, hpaused, rfl, ?_⟩, ?_, ?_⟩
  · rw [← hs2, ← hs1]
    exact h.last
  · rw [← hs2, ← hs1]
    exact h.most
  · rw [← hs2, ← hs1]
    exact h.quiesced
  · rw [← hs2]
    simp [State.giveWake, State.setCall]
  · show (s2.deferred + 1) % 2 ^ 32 = (n + 1) % 2 ^ 32
    have hd : s2.deferred = s.deferred := by
      rw [← hs2, ← hs1]
      rfl
    rw [hd, h.deferred, Nat.mod_add_mod]
  · rw [idAt_succ, ← h.nextId, ← hs2, ← hs1]
    rfl
  · rw [← hs2, ← hs1, ← h.nextId]
    exact ⟨rfl, rfl⟩

theorem Queued.churn {s : State twoJobs} (h : Queued n s) :
    Emptied (n + 1) (run step s [.cancel (idAt n), .getResult (idAt n)]) := by
  have hid : idAt n ≠ 0 := Nat.succ_ne_zero _
  have h1 : step s (.cancel (idAt n)) =
      s.setJob 0 { s.jobs 0 with state := .cancelled, result := ecanceled } := by
    unfold step cancel
    dsimp only
    rw [findJob_zero hid (by rw [h.job.1]; exact fun h => nomatch h) h.job.2]
    dsimp only
    rw [if_pos (by unfold Entry.runnable; rw [h.job.1]; rfl)]
  generalize hs1 : s.setJob 0 { s.jobs 0 with state := .cancelled, result := ecanceled } = s1 at h1
  have hj : s1.jobs 0 = { s.jobs 0 with state := .cancelled, result := ecanceled } := by
    rw [← hs1]
    simp [State.setJob]
  have h2 : step s1 (.getResult (idAt n)) = s1.setJob 0 { s1.jobs 0 with state := .free } := by
    unfold step getResult
    dsimp only
    rw [findJob_zero hid (by rw [hj]; exact fun h => nomatch h) (by rw [hj]; exact h.job.2)]
    dsimp only
    rw [hj]
  show Emptied (n + 1) (step (step s (.cancel (idAt n))) (.getResult (idAt n)))
  rw [h1, h2]
  refine ⟨⟨?_, ?_, ?_, ?_, ?_, ?_, ?_, ?_⟩, ?_, ?_⟩
  · rw [← hs1]
    exact h.last
  · rw [← hs1]
    exact h.most
  · rw [← hs1]
    exact h.quiesced
  · rw [← hs1]
    exact h.idle
  · rw [← hs1]
    exact h.waiting
  · rw [← hs1]
    exact h.paused
  · rw [← hs1]
    exact h.wakes
  · rw [← hs1]
    exact h.deferred
  · rw [← hs1]
    exact h.nextId
  · simp [State.setJob]

theorem emptied (n : Nat) :
    Emptied n (run step (State.init twoJobs) ([.enter 0, .quiesce 0] ++ churns n)) := by
  induction n with
  | zero =>
    exact ⟨⟨by decide, by decide, by decide, by decide, by decide, by decide, by decide, by decide⟩,
      by decide, by decide⟩
  | succ n ih =>
    show Emptied (n + 1) (run step (State.init twoJobs)
      ([.enter 0, .quiesce 0] ++ (churns n ++ deferOps ++ [.cancel (idAt n), .getResult (idAt n)])))
    rw [← List.append_assoc, ← List.append_assoc, Lib.run_append, Lib.run_append]
    exact ih.queue.churn

/-- The counter has wrapped to zero: the release replays nothing, and the job that
is queued has no wakeup left. -/
theorem Queued.stranded {s : State twoJobs} (h : Queued n s) (hn : (n + 1) % 2 ^ 32 = 0) :
    ¬NotStranded (run step s [.release 0, .replay 0]) := by
  have hd : s.deferred = 0 := h.deferred.trans hn
  have h1 : step s (.release 0) =
      { s.setCall 0 (.releasing 0) with paused := false, deferred := 0 } := by
    unfold step release
    dsimp only
    rw [h.quiesced, hd]
  generalize hs1 : ({ s.setCall 0 (.releasing 0) with paused := false, deferred := 0 } : State
      twoJobs) = s1 at h1
  have hc1 : s1.calls 0 = .releasing 0 := by
    rw [← hs1]
    simp [State.setCall]
  have h2 : step s1 (.replay 0) =
      { s1.setCall 0 .idle with gate := if s1.gate = some 0 then none else s1.gate } := by
    unfold step replay
    dsimp only
    rw [hc1]
  show ¬NotStranded (step (step s (.release 0)) (.replay 0))
  rw [h1, h2]
  intro hstr
  refine hstr.awake (by rw [← hs1]; rfl) (fun t => ?_) ?_
      ⟨by rw [← hs1]; exact h.waiting, by rw [← hs1]; exact h.wakes⟩
  · have ht : t = 0 ∨ t = 1 := zero_or_one t
    rcases ht with rfl | rfl
    · simp [State.setCall, Call.owed]
    · rw [← hs1]
      show (s.calls 1).owed = 0
      rw [h.idle]
      rfl
  · refine Finset.sum_pos' (fun _ _ => Nat.zero_le _) ⟨0, Finset.mem_univ _, ?_⟩
    rw [← hs1]
    show 0 < if (s.jobs 0).runnable then 1 else 0
    rw [if_pos (by unfold Entry.runnable; rw [h.job.1]; rfl)]
    exact Nat.one_pos

theorem stranded_after_wrap :
    ¬∀ ops : List (Op twoJobs), NotStranded (run step (State.init twoJobs) ops) := by
  intro h
  have hq := (emptied (2 ^ 32 - 1)).queue
  refine hq.stranded rfl ?_
  rw [← Lib.run_append, ← Lib.run_append]
  exact h _

end SynapticOS.Infer.Dispatch
