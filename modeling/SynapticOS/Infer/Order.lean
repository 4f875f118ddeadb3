import SynapticOS.Infer.SchedLaws
import SynapticOS.Lib.Run
import Mathlib.Data.List.MinMax
import Mathlib.Data.Prod.Lex
import Mathlib.Data.Finset.Max
import Mathlib.Data.Fintype.Basic
import Mathlib.Order.WithBot
import Mathlib.Algebra.Order.Ring.Nat
import Mathlib.Data.Nat.Cast.Order.Basic
import Mathlib.Data.Nat.Cast.WithTop

/-!
# Dispatch order

The scheduler is to run the waiting job of the highest priority, among those the
one with the earliest deadline, and among those the one submitted first. It tells
which was first by the 32-bit submission counter, compared with `<`: once the
counter has wrapped between two jobs that are otherwise level, the later one goes
first.
-/

namespace SynapticOS.Infer

open Lib (Along run)

variable {cfg : Cfg} {s s' s'' : Sched cfg}

-- ---------------------------------------------------------------------------
-- The order that is promised
-- ---------------------------------------------------------------------------

/-- When the job is due; one without a deadline is never. -/
def Entry.due (e : Entry) : WithTop Nat :=
  match e.deadlineAt with
  | some x => x
  | none => ⊤

/-- No waiting job is ahead of `j` by priority and deadline. -/
structure Foremost (s : Sched cfg) (j : Fin cfg.jobs) : Prop where
  runnable : (s.jobs j).runnable = true
  priority : ∀ i, (s.jobs i).runnable = true →
    (s.jobs i).params.priority ≤ (s.jobs j).params.priority
  deadline : ∀ i, (s.jobs i).runnable = true →
    (s.jobs i).params.priority = (s.jobs j).params.priority → (s.jobs j).due ≤ (s.jobs i).due

/-- `j` is next: of the foremost jobs it was submitted first. -/
structure First (s : Sched cfg) (j : Fin cfg.jobs) : Prop where
  foremost : Foremost s j
  oldest : ∀ i, Foremost s i → (s.jobs j).ticket ≤ (s.jobs i).ticket

/-- The step moves job `j` to `RUNNING`. -/
def Moves (s : Sched cfg) (o : Op cfg) (j : Fin cfg.jobs) : Prop :=
  (s.jobs j).state ≠ .running ∧ ((step s o).jobs j).state = .running

/-- The number that the submission counter gives a submission. -/
def turn (cfg : Cfg) (ticket : Nat) : Nat := (ticket - cfg.jobs) % 2 ^ 32

/-- The counter has not wrapped between the oldest of the foremost jobs and
another of them, or is past it again; at the same number the table decides. -/
def Unwrapped (s : Sched cfg) : Prop :=
  ∀ i j, First s i → Foremost s j → j ≠ i →
    turn cfg (s.jobs i).ticket < turn cfg (s.jobs j).ticket ∨
      turn cfg (s.jobs i).ticket = turn cfg (s.jobs j).ticket ∧ i < j

/-- The scheduler thread is about to pick a job. -/
def Picks (s : Sched cfg) (o : Op cfg) : Prop :=
  o = .dispatch ∧ s.pc = .waiting ∧ 0 < s.wakes ∧ s.paused = false

-- ---------------------------------------------------------------------------
-- What is picked
-- ---------------------------------------------------------------------------

/-- What `job_before` compares. -/
def Entry.key (e : Entry) : Natᵒᵈ ×ₗ WithTop Nat ×ₗ Nat :=
  toLex (OrderDual.toDual e.params.priority, toLex (e.due, e.seq))

theorem due_inj (a b : Entry) : a.due = b.due ↔ a.deadlineAt = b.deadlineAt := by
  unfold Entry.due
  cases a.deadlineAt <;> cases b.deadlineAt <;> simp

theorem due_lt (a b : Entry) : a.due < b.due ↔
    (match a.deadlineAt, b.deadlineAt with
      | some x, some y => decide (x < y)
      | some _, none => true
      | none, _ => false) = true := by
  unfold Entry.due
  cases a.deadlineAt <;> cases b.deadlineAt <;> simp

theorem jobBefore_iff (a b : Entry) : jobBefore a b = true ↔ a.key < b.key := by
  unfold Entry.key
  rw [Prod.Lex.toLex_lt_toLex, Prod.Lex.toLex_lt_toLex]
  simp only [OrderDual.toDual_lt_toDual, OrderDual.toDual_inj, due_lt, due_inj]
  unfold jobBefore
  by_cases hp : a.params.priority = b.params.priority
  · rw [if_neg (fun hn => hn hp)]
    by_cases hd : a.deadlineAt = b.deadlineAt
    · rw [if_neg (fun hn => hn hd)]
      cases hb : b.deadlineAt with
      | none => simp [hp, hd, hb]
      | some y => simp [hp, hd, hb]
    · rw [if_pos hd]
      cases ha : a.deadlineAt with
      | none =>
        cases hb : b.deadlineAt with
        | none => exact absurd (ha.trans hb.symm) hd
        | some y => simp [hp]
      | some x =>
        cases hb : b.deadlineAt with
        | none => simp [hp]
        | some y =>
          have hne : x ≠ y := fun he => hd (by rw [ha, hb, he])
          simp [hp, hne]
  · rw [if_pos hp]
    simp [hp]

/-- The waiting jobs, as `pick_next_job` goes through them. -/
def waitingJobs (s : Sched cfg) : List (Fin cfg.jobs) :=
  (List.finRange cfg.jobs).filter fun j => (s.jobs j).runnable

theorem mem_waitingJobs : j ∈ waitingJobs s ↔ (s.jobs j).runnable = true := by
  simp [waitingJobs]

theorem pickNextJob_eq (s : Sched cfg) :
    pickNextJob s = (waitingJobs s).argmin fun j => (s.jobs j).key := by
  have hf : Table.better (fun j => (s.jobs j).toEntry) = fun best j => if (s.jobs j).runnable then
      List.argAux (fun b c => (s.jobs b).key < (s.jobs c).key) best j else best := by
    funext best j
    unfold Table.better
    cases best with
    | none => rfl
    | some b => simp only [List.argAux, jobBefore_iff]
  unfold pickNextJob Table.pickNextJob waitingJobs List.argmin
  rw [hf, List.foldl_filter]

/-- The table is gone through from its start. -/
theorem idxOf_le_iff {l : List (Fin n)} (hl : l.Pairwise (· < ·)) {i j : Fin n} (hi : i ∈ l)
    (hj : j ∈ l) :
    l.idxOf i ≤ l.idxOf j ↔ i ≤ j := by
  induction l with
  | nil => cases hi
  | cons x l ih =>
    obtain ⟨hx, hl⟩ := List.pairwise_cons.mp hl
    rcases List.mem_cons.mp hi with rfl | hi' <;> rcases List.mem_cons.mp hj with rfl | hj'
    · simp
    · simp [(hx j hj').le]
    · have hlt := hx i hi'
      rw [List.idxOf_cons_ne l hlt.ne, List.idxOf_cons_self]
      simp [hlt.not_ge]
    · rw [List.idxOf_cons_ne l (hx i hi').ne, List.idxOf_cons_ne l (hx j hj').ne,
        Nat.succ_le_succ_iff]
      exact ih hl hi' hj'

theorem pickNextJob_iff : pickNextJob s = some j ↔ (s.jobs j).runnable = true ∧
    ∀ i, (s.jobs i).runnable = true → i ≠ j →
      (s.jobs j).key < (s.jobs i).key ∨ (s.jobs j).key = (s.jobs i).key ∧ j < i := by
  have hp : (waitingJobs s).Pairwise (· < ·) := (List.pairwise_lt_finRange _).filter _
  rw [pickNextJob_eq, List.argmin_eq_some_iff, mem_waitingJobs]
  constructor
  · rintro ⟨hr, hmin, hidx⟩
    refine ⟨hr, fun i hi hne => ?_⟩
    have hm := mem_waitingJobs.mpr hi
    rcases (hmin i hm).lt_or_eq with hlt | heq
    · exact .inl hlt
    · have hle := (idxOf_le_iff hp (mem_waitingJobs.mpr hr) hm).mp (hidx i hm heq.ge)
      exact .inr ⟨heq, lt_of_le_of_ne hle hne.symm⟩
  · rintro ⟨hr, hmin⟩
    refine ⟨hr, fun i hi => ?_, fun i hi hle => ?_⟩
    · by_cases hne : i = j
      · rw [hne]
      · rcases hmin i (mem_waitingJobs.mp hi) hne with h | h
        · exact h.le
        · exact h.1.le
    · by_cases hne : i = j
      · rw [hne]
      · rcases hmin i (mem_waitingJobs.mp hi) hne with h | h
        · exact absurd h hle.not_gt
        · exact (idxOf_le_iff hp (mem_waitingJobs.mpr hr) hi).mpr h.2.le

theorem Foremost.level (hi : Foremost s i) (hj : Foremost s j) :
    (s.jobs i).params.priority = (s.jobs j).params.priority ∧ (s.jobs i).due = (s.jobs j).due := by
  have hp := le_antisymm (hj.priority i hi.runnable) (hi.priority j hj.runnable)
  refine ⟨hp, le_antisymm ?_ ?_⟩
  · exact hi.deadline j hj.runnable hp.symm
  · exact hj.deadline i hi.runnable hp

theorem key_lt_of_level {a b : Job} (hp : a.params.priority = b.params.priority)
    (hd : a.due = b.due) :
    a.key < b.key ↔ a.seq < b.seq := by
  simp [Entry.key, Prod.Lex.toLex_lt_toLex, hp, hd]

theorem key_eq_of_level {a b : Job} (hp : a.params.priority = b.params.priority)
    (hd : a.due = b.due) :
    a.key = b.key ↔ a.seq = b.seq := by
  simp [Entry.key, hp, hd]

theorem key_le {a b : Job} (h : a.key < b.key ∨ a.key = b.key ∧ q) : a.key ≤ b.key := by
  rcases h with h | h
  · exact h.le
  · exact h.1.le

theorem foremost_of_key (hr : (s.jobs j).runnable = true)
    (h : ∀ i, (s.jobs i).runnable = true → (s.jobs j).key ≤ (s.jobs i).key) : Foremost s j := by
  refine ⟨hr, fun i hi => ?_, fun i hi hp => ?_⟩
  · rcases Prod.Lex.toLex_le_toLex.mp (h i hi) with hlt | ⟨heq, -⟩
    · exact (OrderDual.toDual_lt_toDual.mp hlt).le
    · exact (OrderDual.toDual_inj.mp heq).ge
  · rcases Prod.Lex.toLex_le_toLex.mp (h i hi) with hlt | ⟨-, hle⟩
    · exact absurd hp (OrderDual.toDual_lt_toDual.mp hlt).ne
    · rcases Prod.Lex.toLex_le_toLex.mp hle with hlt | ⟨heq, -⟩
      · exact hlt.le
      · exact heq.le

/-- The job that is picked is foremost, whatever the counter says. -/
theorem pickNextJob_foremost (h : pickNextJob s = some j) : Foremost s j := by
  obtain ⟨hr, hmin⟩ := pickNextJob_iff.mp h
  refine foremost_of_key hr fun i hi => ?_
  by_cases hne : i = j
  · rw [hne]
  · exact key_le (hmin i hi hne)

/-- Of the foremost jobs the one with the least number is picked. -/
theorem Foremost.picked (hj : Foremost s j) : pickNextJob s = some j ↔
    ∀ i, Foremost s i → i ≠ j →
      (s.jobs j).seq < (s.jobs i).seq ∨ (s.jobs j).seq = (s.jobs i).seq ∧ j < i := by
  rw [pickNextJob_iff]
  constructor
  · rintro ⟨-, hmin⟩ i hi hne
    obtain ⟨hp, hd⟩ := hj.level hi
    rw [← key_lt_of_level hp hd, ← key_eq_of_level hp hd]
    exact hmin i hi.runnable hne
  · refine fun hmin => ⟨hj.runnable, fun i hi hne => ?_⟩
    rcases (hj.priority i hi).lt_or_eq with hlt | hp
    · exact .inl (Prod.Lex.toLex_lt_toLex.mpr (.inl (OrderDual.toDual_lt_toDual.mpr hlt)))
    · rcases (hj.deadline i hi hp).lt_or_eq with hlt | hd
      · refine .inl (Prod.Lex.toLex_lt_toLex.mpr (.inr ⟨?_, ?_⟩))
        · exact OrderDual.toDual_inj.mpr hp.symm
        · exact Prod.Lex.toLex_lt_toLex.mpr (.inl hlt)
      · rw [key_lt_of_level hp.symm hd, key_eq_of_level hp.symm hd]
        refine hmin i ⟨hi, fun k hk => ?_, fun k hk hkp => ?_⟩ hne
        · rw [hp]
          exact hj.priority k hk
        · rw [← hd]
          exact hj.deadline k hk (hkp.trans hp)

theorem pickNextJob_some (hi : (s.jobs i).runnable = true) : ∃ j, pickNextJob s = some j := by
  cases h : pickNextJob s with
  | some j => exact ⟨j, rfl⟩
  | none =>
    rw [pickNextJob_eq, List.argmin_eq_none] at h
    have := mem_waitingJobs.mpr hi
    rw [h] at this
    cases this

/-- One of the foremost jobs was submitted first. -/
theorem Foremost.exists_first (hj : Foremost s j) : ∃ i, First s i := by
  classical
  obtain ⟨i, hi, hmin⟩ := Finset.exists_min_image (Finset.univ.filter (Foremost s))
    (fun k => (s.jobs k).ticket) ⟨j, by simpa using hj⟩
  exact ⟨i, by simpa using hi, fun k hk => hmin k (by simpa using hk)⟩

-- ---------------------------------------------------------------------------
-- Submission numbers
-- ---------------------------------------------------------------------------

/-- The counter counts submissions, and every job has its number. -/
structure Numbered (s : Sched cfg) : Prop where
  base : cfg.jobs ≤ s.tickets
  next : s.nextSeq = turn cfg s.tickets
  old : ∀ j, (s.jobs j).ticket < s.tickets
  apart : ∀ i j, (s.jobs i).ticket = (s.jobs j).ticket → i = j
  seq : ∀ j, (s.jobs j).seq = turn cfg (s.jobs j).ticket

/-- With numbered jobs, the scheduler picks the one that is next when the counter
has not wrapped, and only then. -/
theorem Numbered.picks_first (h : Numbered s) :
    (∀ j, pickNextJob s = some j → First s j) ↔ Unwrapped s := by
  constructor
  · intro hpick i j hi hj hne
    obtain ⟨p, hp⟩ := pickNextJob_some hi.foremost.runnable
    have hf := hpick p hp
    have hpi : p = i :=
      h.apart p i (le_antisymm (hf.oldest i hi.foremost) (hi.oldest p hf.foremost))
    rw [hpi] at hp
    rw [← h.seq i, ← h.seq j]
    exact hi.foremost.picked.mp hp j hj hne
  · intro hu j hj
    obtain ⟨i, hi⟩ := (pickNextJob_foremost hj).exists_first
    have hp : pickNextJob s = some i := by
      refine hi.foremost.picked.mpr fun k hk hne => ?_
      rw [h.seq i, h.seq k]
      exact hu i k hi hk hne
    rw [hj] at hp
    rw [Option.some.inj hp]
    exact hi

/-- Numbers and tickets are as they were. -/
structure SameNumbers (s s' : Sched cfg) : Prop where
  nextSeq : s'.nextSeq = s.nextSeq
  tickets : s'.tickets = s.tickets
  seq : ∀ j, (s'.jobs j).seq = (s.jobs j).seq
  ticket : ∀ j, (s'.jobs j).ticket = (s.jobs j).ticket

theorem SameNumbers.refl (s : Sched cfg) : SameNumbers s s := ⟨rfl, rfl, fun _ => rfl, fun _ => rfl⟩

theorem SameNumbers.of_jobs (hn : s'.nextSeq = s.nextSeq) (ht : s'.tickets = s.tickets)
    (hj : s'.jobs = s.jobs) : SameNumbers s s' :=
  ⟨hn, ht, fun j => by rw [hj], fun j => by rw [hj]⟩

/-- One job is written and keeps its number. -/
theorem SameNumbers.of_set (hn : s'.nextSeq = s.nextSeq) (ht : s'.tickets = s.tickets)
    (hj : s'.jobs = Function.update s.jobs j x) (hs : x.seq = (s.jobs j).seq)
    (hx : x.ticket = (s.jobs j).ticket) : SameNumbers s s' := by
  refine ⟨hn, ht, fun i => ?_, fun i => ?_⟩
  · rw [hj, Function.update_apply]
    split
    · rename_i he
      rw [he, hs]
    · rfl
  · rw [hj, Function.update_apply]
    split
    · rename_i he
      rw [he, hx]
    · rfl

theorem SameNumbers.trans (h : SameNumbers s s') (h' : SameNumbers s' s'') : SameNumbers s s'' where
  nextSeq := h'.nextSeq.trans h.nextSeq
  tickets := h'.tickets.trans h.tickets
  seq j := (h'.seq j).trans (h.seq j)
  ticket j := (h'.ticket j).trans (h.ticket j)

theorem SameNumbers.of_quiet (h : Quiet s s') (hn : s'.nextSeq = s.nextSeq) : SameNumbers s s' :=
  .of_jobs hn h.tickets h.same.jobs

theorem sameNumbers_endModel (s : Sched cfg) (j : Fin cfg.jobs) (i : Nat) (res : Ret) :
    SameNumbers s (endModel s j i res) := by
  unfold endModel
  split
  · exact .of_jobs rfl rfl rfl
  · split
    · exact .of_set rfl rfl rfl rfl rfl
    · exact .of_jobs rfl rfl rfl

theorem sameNumbers_resume (s : Sched cfg) (j : Fin cfg.jobs) (i : Nat) :
    SameNumbers s (resume s j i) := by
  have hset : SameNumbers s (s.setJob j fun job => { job with resuming := false }) :=
    .of_set rfl rfl rfl rfl rfl
  unfold resume
  dsimp only
  split
  · exact hset.trans (.of_jobs rfl rfl rfl)
  · split
    · exact hset.trans (.of_jobs rfl rfl rfl)
    · exact hset.trans (.of_set rfl rfl rfl rfl rfl)

theorem sameNumbers_schedule (s : Sched cfg) (res : Ret) (layers : Option Nat) :
    SameNumbers s (schedule res layers s) := by
  unfold schedule
  split
  · exact .refl s
  · unfold enterPipeline
    dsimp only
    repeat' split
    all_goals exact .of_jobs rfl rfl rfl
  · unfold runStage
    dsimp only
    split
    · exact .of_jobs rfl rfl rfl
    · split
      · exact sameNumbers_resume ..
      · split
        · exact sameNumbers_endModel ..
        · exact sameNumbers_endModel ..
        · exact .of_jobs rfl rfl rfl
    · split <;> exact .of_jobs rfl rfl rfl
  · unfold runLayer
    split
    · exact sameNumbers_endModel ..
    · refine .trans ?_ (sameNumbers_endModel ..)
      exact .of_jobs rfl rfl rfl
    · split
      · split <;> exact .of_jobs rfl rfl rfl
      · exact .of_jobs rfl rfl rfl
  · exact .of_set rfl rfl rfl rfl rfl
  · unfold settle
    split <;> exact .of_set rfl rfl rfl rfl rfl
  · exact .of_jobs rfl rfl rfl
  · exact .of_jobs rfl rfl rfl
  · exact .of_set rfl rfl rfl rfl rfl

theorem sameNumbers_destroyPipe (p : Fin maxPipelines) (s : Sched cfg) :
    SameNumbers s (destroyPipe p s) := by
  have hj : ∀ job, (destroyJob p job).seq = job.seq ∧ (destroyJob p job).ticket = job.ticket := by
    intro job
    by_cases h : job.doomed p
    · rw [destroyJob_of_doomed h]
      exact ⟨rfl, rfl⟩
    · rw [destroyJob_of_not_doomed h]
      exact ⟨rfl, rfl⟩
  exact ⟨rfl, rfl, fun j => (hj (s.jobs j)).1, fun j => (hj (s.jobs j)).2⟩

/-- A submission. -/
def Op.submits : Op cfg → Bool
  | .submitLock _ _ => true
  | _ => false

theorem sameNumbers_step (s : Sched cfg) (o : Op cfg) (h : o.submits = false) :
    SameNumbers s (step s o) := by
  cases o with
  | submitLock t now => cases h
  | destroyLock t =>
    unfold step destroyLock
    dsimp only
    split
    · exact (sameNumbers_destroyPipe _ s).trans (.of_jobs rfl rfl rfl)
    · exact .refl s
  | cancel n =>
    unfold step cancel
    dsimp only
    split
    · exact .refl s
    · rename_i j _
      split
      · exact .of_set rfl rfl rfl rfl rfl
      · have hd : SameNumbers s (dropCtx s j) := .of_set rfl rfl rfl rfl rfl
        exact hd.trans (.of_set rfl rfl rfl rfl rfl)
      · exact .refl s
  | getResult n =>
    unfold step getResult
    dsimp only
    split
    · exact .refl s
    · split
      · exact .of_set rfl rfl rfl rfl rfl
      · exact .of_set rfl rfl rfl rfl rfl
      · exact .of_set rfl rfl rfl rfl rfl
      · exact .refl s
  | waitStep t =>
    unfold step waitStep
    dsimp only
    split
    · exact .of_jobs rfl rfl rfl
    · split
      · exact .of_set rfl rfl rfl rfl rfl
      · exact .of_jobs rfl rfl rfl
    · split
      · exact .of_set rfl rfl rfl rfl rfl
      · exact .refl s
    · exact .of_set rfl rfl rfl rfl rfl
    · split <;> exact .of_jobs rfl rfl rfl
    · exact .of_jobs rfl rfl rfl
    · exact .refl s
  | waitEnter t n =>
    unfold step waitEnter
    dsimp only
    repeat' split
    all_goals exact .of_jobs rfl rfl rfl
  | waitTimeout t =>
    unfold step waitTimeout
    dsimp only
    split
    · exact .of_jobs rfl rfl rfl
    · exact .refl s
  | dispatch =>
    unfold step dispatch
    dsimp only
    split
    · split
      · exact .of_jobs rfl rfl rfl
      · split
        · exact .of_jobs rfl rfl rfl
        · exact .of_set rfl rfl rfl rfl rfl
    · exact .refl s
  | schedule res layers => exact sameNumbers_schedule s res layers
  | create | addEnter | addWrite | buildEnter | buildWrite | destroyEnter | submitEnter
  | setMaxConcurrent =>
    exact .of_quiet (quiet_of_builder s _ rfl) (numbers_of_builder s _ rfl).1
  | _ => exact .of_quiet (quiet_of_registry s _ rfl) (nextSeq_of_registry s _ rfl)

theorem Numbered.of_same (h : Numbered s) (hs : SameNumbers s s') : Numbered s' where
  base := hs.tickets ▸ h.base
  next := by rw [hs.nextSeq, hs.tickets]; exact h.next
  old j := by rw [hs.ticket, hs.tickets]; exact h.old j
  apart i j he := h.apart i j (by rw [← hs.ticket i, ← hs.ticket j]; exact he)
  seq j := by rw [hs.seq, hs.ticket]; exact h.seq j

theorem turn_succ (h : cfg.jobs ≤ n) : turn cfg (n + 1) = (turn cfg n + 1) % 2 ^ 32 := by
  unfold turn
  rw [Nat.succ_sub h]
  omega

theorem numbered_submitJob (h : Numbered s) (j : Fin cfg.jobs) (p : Fin maxPipelines)
    (params : Params) (now : Nat) : Numbered (submitJob s j p params now) := by
  obtain ⟨x, hx, hseq, htk⟩ : ∃ x : Job, (submitJob s j p params now).jobs =
      Function.update s.jobs j x ∧
      x.seq = s.nextSeq ∧ x.ticket = s.tickets := ⟨_, rfl, rfl, rfl⟩
  refine ⟨?_, ?_, fun i => ?_, fun i k he => ?_, fun i => ?_⟩
  · exact h.base.trans (Nat.le_succ _)
  · show (s.nextSeq + 1) % 2 ^ 32 = turn cfg (s.tickets + 1)
    rw [turn_succ h.base, h.next]
  · show _ < s.tickets + 1
    rw [hx, Function.update_apply]
    split
    · rw [htk]
      exact Nat.lt_succ_self _
    · exact (h.old i).trans (Nat.lt_succ_self _)
  · rw [hx, Function.update_apply, Function.update_apply] at he
    split at he <;> split at he
    · rename_i hi hk
      rw [hi, hk]
    · exact absurd (htk.symm.trans he).symm (h.old k).ne
    · exact absurd (he.trans htk) (h.old i).ne
    · exact h.apart i k he
  · rw [hx, Function.update_apply]
    split
    · rw [hseq, htk]
      exact h.next
    · exact h.seq i

theorem numbered_step (h : Numbered s) (o : Op cfg) : Numbered (step s o) := by
  cases ho : o.submits with
  | false => exact h.of_same (sameNumbers_step s o ho)
  | true =>
    cases o with
    | submitLock t now =>
      unfold step submitLock
      dsimp only
      split
      · split
        · exact h.of_same (.of_jobs rfl rfl rfl)
        · rename_i p params _ _ j _
          exact (numbered_submitJob h j p params now).of_same (.of_jobs rfl rfl rfl)
      · exact h
    | _ => cases ho

theorem Numbered.init : Numbered (Sched.init cfg) where
  base := Nat.le_refl _
  next := by simp [Sched.init, turn]
  old j := j.isLt
  apart i j he := Fin.ext he
  seq j := by
    show 0 = (j.val - cfg.jobs) % 2 ^ 32
    rw [Nat.sub_eq_zero_of_le j.isLt.le, Nat.zero_mod]

-- ---------------------------------------------------------------------------
-- Who is moved to RUNNING
-- ---------------------------------------------------------------------------

/-- The scheduler thread goes on with its job or leaves it. -/
theorem job_schedule (s : Sched cfg) (res : Ret) (layers : Option Nat) :
    (schedule res layers s).pc.job = s.pc.job ∨ (schedule res layers s).pc.job = none := by
  have hend : ∀ (s : Sched cfg) (j : Fin cfg.jobs) (i : Nat) (r : Ret),
      (endModel s j i r).pc.job = some j := by
    intro s j i r
    unfold endModel
    split
    · rfl
    · split <;> rfl
  unfold schedule
  split
  · exact .inl rfl
  · rename_i hp
    left
    rw [hp]
    unfold enterPipeline
    dsimp only
    repeat' split
    all_goals rfl
  · rename_i hp
    left
    rw [hp]
    unfold runStage
    dsimp only
    split
    · rfl
    · split
      · unfold resume
        dsimp only
        split
        · rfl
        · split <;> rfl
      · split
        · exact hend ..
        · exact hend ..
        · rfl
    · split <;> rfl
  · rename_i hp
    left
    rw [hp]
    unfold runLayer
    split
    · exact hend ..
    · exact hend ..
    · split
      · split <;> rfl
      · rfl
  · rename_i hp
    left
    rw [hp]
    rfl
  · unfold settle
    right
    split <;> rfl
  · exact .inr rfl
  · exact .inr rfl
  · exact .inr rfl

theorem pc_step (s : Sched cfg) (o : Op cfg) (hd : o ≠ .dispatch)
    (hs : ∀ res layers, o ≠ .schedule res layers) : (step s o).pc = s.pc := by
  cases o with
  | dispatch => exact absurd rfl hd
  | schedule res layers => exact absurd rfl (hs res layers)
  | destroyLock t =>
    unfold step destroyLock
    dsimp only
    split <;> rfl
  | submitLock t now =>
    unfold step submitLock
    dsimp only
    repeat' split
    all_goals rfl
  | cancel n =>
    unfold step cancel
    dsimp only
    repeat' split
    all_goals rfl
  | getResult n =>
    unfold step getResult
    dsimp only
    repeat' split
    all_goals rfl
  | waitStep t =>
    unfold step waitStep
    dsimp only
    repeat' split
    all_goals rfl
  | waitEnter t n => exact (sameJobs_waitEnter t n s).pc
  | waitTimeout t => exact (sameJobs_waitTimeout t s).pc
  | create | addEnter | addWrite | buildEnter | buildWrite | destroyEnter | submitEnter
  | setMaxConcurrent => exact (quiet_of_builder s _ rfl).same.pc
  | _ => exact (quiet_of_registry s _ rfl).same.pc

theorem job_dispatch (h : Picks s .dispatch) : (dispatch s).pc.job = pickNextJob s := by
  obtain ⟨-, hpc, hw, hp⟩ := h
  have hpick : pickNextJob { s with wakes := s.wakes - 1 } = pickNextJob s := rfl
  unfold dispatch
  rw [if_pos ⟨hpc, hw⟩]
  dsimp only
  rw [if_neg (by rw [hp]; exact Bool.false_ne_true), hpick]
  cases pickNextJob s with
  | none =>
    show s.pc.job = none
    rw [hpc]
    rfl
  | some j => rfl

theorem pc_dispatch (h : ¬Picks s .dispatch) : (dispatch s).pc = s.pc := by
  unfold dispatch
  split
  · rename_i hw
    dsimp only
    cases hp : s.paused with
    | true => rfl
    | false => exact absurd ⟨rfl, hw.1, hw.2, hp⟩ h
  · rfl

/-- Only the scheduler moves a job to `RUNNING`: the one it picks. -/
theorem moves_iff (hr : RunningOk s) : Moves s o j ↔ Picks s o ∧ pickNextJob s = some j := by
  have hr' := runningOk_step hr o
  have hmoves : Moves s o j ↔ s.pc.job ≠ some j ∧ (step s o).pc.job = some j := by
    unfold Moves
    rw [ne_eq, hr j, hr' j]
  rw [hmoves]
  by_cases hd : o = .dispatch
  · subst hd
    by_cases hp : Picks s .dispatch
    · show _ ∧ (dispatch s).pc.job = some j ↔ _
      rw [job_dispatch hp, hp.2.1]
      exact ⟨fun h => ⟨hp, h.2⟩, fun h => ⟨fun h => (nomatch h), h.2⟩⟩
    · show _ ∧ (dispatch s).pc.job = some j ↔ _
      rw [pc_dispatch hp]
      exact ⟨fun h => absurd h.2 h.1, fun h => absurd h.1 hp⟩
  · refine ⟨fun h => ?_, fun h => absurd h.1.1 hd⟩
    by_cases hs : ∃ res layers, o = .schedule res layers
    · obtain ⟨res, layers, rfl⟩ := hs
      rcases job_schedule s res layers with he | he
      · exact absurd (he.symm.trans h.2) h.1
      · exact absurd (he.symm.trans h.2) (fun h => nomatch h)
    · have hpc := pc_step s o hd fun res layers he => hs ⟨res, layers, he⟩
      rw [hpc] at h
      exact absurd h.2 h.1

theorem along_congr {C D : Sched cfg → Op cfg → Prop} {I : Sched cfg → Prop} (hi : I s)
    (hstep : ∀ s o, I s → I (step s o)) (h : ∀ s o, I s → (C s o ↔ D s o)) (l : List (Op cfg)) :
    Along step C s l ↔ Along step D s l := by
  induction l generalizing s with
  | nil => exact ⟨fun _ => .nil, fun _ => .nil⟩
  | cons o l ih =>
    constructor
    · intro ha
      cases ha with
      | cons hc ht => exact .cons ((h s o hi).mp hc) ((ih (hstep s o hi)).mp ht)
    · intro ha
      cases ha with
      | cons hc ht => exact .cons ((h s o hi).mpr hc) ((ih (hstep s o hi)).mpr ht)

/-- In every run, the jobs moved to `RUNNING` are the next ones as long as the
submission counter has not wrapped between jobs that are level, and only then. -/
theorem dispatch_in_order (l : List (Op cfg)) :
    Along step (fun s o => ∀ j, Moves s o j → First s j) (Sched.init cfg) l ↔
      Along step (fun s o => Picks s o → Unwrapped s) (Sched.init cfg) l := by
  refine along_congr (I := fun s => RunningOk s ∧ Numbered s)
      ⟨RunningOk.init, Numbered.init⟩ ?_ ?_ l
  · exact fun s o h => ⟨runningOk_step h.1 o, numbered_step h.2 o⟩
  · intro s o ⟨hr, hn⟩
    simp only [moves_iff hr, and_imp]
    rw [← hn.picks_first]
    exact ⟨fun h hp j hj => h j hp hj, fun h j hp hj => h hp j hj⟩

-- ---------------------------------------------------------------------------
-- Past the wrap
-- ---------------------------------------------------------------------------

/-- A pipeline to submit to. -/
def readyOps : List (Op twoJobs) := modelOps 7 1 ++ pipeOps 0 1

/-- A submission that is cancelled and consumed at once. -/
def churnOps (id : Nat) : List (Op twoJobs) := submitOps 0 plain ++ [.cancel id, .getResult id]

def churns : Nat → List (Op twoJobs)
  | 0 => []
  | n + 1 => churns n ++ churnOps (idAt n)

/-- `n` submissions have come and gone. -/
structure Churned (n : Nat) (s : Sched twoJobs) : Prop where
  ready : (s.pipes 0).inUse = true ∧ (s.pipes 0).built = true
  free : ∀ j, (s.jobs j).state = .free
  most : s.maxConcurrent = 2
  nextId : s.nextId = idAt n
  nextSeq : s.nextSeq = n % 2 ^ 32
  tickets : s.tickets = n + 2
  idle : s.threads 0 = .idle
  waiting : s.pc = .waiting
  dispatching : s.paused = false

/-- Thread 0 submits, and gets slot `j`. -/
theorem submitOps_run {s : Sched twoJobs}
    (hready : (s.pipes 0).inUse = true ∧ (s.pipes 0).built = true)
    (hidle : s.threads 0 = .idle) (hf : freeJob (s.setThread 0 (.submitting 0 plain)) = some j) :
    run step s (submitOps 0 plain) =
      ((submitJob (s.setThread 0 (.submitting 0 plain)) j 0 plain 0).setThread 0
          .idle).giveWake := by
  have h1 : step s (.submitEnter 0 0 plain) = s.setThread 0 (.submitting 0 plain) := by
    unfold step submitEnter
    dsimp only
    rw [hidle]
    exact if_pos hready
  have h2 : (s.setThread 0 (.submitting 0 plain)).threads 0 = .submitting 0 plain :=
    by simp [Sched.setThread]
  show step (step s (.submitEnter 0 0 plain)) (.submitLock 0 0) = _
  rw [h1]
  unfold step submitLock
  dsimp only
  rw [h2]
  dsimp only
  rw [hf]

theorem freeJob_zero {s : Sched twoJobs} (hfree : ∀ j, (s.jobs j).state = .free)
    (hmost : s.maxConcurrent = 2) : freeJob s = some 0 := by
  have h0 := hfree 0
  have h1 := hfree 1
  simp [freeJob, Table.freeJob, List.finRange_succ, h0, h1, hmost, JobState.active]

theorem findJob_zero {s : Sched twoJobs} (hid : n ≠ 0) (hs : (s.jobs 0).state ≠ .free)
    (hn : (s.jobs 0).id = n) : findJob s n = some 0 := by
  simp [findJob, Table.findJob, List.finRange_succ, hid, hs, hn]

theorem Churned.churn {s : Sched twoJobs} (h : Churned n s) :
    Churned (n + 1) (run step s (churnOps (idAt n))) := by
  have hid : idAt n ≠ 0 := Nat.succ_ne_zero _
  have hsub := submitOps_run h.ready h.idle
      (freeJob_zero (s := s.setThread 0 (.submitting 0 plain)) h.free h.most)
  unfold churnOps
  rw [Lib.run_append, hsub]
  generalize hs2 : ((submitJob (s.setThread 0 (.submitting 0 plain)) 0 0 plain 0).setThread 0
    .idle).giveWake = s2
  have hj0 : s2.jobs 0 = { id := idAt n, state := .queued, pipe := 0, params := plain,
                           result := einprogress, seq := n % 2 ^ 32, deadlineAt := none,
                           ctxSlot := none, resumeStage := 0, resuming := false, done := false,
                           ticket := n + 2, asked := s.pipes 0 } := by
    rw [← hs2, ← h.nextId, ← h.nextSeq, ← h.tickets]
    rfl
  have hj1 : (s2.jobs 1).state = .free := by
    rw [← hs2]
    exact h.free 1
  have h3 : step s2 (.cancel (idAt n)) = cancelJob s2 0 := by
    unfold step cancel
    dsimp only
    rw [findJob_zero hid (by rw [hj0]; exact fun h => nomatch h) (by rw [hj0])]
    dsimp only
    rw [hj0]
  have hc0 : (cancelJob s2 0).jobs 0 =
      { s2.jobs 0 with state := .cancelled, result := ecanceled, done := true } := by
    simp [cancelJob, Sched.setJob]
  have hf : findJob (cancelJob s2 0) (idAt n) = some 0 :=
    findJob_zero hid (by rw [hc0]; exact fun h => nomatch h) (by rw [hc0, hj0])
  have h4 : step (cancelJob s2 0) (.getResult (idAt n)) =
      (cancelJob s2 0).setJob 0 fun job => { job with state := .free } := by
    unfold step getResult
    dsimp only
    rw [hf]
    dsimp only
    rw [hc0]
  show Churned (n + 1) (step (step s2 (.cancel (idAt n))) (.getResult (idAt n)))
  rw [h3, h4]
  refine ⟨?_, ?_, ?_, ?_, ?_, ?_, ?_, ?_, ?_⟩
  · rw [← hs2]
    exact h.ready
  · intro j
    rcases zero_or_one j with rfl | rfl
    · rw [Sched.setJob_self]
    · exact hj1
  · rw [← hs2]
    exact h.most
  · rw [idAt_succ, ← h.nextId, ← hs2]
    rfl
  · rw [← hs2]
    show (s.nextSeq + 1) % 2 ^ 32 = (n + 1) % 2 ^ 32
    rw [h.nextSeq, Nat.mod_add_mod]
  · rw [← hs2]
    exact congrArg (· + 1) h.tickets
  · rw [← hs2]
    simp [Sched.setJob, cancelJob, Sched.giveWake, Sched.setThread]
  · rw [← hs2]
    exact h.waiting
  · rw [← hs2]
    exact h.dispatching

theorem churned (n : Nat) : Churned n (run step (Sched.init twoJobs) (readyOps ++ churns n)) := by
  induction n with
  | zero => exact ⟨by decide, by decide, by decide, by decide, by decide, by decide, by decide,
      by decide, by decide⟩
  | succ n ih =>
    show Churned (n + 1) (run step (Sched.init twoJobs)
        (readyOps ++ (churns n ++ churnOps (idAt n))))
    rw [← List.append_assoc, Lib.run_append]
    exact ih.churn

/-- Two jobs that are level are submitted, and the scheduler picks one. -/
def lastOps : List (Op twoJobs) := submitOps 0 plain ++ submitOps 0 plain ++ [.dispatch]

/-- Two jobs wait that differ in the submission alone, and the scheduler can pick. -/
structure Level (n : Nat) (s : Sched twoJobs) : Prop where
  runnable : ∀ j, (s.jobs j).runnable = true
  params : ∀ j, (s.jobs j).params = plain
  deadline : ∀ j, (s.jobs j).deadlineAt = none
  seq : (s.jobs 0).seq = n % 2 ^ 32 ∧ (s.jobs 1).seq = (n + 1) % 2 ^ 32
  ticket : (s.jobs 1).ticket = (s.jobs 0).ticket + 1
  picking : Picks s .dispatch

theorem freeJob_one {s : Sched twoJobs} (h0 : (s.jobs 0).state = .queued)
    (h1 : (s.jobs 1).state = .free) (hmost : s.maxConcurrent = 2) : freeJob s = some 1 := by
  simp [freeJob, Table.freeJob, List.finRange_succ, h0, h1, hmost, JobState.active]

theorem Churned.level {s : Sched twoJobs} (h : Churned n s) :
    Level n (run step s (submitOps 0 plain ++ submitOps 0 plain)) := by
  have h1 := submitOps_run h.ready h.idle
    (freeJob_zero (s := s.setThread 0 (.submitting 0 plain)) h.free h.most)
  generalize hs1 : ((submitJob (s.setThread 0 (.submitting 0 plain)) 0 0 plain 0).setThread 0
    .idle).giveWake = s1 at h1
  have hf : freeJob (s1.setThread 0 (.submitting 0 plain)) = some 1 := by
    rw [← hs1]
    exact freeJob_one rfl (h.free 1) h.most
  have hidle : s1.threads 0 = .idle := by
    rw [← hs1]
    simp [Sched.giveWake, Sched.setThread]
  have h2 := submitOps_run (hs1 ▸ h.ready) hidle hf
  generalize hs2 : ((submitJob (s1.setThread 0 (.submitting 0 plain)) 1 0 plain 0).setThread 0
    .idle).giveWake = s2 at h2
  have hj0 : s2.jobs 0 = { id := s.nextId, state := .queued, pipe := 0, params := plain,
                           result := einprogress, seq := s.nextSeq, deadlineAt := none,
                           ctxSlot := none, resumeStage := 0, resuming := false, done := false,
                           ticket := s.tickets, asked := s.pipes 0 } := by
    rw [← hs2, ← hs1]
    rfl
  have hj1 : s2.jobs 1 = { id := s1.nextId, state := .queued, pipe := 0, params := plain,
                           result := einprogress, seq := (s.nextSeq + 1) % 2 ^ 32,
                           deadlineAt := none, ctxSlot := none, resumeStage := 0,
                           resuming := false, done := false, ticket := s.tickets + 1,
                           asked := s.pipes 0 } := by
    rw [← hs2, ← hs1]
    rfl
  rw [Lib.run_append, h1, h2]
  refine ⟨?_, ?_, ?_, ⟨?_, ?_⟩, ?_, rfl, ?_, ?_, ?_⟩
  · intro j
    rcases zero_or_one j with rfl | rfl
    · rw [hj0]
      rfl
    · rw [hj1]
      rfl
  · intro j
    rcases zero_or_one j with rfl | rfl
    · rw [hj0]
    · rw [hj1]
  · intro j
    rcases zero_or_one j with rfl | rfl
    · rw [hj0]
    · rw [hj1]
  · rw [hj0, h.nextSeq]
  · rw [hj1, h.nextSeq, Nat.mod_add_mod]
  · rw [hj0, hj1]
  · rw [← hs2, ← hs1]
    exact h.waiting
  · rw [← hs2]
    exact Nat.lt_min.mpr ⟨Nat.succ_pos _, Nat.succ_pos _⟩
  · rw [← hs2, ← hs1]
    exact h.dispatching

theorem Level.foremost {s : Sched twoJobs} (h : Level n s) (j : Fin twoJobs.jobs) :
    Foremost s j := by
  have hdue : ∀ i, (s.jobs i).due = ⊤ := by
    intro i
    unfold Entry.due
    rw [h.deadline i]
  constructor
  · exact h.runnable j
  · intro i _
    rw [h.params i, h.params j]
  · intro i _ _
    rw [hdue i, hdue j]

/-- Past the wrap the later one has the smaller number. -/
theorem Level.picked {s : Sched twoJobs} (h : Level n s) (hn : n % 2 ^ 32 = 2 ^ 32 - 1) :
    pickNextJob s = some 1 := by
  have hseq : (s.jobs 1).seq < (s.jobs 0).seq := by
    rw [h.seq.1, h.seq.2]
    omega
  refine (h.foremost 1).picked.mpr fun i _ hne => ?_
  rcases zero_or_one i with rfl | rfl
  · exact .inl hseq
  · exact absurd rfl hne

/-- When the counter has wrapped between them, the later one is moved to `RUNNING`. -/
theorem Churned.overtakes {s : Sched twoJobs} (h : Churned n s) (hn : n % 2 ^ 32 = 2 ^ 32 - 1)
    (hr : RunningOk s) :
    ¬Along step (fun s o => ∀ j, Moves s o j → First s j) s lastOps := by
  intro ha
  have hl := h.level
  have hr' : RunningOk (run step s (submitOps 0 plain ++ submitOps 0 plain)) :=
    Lib.run_invariant _ hr fun s o h => runningOk_step h o
  have hfirst := ha.last 1 ((moves_iff hr').mpr ⟨hl.picking, hl.picked hn⟩)
  have hle := hfirst.oldest 0 (hl.foremost 0)
  rw [hl.ticket] at hle
  exact Nat.not_succ_le_self _ hle

theorem overtaken_at_wrap :
    ¬∀ l, Along step (fun s o => ∀ j, Moves s o j → First s j) (Sched.init twoJobs) l := by
  intro h
  have hrun := h (readyOps ++ churns (2 ^ 32 - 1) ++ lastOps)
  have hr : RunningOk (run step (Sched.init twoJobs) (readyOps ++ churns (2 ^ 32 - 1))) :=
    Lib.run_invariant _ RunningOk.init fun s o h => runningOk_step h o
  exact (churned _).overtakes rfl hr hrun.right

end SynapticOS.Infer
