import SynapticOS.Infer.SchedLaws
import SynapticOS.Lib.Run

/-!
# What a wait returns

The done semaphore of a slot is given outside the lock, after the callback, and a
wait reads the slot after it has left the lock. Where a submission takes a slot
only when the scheduler thread is done with it and no wait is about to look at it,
a wait returns only results of its own job (`wait_own_result`).
-/

namespace SynapticOS.Infer

open Lib

variable {cfg : Cfg} {s s' : Sched cfg}

/-- Every wait that did not time out returned the result of its submission. -/
def WaitsHonest (s : Sched cfg) : Prop :=
  ∀ r ∈ s.returns, r.2 ≠ eagain → s.final r.1 = some r.2

/-- The job whose completion the scheduler thread still reports. -/
def Pc.reports : Pc cfg → Option (Fin cfg.jobs)
  | .reporting j _ | .calling j => some j
  | _ => none

/-- The slot that a wait is about to look at. A blocked wait is sent away when its
slot is taken; one that `k_sem_give` has readied has the token (`.taken`). -/
def Thread.looks : Thread cfg → Option (Fin cfg.jobs)
  | .errorSeen j _ | .toTake j _ | .taken j _ | .gaveBack j _ | .resultRead j _ => some j
  | _ => none

def Thread.submits : Thread cfg → Bool
  | .submitting _ _ => true
  | _ => false

/-- Nobody is between two looks at the slot that a submission takes. -/
def WaitSafe (s : Sched cfg) : Op cfg → Prop
  | .submitLock t _ => (s.threads t).submits = true → ∀ j, freeJob s = some j →
    s.pc.reports ≠ some j ∧ ∀ u, (s.threads u).looks ≠ some j
  | _ => True

instance (s : Sched cfg) (o : Op cfg) : Decidable (WaitSafe s o) := by
  apply Op.casesOn (motive := fun o => Decidable (WaitSafe s o)) o <;> intros <;>
    unfold WaitSafe <;> dsimp only <;> infer_instance

-- ---------------------------------------------------------------------------
-- Settled jobs
-- ---------------------------------------------------------------------------

def JobState.ended : JobState → Bool
  | .done | .error | .cancelled => true
  | _ => false

/-- The slot holds the result of a submission that is over. -/
def Settled (final : Nat → Option Ret) (job : Job) : Prop :=
  job.state.active = false ∧ final job.ticket = some job.result

structure JobOk (final : Nat → Option Ret) (job : Job) : Prop where
  live : job.state.active = true → final job.ticket = none
  ended : job.state.ended = true → final job.ticket = some job.result
  succeeded : job.state = .done → job.result = 0
  cancelled : job.state = .cancelled → job.result = ecanceled
  token : job.done = true → Settled final job

def ThreadOk (s : Sched cfg) : Thread cfg → Prop
  | .toTake j ticket | .pending j ticket => ticket = (s.jobs j).ticket
  | .errorSeen j ticket | .taken j ticket | .gaveBack j ticket | .resultRead j ticket =>
    ticket = (s.jobs j).ticket ∧ Settled s.final (s.jobs j)
  | _ => True

/-- Submissions are counted, and what is said about a slot is about its submission. -/
structure WaitOk (s : Sched cfg) : Prop where
  old : ∀ j, (s.jobs j).ticket < s.tickets
  apart : ∀ i j, (s.jobs i).ticket = (s.jobs j).ticket → i = j
  fresh : ∀ ticket, s.tickets ≤ ticket → s.final ticket = none
  jobs : ∀ j, JobOk s.final (s.jobs j)
  reports : ∀ j, s.pc.reports = some j → Settled s.final (s.jobs j)
  threads : ∀ t, ThreadOk s (s.threads t)
  returns : WaitsHonest s

theorem JobState.ended_not_active {st : JobState} (h : st.ended = true) : st.active = false := by
  cases st <;> simp_all [ended, active]

theorem JobOk.settled (h : JobOk final job) (ho : job.state.ended = true) : Settled final job :=
  ⟨JobState.ended_not_active ho, h.ended ho⟩

theorem ThreadOk.of_not_waits {x : Thread cfg} (h : x.waits = false) : ThreadOk s x := by
  cases x <;> trivial

theorem ThreadOk.of_slots {x : Thread cfg} (h : ThreadOk s x)
    (ht : ∀ j, (s'.jobs j).ticket = (s.jobs j).ticket)
    (hs : ∀ j, Settled s.final (s.jobs j) → Settled s'.final (s'.jobs j)) : ThreadOk s' x := by
  cases x with
  | toTake j ticket => exact Eq.trans h (ht j).symm
  | pending j ticket => exact Eq.trans h (ht j).symm
  | errorSeen j ticket => exact ⟨h.1.trans (ht j).symm, hs j h.2⟩
  | taken j ticket => exact ⟨h.1.trans (ht j).symm, hs j h.2⟩
  | gaveBack j ticket => exact ⟨h.1.trans (ht j).symm, hs j h.2⟩
  | resultRead j ticket => exact ⟨h.1.trans (ht j).symm, hs j h.2⟩
  | _ => trivial

-- ---------------------------------------------------------------------------
-- Steps that end no job
-- ---------------------------------------------------------------------------

/-- The slot holds the same submission, and is in the same state as far as a wait
can tell. -/
structure SameRun (job job' : Job) : Prop where
  ticket : job'.ticket = job.ticket
  result : job'.result = job.result
  active : job'.state.active = job.state.active
  ended : job'.state.ended = true → job'.state = job.state

theorem SameRun.refl (job : Job) : SameRun job job := ⟨rfl, rfl, rfl, fun _ => rfl⟩

theorem SameRun.settled (h : SameRun job job') : Settled final job' ↔ Settled final job := by
  unfold Settled
  rw [h.ticket, h.result, h.active]

theorem SameRun.jobOk (h : SameRun job job') (hj : JobOk final job)
    (ht : job'.done = true → Settled final job) : JobOk final job' where
  live := by rw [h.active, h.ticket]; exact hj.live
  ended ho := by
    rw [h.ticket, h.result]
    exact hj.ended (by rw [← h.ended ho]; exact ho)
  succeeded hd := by
    rw [h.result]
    exact hj.succeeded (by rw [← h.ended (by rw [hd]; rfl)]; exact hd)
  cancelled hc := by
    rw [h.result]
    exact hj.cancelled (by rw [← h.ended (by rw [hc]; rfl)]; exact hc)
  token hd := h.settled.mpr (ht hd)

/-- No submission is let in and none ends. -/
theorem WaitOk.of_same (h : WaitOk s) (htk : s'.tickets = s.tickets) (hf : s'.final = s.final)
    (hj : ∀ j, SameRun (s.jobs j) (s'.jobs j))
    (hd : ∀ j, (s'.jobs j).done = true → Settled s.final (s.jobs j))
    (hp : ∀ j, s'.pc.reports = some j → s.pc.reports = some j)
    (hth : ∀ t, ThreadOk s (s'.threads t))
    (hr : WaitsHonest { s with returns := s'.returns }) : WaitOk s' where
  old j := by rw [(hj j).ticket, htk]; exact h.old j
  apart i j := by rw [(hj i).ticket, (hj j).ticket]; exact h.apart i j
  fresh ticket := by rw [htk, hf]; exact h.fresh ticket
  jobs j := by rw [hf]; exact (hj j).jobOk (h.jobs j) (hd j)
  reports j hr := by rw [hf]; exact (hj j).settled.mpr (h.reports j (hp j hr))
  threads t := (hth t).of_slots (fun j => (hj j).ticket)
    fun j hs => by rw [hf]; exact (hj j).settled.mpr hs
  returns r hm hv := by rw [hf]; exact hr r hm hv

theorem WaitOk.of_quiet (h : WaitOk s) (hq : Quiet s s') : WaitOk s' := by
  have hjobs := hq.same.jobs
  refine h.of_same hq.tickets hq.final (fun j => ?_) (fun j hd => ?_) (fun j hp => ?_)
    (fun t => ?_) ?_
  · rw [hjobs]
    exact .refl _
  · rw [hjobs] at hd
    exact (h.jobs j).token hd
  · rw [← hq.same.pc]
    exact hp
  · rcases hq.threads t with he | hw
    · rw [he]
      exact h.threads t
    · exact .of_not_waits hw
  · rw [hq.returns]
    exact h.returns

/-- A step of the scheduler thread on its job. -/
theorem WaitOk.of_job (h : WaitOk s) (hj : s'.jobs = Function.update s.jobs j x)
    (hx : SameRun (s.jobs j) x) (hd : x.done = true → Settled s.final (s.jobs j))
    (hth : s'.threads = s.threads) (hr : s'.returns = s.returns)
    (htk : s'.tickets = s.tickets) (hf : s'.final = s.final)
    (hp : ∀ j, s'.pc.reports = some j → s.pc.reports = some j) : WaitOk s' := by
  refine h.of_same htk hf (fun i => ?_) (fun i hi => ?_) hp (fun t => ?_) ?_
  · rw [hj, Function.update_apply]
    split
    · rename_i he
      rw [he]
      exact hx
    · exact .refl _
  · rw [hj, Function.update_apply] at hi
    split at hi
    · rename_i he
      rw [he]
      exact hd hi
    · exact (h.jobs i).token hi
  · rw [hth]
    exact h.threads t
  · rw [hr]
    exact h.returns

/-- A step that changes no job. -/
theorem WaitOk.of_jobs (h : WaitOk s) (hj : s'.jobs = s.jobs)
    (hth : ∀ t, ThreadOk s (s'.threads t)) (hr : WaitsHonest { s with returns := s'.returns })
    (htk : s'.tickets = s.tickets) (hf : s'.final = s.final)
    (hp : ∀ j, s'.pc.reports = some j → s.pc.reports = some j) : WaitOk s' := by
  refine h.of_same htk hf (fun j => ?_) (fun j hd => ?_) hp hth hr
  · rw [hj]
    exact .refl _
  · rw [hj] at hd
    exact (h.jobs j).token hd

-- ---------------------------------------------------------------------------
-- Steps that end jobs
-- ---------------------------------------------------------------------------

/-- The submission ends in this step. -/
structure Ends (final : Nat → Option Ret) (job job' : Job) : Prop where
  was : job.state.active = true
  ended : job'.state.ended = true
  ticket : job'.ticket = job.ticket
  known : final job.ticket = some job'.result
  succeeded : job'.state = .done → job'.result = 0
  cancelled : job'.state = .cancelled → job'.result = ecanceled

theorem Ends.jobOk (h : Ends final job job') : JobOk final job' where
  live ha := by rw [JobState.ended_not_active h.ended] at ha; cases ha
  ended _ := by rw [h.ticket]; exact h.known
  succeeded := h.succeeded
  cancelled := h.cancelled
  token _ := ⟨JobState.ended_not_active h.ended, by rw [h.ticket]; exact h.known⟩

/-- Some jobs end; the others stay, and so do the results that are known. -/
theorem WaitOk.of_ends (h : WaitOk s) (htk : s'.tickets = s.tickets)
    (hj : ∀ j, (SameRun (s.jobs j) (s'.jobs j) ∧ (s'.jobs j).done = (s.jobs j).done ∧
      s'.final (s.jobs j).ticket = s.final (s.jobs j).ticket) ∨
      Ends s'.final (s.jobs j) (s'.jobs j))
    (hf : ∀ ticket, (∀ j, (s.jobs j).state.active = true → (s.jobs j).ticket ≠ ticket) →
      s'.final ticket = s.final ticket)
    (hp : ∀ j, s'.pc.reports = some j → Settled s'.final (s'.jobs j))
    (hth : s'.threads = s.threads) (hr : s'.returns = s.returns) : WaitOk s' := by
  have hticket : ∀ j, (s'.jobs j).ticket = (s.jobs j).ticket := fun j => by
    rcases hj j with ⟨hs, -, -⟩ | he
    · exact hs.ticket
    · exact he.ticket
  have hsettled : ∀ j, Settled s.final (s.jobs j) → Settled s'.final (s'.jobs j) := by
    intro j hset
    rcases hj j with ⟨hs, -, hfj⟩ | he
    · refine ⟨?_, ?_⟩
      · rw [hs.active]
        exact hset.1
      · rw [hs.ticket, hs.result, hfj]
        exact hset.2
    · have hwas := he.was
      rw [hset.1] at hwas
      cases hwas
  refine ⟨fun j => ?_, fun i j => ?_, fun ticket hle => ?_, fun j => ?_, hp, fun t => ?_,
    fun r hm hv => ?_⟩
  · rw [hticket, htk]
    exact h.old j
  · rw [hticket, hticket]
    exact h.apart i j
  · rw [htk] at hle
    rw [hf ticket fun j _ he => absurd (h.old j) (by omega)]
    exact h.fresh ticket hle
  · rcases hj j with ⟨hs, hd, hfj⟩ | he
    · have hok : JobOk s'.final (s.jobs j) := by
        refine ⟨?_, ?_, (h.jobs j).succeeded, (h.jobs j).cancelled, fun hd' => ?_⟩
        · rw [hfj]
          exact (h.jobs j).live
        · rw [hfj]
          exact (h.jobs j).ended
        · exact ⟨((h.jobs j).token hd').1, by rw [hfj]; exact ((h.jobs j).token hd').2⟩
      exact hs.jobOk hok fun hd' => hok.token (by rw [← hd]; exact hd')
    · exact he.jobOk
  · rw [hth]
    exact (h.threads t).of_slots hticket hsettled
  · rw [hr] at hm
    have hfin := h.returns r hm hv
    rw [hf r.1 fun j ha he => ?_]
    · exact hfin
    · rw [← he, (h.jobs j).live ha] at hfin
      cases hfin

/-- One job ends. -/
theorem WaitOk.of_end (h : WaitOk s) (hj : s'.jobs = Function.update s.jobs j x)
    (hx : Ends s'.final (s.jobs j) x)
    (hf : s'.final = Function.update s.final (s.jobs j).ticket v)
    (hth : s'.threads = s.threads) (hr : s'.returns = s.returns)
    (htk : s'.tickets = s.tickets)
    (hp : ∀ i, s'.pc.reports = some i → i = j ∨ s.pc.reports = some i) : WaitOk s' := by
  have hself : s'.jobs j = x := by rw [hj]; exact Function.update_self ..
  have hother : ∀ i, i ≠ j → s'.jobs i = s.jobs i := fun i hi => by
    rw [hj]
    exact Function.update_of_ne hi _ _
  have hfin : ∀ i, i ≠ j → s'.final (s.jobs i).ticket = s.final (s.jobs i).ticket := by
    intro i hi
    rw [hf]
    exact Function.update_of_ne (fun he => hi (h.apart i j he)) _ _
  refine h.of_ends htk (fun i => ?_) (fun ticket hne => ?_) (fun i hi => ?_) hth hr
  · by_cases hi : i = j
    · subst hi
      rw [hself]
      exact .inr hx
    · rw [hother i hi]
      exact .inl ⟨.refl _, rfl, hfin i hi⟩
  · rw [hf]
    exact Function.update_of_ne (hne j hx.was).symm _ _
  · by_cases hij : i = j
    · subst hij
      rw [hself]
      exact ⟨JobState.ended_not_active hx.ended, by rw [hx.ticket]; exact hx.known⟩
    · have hset := h.reports i ((hp i hi).resolve_left hij)
      rw [hother i hij]
      exact ⟨hset.1, by rw [hfin i hij]; exact hset.2⟩

-- ---------------------------------------------------------------------------
-- The calling threads
-- ---------------------------------------------------------------------------

theorem ThreadOk.update (h : ∀ t, ThreadOk s (s.threads t)) {x : Thread cfg} (hx : ThreadOk s x)
    (t i : Fin cfg.threads) : ThreadOk s (Function.update s.threads t x i) := by
  rw [Function.update_apply]
  split
  · exact hx
  · exact h i

theorem WaitsHonest.append (h : WaitsHonest s) (ht : v ≠ eagain → s.final ticket = some v) :
    WaitsHonest { s with returns := s.returns ++ [(ticket, v)] } := by
  intro r hm hv
  rcases List.mem_append.mp hm with hm | hm
  · exact h r hm hv
  · rw [List.mem_singleton.mp hm] at hv ⊢
    exact ht hv

/-- A wait returns what its submission has come to. -/
theorem WaitOk.returned (h : WaitOk s) (t : Fin cfg.threads)
    (ht : v ≠ eagain → s.final ticket = some v) : WaitOk (s.returned t ticket v) :=
  h.of_jobs rfl (ThreadOk.update h.threads (x := .idle) trivial t) (h.returns.append ht) rfl rfl fun _ hp => hp

theorem WaitOk.setThread (h : WaitOk s) (t : Fin cfg.threads) (hx : ThreadOk s x) :
    WaitOk (s.setThread t x) :=
  h.of_jobs rfl (ThreadOk.update h.threads hx t) h.returns rfl rfl fun _ hp => hp

theorem waitOk_waitEnter (h : WaitOk s) (t : Fin cfg.threads) (n : Nat) : WaitOk (waitEnter t n s) := by
  unfold waitEnter
  split
  · rename_i j _ _
    split
    · rename_i hst
      refine h.returned t fun _ => ?_
      rw [(h.jobs j).ended (by rw [hst]; rfl), (h.jobs j).succeeded hst]
    · rename_i hst
      exact h.setThread t ⟨rfl, (h.jobs j).settled (by rw [hst]; rfl)⟩
    · rename_i hst
      refine h.returned t fun _ => ?_
      rw [(h.jobs j).ended (by rw [hst]; rfl), (h.jobs j).cancelled hst]
    · exact h.setThread t rfl
  · exact h

theorem waitOk_waitTimeout (h : WaitOk s) (t : Fin cfg.threads) : WaitOk (waitTimeout t s) := by
  unfold waitTimeout
  split
  · exact h.returned t fun hv => absurd rfl hv
  · exact h

/-- The token is taken from the semaphore of a slot, or put back. -/
theorem WaitOk.setDone (h : WaitOk s) (t : Fin cfg.threads) (j : Fin cfg.jobs) (b : Bool)
    (hs : Settled s.final (s.jobs j)) (hx : ThreadOk s x) :
    WaitOk ((s.setJob j fun job => { job with done := b }).setThread t x) := by
  have hjob : WaitOk (s.setJob j fun job => { job with done := b }) :=
    h.of_job rfl ⟨rfl, rfl, rfl, fun _ => rfl⟩ (fun _ => hs) rfl rfl rfl rfl fun _ hp => hp
  refine hjob.setThread t (hx.of_slots (fun i => ?_) fun i hi => ?_)
  · rw [Sched.setJob_jobs]
    split
    · rename_i he
      rw [he]
    · rfl
  · rw [Sched.setJob_jobs]
    split
    · exact hs
    · exact hi

theorem waitOk_waitStep (h : WaitOk s) (t : Fin cfg.threads) : WaitOk (waitStep t s) := by
  have hth := h.threads t
  have htake : ∀ (j : Fin cfg.jobs) (ticket : Nat), ticket = (s.jobs j).ticket →
      (s.jobs j).done = true →
      WaitOk ((s.setJob j fun job => { job with done := false }).setThread t (.taken j ticket)) :=
    fun j ticket he hd => h.setDone t j false ((h.jobs j).token hd) ⟨he, (h.jobs j).token hd⟩
  unfold waitStep
  split
  · rename_i j ticket ht
    rw [ht] at hth
    refine h.returned t fun _ => ?_
    rw [hth.1]
    exact hth.2.2
  · rename_i j ticket ht
    rw [ht] at hth
    split
    · rename_i hd
      exact htake j ticket hth hd
    · exact h.setThread t hth
  · rename_i j ticket ht
    rw [ht] at hth
    split
    · rename_i hd
      exact htake j ticket hth hd
    · exact h
  · rename_i j ticket ht
    rw [ht] at hth
    exact h.setDone t j true hth.2 ⟨hth.1, hth.2⟩
  · rename_i j ticket ht
    rw [ht] at hth
    split
    · rename_i hst
      refine h.returned t fun _ => ?_
      rw [hth.1, hth.2.2, (h.jobs j).cancelled hst]
    · exact h.setThread t hth
  · rename_i j ticket ht
    rw [ht] at hth
    refine h.returned t fun _ => ?_
    rw [hth.1]
    exact hth.2.2
  · exact h

theorem waitOk_getResult (h : WaitOk s) (n : Nat) : WaitOk (getResult n s) := by
  have hfree : ∀ j : Fin cfg.jobs, (s.jobs j).state.active = false →
      WaitOk (s.setJob j fun job => { job with state := .free }) := fun j hst =>
    h.of_job rfl ⟨rfl, rfl, hst.symm, fun ho => nomatch ho⟩ (fun hd => (h.jobs j).token hd)
      rfl rfl rfl rfl fun _ hp => hp
  unfold getResult
  split
  · exact h
  · rename_i j _
    split
    · rename_i hst
      exact hfree j (by rw [hst]; rfl)
    · rename_i hst
      exact hfree j (by rw [hst]; rfl)
    · rename_i hst
      exact hfree j (by rw [hst]; rfl)
    · exact h

theorem waitOk_cancelJob (h : WaitOk s) (j : Fin cfg.jobs) (ha : (s.jobs j).state.active = true) :
    WaitOk (cancelJob s j) :=
  h.of_end (j := j) rfl
    ⟨ha, rfl, rfl, Function.update_self .., fun hd => (nomatch hd), fun _ => rfl⟩
    rfl rfl rfl rfl fun _ hp => .inr hp

theorem waitOk_cancel (h : WaitOk s) (n : Nat) : WaitOk (cancel n s) := by
  unfold cancel
  split
  · exact h
  · rename_i j _
    split
    · rename_i hst
      exact waitOk_cancelJob h j (by rw [hst]; rfl)
    · rename_i hst
      have hd : WaitOk (dropCtx s j) :=
        h.of_job rfl ⟨rfl, rfl, rfl, fun _ => rfl⟩ (fun hd => (h.jobs j).token hd)
          rfl rfl rfl rfl fun _ hp => hp
      refine waitOk_cancelJob hd j ?_
      have hj : (dropCtx s j).jobs j = { s.jobs j with ctxSlot := none } := Function.update_self ..
      rw [hj]
      exact congrArg JobState.active hst
    · exact h

theorem waitOk_destroyPipe (h : WaitOk s) (p : Fin maxPipelines) : WaitOk (destroyPipe p s) := by
  have hsettles : ∀ ticket, destroySettles p s ticket = true ↔
      ∃ j, (s.jobs j).ticket = ticket ∧ (s.jobs j).doomed p := by
    intro ticket
    simp [destroySettles, Job.doomed]
  have hfinal : ∀ j, ¬(s.jobs j).doomed p →
      (destroyPipe p s).final (s.jobs j).ticket = s.final (s.jobs j).ticket := by
    intro j hd
    refine if_neg fun hs => ?_
    obtain ⟨i, hi, hdi⟩ := (hsettles _).mp hs
    rw [h.apart i j hi] at hdi
    exact hd hdi
  have hjob : ∀ j, ¬(s.jobs j).doomed p → (destroyPipe p s).jobs j = { s.jobs j with
      ctxSlot := if (s.jobs j).state = .suspended then none else (s.jobs j).ctxSlot } :=
    fun j hd => destroyJob_of_not_doomed hd
  have hactive : ∀ j, (s.jobs j).doomed p → (s.jobs j).state.active = true := by
    intro j hd
    rcases hd.1 with hst | hst <;> rw [hst] <;> rfl
  refine h.of_ends rfl (fun j => ?_) (fun ticket hne => ?_) (fun j hp => ?_) rfl rfl
  · by_cases hd : (s.jobs j).doomed p
    · refine .inr ?_
      have hj : (destroyPipe p s).jobs j = _ := destroyJob_of_doomed hd
      rw [hj]
      exact ⟨hactive j hd, rfl, rfl, if_pos ((hsettles _).mpr ⟨j, rfl, hd⟩),
        fun he => (nomatch he), fun _ => rfl⟩
    · refine .inl ⟨?_, ?_, hfinal j hd⟩
      · rw [hjob j hd]
        exact ⟨rfl, rfl, rfl, fun _ => rfl⟩
      · rw [hjob j hd]
  · refine if_neg fun hs => ?_
    obtain ⟨j, hj, hd⟩ := (hsettles _).mp hs
    exact hne j (hactive j hd) hj
  · have hset := h.reports j hp
    have hd : ¬(s.jobs j).doomed p := fun hd => by
      have := hactive j hd
      rw [hset.1] at this
      cases this
    refine ⟨?_, ?_⟩
    · rw [hjob j hd]
      exact hset.1
    · rw [hjob j hd]
      exact (hfinal j hd).trans hset.2

-- ---------------------------------------------------------------------------
-- Submissions
-- ---------------------------------------------------------------------------

/-- A submission takes a slot that nobody looks at. -/
theorem waitOk_submitJob (h : WaitOk s) (j : Fin cfg.jobs) (p : Fin maxPipelines)
    (params : Params) (now : Nat) (hp : s.pc.reports ≠ some j)
    (hth : ∀ u, (s.threads u).looks ≠ some j) : WaitOk (submitJob s j p params now) := by
  have hself : (submitJob s j p params now).jobs j = _ := Function.update_self ..
  have hother : ∀ i, i ≠ j → (submitJob s j p params now).jobs i = s.jobs i :=
    fun i hi => Function.update_of_ne hi _ _
  have hold : ∀ i, i ≠ j → (s.jobs i).ticket ≠ s.tickets := fun i _ he =>
    absurd (h.old i) (by omega)
  refine ⟨fun i => ?_, fun i k => ?_, fun ticket hle => ?_, fun i => ?_, fun i hi => ?_,
    fun u => ?_, h.returns⟩
  · show _ < s.tickets + 1
    by_cases hi : i = j
    · rw [hi, hself]
      exact Nat.lt_succ_self _
    · rw [hother i hi]
      exact Nat.lt_succ_of_lt (h.old i)
  · intro he
    by_cases hi : i = j <;> by_cases hk : k = j
    · rw [hi, hk]
    · rw [hi, hself, hother k hk] at he
      exact absurd he.symm (hold k hk)
    · rw [hk, hself, hother i hi] at he
      exact absurd he (hold i hi)
    · rw [hother i hi, hother k hk] at he
      exact h.apart i k he
  · exact h.fresh ticket (Nat.le_of_succ_le hle)
  · by_cases hi : i = j
    · rw [hi, hself]
      exact ⟨fun _ => h.fresh _ (Nat.le_refl _), fun ho => (nomatch ho), fun hd => (nomatch hd),
        fun hc => (nomatch hc), fun hd => (nomatch hd)⟩
    · rw [hother i hi]
      exact h.jobs i
  · have hij : i ≠ j := fun he => hp (by rw [← he]; exact hi)
    rw [hother i hij]
    exact h.reports i hi
  · -- the threads that look at another slot see what they saw
    have hu := h.threads u
    have hl := hth u
    show ThreadOk _ (abort j (s.threads u))
    have hlook : ∀ i, (s.threads u).looks = some i →
        (submitJob s j p params now).jobs i = s.jobs i :=
      fun i hi => hother i fun he => hl (by rw [hi, he])
    generalize s.threads u = x at hu hlook ⊢
    cases x with
    | errorSeen i ticket => exact ⟨by rw [hlook i rfl]; exact hu.1, by rw [hlook i rfl]; exact hu.2⟩
    | toTake i ticket =>
      show ticket = _
      rw [hlook i rfl]
      exact hu
    | pending i ticket =>
      show ThreadOk _ (if i = j then .idle else .pending i ticket)
      split
      · trivial
      · rename_i hij
        show ticket = _
        rw [hother i hij]
        exact hu
    | taken i ticket => exact ⟨by rw [hlook i rfl]; exact hu.1, by rw [hlook i rfl]; exact hu.2⟩
    | gaveBack i ticket => exact ⟨by rw [hlook i rfl]; exact hu.1, by rw [hlook i rfl]; exact hu.2⟩
    | resultRead i ticket =>
      exact ⟨by rw [hlook i rfl]; exact hu.1, by rw [hlook i rfl]; exact hu.2⟩
    | _ => trivial

theorem waitOk_submitLock (h : WaitOk s) (t : Fin cfg.threads) (now : Nat)
    (hs : WaitSafe s (.submitLock t now)) : WaitOk (submitLock t now s) := by
  unfold submitLock
  split
  · rename_i p params ht
    split
    · exact h.setThread t (x := .idle) trivial
    · rename_i j hf
      obtain ⟨hp, hth⟩ := hs (by rw [ht]; rfl) j hf
      have hsub := waitOk_submitJob h j p params now hp hth
      have hidle := hsub.setThread t (x := .idle) trivial
      exact hidle.of_jobs rfl hidle.threads hidle.returns rfl rfl fun _ hp => hp
  · exact h

-- ---------------------------------------------------------------------------
-- The scheduler thread
-- ---------------------------------------------------------------------------

theorem waitOk_dispatch (h : WaitOk s) : WaitOk (dispatch s) := by
  unfold dispatch
  split
  · rename_i hp
    dsimp only
    have hw : WaitOk { s with wakes := s.wakes - 1 } :=
      h.of_jobs rfl h.threads h.returns rfl rfl fun _ hp => hp
    split
    · exact hw.of_jobs rfl hw.threads hw.returns rfl rfl fun _ hp => hp
    · split
      · exact hw
      · rename_i j hj
        refine hw.of_job (j := j) rfl ⟨rfl, rfl, ?_, fun ho => nomatch ho⟩
          (fun hd => (hw.jobs j).token hd) rfl rfl rfl rfl fun _ hp => nomatch hp
        rcases pickNextJob_runnable hj with hst | hst <;> rw [hst] <;> rfl
  · exact h

/-- A step that moves the scheduler thread on. -/
theorem WaitOk.of_pc (h : WaitOk s) (hj : s'.jobs = s.jobs) (hth : s'.threads = s.threads)
    (hr : s'.returns = s.returns) (htk : s'.tickets = s.tickets) (hf : s'.final = s.final)
    (hp : s'.pc.reports = none) : WaitOk s' :=
  h.of_jobs hj (fun t => by rw [hth]; exact h.threads t) (by rw [hr]; exact h.returns) htk hf
    fun j he => by rw [hp] at he; cases he

/-- A step in which the running job notes where it is. -/
theorem WaitOk.of_note (h : WaitOk s) (hj : s'.jobs = Function.update s.jobs j x)
    (hx : x.ticket = (s.jobs j).ticket ∧ x.result = (s.jobs j).result ∧
      x.state = (s.jobs j).state ∧ x.done = (s.jobs j).done)
    (hth : s'.threads = s.threads) (hr : s'.returns = s.returns)
    (htk : s'.tickets = s.tickets) (hf : s'.final = s.final) (hp : s'.pc.reports = none) :
    WaitOk s' := by
  obtain ⟨hticket, hresult, hstate, hdone⟩ := hx
  refine h.of_job hj ⟨hticket, hresult, by rw [hstate], fun _ => hstate⟩
    (fun hd => (h.jobs j).token (by rw [← hdone]; exact hd)) hth hr htk hf fun i he => ?_
  rw [hp] at he
  cases he

theorem waitOk_endModel (h : WaitOk s) (j : Fin cfg.jobs) (i : Nat) (res : Ret) :
    WaitOk (endModel s j i res) := by
  unfold endModel
  split
  · exact h.of_pc rfl rfl rfl rfl rfl rfl
  · split
    · exact h.of_note rfl ⟨rfl, rfl, rfl, rfl⟩ rfl rfl rfl rfl rfl
    · exact h.of_pc rfl rfl rfl rfl rfl rfl

theorem waitOk_runStage (h : WaitOk s) (j : Fin cfg.jobs) (i : Nat) (res : Ret)
    (layers : Option Nat) : WaitOk (runStage s j i res layers) := by
  unfold runStage
  dsimp only
  split
  · exact h.of_pc rfl rfl rfl rfl rfl rfl
  · split
    · unfold resume
      dsimp only
      split
      · exact h.of_note rfl ⟨rfl, rfl, rfl, rfl⟩ rfl rfl rfl rfl rfl
      · split
        · exact h.of_note rfl ⟨rfl, rfl, rfl, rfl⟩ rfl rfl rfl rfl rfl
        · have h' : WaitOk { s.setJob j fun job => { job with resuming := false } with
              pc := .layer j i } := h.of_note rfl ⟨rfl, rfl, rfl, rfl⟩ rfl rfl rfl rfl rfl
          exact h'.of_note rfl ⟨rfl, rfl, rfl, rfl⟩ rfl rfl rfl rfl rfl
    · split
      · exact waitOk_endModel h j i _
      · exact waitOk_endModel h j i _
      · exact h.of_pc rfl rfl rfl rfl rfl rfl
  · split <;> exact h.of_pc rfl rfl rfl rfl rfl rfl

theorem waitOk_runLayer (h : WaitOk s) (hp : s.pc.reports = none) (j : Fin cfg.jobs) (i : Nat)
    (res : Ret) : WaitOk (runLayer s j i res) := by
  unfold runLayer
  split
  · exact waitOk_endModel h j i _
  · refine waitOk_endModel ?_ j i _
    exact h.of_pc rfl rfl rfl rfl rfl hp
  · split
    · split <;> exact h.of_pc rfl rfl rfl rfl rfl rfl
    · exact h.of_pc rfl rfl rfl rfl rfl rfl

theorem waitOk_settle (h : WaitOk s) (j : Fin cfg.jobs) (ret : Ret)
    (hr : (s.jobs j).state = .running) : WaitOk (settle s j ret) := by
  have ha : (s.jobs j).state.active = true := by rw [hr]; rfl
  unfold settle
  split
  · refine h.of_job (j := j) rfl ⟨rfl, rfl, ha.symm, fun ho => nomatch ho⟩
      (fun hd => (h.jobs j).token hd) rfl rfl rfl rfl fun _ hp => nomatch hp
  · refine h.of_end (j := j) rfl ⟨ha, ?_, rfl, Function.update_self .., fun hd => ?_, fun hc => ?_⟩
      rfl rfl rfl rfl fun i hi => .inl (Option.some.inj hi).symm
    · dsimp only
      split <;> rfl
    · dsimp only at hd ⊢
      split at hd
      · assumption
      · cases hd
    · dsimp only at hc
      split at hc <;> cases hc

theorem waitOk_schedule (h : WaitOk s) (hr : RunningOk s) (res : Ret) (layers : Option Nat) :
    WaitOk (schedule res layers s) := by
  unfold schedule
  split
  · exact h
  · unfold enterPipeline
    dsimp only
    repeat' split
    all_goals exact h.of_pc rfl rfl rfl rfl rfl rfl
  · exact waitOk_runStage h _ _ res layers
  · rename_i hp
    exact waitOk_runLayer h (by rw [hp]; rfl) _ _ res
  · exact h.of_note rfl ⟨rfl, rfl, rfl, rfl⟩ rfl rfl rfl rfl rfl
  · rename_i hp
    exact waitOk_settle h _ _ ((hr _).mpr (by rw [hp]; rfl))
  · exact h.of_pc rfl rfl rfl rfl rfl rfl
  · rename_i j d hp
    refine h.of_jobs rfl h.threads h.returns rfl rfl fun i hi => ?_
    rw [hp]
    exact hi
  · rename_i j hp
    exact h.of_job (j := j) rfl ⟨rfl, rfl, rfl, fun _ => rfl⟩
      (fun _ => h.reports j (by rw [hp]; rfl)) rfl rfl rfl rfl fun _ hi => nomatch hi

-- ---------------------------------------------------------------------------
-- Runs
-- ---------------------------------------------------------------------------

theorem waitOk_step (h : WaitOk s) (hr : RunningOk s) (o : Op cfg) (hs : WaitSafe s o) :
    WaitOk (step s o) := by
  cases o with
  | destroyLock t =>
    unfold step destroyLock
    dsimp only
    split
    · exact (waitOk_destroyPipe h _).setThread t (x := .idle) trivial
    · exact h
  | submitLock t now => exact waitOk_submitLock h t now hs
  | cancel n => exact waitOk_cancel h n
  | getResult n => exact waitOk_getResult h n
  | waitEnter t n => exact waitOk_waitEnter h t n
  | waitStep t => exact waitOk_waitStep h t
  | waitTimeout t => exact waitOk_waitTimeout h t
  | dispatch => exact waitOk_dispatch h
  | schedule res layers => exact waitOk_schedule h hr res layers
  | create | addEnter | addWrite | buildEnter | buildWrite | destroyEnter | submitEnter
  | setMaxConcurrent => exact h.of_quiet (quiet_of_builder s _ rfl)
  | _ => exact h.of_quiet (quiet_of_registry s _ rfl)

theorem WaitOk.init : WaitOk (Sched.init cfg) where
  old j := j.isLt
  apart _ _ h := Fin.ext h
  fresh _ _ := rfl
  jobs _ := ⟨fun h => (nomatch h), fun h => (nomatch h), fun h => (nomatch h),
    fun h => (nomatch h), fun h => (nomatch h)⟩
  reports _ h := nomatch h
  threads _ := trivial
  returns _ h := nomatch h

/-- A wait returns only the result of its own job. -/
theorem wait_own_result (ops : List (Op cfg)) (h : Along step WaitSafe (Sched.init cfg) ops) :
    WaitsHonest (run step (Sched.init cfg) ops) :=
  (h.invariant (I := fun s => WaitOk s ∧ RunningOk s) ⟨WaitOk.init, RunningOk.init⟩
    fun _ o hi hs => ⟨waitOk_step hi.1 hi.2 o hs, runningOk_step hi.2 o⟩).1.returns

/-- One job, and the thread that submitted it waits for it; then a second one. -/
def waitOps : List (Op twoJobs) :=
  modelOps 7 1 ++ pipeOps 0 1 ++ submitOps 0 ⟨0, 0, false⟩ ++
    [.waitEnter 1 1, .waitStep 1, .dispatch] ++ scheduleOps 6 0 ++
    List.replicate 4 (.waitStep 1) ++ [.getResult 1] ++ submitOps 0 ⟨0, 0, false⟩

theorem wait_own_result_reuse : WaitsHonest (run step (Sched.init twoJobs) waitOps) :=
  wait_own_result _ (by decide +kernel)

/-- A job is complete, and its callback runs. Its result is taken, and the next
submission gets its slot; then the callback ends. -/
def staleTokenOps : List (Op twoJobs) :=
  modelOps 7 1 ++ pipeOps 0 1 ++ submitOps 0 ⟨0, 0, false⟩ ++ .dispatch :: scheduleOps 5 0 ++
    .getResult 1 :: submitOps 0 ⟨0, 0, false⟩ ++ scheduleOps 1 0 ++ .waitEnter 1 2 ::
    List.replicate 4 (.waitStep 1)

theorem stale_token : ¬WaitsHonest (run step (Sched.init twoJobs) staleTokenOps) := by
  intro h
  have hr := h (3, einprogress) (by decide +kernel) (by decide)
  revert hr
  decide +kernel

end SynapticOS.Infer
