import SynapticOS.Infer.Accounting

/-!
# Deadlines on the cycle counter

The scheduler thread measures how long a job took on a 32-bit cycle counter and
compares microseconds with the deadline. Here the scheduler's books are run in
time: cycles pass between the operations. A miss is counted only for a job that
is late, and for each late one whose cycles modulo 2^32 still exceed the deadline
(`misses_counted`).
-/

namespace SynapticOS.Infer

open Lib

variable {cfg : Cfg}

-- ---------------------------------------------------------------------------
-- The clock
-- ---------------------------------------------------------------------------

/-- Cycles in microseconds, rounded up. -/
def ceilUs (freq cycles : Nat) : Nat := (cycles * 10 ^ 6 + freq - 1) / freq

/-- The cycle counter's frequency, and its conversion to 32-bit microseconds. -/
structure Clock where
  freq : Nat
  freq_pos : 0 < freq
  /-- `k_cyc_to_us_ceil32`. -/
  cycToUs : UInt32 → UInt32
  cycToUs_eq : ∀ c, (cycToUs c).toNat = ceilUs freq c.toNat % 2 ^ 32

/-- `k_cycle_get_32`, `now` cycles after boot. -/
def cycleGet (now : Nat) : UInt32 := UInt32.ofNat now

/-- A job that was executed to its end. -/
structure Finish where
  ticket : Nat
  deadline : Nat
  submitted : Nat
  completed : Nat
  deriving DecidableEq, Repr

namespace Finish

def cycles (f : Finish) : Nat := f.completed - f.submitted

/-- It has a deadline, and took longer. -/
def Late (c : Clock) (f : Finish) : Prop := f.deadline ≠ 0 ∧ f.deadline * c.freq < f.cycles * 10 ^ 6

/-- What the scheduler thread finds. -/
def Counted (c : Clock) (f : Finish) : Prop :=
  f.deadline ≠ 0 ∧ f.deadline < (c.cycToUs (cycleGet f.cycles)).toNat

instance (c : Clock) (f : Finish) : Decidable (f.Late c) := by unfold Late; infer_instance
instance (c : Clock) (f : Finish) : Decidable (f.Counted c) := by unfold Counted; infer_instance

/-- The job is on time, or what is left of its cycles modulo 2^32, and of these
microseconds modulo 2^32, is beyond the deadline too. -/
def Told (c : Clock) (f : Finish) : Prop :=
  f.cycles * 10 ^ 6 ≤ f.deadline * c.freq ∨
    f.deadline < ceilUs c.freq (f.cycles % 2 ^ 32) % 2 ^ 32

end Finish

-- ---------------------------------------------------------------------------
-- The books in time
-- ---------------------------------------------------------------------------

structure Timed (cfg : Cfg) where
  books : Books cfg
  /-- Cycles since boot. -/
  now : Nat
  /-- `start_cyc` of each submission, and when it was. -/
  startCyc : Nat → UInt32
  submitted : Nat → Nat
  finished : List Finish
  /-- The jobs for which `stats.deadline_misses` went up. -/
  missed : List Nat

def Timed.init (cfg : Cfg) : Timed cfg :=
  { books := .init cfg, now := 0, startCyc := fun _ => 0, submitted := fun _ => 0
    finished := [], missed := [] }

/-- `elapsed_us` of the job that ends. -/
def Timed.elapsed (c : Clock) (t : Timed cfg) (now : Nat) : Deed cfg → Nat
  | .settle j _ => (c.cycToUs (cycleGet now - t.startCyc (t.books.sched.jobs j).ticket)).toNat
  | _ => 0

/-- An operation, some cycles after the one before. -/
def Timed.step (c : Clock) (t : Timed cfg) (a : Act cfg × Nat) : Timed cfg :=
  let s := t.books.sched
  let now := t.now + a.2
  let d := deed s a.1.op
  let books := t.books.step { a.1 with elapsed := t.elapsed c now d }
  match d with
  | .submit _ =>
    { t with
      books := books, now := now
      startCyc := Function.update t.startCyc s.tickets (cycleGet now)
      submitted := Function.update t.submitted s.tickets now }
  | .settle j ret =>
    let job := s.jobs j
    { t with
      books := books, now := now
      finished := if ret = eintr then t.finished
        else t.finished ++ [⟨job.ticket, job.params.deadlineUs, t.submitted job.ticket, now⟩]
      missed := if books.stats.deadlineMisses = t.books.stats.deadlineMisses then t.missed
        else t.missed ++ [job.ticket] }
  | _ => { t with books := books, now := now }

-- ---------------------------------------------------------------------------
-- Time
-- ---------------------------------------------------------------------------

section
variable {c : Clock} {f : Finish}

theorem lt_ceilUs {freq d x : Nat} (h : 0 < freq) : d < ceilUs freq x ↔ d * freq < x * 10 ^ 6 := by
  unfold ceilUs
  rw [Nat.lt_iff_add_one_le, Nat.le_div_iff_mul_le h, Nat.add_mul, Nat.one_mul]
  omega

theorem ceilUs_mono {freq x y : Nat} (h : x ≤ y) : ceilUs freq x ≤ ceilUs freq y :=
  Nat.div_le_div_right (by have := Nat.mul_le_mul_right (10 ^ 6) h; omega)

/-- The counter measures a distance in time modulo 2^32. -/
theorem cycleGet_sub {now start : Nat} (h : start ≤ now) :
    cycleGet now - cycleGet start = cycleGet (now - start) := by
  obtain ⟨d, rfl⟩ := Nat.exists_eq_add_of_le h
  rw [Nat.add_sub_cancel_left]
  unfold cycleGet
  rw [Nat.add_comm, UInt32.ofNat_add]
  exact UInt32.add_sub_cancel _ _

theorem counted_iff : f.Counted c ↔
    f.deadline ≠ 0 ∧ f.deadline < ceilUs c.freq (f.cycles % 2 ^ 32) % 2 ^ 32 := by
  unfold Finish.Counted
  rw [c.cycToUs_eq]
  unfold cycleGet
  rw [UInt32.toNat_ofNat']

/-- No job that is on time is counted. -/
theorem Finish.Counted.late (h : f.Counted c) : f.Late c := by
  obtain ⟨hne, hlt⟩ := counted_iff.mp h
  refine ⟨hne, (lt_ceilUs c.freq_pos).mp (hlt.trans_le ?_)⟩
  exact (Nat.mod_le _ _).trans (ceilUs_mono (Nat.mod_le _ _))

theorem counted_iff_late : (f.deadline ≠ 0 → (f.Counted c ↔ f.Late c)) ↔
    (f.deadline ≠ 0 → f.Told c) := by
  refine forall_congr' fun hne => ⟨fun h => ?_, fun h => ⟨fun hc => hc.late, fun hl => ?_⟩⟩
  · by_cases hl : f.Late c
    · exact .inr (counted_iff.mp (h.mpr hl)).2
    · exact .inl (Nat.not_lt.mp fun hlt => hl ⟨hne, hlt⟩)
  · rcases h with h | h
    · exact absurd hl.2 (Nat.not_lt.mpr h)
    · exact counted_iff.mpr ⟨hne, h⟩

end

-- ---------------------------------------------------------------------------
-- Steps
-- ---------------------------------------------------------------------------

/-- How an operation moves the counter of misses. -/
theorem count_misses (s : Sched cfg) (elapsed : Nat) (x : Stats) (d : Deed cfg) :
    (x.count s elapsed d).deadlineMisses =
      match d with
      | .settle j ret =>
        if ret ≠ eintr ∧ (s.jobs j).params.deadlineUs ≠ 0 ∧ (s.jobs j).params.deadlineUs < elapsed
        then x.deadlineMisses + 1 else x.deadlineMisses
      | _ => x.deadlineMisses := by
  cases d with
  | settle j ret =>
    unfold Stats.count
    by_cases he : ret = eintr
    · simp [he]
    · by_cases h0 : ret = 0
      · rw [h0] at he ⊢
        by_cases hl : (s.jobs j).params.deadlineUs ≠ 0 ∧ (s.jobs j).params.deadlineUs < elapsed
        · simp [he, hl]
        · simp [he, hl]
      · by_cases hl : (s.jobs j).params.deadlineUs ≠ 0 ∧ (s.jobs j).params.deadlineUs < elapsed
        · simp [he, h0, hl]
        · simp [he, h0, hl]
  | pick j =>
    unfold Stats.count
    dsimp only
    split <;> rfl
  | _ => rfl

theorem succ_ne_self (x : UInt32) : x + 1 ≠ x := by
  intro h
  have := congrArg UInt32.toNat h
  have hx := x.toNat_lt
  rw [UInt32.toNat_add, show UInt32.toNat 1 = 1 from rfl] at this
  omega

structure Timed.Ok (c : Clock) (t : Timed cfg) : Prop where
  running : RunningOk t.books.sched
  old : ∀ j, (t.books.sched.jobs j).ticket < t.books.sched.tickets
  apart : ∀ i j, (t.books.sched.jobs i).ticket = (t.books.sched.jobs j).ticket → i = j
  start : ∀ k, t.startCyc k = cycleGet (t.submitted k) ∧ t.submitted k ≤ t.now
  once : (t.finished.map Finish.ticket).Nodup
  past : ∀ f ∈ t.finished, f.ticket < t.books.sched.tickets ∧
    ∀ j, (t.books.sched.jobs j).ticket = f.ticket → (t.books.sched.jobs j).state.active = false
  noted : ∀ e ∈ t.books.endings, e.2 = .cancelled ∨ ∃ f ∈ t.finished, f.ticket = e.1
  of_finished : ∀ k ∈ t.missed, ∃ f ∈ t.finished, f.ticket = k
  counted : ∀ f ∈ t.finished, t.missed.count f.ticket = (decide (f.Counted c)).toNat
  misses : t.books.stats.deadlineMisses = UInt32.ofNat t.missed.length

section
variable {c : Clock} {t : Timed cfg}

theorem Timed.Ok.init (c : Clock) : (Timed.init cfg).Ok c where
  running := .init
  old j := j.isLt
  apart _ _ he := Fin.ext he
  start _ := ⟨rfl, Nat.le_refl _⟩
  once := List.nodup_nil
  past _ h := nomatch h
  noted _ h := nomatch h
  of_finished _ h := nomatch h
  counted _ h := nomatch h
  misses := rfl

/-- What a job's life can do to the jobs that have ended. -/
theorem GoesOn.still_over {job job' : Job} (h : GoesOn job job') (hs : job.state.active = false) :
    job'.state.active = false := by
  cases h with
  | same h => rw [(life_eq.mp h).1, hs]
  | on ha st hf h =>
    rw [hs] at ha
    cases ha
  | freed he h =>
    rw [(life_eq.mp h).1]
    rfl

/-- Operations after which the same jobs are in the table, and the counter of misses
is what it was. -/
theorem Timed.Ok.goesOn (h : t.Ok c) {b : Books cfg} {now : Nat} (hnow : t.now ≤ now)
    (hrun : RunningOk b.sched) (hi : SameIds t.books.sched b.sched)
    (hg : ∀ j, GoesOn (t.books.sched.jobs j) (b.sched.jobs j))
    (hends : ∀ e ∈ b.endings, e ∈ t.books.endings ∨ e.2 = .cancelled)
    (hm : b.stats.deadlineMisses = t.books.stats.deadlineMisses) :
    Timed.Ok c { t with books := b, now := now } where
  running := hrun
  old j := by
    rw [(hg j).named.1, hi.tickets]
    exact h.old j
  apart i j he := h.apart i j (by rwa [← (hg i).named.1, ← (hg j).named.1])
  start k := ⟨(h.start k).1, (h.start k).2.trans hnow⟩
  once := h.once
  past f hf := by
    obtain ⟨hlt, hover⟩ := h.past f hf
    refine ⟨hi.tickets ▸ hlt, fun j hj => ?_⟩
    exact (hg j).still_over (hover j ((hg j).named.1.symm.trans hj))
  noted e he := (hends e he).elim (h.noted e) .inl
  of_finished := h.of_finished
  counted := h.counted
  misses := hm.trans h.misses

theorem Timed.Ok.submit (h : t.Ok c) {j : Fin cfg.jobs} {b : Books cfg} {now : Nat}
    (hnow : t.now ≤ now) (hrun : RunningOk b.sched) (hs : Submitted t.books.sched b.sched j)
    (hends : ∀ e ∈ b.endings, e ∈ t.books.endings ∨ e.2 = .cancelled)
    (hm : b.stats.deadlineMisses = t.books.stats.deadlineMisses) :
    Timed.Ok c { t with
      books := b, now := now
      startCyc := Function.update t.startCyc t.books.sched.tickets (cycleGet now)
      submitted := Function.update t.submitted t.books.sched.tickets now } := by
  obtain ⟨-, hjt, -⟩ := life_eq.mp hs.life
  have hother : ∀ i, i ≠ j → (b.sched.jobs i).state = (t.books.sched.jobs i).state ∧
      (b.sched.jobs i).ticket = (t.books.sched.jobs i).ticket := fun i hne =>
    ⟨(life_eq.mp (hs.other i hne)).1, (life_eq.mp (hs.other i hne)).2.1⟩
  refine ⟨hrun, fun i => ?_, fun i k he => ?_, fun k => ?_, h.once, fun f hf => ?_,
    fun e he => (hends e he).elim (h.noted e) .inl, h.of_finished, h.counted,
    hm.trans h.misses⟩
  · show (b.sched.jobs i).ticket < b.sched.tickets
    rw [hs.tickets]
    by_cases he : i = j
    · rw [he, hjt]
      exact Nat.lt_succ_self _
    · rw [(hother i he).2]
      exact Nat.lt_succ_of_lt (h.old i)
  · by_cases hi : i = j <;> by_cases hk : k = j
    · rw [hi, hk]
    · rw [hi, hjt, (hother k hk).2] at he
      exact absurd he (h.old k).ne'
    · rw [hk, hjt, (hother i hi).2] at he
      exact absurd he (h.old i).ne
    · rw [(hother i hi).2, (hother k hk).2] at he
      exact h.apart i k he
  · show Function.update t.startCyc _ _ k = cycleGet (Function.update t.submitted _ _ k) ∧
      Function.update t.submitted _ _ k ≤ now
    by_cases he : k = t.books.sched.tickets
    · rw [he, Function.update_self, Function.update_self]
      exact ⟨rfl, Nat.le_refl _⟩
    · rw [Function.update_of_ne he, Function.update_of_ne he]
      exact ⟨(h.start k).1, (h.start k).2.trans hnow⟩
  · obtain ⟨hlt, hover⟩ := h.past f hf
    refine ⟨hs.tickets ▸ Nat.lt_succ_of_lt hlt, fun i hi => ?_⟩
    by_cases he : i = j
    · rw [he, hjt] at hi
      exact absurd hi hlt.ne'
    · rw [(hother i he).1]
      exact hover i ((hother i he).2.symm.trans hi)

/-- The end of a job: it is new among the finished ones, and counted if it is found to
be late. -/
theorem Timed.Ok.finish (h : t.Ok c) {j : Fin cfg.jobs} {b : Books cfg} {now : Nat} {f : Finish}
    (hnow : t.now ≤ now) (hrun : RunningOk b.sched) (hi : SameIds t.books.sched b.sched)
    (hg : ∀ i, GoesOn (t.books.sched.jobs i) (b.sched.jobs i))
    (hact : (t.books.sched.jobs j).state.active = true)
    (hover : (b.sched.jobs j).state.active = false)
    (hf : f.ticket = (t.books.sched.jobs j).ticket)
    (hends : ∀ e ∈ b.endings, e ∈ t.books.endings ∨ e.2 = .cancelled ∨ e.1 = f.ticket)
    (hm : b.stats.deadlineMisses =
      if f.Counted c then t.books.stats.deadlineMisses + 1 else t.books.stats.deadlineMisses) :
    Timed.Ok c { t with
      books := b, now := now, finished := t.finished ++ [f]
      missed := if b.stats.deadlineMisses = t.books.stats.deadlineMisses then t.missed
        else t.missed ++ [f.ticket] } := by
  have hnew : ∀ f' ∈ t.finished, f'.ticket ≠ f.ticket := by
    intro f' hf' he
    have := (h.past f' hf').2 j (he.trans hf).symm
    rw [hact] at this
    cases this
  have hnone : t.missed.count f.ticket = 0 := by
    refine List.count_eq_zero.mpr fun hk => ?_
    obtain ⟨f', hf', he⟩ := h.of_finished _ hk
    exact hnew f' hf' he
  have hmissed : (if b.stats.deadlineMisses = t.books.stats.deadlineMisses then t.missed
      else t.missed ++ [f.ticket]) = if f.Counted c then t.missed ++ [f.ticket] else t.missed := by
    rw [hm]
    by_cases hc : f.Counted c
    · rw [if_pos hc, if_pos hc, if_neg (succ_ne_self _)]
    · rw [if_neg hc, if_neg hc, if_pos rfl]
  rw [hmissed]
  refine ⟨hrun, fun i => ?_, fun i k he => ?_, fun k => ⟨(h.start k).1, (h.start k).2.trans hnow⟩,
    ?_, fun f' hf' => ?_, fun e he => ?_, fun k hk => ?_, fun f' hf' => ?_, ?_⟩
  · show (b.sched.jobs i).ticket < b.sched.tickets
    rw [(hg i).named.1, hi.tickets]
    exact h.old i
  · exact h.apart i k (by rwa [← (hg i).named.1, ← (hg k).named.1])
  · show ((t.finished ++ [f]).map Finish.ticket).Nodup
    rw [List.map_append, List.map_singleton]
    refine List.nodup_append.mpr ⟨h.once, List.nodup_singleton _, fun k hk k' hk' => ?_⟩
    obtain ⟨f', hf', rfl⟩ := List.mem_map.mp hk
    rw [List.mem_singleton.mp hk']
    exact hnew f' hf'
  · show f'.ticket < b.sched.tickets ∧ _
    rw [hi.tickets]
    rcases List.mem_append.mp hf' with hf' | hf'
    · obtain ⟨hlt, hpast⟩ := h.past f' hf'
      exact ⟨hlt, fun i hi' => (hg i).still_over (hpast i ((hg i).named.1.symm.trans hi'))⟩
    · rw [List.mem_singleton.mp hf', hf]
      refine ⟨h.old j, fun i hi' => ?_⟩
      rw [h.apart i j ((hg i).named.1.symm.trans hi')]
      exact hover
  · show e.2 = .cancelled ∨ ∃ f' ∈ t.finished ++ [f], f'.ticket = e.1
    rcases hends e he with hold | hcan | hnow'
    · exact (h.noted e hold).imp_right fun ⟨f', hf', hk⟩ => ⟨f', List.mem_append_left _ hf', hk⟩
    · exact .inl hcan
    · exact .inr ⟨f, List.mem_append_right _ (List.mem_singleton.mpr rfl), hnow'.symm⟩
  · show ∃ f' ∈ t.finished ++ [f], f'.ticket = k
    have hold : k ∈ t.missed → ∃ f' ∈ t.finished ++ [f], f'.ticket = k := by
      intro hk
      obtain ⟨f', hf', he⟩ := h.of_finished k hk
      exact ⟨f', List.mem_append_left _ hf', he⟩
    dsimp only at hk
    split at hk
    · rcases List.mem_append.mp hk with hk | hk
      · exact hold hk
      · exact ⟨f, List.mem_append_right _ (List.mem_singleton.mpr rfl),
          (List.mem_singleton.mp hk).symm⟩
    · exact hold hk
  · show List.count f'.ticket (if f.Counted c then t.missed ++ [f.ticket] else t.missed) = _
    rcases List.mem_append.mp hf' with hf' | hf'
    · rw [← h.counted f' hf']
      split
      · rw [List.count_append, List.count_singleton, if_neg (by simpa using (hnew f' hf').symm),
          Nat.add_zero]
      · rfl
    · rw [List.mem_singleton.mp hf']
      by_cases hc : f.Counted c
      · rw [if_pos hc, List.count_append, hnone, List.count_singleton_self, decide_eq_true hc]
        rfl
      · rw [if_neg hc, hnone, decide_eq_false hc]
        rfl
  · show b.stats.deadlineMisses =
      UInt32.ofNat (if f.Counted c then t.missed ++ [f.ticket] else t.missed).length
    rw [hm, h.misses]
    split
    · rw [List.length_append, List.length_singleton, UInt32.ofNat_add]
      rfl
    · rfl

theorem step_enter {b : Books cfg} {a : Act cfg} (h : ∀ id, deed b.sched a.op ≠ .deliver id)
    (hs : deed b.sched a.op ≠ .still) : b.step a = b.enter a := by
  unfold Books.step
  split
  · rename_i n hop _
    rw [hop] at h hs
    unfold deed at h hs
    dsimp only at h hs
    exfalso
    cases hj : findJob b.sched n with
    | none => exact hs (by rw [hj])
    | some j =>
      rw [hj] at h hs
      dsimp only at h hs
      split at hs
      · rename_i he
        exact h j (if_pos he)
      · exact hs rfl
  · rfl

theorem Timed.Ok.step (h : t.Ok c) (a : Act cfg × Nat) : (t.step c a).Ok c := by
  obtain ⟨a, dt⟩ := a
  have hd := done_step h.running a.op
  have hnow : t.now ≤ t.now + dt := Nat.le_add_right _ _
  -- where the endings of an operation come from
  have hends : ∀ e ∈ t.books.endings ++ t.books.sched.ends (Infer.step t.books.sched a.op),
      e ∈ t.books.endings ∨ e.2 = .cancelled ∨ ∃ j ret, deed t.books.sched a.op = .settle j ret ∧
        ret ≠ eintr ∧ e = ((t.books.sched.jobs j).ticket, if ret = 0 then .done else .error) :=
    fun e he => (List.mem_append.mp he).imp_right fun he => hd.ends he
  -- what does not end a job as `DONE` or `ERROR`, and submits none
  have hother : ∀ elapsed, (∀ j, deed t.books.sched a.op ≠ .submit j) →
      (∀ j ret, deed t.books.sched a.op = .settle j ret → ret = eintr) →
      Timed.Ok c { t with
        books := t.books.step { a with elapsed := elapsed }, now := t.now + dt } := by
    intro elapsed hsub hset
    have hrun := running_step h.running { a with elapsed := elapsed }
    rcases step_cases t.books { a with elapsed := elapsed } with hb | hb
    · rw [hb] at hrun ⊢
      exact h.goesOn hnow hrun ⟨rfl, rfl⟩ (fun _ => .same rfl) (fun _ he => .inl he) rfl
    · rw [hb] at hrun ⊢
      obtain ⟨hi, hg⟩ := hd.goesOn hsub
      refine h.goesOn hnow hrun hi hg (fun e he => ?_) ((count_misses _ _ _ _).trans ?_)
      · refine (hends e he).imp_right fun he => he.resolve_right ?_
        rintro ⟨j, ret, hdeed, hr, -⟩
        exact hr (hset j ret hdeed)
      dsimp only
      split
      · rename_i j ret hdeed
        rw [if_neg fun hc => hc.1 (hset j ret hdeed)]
      · rfl
  unfold Timed.step
  dsimp only
  cases hdeed : deed t.books.sched a.op with
  | submit j =>
    have hrun := running_step h.running { a with elapsed := 0 }
    have hb := step_enter (b := t.books) (a := { a with elapsed := 0 }) (by simp [hdeed])
      (by simp [hdeed])
    rw [hdeed] at hd
    dsimp only [Timed.elapsed]
    rw [hb] at hrun ⊢
    refine h.submit hnow hrun hd (fun e he => ?_) ((count_misses _ _ _ _).trans ?_)
    · refine (hends e he).imp_right fun he => he.resolve_right ?_
      rintro ⟨i, ret, hset, -⟩
      rw [hdeed] at hset
      cases hset
    · rw [hdeed]
  | settle j ret =>
    dsimp only
    generalize hel : t.elapsed c (t.now + dt) (.settle j ret) = elapsed
    have hrun := running_step h.running { a with elapsed := elapsed }
    have hb := step_enter (b := t.books) (a := { a with elapsed := elapsed }) (by simp [hdeed])
      (by simp [hdeed])
    have hcount := count_misses t.books.sched elapsed t.books.stats (deed t.books.sched a.op)
    rw [hdeed] at hcount
    dsimp only at hcount
    by_cases hr : ret = eintr
    · rw [if_neg fun hc => hc.1 hr] at hcount
      have hm : (t.books.step { a with elapsed := elapsed }).stats.deadlineMisses =
          t.books.stats.deadlineMisses := by
        rw [hb]
        refine Eq.trans ?_ hcount
        show (Stats.count _ _ _ (deed t.books.sched a.op)).deadlineMisses = _
        rw [hdeed]
      rw [if_pos hr, if_pos hm]
      refine hother elapsed (by simp [hdeed]) fun i ret' he => ?_
      rw [hdeed] at he
      cases he
      exact hr
    · set f : Finish := ⟨(t.books.sched.jobs j).ticket, (t.books.sched.jobs j).params.deadlineUs,
        t.submitted (t.books.sched.jobs j).ticket, t.now + dt⟩ with hf
      have hcond : (ret ≠ eintr ∧ (t.books.sched.jobs j).params.deadlineUs ≠ 0 ∧
          (t.books.sched.jobs j).params.deadlineUs < elapsed) ↔ f.Counted c := by
        obtain ⟨hs, hle⟩ := h.start (t.books.sched.jobs j).ticket
        have he : elapsed = (c.cycToUs (cycleGet f.cycles)).toNat := by
          rw [← hel]
          dsimp only [Timed.elapsed]
          rw [hs, cycleGet_sub (hle.trans hnow)]
          rfl
        rw [he]
        exact ⟨fun hc => hc.2, fun hc => ⟨hr, hc⟩⟩
      obtain ⟨hi, hg⟩ := hd.goesOn (by simp [hdeed])
      rw [hdeed] at hd
      obtain ⟨hst, hmoved⟩ := hd
      rw [if_neg hr]
      refine h.finish (f := f) (j := j) hnow hrun ?_ ?_ ?_ ?_ rfl (fun e he => ?_) ?_
      · rw [hb]
        exact hi
      · rw [hb]
        exact hg
      · rw [hst]
        rfl
      · rw [hb]
        show ((Infer.step t.books.sched a.op).jobs j).state.active = false
        rw [(life_eq.mp hmoved.life).1, outcome, if_neg hr]
        split <;> rfl
      · rw [hb] at he
        refine (hends e he).imp_right fun he => he.imp_right ?_
        rintro ⟨i, ret', hset, -, rfl⟩
        rw [hdeed] at hset
        cases hset
        rfl
      · rw [hb]
        refine Eq.trans ?_ (hcount.trans (if_congr hcond rfl rfl))
        show (Stats.count _ _ _ (deed t.books.sched a.op)).deadlineMisses = _
        rw [hdeed]
  | _ =>
    dsimp only
    exact hother _ (by simp [hdeed]) (by simp [hdeed])

end

/-- In every run, whatever time passes: every job that ends as `DONE` or `ERROR` is
among the finished ones, once, and with a deadline it counts as one miss if it is
late and as none otherwise, exactly where the counter can tell. -/
theorem misses_counted (c : Clock) (l : List (Act cfg × Nat)) :
    let t := run (Timed.step c) (Timed.init cfg) l
    t.books.stats.deadlineMisses = UInt32.ofNat t.missed.length ∧
    (t.finished.map Finish.ticket).Nodup ∧
    (∀ k, (k, .done) ∈ t.books.endings ∨ (k, .error) ∈ t.books.endings →
      ∃ f ∈ t.finished, f.ticket = k) ∧
    ∀ f ∈ t.finished, f.deadline ≠ 0 →
      (t.missed.count f.ticket = (decide (f.Late c)).toNat ↔ f.Told c) := by
  have hok : (run (Timed.step c) (Timed.init cfg) l).Ok c :=
    run_invariant l (.init c) fun _ a h => h.step a
  refine ⟨hok.misses, hok.once, fun k hk => ?_, fun f hf hne => ?_⟩
  · rcases hk with hk | hk
    · exact (hok.noted _ hk).resolve_left fun h => nomatch h
    · exact (hok.noted _ hk).resolve_left fun h => nomatch h
  · rw [hok.counted f hf]
    refine ⟨fun h => ?_, fun h => ?_⟩
    · refine counted_iff_late.mp (fun _ => ?_) hne
      by_cases hc : f.Counted c <;> by_cases hl : f.Late c <;> simp_all
    · have := counted_iff_late.mpr (fun _ => h) hne
      simp only [this]

/-- A clock of a given frequency. -/
def Clock.ofFreq (freq : Nat) (h : 0 < freq) : Clock :=
  { freq := freq, freq_pos := h, cycToUs := fun c => UInt32.ofNat (ceilUs freq c.toNat)
    cycToUs_eq := fun _ => UInt32.toNat_ofNat' }

def mhz150 : Clock := .ofFreq 150000000 (by decide)

/-- A job with a deadline of 1 ms that stays queued for some cycles. -/
def queuedFor (cycles : Nat) : List (Act twoJobs × Nat) :=
  (readyOps ++ submitOps 0 ⟨0, 1000, false⟩).map (fun o => (⟨o, none, true, 0⟩, 0)) ++
    (⟨.dispatch, none, true, 0⟩, cycles) ::
    (scheduleOps 6 0).map fun o => (⟨o, none, true, 0⟩, 0)

/-- After 2 ms it has missed it. -/
theorem misses_counted_queued :
    (run (Timed.step mhz150) (Timed.init twoJobs) (queuedFor 300000)).missed.count 2 = 1 :=
  ((misses_counted mhz150 (queuedFor 300000)).2.2.2 ⟨2, 1000, 0, 300000⟩ (by decide +kernel)
    (by decide)).mpr (by unfold Finish.Told; decide +kernel)

/-- After 2^32 cycles, which are 28 s, it has not. -/
theorem miss_wrapped : ¬∀ f ∈ (run (Timed.step mhz150) (Timed.init twoJobs)
    (queuedFor (2 ^ 32))).finished, f.deadline ≠ 0 →
      (run (Timed.step mhz150) (Timed.init twoJobs) (queuedFor (2 ^ 32))).missed.count f.ticket =
        (decide (f.Late mhz150)).toNat := by
  intro h
  have := h ⟨2, 1000, 0, 2 ^ 32⟩ (by decide +kernel) (by decide)
  revert this
  decide +kernel

end SynapticOS.Infer
