import SynapticOS.Infer.Lives

/-!
# Ids, endings, counters and deliveries

What each part of the books says about the job table, kept by every operation:
ids are counted with the submissions, a job comes to one end, the counters add
up, and an id has one result.
-/

namespace SynapticOS.Infer

open Lib

variable {cfg : Cfg} {s s' : Sched cfg} {j : Fin cfg.jobs} {d : Deed cfg}
  {b : Books cfg}

-- ---------------------------------------------------------------------------
-- Ids
-- ---------------------------------------------------------------------------

/-- How the life of a job goes on when nothing is submitted in its place. -/
inductive GoesOn (job job' : Job) : Prop
  | same (h : job'.life = job.life)
  | on (ha : job.state.active = true) (st : JobState) (hs : st ≠ .free)
    (h : job'.life = (st, job.ticket, job.id))
  | freed (he : job.state.ended = true) (h : job'.life = (.free, job.ticket, job.id))

theorem life_eq {job : Job} {st : JobState} {ticket id : Nat} :
    job.life = (st, ticket, id) ↔ job.state = st ∧ job.ticket = ticket ∧ job.id = id := by
  simp [Job.life]

theorem GoesOn.named {job job' : Job} (h : GoesOn job job') :
    job'.ticket = job.ticket ∧ job'.id = job.id := by
  cases h with
  | same h => exact (life_eq.mp h).2
  | on ha st hs h => exact (life_eq.mp h).2
  | freed he h => exact (life_eq.mp h).2

theorem GoesOn.not_free {job job' : Job} (h : GoesOn job job') (hf : job'.state ≠ .free) :
    job.state ≠ .free := by
  cases h with
  | same h => rwa [← (life_eq.mp h).1]
  | on ha st hs h =>
    intro he
    rw [he] at ha
    cases ha
  | freed he h => exact absurd (life_eq.mp h).1 hf

theorem runnable_active {job : Job} (h : job.runnable = true) : job.state.active = true := by
  rcases of_decide_eq_true h with h | h
  · rw [h]; rfl
  · rw [h]; rfl

theorem Moved.goesOn (h : Moved s s' j st)
    (hj : ∀ job', job'.life = (st, (s.jobs j).ticket, (s.jobs j).id) → GoesOn (s.jobs j) job') :
    SameIds s s' ∧ ∀ i, GoesOn (s.jobs i) (s'.jobs i) := by
  refine ⟨h.ids, fun i => ?_⟩
  by_cases he : i = j
  · rw [he]
    exact hj _ h.life
  · exact .same (h.other i he)

theorem outcome_ne_free (ret : Ret) : outcome ret ≠ .free := by
  unfold outcome
  split
  · exact fun h => nomatch h
  · split <;> exact fun h => nomatch h

/-- Only a submission puts a new job into a slot. -/
theorem Done.goesOn (h : Done s s' d) (hd : ∀ j, d ≠ .submit j) :
    SameIds s s' ∧ ∀ j, GoesOn (s.jobs j) (s'.jobs j) := by
  cases d with
  | still => exact ⟨h.ids, fun i => .same (h.life i)⟩
  | submit j => exact absurd rfl (hd j)
  | cancel j => exact h.2.goesOn fun _ hl => .on (runnable_active h.1) .cancelled (by decide) hl
  | pick j => exact h.2.goesOn fun _ hl => .on (runnable_active h.1) .running (by decide) hl
  | deliver j => exact h.2.goesOn fun _ hl => .freed h.1 hl
  | settle j ret =>
    exact h.2.goesOn fun _ hl => .on (by rw [h.1]; rfl) _ (outcome_ne_free ret) hl
  | destroy p =>
    refine ⟨h.1, fun j => ?_⟩
    rw [h.2 j]
    by_cases hp : (s.jobs j).doomed p
    · rw [destroyJob_of_doomed hp]
      exact .on (runnable_active (decide_eq_true hp.1)) .cancelled (fun h => nomatch h) rfl
    · rw [destroyJob_of_not_doomed hp]
      exact .same rfl

/-- Submissions and ids are counted together, up to the last id. -/
structure IdsOk (s : Sched cfg) : Prop where
  base : cfg.jobs ≤ s.tickets
  next : s.tickets - cfg.jobs + 1 < 2 ^ 32 → s.nextId + cfg.jobs = s.tickets + 1
  old : ∀ j, (s.jobs j).ticket < s.tickets
  apart : ∀ i j, (s.jobs i).ticket = (s.jobs j).ticket → i = j
  id : ∀ j, (s.jobs j).state ≠ .free →
    cfg.jobs ≤ (s.jobs j).ticket ∧ (s.jobs j).id + cfg.jobs = (s.jobs j).ticket + 1

theorem IdsOk.init : IdsOk (Sched.init cfg) where
  base := Nat.le_refl _
  next _ := Nat.add_comm ..
  old j := j.isLt
  apart _ _ he := Fin.ext he
  id _ hj := absurd rfl hj

theorem IdsOk.goesOn (h : IdsOk s) (hi : SameIds s s')
    (hg : ∀ j, GoesOn (s.jobs j) (s'.jobs j)) : IdsOk s' where
  base := hi.tickets ▸ h.base
  next := by rw [hi.tickets, hi.nextId]; exact h.next
  old j := by rw [(hg j).named.1, hi.tickets]; exact h.old j
  apart i j he := h.apart i j (by rwa [← (hg i).named.1, ← (hg j).named.1])
  id j hf := by rw [(hg j).named.1, (hg j).named.2]; exact h.id j ((hg j).not_free hf)

theorem Submitted.eq_or (h : Submitted s s' j) (i : Fin cfg.jobs) :
    i = j ∨ (s'.jobs i).life = (s.jobs i).life :=
  or_iff_not_imp_left.mpr (h.other i)

theorem IdsOk.submitted (h : IdsOk s) (hs : Submitted s s' j)
    (hn : s'.tickets - cfg.jobs < 2 ^ 32) : IdsOk s' := by
  have hb := h.base
  rw [hs.tickets] at hn
  have hnext := h.next (by omega)
  obtain ⟨hjs, hjt, hji⟩ := life_eq.mp hs.life
  have hother : ∀ i, i ≠ j → (s'.jobs i).state = (s.jobs i).state ∧
      (s'.jobs i).ticket = (s.jobs i).ticket ∧ (s'.jobs i).id = (s.jobs i).id :=
    fun i hne => life_eq.mp (hs.other i hne)
  refine ⟨?_, fun hlt => ?_, fun i => ?_, fun i k he => ?_, fun i hf => ?_⟩
  · rw [hs.tickets]
    omega
  · rw [hs.nextId, hs.tickets] at *
    unfold nextJobId
    rw [Nat.mod_eq_of_lt (by omega), if_neg (by omega)]
    omega
  · rw [hs.tickets]
    by_cases he : i = j
    · rw [he, hjt]
      omega
    · rw [(hother i he).2.1]
      have := h.old i
      omega
  · by_cases hi : i = j <;> by_cases hk : k = j
    · rw [hi, hk]
    · rw [hi, hjt, (hother k hk).2.1] at he
      exact absurd he (h.old k).ne'
    · rw [hk, hjt, (hother i hi).2.1] at he
      exact absurd he (h.old i).ne
    · rw [(hother i hi).2.1, (hother k hk).2.1] at he
      exact h.apart i k he
  · by_cases he : i = j
    · rw [he, hjt, hji]
      exact ⟨hb, hnext⟩
    · obtain ⟨h1, h2, h3⟩ := hother i he
      rw [h1] at hf
      rw [h2, h3]
      exact h.id i hf

-- ---------------------------------------------------------------------------
-- Endings
-- ---------------------------------------------------------------------------

theorem mem_ends {e : Nat × JobState} : e ∈ s.ends s' ↔ ∃ j, (s'.jobs j).state.ended = true ∧
    (s.jobs j).state ≠ (s'.jobs j).state ∧ e = ((s'.jobs j).ticket, (s'.jobs j).state) := by
  unfold Sched.ends
  simp only [List.mem_filterMap, List.mem_finRange, true_and]
  constructor
  · rintro ⟨j, h⟩
    split at h
    · rename_i hc
      exact ⟨j, hc.1, hc.2, (Option.some.inj h).symm⟩
    · cases h
  · rintro ⟨j, h1, h2, rfl⟩
    exact ⟨j, if_pos ⟨h1, h2⟩⟩

theorem nodup_ends (h : ∀ i j, (s'.jobs i).ticket = (s'.jobs j).ticket → i = j) :
    ((s.ends s').map Prod.fst).Nodup := by
  unfold Sched.ends
  rw [List.map_filterMap]
  refine (List.nodup_finRange _).filterMap fun i j k hi hj => h i j ?_
  split at hi <;> simp at hi
  split at hj <;> simp at hj
  rw [hi, hj]

/-- The books hold the end of every job once. -/
structure EndingsOk (s : Sched cfg) (l : List (Nat × JobState)) : Prop where
  once : (l.map Prod.fst).Nodup
  noted : ∀ j, (s.jobs j).state.ended = true → ((s.jobs j).ticket, (s.jobs j).state) ∈ l
  past : ∀ e ∈ l, e.2.ended = true ∧ e.1 < s.tickets ∧
    ∀ j, (s.jobs j).ticket = e.1 → (s.jobs j).state = e.2 ∨ (s.jobs j).state = .free

theorem EndingsOk.init : EndingsOk (Sched.init cfg) [] :=
  ⟨List.nodup_nil, fun _ h => (nomatch h), fun _ h => (nomatch h)⟩

theorem ended_not_free {st : JobState} (h : st.ended = true) : st ≠ .free := by
  intro he
  rw [he] at h
  cases h

theorem EndingsOk.goesOn (h : EndingsOk s l) (hn : IdsOk s')
    (hi : SameIds s s') (hg : ∀ j, GoesOn (s.jobs j) (s'.jobs j)) :
    EndingsOk s' (l ++ s.ends s') := by
  -- a job that comes to an end has none in the books
  have hnew : ∀ e ∈ s.ends s', ∃ j, (s.jobs j).ticket = e.1 ∧ (s.jobs j).state.active = true := by
    intro e he
    obtain ⟨j, hended, hne, rfl⟩ := mem_ends.mp he
    refine ⟨j, (hg j).named.1.symm, ?_⟩
    cases hg j with
    | same h => exact absurd (life_eq.mp h).1.symm hne
    | on ha st hs h => exact ha
    | freed he h => exact absurd (life_eq.mp h).1 (ended_not_free hended)
  refine ⟨?_, fun j he => ?_, fun e he => ?_⟩
  · rw [List.map_append, List.nodup_append]
    refine ⟨h.once, nodup_ends hn.apart, fun k hk k' hk' hkk => ?_⟩
    obtain ⟨e, he, rfl⟩ := List.mem_map.mp hk
    obtain ⟨e', he', rfl⟩ := List.mem_map.mp hk'
    obtain ⟨j, hj, ha⟩ := hnew e' he'
    obtain ⟨hended, -, hpast⟩ := h.past e he
    rcases hpast j (hj.trans hkk.symm) with hst | hst
    · rw [hst] at ha
      rw [JobState.ended_not_active hended] at ha
      cases ha
    · rw [hst] at ha
      cases ha
  · by_cases hst : (s.jobs j).state = (s'.jobs j).state
    · refine List.mem_append_left _ ?_
      rw [(hg j).named.1, ← hst]
      exact h.noted j (hst ▸ he)
    · exact List.mem_append_right _ (mem_ends.mpr ⟨j, he, hst, rfl⟩)
  · rcases List.mem_append.mp he with he | he
    · obtain ⟨hended, hlt, hpast⟩ := h.past e he
      refine ⟨hended, hi.tickets ▸ hlt, fun j hj => ?_⟩
      have hold := hpast j ((hg j).named.1.symm.trans hj)
      cases hg j with
      | same h => rwa [(life_eq.mp h).1]
      | on ha st hs h =>
        rcases hold with hst | hst
        · rw [hst, JobState.ended_not_active hended] at ha
          cases ha
        · rw [hst] at ha
          cases ha
      | freed he h => exact .inr (life_eq.mp h).1
    · obtain ⟨j, hended, -, rfl⟩ := mem_ends.mp he
      refine ⟨hended, hn.old j, fun i hi' => .inl ?_⟩
      rw [hn.apart i j hi']

theorem ends_submitted (hs : Submitted s s' j) : s.ends s' = [] := by
  refine List.eq_nil_iff_forall_not_mem.mpr fun e he => ?_
  obtain ⟨i, hended, hne, -⟩ := mem_ends.mp he
  rcases hs.eq_or i with rfl | hl
  · rw [(life_eq.mp hs.life).1] at hended
    cases hended
  · exact hne (life_eq.mp hl).1.symm

theorem EndingsOk.submitted (h : EndingsOk s l) (hs : Submitted s s' j) :
    EndingsOk s' (l ++ s.ends s') := by
  rw [ends_submitted hs, List.append_nil]
  refine ⟨h.once, fun i he => ?_, fun e he => ?_⟩
  · rcases hs.eq_or i with rfl | hl
    · rw [(life_eq.mp hs.life).1] at he
      cases he
    · obtain ⟨hst, ht, -⟩ := life_eq.mp hl
      rw [ht, hst]
      exact h.noted i (hst ▸ he)
  · obtain ⟨hended, hlt, hpast⟩ := h.past e he
    refine ⟨hended, by rw [hs.tickets]; omega, fun i hi => ?_⟩
    rcases hs.eq_or i with rfl | hl
    · rw [(life_eq.mp hs.life).2.1] at hi
      omega
    · obtain ⟨hst, ht, -⟩ := life_eq.mp hl
      rw [hst]
      exact hpast i (ht ▸ hi)

-- ---------------------------------------------------------------------------
-- Counters
-- ---------------------------------------------------------------------------

def JobState.isSuspended (st : JobState) : Bool := decide (st = .suspended)

theorem Moved.tally (h : Moved s s' j st) (q : JobState → Bool) :
    s'.tally q + (q (s.jobs j).state).toNat = s.tally q + (q st).toNat := by
  unfold Sched.tally
  have hrest : ∑ i ∈ Finset.univ.erase j, (q (s'.jobs i).state).toNat =
      ∑ i ∈ Finset.univ.erase j, (q (s.jobs i).state).toNat :=
    Finset.sum_congr rfl fun i hi => by
      rw [(life_eq.mp (h.other i (Finset.ne_of_mem_erase hi))).1]
  rw [← Finset.add_sum_erase _ _ (Finset.mem_univ j),
    ← Finset.add_sum_erase _ (fun i => (q (s.jobs i).state).toNat) (Finset.mem_univ j), hrest,
    (life_eq.mp h.life).1]
  omega

theorem Moved.cuts (h : Moved s s' j st) :
    s.cuts s' = (decide ((s.jobs j).state = .suspended ∧ st = .cancelled)).toNat := by
  unfold Sched.cuts
  rw [Fintype.sum_eq_single j fun i hne => ?_, (life_eq.mp h.life).1]
  rw [(life_eq.mp (h.other i hne)).1]
  cases (s.jobs i).state <;> rfl

theorem Still.tally (h : Still s s') (q : JobState → Bool) : s'.tally q = s.tally q :=
  Finset.sum_congr rfl fun i _ => by rw [(life_eq.mp (h.life i)).1]

theorem Still.cuts (h : Still s s') : s.cuts s' = 0 :=
  Finset.sum_eq_zero fun i _ => by
    rw [(life_eq.mp (h.life i)).1]
    cases (s.jobs i).state <;> rfl

theorem Submitted.tally (h : Submitted s s' j) (q : JobState → Bool) :
    s'.tally q + (q .free).toNat = s.tally q + (q .queued).toNat := by
  unfold Sched.tally
  have hrest : ∑ i ∈ Finset.univ.erase j, (q (s'.jobs i).state).toNat =
      ∑ i ∈ Finset.univ.erase j, (q (s.jobs i).state).toNat :=
    Finset.sum_congr rfl fun i hi => by
      rw [(life_eq.mp (h.other i (Finset.ne_of_mem_erase hi))).1]
  rw [← Finset.add_sum_erase _ _ (Finset.mem_univ j),
    ← Finset.add_sum_erase _ (fun i => (q (s.jobs i).state).toNat) (Finset.mem_univ j), hrest,
    (life_eq.mp h.life).1, h.free]
  omega

theorem Submitted.cuts (h : Submitted s s' j) : s.cuts s' = 0 :=
  Finset.sum_eq_zero fun i _ => by
    rcases h.eq_or i with rfl | hl
    · rw [h.free]
      rfl
    · rw [(life_eq.mp hl).1]
      cases (s.jobs i).state <;> rfl

theorem destroyJob_state (p : Fin maxPipelines) (job : Job) :
    (destroyJob p job).state = if job.doomed p then .cancelled else job.state := by
  split
  · rename_i h
    rw [destroyJob_of_doomed h]
  · rename_i h
    rw [destroyJob_of_not_doomed h]

theorem tally_destroy (h : ∀ j, s'.jobs j = destroyJob p (s.jobs j)) :
    s'.tally JobState.active + s.doomed p = s.tally JobState.active := by
  unfold Sched.tally Sched.doomed
  rw [← Finset.sum_add_distrib]
  refine Finset.sum_congr rfl fun j _ => ?_
  rw [h j, destroyJob_state]
  by_cases hp : (s.jobs j).doomed p
  · rw [if_pos hp, runnable_active (decide_eq_true hp.1), decide_eq_true hp]
    rfl
  · rw [if_neg hp, decide_eq_false hp]
    rfl

theorem suspended_destroy (h : ∀ j, s'.jobs j = destroyJob p (s.jobs j)) :
    s'.tally JobState.isSuspended + s.cuts s' = s.tally JobState.isSuspended := by
  unfold Sched.tally Sched.cuts
  rw [← Finset.sum_add_distrib]
  refine Finset.sum_congr rfl fun j _ => ?_
  rw [h j, destroyJob_state]
  by_cases hp : (s.jobs j).doomed p
  · rw [if_pos hp]
    rcases hp.1 with hst | hst
    · rw [hst]; rfl
    · rw [hst]; rfl
  · rw [if_neg hp]
    cases (s.jobs j).state <;> rfl

theorem cuts_le_doomed (h : ∀ j, s'.jobs j = destroyJob p (s.jobs j)) :
    s.cuts s' ≤ s.doomed p := by
  refine Finset.sum_le_sum fun j _ => ?_
  rw [h j, destroyJob_state]
  by_cases hp : (s.jobs j).doomed p
  · rw [decide_eq_true hp]
    exact Bool.toNat_le _
  · rw [if_neg hp]
    cases (s.jobs j).state <;> exact Nat.zero_le _

/-- The counters agree with the job table; preemptions and resumes may wrap. -/
structure CountsOk (s : Sched cfg) (x : Stats) (cut : Nat) : Prop where
  sum : x.completed.toNat + x.errors.toNat + x.cancelled.toNat + s.tally JobState.active +
    cfg.jobs = s.tickets
  turns : x.preemptions - x.resumes = UInt32.ofNat (s.tally JobState.isSuspended + cut)
  short : cut ≤ x.cancelled.toNat

theorem CountsOk.init : CountsOk (Sched.init cfg) ⟨0, 0, 0, 0, 0, 0⟩ 0 := by
  have hzero : ∀ q : JobState → Bool, q .free = false → (Sched.init cfg).tally q = 0 :=
    fun q hq => Finset.sum_eq_zero fun j _ => congrArg Bool.toNat hq
  refine ⟨?_, ?_, Nat.le_refl _⟩
  · rw [hzero _ rfl]
    exact Nat.zero_add _
  · rw [hzero _ rfl]
    rfl

theorem toNat_add_ofNat {x : UInt32} (h : x.toNat + n < 2 ^ 32) :
    (x + UInt32.ofNat n).toNat = x.toNat + n := by
  rw [UInt32.toNat_add, UInt32.toNat_ofNat', Nat.mod_eq_of_lt (a := n) (by omega),
    Nat.mod_eq_of_lt h]

theorem toNat_succ {x : UInt32} (h : x.toNat + 1 < 2 ^ 32) : (x + 1).toNat = x.toNat + 1 :=
  toNat_add_ofNat h

theorem CountsOk.still (h : CountsOk s x cut) (hs : Still s s') :
    CountsOk s' x (cut + s.cuts s') where
  sum := by rw [hs.tally, hs.ids.tickets]; exact h.sum
  turns := by rw [hs.tally, hs.cuts]; exact h.turns
  short := by rw [hs.cuts]; exact h.short

theorem CountsOk.submitted (h : CountsOk s x cut) (hs : Submitted s s' j) :
    CountsOk s' x (cut + s.cuts s') where
  sum := by
    have := h.sum
    have hq := hs.tally JobState.active
    simp only [JobState.active, Bool.toNat_true, Bool.toNat_false] at hq
    rw [hs.tickets]
    omega
  turns := by
    have hq : s'.tally JobState.isSuspended = s.tally JobState.isSuspended :=
      hs.tally JobState.isSuspended
    rw [hq, hs.cuts]
    exact h.turns
  short := by rw [hs.cuts]; exact h.short

theorem CountsOk.bounded (h : CountsOk s x cut) (hn : s.tickets - cfg.jobs < 2 ^ 32) :
    x.completed.toNat + x.errors.toNat + x.cancelled.toNat + s.tally JobState.active < 2 ^ 32 := by
  have := h.sum
  omega

/-- A job that is over is given away. -/
theorem CountsOk.delivered (h : CountsOk s x cut) (he : (s.jobs j).state.ended = true)
    (hm : Moved s s' j .free) : CountsOk s' x (cut + s.cuts s') := by
  have ha : s'.tally JobState.active = s.tally JobState.active := by
    have := hm.tally JobState.active
    rwa [JobState.ended_not_active he] at this
  have hsu : s'.tally JobState.isSuspended = s.tally JobState.isSuspended := by
    have := hm.tally JobState.isSuspended
    cases hst : (s.jobs j).state <;> rw [hst] at this he <;> first | exact this | cases he
  have hc : s.cuts s' = 0 := by
    rw [hm.cuts]
    exact congrArg Bool.toNat (decide_eq_false fun h => nomatch h.2)
  refine ⟨?_, ?_, ?_⟩
  · rw [ha, hm.ids.tickets]
    exact h.sum
  · rw [hsu, hc]
    exact h.turns
  · rw [hc]
    exact h.short

theorem CountsOk.cancelled (h : CountsOk s x cut) (hn : s.tickets - cfg.jobs < 2 ^ 32)
    (hr : (s.jobs j).runnable = true) (hm : Moved s s' j .cancelled) :
    CountsOk s' { x with cancelled := x.cancelled + 1 } (cut + s.cuts s') := by
  have ha : s'.tally JobState.active + 1 = s.tally JobState.active := by
    have := hm.tally JobState.active
    rwa [runnable_active hr] at this
  have hsu : s'.tally JobState.isSuspended + s.cuts s' = s.tally JobState.isSuspended := by
    have := hm.tally JobState.isSuspended
    rw [hm.cuts]
    simpa [JobState.isSuspended] using this
  have hc : s.cuts s' ≤ 1 := by
    rw [hm.cuts]
    exact Bool.toNat_le _
  have hb := h.bounded hn
  have hone : (x.cancelled + 1).toNat = x.cancelled.toNat + 1 := toNat_succ (by omega)
  refine ⟨?_, ?_, ?_⟩
  · have := h.sum
    rw [hm.ids.tickets]
    show x.completed.toNat + x.errors.toNat + (x.cancelled + 1).toNat + _ + _ = _
    omega
  · rw [show s'.tally JobState.isSuspended + (cut + s.cuts s') =
      s.tally JobState.isSuspended + cut by omega]
    exact h.turns
  · have := h.short
    show _ ≤ (x.cancelled + 1).toNat
    omega

theorem CountsOk.destroyed (h : CountsOk s x cut) (hn : s.tickets - cfg.jobs < 2 ^ 32)
    (hi : SameIds s s') (hd : ∀ j, s'.jobs j = destroyJob p (s.jobs j)) :
    CountsOk s' { x with cancelled := x.cancelled + UInt32.ofNat (s.doomed p) }
      (cut + s.cuts s') := by
  have ha := tally_destroy hd
  have hsu := suspended_destroy hd
  have hc := cuts_le_doomed hd
  have hb := h.bounded hn
  have hmany : (x.cancelled + UInt32.ofNat (s.doomed p)).toNat =
      x.cancelled.toNat + s.doomed p := toNat_add_ofNat (by omega)
  refine ⟨?_, ?_, ?_⟩
  · have := h.sum
    rw [hi.tickets]
    show x.completed.toNat + x.errors.toNat +
      (x.cancelled + UInt32.ofNat (s.doomed p)).toNat + _ + _ = _
    omega
  · rw [show s'.tally JobState.isSuspended + (cut + s.cuts s') =
      s.tally JobState.isSuspended + cut by omega]
    exact h.turns
  · have := h.short
    show _ ≤ (x.cancelled + UInt32.ofNat (s.doomed p)).toNat
    omega

/-- The job goes from `RUNNING` or back to it: no job is counted. -/
theorem cuts_of_running (hm : Moved s s' j st) (h : (s.jobs j).state = .running ∨ st ≠ .cancelled) :
    s.cuts s' = 0 := by
  rw [hm.cuts]
  refine congrArg Bool.toNat (decide_eq_false fun hc => ?_)
  rcases h with h | h
  · rw [h] at hc
    exact nomatch hc.1
  · exact h hc.2

theorem CountsOk.picked (h : CountsOk s x cut) (hr : (s.jobs j).runnable = true)
    (hm : Moved s s' j .running) :
    CountsOk s' (x.count s elapsed (.pick j)) (cut + s.cuts s') := by
  have hc := cuts_of_running hm (.inr fun h => nomatch h)
  have ha : s'.tally JobState.active = s.tally JobState.active := by
    have := hm.tally JobState.active
    rw [runnable_active hr] at this
    exact Nat.add_right_cancel this
  have hsu := hm.tally JobState.isSuspended
  have hsum : x.completed.toNat + x.errors.toNat + x.cancelled.toNat +
      s'.tally JobState.active + cfg.jobs = s'.tickets := by
    rw [ha, hm.ids.tickets]
    exact h.sum
  unfold Stats.count
  dsimp only
  split
  · rename_i hst
    refine ⟨hsum, ?_, by rw [hc]; exact h.short⟩
    rw [hst] at hsu
    have hsu : s'.tally JobState.isSuspended + 1 = s.tally JobState.isSuspended := hsu
    show x.preemptions - (x.resumes + 1) = _
    rw [show x.preemptions - (x.resumes + 1) = x.preemptions - x.resumes - 1 by grind, h.turns,
      ← hsu, hc]
    rw [show s'.tally JobState.isSuspended + 1 + cut =
      s'.tally JobState.isSuspended + (cut + 0) + 1 by omega, UInt32.ofNat_add]
    exact UInt32.add_sub_cancel _ _
  · rename_i hst
    refine ⟨hsum, ?_, by rw [hc]; exact h.short⟩
    have hsus : s'.tally JobState.isSuspended = s.tally JobState.isSuspended := by
      rw [show JobState.isSuspended (s.jobs j).state = false from decide_eq_false hst] at hsu
      exact hsu
    rw [hsus, hc]
    exact h.turns

theorem CountsOk.settled (h : CountsOk s x cut) (hn : s.tickets - cfg.jobs < 2 ^ 32)
    (hr : (s.jobs j).state = .running) (hm : Moved s s' j (outcome ret)) :
    CountsOk s' (x.count s elapsed (.settle j ret)) (cut + s.cuts s') := by
  have hc := cuts_of_running hm (.inl hr)
  have ha := hm.tally JobState.active
  have hsu := hm.tally JobState.isSuspended
  have hb := h.bounded hn
  have hsum := h.sum
  rw [hr] at ha hsu
  unfold outcome at ha hsu
  unfold Stats.count
  dsimp only
  by_cases hi : ret = eintr
  · rw [if_pos hi]
    rw [if_pos hi] at ha hsu
    have ha : s'.tally JobState.active + 1 = s.tally JobState.active + 1 := ha
    have hsu : s'.tally JobState.isSuspended = s.tally JobState.isSuspended + 1 := hsu
    refine ⟨?_, ?_, by rw [hc]; exact h.short⟩
    · rw [hm.ids.tickets]
      show x.completed.toNat + x.errors.toNat + x.cancelled.toNat + _ + _ = _
      omega
    · show x.preemptions + 1 - x.resumes = _
      rw [hc, hsu, show s.tally JobState.isSuspended + 1 + (cut + 0) =
        s.tally JobState.isSuspended + cut + 1 by omega, UInt32.ofNat_add, ← h.turns]
      grind
  · rw [if_neg hi]
    rw [if_neg hi] at ha hsu
    have hsus : s'.tally JobState.isSuspended = s.tally JobState.isSuspended := by
      by_cases h0 : ret = 0
      · rw [if_pos h0] at hsu
        exact hsu
      · rw [if_neg h0] at hsu
        exact hsu
    have hact : s'.tally JobState.active + 1 = s.tally JobState.active := by
      by_cases h0 : ret = 0
      · rw [if_pos h0] at ha
        exact ha
      · rw [if_neg h0] at ha
        exact ha
    have hturns : x.preemptions - x.resumes =
        UInt32.ofNat (s'.tally JobState.isSuspended + (cut + s.cuts s')) := by
      rw [hsus, hc]
      exact h.turns
    have hlate : ∀ {y : Stats} {m : UInt32} {c : Prop} [Decidable c],
        CountsOk s' y (cut + s.cuts s') →
        CountsOk s' (if c then { y with deadlineMisses := m } else y) (cut + s.cuts s') := by
      intro y m c _ hy
      split
      · exact ⟨hy.sum, hy.turns, hy.short⟩
      · exact hy
    refine hlate ?_
    split
    · have hone : (x.completed + 1).toNat = x.completed.toNat + 1 := toNat_succ (by omega)
      refine ⟨?_, hturns, by rw [hc]; exact h.short⟩
      rw [hm.ids.tickets]
      show (x.completed + 1).toNat + x.errors.toNat + x.cancelled.toNat + _ + _ = _
      omega
    · have hone : (x.errors + 1).toNat = x.errors.toNat + 1 := toNat_succ (by omega)
      refine ⟨?_, hturns, by rw [hc]; exact h.short⟩
      rw [hm.ids.tickets]
      show x.completed.toNat + (x.errors + 1).toNat + x.cancelled.toNat + _ + _ = _
      omega

theorem CountsOk.done (h : CountsOk s x cut) (hn : s.tickets - cfg.jobs < 2 ^ 32)
    (hd : Done s s' d) : CountsOk s' (x.count s elapsed d) (cut + s.cuts s') := by
  cases d with
  | still => exact h.still hd
  | submit j => exact h.submitted hd
  | cancel j => exact h.cancelled hn hd.1 hd.2
  | destroy p => exact h.destroyed hn hd.1 hd.2
  | deliver j => exact h.delivered hd.1 hd.2
  | pick j => exact h.picked hd.1 hd.2
  | settle j ret => exact h.settled hn hd.1 hd.2

/-- With fewer than 2^32 submissions the difference has not wrapped. -/
theorem CountsOk.difference (h : CountsOk s x cut) (hn : s.tickets - cfg.jobs < 2 ^ 32) :
    (x.preemptions - x.resumes).toNat = s.tally JobState.isSuspended + cut := by
  have hle : s.tally JobState.isSuspended ≤ s.tally JobState.active :=
    Finset.sum_le_sum fun j _ => by cases (s.jobs j).state <;> decide
  have hb := h.bounded hn
  have hc := h.short
  rw [h.turns, UInt32.toNat_ofNat', Nat.mod_eq_of_lt (by omega)]

-- ---------------------------------------------------------------------------
-- Deliveries
-- ---------------------------------------------------------------------------

/-- Neither "not yet" nor "no such job". -/
def isResult (r : Ret) : Bool := decide (r ≠ ebusy ∧ r ≠ enoent)

/-- No id has two results, and an id with a result is nobody's any more. -/
structure DeliveriesOk (s : Sched cfg) (l : List (Nat × Ret)) : Prop where
  once : ∀ id, (l.countP fun e => decide (e.1 = id) && isResult e.2) ≤ 1
  gone : ∀ e ∈ l, isResult e.2 = true →
    e.1 + cfg.jobs ≤ s.tickets ∧ ∀ j, (s.jobs j).state ≠ .free → (s.jobs j).id ≠ e.1

theorem DeliveriesOk.init : DeliveriesOk (Sched.init cfg) [] :=
  ⟨fun _ => Nat.zero_le _, fun _ h => nomatch h⟩

theorem DeliveriesOk.goesOn (h : DeliveriesOk s l) (hi : SameIds s s')
    (hg : ∀ j, GoesOn (s.jobs j) (s'.jobs j)) : DeliveriesOk s' l where
  once := h.once
  gone e he hr := by
    obtain ⟨hle, hne⟩ := h.gone e he hr
    refine ⟨hi.tickets ▸ hle, fun j hf => ?_⟩
    rw [(hg j).named.2]
    exact hne j ((hg j).not_free hf)

theorem DeliveriesOk.submitted (h : DeliveriesOk s l) (hn : IdsOk s)
    (hlt : s'.tickets - cfg.jobs < 2 ^ 32) (hs : Submitted s s' j) : DeliveriesOk s' l where
  once := h.once
  gone e he hr := by
    obtain ⟨hle, hne⟩ := h.gone e he hr
    rw [hs.tickets] at hlt ⊢
    have hnext := hn.next (by have := hn.base; omega)
    refine ⟨by omega, fun i hf => ?_⟩
    rcases hs.eq_or i with rfl | hl
    · rw [(life_eq.mp hs.life).2.2]
      omega
    · rw [(life_eq.mp hl).2.2]
      exact hne i ((life_eq.mp hl).1 ▸ hf)

/-- A call that delivers nothing. -/
theorem DeliveriesOk.turnedAway (h : DeliveriesOk s l) (hr : isResult r = false) :
    DeliveriesOk s (l ++ [(n, r)]) where
  once id := by
    rw [List.countP_append]
    simpa [hr] using h.once id
  gone e he hres := by
    rcases List.mem_append.mp he with he | he
    · exact h.gone e he hres
    · rw [List.mem_singleton.mp he, hr] at hres
      cases hres

theorem DeliveriesOk.delivered (h : DeliveriesOk s l) (hn : IdsOk s) (hj : findJob s n = some j)
    (hm : Moved s s' j .free) : DeliveriesOk s' (l ++ [(n, r)]) := by
  obtain ⟨hf, hid⟩ := findJob_id hj
  obtain ⟨hjs, -, -⟩ := life_eq.mp hm.life
  -- another job has another id
  have hother : ∀ i, (s'.jobs i).state ≠ .free → i ≠ j ∧ (s.jobs i).state ≠ .free ∧
      (s'.jobs i).id = (s.jobs i).id := by
    intro i hi
    have hne : i ≠ j := fun he => hi (he ▸ hjs)
    obtain ⟨h1, -, h3⟩ := life_eq.mp (hm.other i hne)
    exact ⟨hne, h1 ▸ hi, h3⟩
  refine ⟨fun id => ?_, fun e he hres => ?_⟩
  · rw [List.countP_append]
    by_cases he : n = id
    · have hzero : (l.countP fun e => decide (e.1 = id) && isResult e.2) = 0 := by
        refine List.countP_eq_zero.mpr fun e hmem hc => ?_
        simp only [Bool.and_eq_true, decide_eq_true_eq] at hc
        exact (h.gone e hmem hc.2).2 j hf (by rw [hid, he, hc.1])
      rw [hzero, Nat.zero_add]
      exact List.countP_le_length
    · simpa [he] using h.once id
  · rw [hm.ids.tickets]
    rcases List.mem_append.mp he with he | he
    · obtain ⟨hle, hne⟩ := h.gone e he hres
      refine ⟨hle, fun i hi => ?_⟩
      obtain ⟨-, hfi, hii⟩ := hother i hi
      rw [hii]
      exact hne i hfi
    · rw [List.mem_singleton.mp he]
      obtain ⟨hb, hidj⟩ := hn.id j hf
      have hold := hn.old j
      refine ⟨by omega, fun i hi he => ?_⟩
      obtain ⟨hne, hfi, hii⟩ := hother i hi
      have hidi := (hn.id i hfi).2
      rw [hii] at he
      have he : (s.jobs i).id = n := he
      exact hne (hn.apart i j (by omega))

theorem deed_getResult (h : findJob s n = some j) (he : (s.jobs j).state.ended = true) :
    deed s (.getResult n) = .deliver j := by
  unfold deed
  simp only [h, he, ↓reduceIte]

/-- `get_result` delivers when the job is over, and only then. -/
theorem getResultRet_cases (s : Sched cfg) (n : Nat) :
    isResult (getResultRet s n) = false ∨
      ∃ j, findJob s n = some j ∧ (s.jobs j).state.ended = true := by
  unfold getResultRet
  split
  · exact .inl rfl
  · rename_i j hj
    split
    · rename_i hst
      exact .inr ⟨j, hj, by rw [hst]; rfl⟩
    · rename_i hst
      exact .inr ⟨j, hj, by rw [hst]; rfl⟩
    · rename_i hst
      exact .inr ⟨j, hj, by rw [hst]; rfl⟩
    · exact .inl rfl

/-- What a call of `get_result` adds. -/
theorem DeliveriesOk.getResult (h : DeliveriesOk s l) (hn : IdsOk s)
    (hd : Done s s' (deed s (.getResult n))) : DeliveriesOk s' (l ++ [(n, getResultRet s n)]) := by
  rcases getResultRet_cases s n with hr | ⟨j, hj, he⟩
  · have hsub : ∀ j, deed s (.getResult n) ≠ .submit j := by
      intro j
      unfold deed
      dsimp only
      split
      · exact fun h => nomatch h
      · split <;> exact fun h => nomatch h
    obtain ⟨hi, hg⟩ := hd.goesOn hsub
    exact (h.goesOn hi hg).turnedAway hr
  · rw [deed_getResult hj he] at hd
    exact h.delivered hn hj hd.2

end SynapticOS.Infer
