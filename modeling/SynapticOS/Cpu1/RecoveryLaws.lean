import SynapticOS.Cpu1.Boot

/-!
# When CPU1 is restarted

The monitor parks CPU1 and releases it again exactly when the heartbeat has stood still for
longer than the threshold, as the checks have seen it, and every such recovery comes to its
end whatever the other threads do.
-/

namespace SynapticOS.Cpu1

open Lib

variable {s : State} {hangMs : Int} {cs older : List Check} {hb : UInt32} {t : Int}

-- ---------------------------------------------------------------------------
-- The checks
-- ---------------------------------------------------------------------------

/-- The heartbeat has stood still since an earlier check, for longer than the threshold, and
every check from that one on has seen it with the link up. -/
def Stalled (hangMs : Int) (older : List Check) (c : Check) : Prop :=
  ∃ hb, c.seen = some hb ∧ ∃ between first before, older = between ++ first :: before ∧
    (∀ q ∈ between ++ [first], q.seen = some hb ∧ q.recover = false) ∧
      hangMs < c.now - first.now

/-- What the checks so far say of the heartbeat, and since when. -/
def since : List Check → Option (UInt32 × Int)
  | [] => none
  | c :: older =>
    if c.recover then none
    else
      match c.seen, since older with
      | none, _ => none
      | some hb, none => some (hb, c.now)
      | some hb, some (hb', t) => if hb' = hb then some (hb, t) else some (hb, c.now)

/-- The first check that saw the heartbeat as it is. -/
theorem since_first (h : since cs = some (hb, t)) : ∃ between first before,
    cs = between ++ first :: before ∧
      (∀ q ∈ between ++ [first], q.seen = some hb ∧ q.recover = false) ∧ first.now = t := by
  induction cs generalizing hb t with
  | nil => cases h
  | cons c older ih =>
    unfold since at h
    split_ifs at h with hr
    have hr := Bool.eq_false_of_not_eq_true hr
    have halone : c.seen = some hb → c.now = t → ∃ between first before,
        c :: older = between ++ first :: before ∧
          (∀ q ∈ between ++ [first], q.seen = some hb ∧ q.recover = false) ∧ first.now = t :=
      fun hseen hnow => ⟨[], c, older, rfl, by simp [hseen, hr], hnow⟩
    split at h
    · cases h
    next hb₁ hseen _ =>
      obtain ⟨rfl, rfl⟩ := Prod.mk.inj (Option.some.inj h)
      exact halone hseen rfl
    next hb₁ hb' t' hseen hold =>
      split_ifs at h with he
      · obtain ⟨rfl, rfl⟩ := Prod.mk.inj (Option.some.inj h)
        subst he
        obtain ⟨between, first, before, hcs, hall, hnow⟩ := ih hold
        refine ⟨c :: between, first, before, by rw [hcs, List.cons_append], ?_, hnow⟩
        simpa [hseen, hr] using hall
      · obtain ⟨rfl, rfl⟩ := Prod.mk.inj (Option.some.inj h)
        exact halone hseen rfl

/-- A later time stands before an earlier one. -/
def Newest (cs : List Check) : Prop := cs.Pairwise fun a b => b.now ≤ a.now

/-- Checks that saw the same heartbeat are part of the stretch. -/
theorem since_of_stretch {between before : List Check} {first : Check}
    (hcs : Newest (between ++ first :: before))
    (hall : ∀ q ∈ between ++ [first], q.seen = some hb ∧ q.recover = false) :
    ∃ t ≤ first.now, since (between ++ first :: before) = some (hb, t) := by
  induction between with
  | nil =>
    obtain ⟨hseen, hr⟩ := hall first (by simp)
    unfold since
    simp only [List.nil_append, hr, hseen, Bool.false_eq_true, if_false]
    cases hold : since before with
    | none => exact ⟨first.now, le_refl _, rfl⟩
    | some p =>
      obtain ⟨hb', t⟩ := p
      dsimp only
      split_ifs with he
      · obtain ⟨between', first', before', rfl, -, rfl⟩ := since_first hold
        refine ⟨first'.now, ?_, rfl⟩
        exact List.rel_of_pairwise_cons hcs (by simp)
      · exact ⟨first.now, le_refl _, rfl⟩
  | cons c between ih =>
    obtain ⟨hseen, hr⟩ := hall c (by simp)
    obtain ⟨t, ht, hold⟩ := ih hcs.of_cons fun q hq => hall q (by simp at hq ⊢; tauto)
    refine ⟨t, ht, ?_⟩
    rw [List.cons_append]
    unfold since
    simp [hr, hseen, hold]

theorem stalled_iff {c : Check} (hcs : Newest older) (hseen : c.seen = some hb) :
    Stalled hangMs older c ↔ ∃ t, since older = some (hb, t) ∧ hangMs < c.now - t := by
  constructor
  · rintro ⟨hb', hseen', between, first, before, rfl, hall, hlt⟩
    obtain rfl : hb = hb' := Option.some.inj (hseen.symm.trans hseen')
    obtain ⟨t, ht, hold⟩ := since_of_stretch hcs hall
    exact ⟨t, hold, by omega⟩
  · rintro ⟨t, hold, hlt⟩
    obtain ⟨between, first, before, rfl, hall, rfl⟩ := since_first hold
    exact ⟨hb, hseen, between, first, before, rfl, hall, hlt⟩

-- ---------------------------------------------------------------------------
-- The tracker
-- ---------------------------------------------------------------------------

/-- The tracker holds what the checks so far say, unless a recovery is under way. -/
def Tracks (s : State) : Prop :=
  match s.monitor with
  | .asleep | .linked =>
    since s.checks = if s.tracker.primed then some
        (s.tracker.lastHb, s.tracker.lastChange) else none
  | .stopping _ | .resuming _ => since s.checks = none

/-- Every check restarts CPU1 if and only if it finds it stalled. -/
def Exact (hangMs : Int) : List Check → Prop
  | [] => True
  | c :: older => (c.recover = true ↔ Stalled hangMs older c) ∧ Exact hangMs older

structure Watches (hangMs : Int) (s : State) : Prop where
  tracks : Tracks s
  exact : Newest s.checks → Exact hangMs s.checks

theorem watches_of_eq {s' : State} (h : Watches hangMs s) (hm : s'.monitor = s.monitor)
    (ht : s'.tracker = s.tracker) (hc : s'.checks = s.checks) : Watches hangMs s' := by
  refine ⟨?_, by rw [hc]; exact h.exact⟩
  have := h.tracks
  unfold Tracks at this ⊢
  rw [hm, ht, hc]
  exact this

theorem watches_recovered (hs : since s.checks = none)
    (hx : Newest s.checks → Exact hangMs s.checks) (e : Option Errno) :
    Watches hangMs (recovered e s) := ⟨by simpa [Tracks, recovered] using hs, hx⟩

theorem watches_stopped (hs : since s.checks = none)
    (hx : Newest s.checks → Exact hangMs s.checks) (e : Option Errno) :
    Watches hangMs (stopped e s) := by
  unfold stopped
  cases e with
  | some e => exact watches_recovered hs hx _
  | none =>
    dsimp only
    split
    · exact ⟨hs, hx⟩
    · exact watches_recovered hs hx _

theorem watches_look (h : Watches hangMs s) (now : Int) : Watches hangMs (look now s) := by
  unfold look
  split
  next hm =>
    split_ifs
    · refine ⟨?_, h.exact⟩
      have := h.tracks
      unfold Tracks at this ⊢
      rw [hm] at this
      exact this
    · refine ⟨by simp [Tracks, hm, since], fun hn => ⟨?_, h.exact hn.of_cons⟩⟩
      constructor
      · intro hr
        cases hr
      · rintro ⟨hb, hseen, -⟩
        cases hseen
  · exact h

theorem watches_see (h : Watches hangMs s) (now : Int) : Watches hangMs (see hangMs now s) := by
  unfold see
  split
  next hm =>
    have htr := h.tracks
    unfold Tracks at htr
    simp only [hm] at htr
    dsimp only
    split_ifs with hipc hnew hle
    · exact ⟨htr, h.exact⟩
    · -- the heartbeat is another one, or nothing is known of it
      have hno : ∀ t, since s.checks ≠ some (s.soc.heartbeat, t) := by
        intro t ht
        rw [htr] at ht
        split_ifs at ht with hp
        obtain ⟨heq, -⟩ := Prod.mk.inj (Option.some.inj ht)
        rcases hnew with hn | hn
        · simp [hp] at hn
        · exact hn heq.symm
      refine ⟨?_, fun hn => ⟨?_, h.exact hn.of_cons⟩⟩
      · simp only [Tracks, since]
        cases hold : since s.checks with
        | none => simp
        | some p =>
          obtain ⟨hb, t⟩ := p
          have hne : hb ≠ s.soc.heartbeat := fun he => hno t (he ▸ hold)
          simp [hne]
      · rw [stalled_iff hn.of_cons rfl]
        constructor
        · intro hr
          cases hr
        · rintro ⟨t, ht, -⟩
          exact absurd ht (hno t)
    · -- the heartbeat stands still, but not for long
      obtain ⟨hp, heq⟩ : s.tracker.primed = true ∧ s.soc.heartbeat = s.tracker.lastHb := by
        simpa using hnew
      rw [hp, if_pos rfl] at htr
      refine ⟨?_, fun hn => ⟨?_, h.exact hn.of_cons⟩⟩
      · simp [Tracks, since, htr, hp, heq]
      · rw [stalled_iff hn.of_cons rfl, htr]
        constructor
        · intro hr
          cases hr
        · rintro ⟨t, ht, hlt⟩
          obtain ⟨-, rfl⟩ := Prod.mk.inj (Option.some.inj ht)
          exact absurd hle (Int.not_le.mpr hlt)
    · obtain ⟨hp, heq⟩ : s.tracker.primed = true ∧ s.soc.heartbeat = s.tracker.lastHb := by
        simpa using hnew
      rw [hp, if_pos rfl] at htr
      have hx : Newest (⟨now, some s.soc.heartbeat, true⟩ :: s.checks) →
          Exact hangMs (⟨now, some s.soc.heartbeat, true⟩ :: s.checks) := by
        refine fun hn => ⟨?_, h.exact hn.of_cons⟩
        rw [stalled_iff hn.of_cons rfl]
        exact ⟨fun _ => ⟨s.tracker.lastChange, heq ▸ htr, Int.not_le.mp hle⟩, fun _ => rfl⟩
      split
      · exact ⟨by simp [Tracks, since], hx⟩
      · exact watches_stopped (by simp [since]) hx _
  · exact h

theorem watches_monitorNext (h : Watches hangMs s) : Watches hangMs (monitorNext s) := by
  have htr := h.tracks
  unfold Tracks at htr
  unfold monitorNext
  split
  next hm =>
    rw [hm] at htr
    dsimp only [goOn]
    split
    · exact ⟨htr, h.exact⟩
    · refine watches_stopped ?_ ?_ _
      · exact htr
      · exact h.exact
  next hm =>
    rw [hm] at htr
    dsimp only [goOn]
    split
    · exact ⟨htr, h.exact⟩
    · refine watches_recovered ?_ ?_ _
      · exact htr
      · exact h.exact
  · exact h

/-- The step of another thread. -/
theorem goOn_monitor {k : Out → State → State} (budget : UInt32) (pc : Pc) (s : State)
    (hk : ∀ out s', (k out s').monitor = s'.monitor ∧ (k out s').tracker = s'.tracker ∧
      (k out s').checks = s'.checks) :
    (goOn budget pc k s).monitor = s.monitor ∧ (goOn budget pc k s).tracker = s.tracker ∧
      (goOn budget pc k s).checks = s.checks := hk _ _

def Op.isMonitor : Op → Bool
  | .look _ | .see _ | .monitorNext => true
  | _ => false

/-- The other threads leave the monitor where it is. -/
theorem step_other (hangMs : Int) (s : State) {o : Op} (ho : o.isMonitor = false) :
    (step hangMs s o).monitor = s.monitor ∧ (step hangMs s o).tracker = s.tracker ∧
      (step hangMs s o).checks = s.checks := by
  cases o with
  | look | see | monitorNext => cases ho
  | attach | beat | request | ipcInit | hangCpu1 | handle => exact ⟨rfl, rfl, rfl⟩
  | boot sharedBase timeoutMs bank1 =>
    simp only [step, boot]
    split
    · exact ⟨rfl, rfl, rfl⟩
    · split <;> exact ⟨rfl, rfl, rfl⟩
  | bootNext =>
    simp only [step, bootNext]
    split
    · exact ⟨rfl, rfl, rfl⟩
    · exact goOn_monitor _ _ _ fun _ _ => ⟨rfl, rfl, rfl⟩
  | park =>
    simp only [step, park]
    split
    · split_ifs
      · split <;> exact ⟨rfl, rfl, rfl⟩
      · exact ⟨rfl, rfl, rfl⟩
    · split_ifs
      · split <;> exact ⟨rfl, rfl, rfl⟩
      · exact ⟨rfl, rfl, rfl⟩
    · exact ⟨rfl, rfl, rfl⟩
  | sessionNext =>
    simp only [step, sessionNext]
    split
    · exact goOn_monitor _ _ _ fun out _ => by cases out <;> exact ⟨rfl, rfl, rfl⟩
    · exact goOn_monitor _ _ _ fun out _ => by cases out <;> exact ⟨rfl, rfl, rfl⟩
    · exact ⟨rfl, rfl, rfl⟩
  | unpark =>
    simp only [step, unpark]
    split
    · split_ifs
      · split <;> exact ⟨rfl, rfl, rfl⟩
      · exact ⟨rfl, rfl, rfl⟩
    · exact ⟨rfl, rfl, rfl⟩

theorem watches_step (h : Watches hangMs s) (o : Op) : Watches hangMs (step hangMs s o) := by
  cases ho : o.isMonitor with
  | false =>
    obtain ⟨hm, ht, hc⟩ := step_other hangMs s ho
    exact watches_of_eq h hm ht hc
  | true =>
    cases o with
    | look now => exact watches_look h now
    | see now => exact watches_see h now
    | monitorNext => exact watches_monitorNext h
    | _ => cases ho

theorem Watches.init : Watches hangMs .init := ⟨rfl, fun _ => trivial⟩

-- ---------------------------------------------------------------------------
-- The clock
-- ---------------------------------------------------------------------------

/-- `k_uptime_get` in a step of the monitor. -/
def Op.time : Op → Option Int
  | .look now | .see now => some now
  | _ => none

theorem stopped_checks (e : Option Errno) (s : State) : (stopped e s).checks = s.checks := by
  unfold stopped
  cases e with
  | some e => rfl
  | none => cases bootSecondaryResume cpu1ResumeTimeoutMs s.soc <;> rfl

/-- A step records one check at most, at its own time. -/
theorem step_checks (hangMs : Int) (s : State) (o : Op) : (step hangMs s o).checks = s.checks ∨
    ∃ c, o.time = some c.now ∧ (step hangMs s o).checks = c :: s.checks := by
  cases ho : o.isMonitor with
  | false => exact .inl (step_other hangMs s ho).2.2
  | true =>
    cases o with
    | look now =>
      simp only [step, look]
      split
      · split_ifs
        · exact .inl rfl
        · exact .inr ⟨_, rfl, rfl⟩
      · exact .inl rfl
    | see now =>
      simp only [step, see]
      split
      · split_ifs
        · exact .inl rfl
        · exact .inr ⟨_, rfl, rfl⟩
        · exact .inr ⟨_, rfl, rfl⟩
        · refine .inr ⟨⟨now, some s.soc.heartbeat, true⟩, rfl, ?_⟩
          split
          · rfl
          · exact stopped_checks _ _
      · exact .inl rfl
    | monitorNext =>
      refine .inl ?_
      simp only [step, monitorNext]
      split
      · dsimp only [goOn]
        split
        · rfl
        · exact stopped_checks _ _
      · dsimp only [goOn]
        split <;> rfl
      · rfl
    | _ => cases ho

/-- The clock does not go back. -/
def Clocked (l : List Op) : Prop := (l.filterMap Op.time).Pairwise (· ≤ ·)

instance (l : List Op) : Decidable (Clocked l) := inferInstanceAs (Decidable (List.Pairwise ..))

/-- The checks of a run stand in the order of the clock. -/
theorem newest_run (l : List Op) (hl : Clocked l) :
    Newest (run (step hangMs) .init l).checks ∧
      ∀ c ∈ (run (step hangMs) .init l).checks, c.now ∈ l.filterMap Op.time := by
  induction l using List.reverseRecOn with
  | nil => exact ⟨.nil, fun c hc => absurd hc List.not_mem_nil⟩
  | append_singleton l o ih =>
    unfold Clocked at hl
    rw [List.filterMap_append, List.pairwise_append] at hl
    obtain ⟨hfront, -, hle⟩ := hl
    obtain ⟨hnew, hmem⟩ := ih hfront
    rw [run_append, List.filterMap_append]
    simp only [run_cons, run_nil, List.mem_append]
    rcases step_checks hangMs (run (step hangMs) .init l) o with he | ⟨c, htime, he⟩
    · rw [he]
      exact ⟨hnew, fun c hc => .inl (hmem c hc)⟩
    · rw [he]
      have hlast : c.now ∈ [o].filterMap Op.time := by simp [htime]
      refine ⟨List.pairwise_cons.mpr ⟨fun q hq => hle _ (hmem q hq) _ hlast, hnew⟩, fun q hq => ?_⟩
      rcases List.mem_cons.mp hq with rfl | hq
      · exact .inr hlast
      · exact .inl (hmem q hq)

-- ---------------------------------------------------------------------------
-- The end of a recovery
-- ---------------------------------------------------------------------------

/-- How many accesses are left, when the waits take as long as they can. -/
def Pc.left (budgetUs : UInt32) : Pc → Nat
  | .stopAssert => 4
  | .stopGate => 3
  | .stopReady => 2
  | .stopLink => 1
  | .resumeReady => 4 + pollsLeft 0
  | .resumeLink => 3 + pollsLeft 0
  | .assertReset => 2 + pollsLeft 0
  | .releaseReset => 1 + pollsLeft 0
  | .pollReady w => pollsLeft w.toNat
  | .testReady w => 3 + (budgetUs.toNat + 999 - w.toNat) / 1000
  | .pollLink w => 2 + (budgetUs.toNat + 999 - w.toNat) / 1000
  | .testLink => 1
where
  pollsLeft (w : Nat) : Nat :=
    4 + (budgetUs.toNat + 99 - w) / 100 + (budgetUs.toNat + 999 - w) / 1000

/-- Every access brings the end nearer, whatever it finds. -/
theorem next_left (soc : Soc) {budget : UInt32} (hb : budget.toNat + 1000 < 2 ^ 32) (pc : Pc)
    (h : (pc.next budget soc).2 = .at pc') : pc'.left budget + 1 ≤ pc.left budget := by
  cases pc
  case pollReady w =>
    simp only [Pc.next] at h
    split_ifs at h with hw
    · cases h
      have hlt : w.toNat < budget.toNat := hw.2
      have hadd : (w + 100).toNat = w.toNat + 100 := by
        rw [UInt32.toNat_add]
        exact Nat.mod_eq_of_lt (by simp; omega)
      simp only [Pc.left, Pc.left.pollsLeft, hadd]
      omega
    · cases h
      simp only [Pc.left, Pc.left.pollsLeft]
      omega
  case testReady w =>
    simp only [Pc.next] at h
    split_ifs at h
    · cases h
      simp only [Pc.left]
      omega
  case pollLink w =>
    simp only [Pc.next] at h
    split_ifs at h with hw
    · cases h
      have hlt : w.toNat < budget.toNat := hw.2
      have hadd : (w + 1000).toNat = w.toNat + 1000 := by
        rw [UInt32.toNat_add]
        exact Nat.mod_eq_of_lt (by simp; omega)
      simp only [Pc.left, hadd]
      omega
    · cases h
      simp only [Pc.left]
      omega
  case testLink =>
    simp only [Pc.next] at h
    split_ifs at h
  case stopLink => cases h
  all_goals
    cases h
    simp only [Pc.left, Pc.left.pollsLeft]
    try simp
    try omega

/-- The accesses that a recovery has left. -/
def Monitor.left : Monitor → Nat
  | .stopping pc => pc.left 0 + Pc.resumeReady.left (budgetUs cpu1ResumeTimeoutMs)
  | .resuming pc => pc.left (budgetUs cpu1ResumeTimeoutMs)
  | _ => 0

def Monitor.recovers : Monitor → Bool
  | .stopping _ | .resuming _ => true
  | _ => false

theorem stopped_left (e : Option Errno) (s : State) : (stopped e s).monitor = .asleep ∨
    (stopped e s).monitor = .resuming .resumeReady := by
  unfold stopped
  cases e with
  | some e => exact .inl rfl
  | none =>
    dsimp only [bootSecondaryResume]
    split_ifs
    · exact .inl rfl
    · exact .inl rfl
    · exact .inr rfl

theorem monitorNext_left (h : s.monitor.recovers = true) : (monitorNext s).monitor = .asleep ∨
    (monitorNext s).monitor.recovers = true ∧
      (monitorNext s).monitor.left + 1 ≤ s.monitor.left := by
  unfold monitorNext
  split
  next pc hm =>
    dsimp only [goOn]
    split
    next pc' hpc =>
      refine .inr ⟨rfl, ?_⟩
      have := next_left s.soc (by decide) pc hpc
      simp only [hm, Monitor.left]
      omega
    next e _ =>
      rcases stopped_left e { s with soc := (pc.next 0 s.soc).1 } with he | he
      · exact .inl he
      · refine .inr ⟨by rw [he]; rfl, ?_⟩
        have hpos : 1 ≤ pc.left 0 := by cases pc <;> simp [Pc.left, Pc.left.pollsLeft] <;> omega
        rw [he, hm]
        simp only [Monitor.left]
        omega
  next pc hm =>
    dsimp only [goOn]
    split
    next pc' hpc =>
      refine .inr ⟨rfl, ?_⟩
      have := next_left s.soc (by decide) pc hpc
      simpa [hm, Monitor.left] using this
    · exact .inl rfl
  next h1 h2 =>
    cases hm : s.monitor with
    | stopping pc => exact absurd hm (h1 pc)
    | resuming pc => exact absurd hm (h2 pc)
    | _ =>
      rw [hm] at h
      cases h

/-- The other steps neither end a recovery nor make it longer. -/
theorem step_recovering (h : s.monitor.recovers = true) {o : Op} (ho : o ≠ .monitorNext) :
    (step hangMs s o).monitor = s.monitor := by
  cases hom : o.isMonitor with
  | false => exact (step_other hangMs s hom).1
  | true =>
    cases o with
    | look now =>
      simp only [step, look]
      split
      next hm =>
        rw [hm] at h
        cases h
      · rfl
    | see now =>
      simp only [step, see]
      split
      next hm =>
        rw [hm] at h
        cases h
      · rfl
    | monitorNext => exact absurd rfl ho
    | _ => cases hom

theorem recovery_ends (hangMs : Int) (l : List Op) (h : s.monitor.recovers = true)
    (hl : s.monitor.left ≤ l.count .monitorNext) :
    ∃ l₁, l₁ <+: l ∧ (run (step hangMs) s l₁).monitor = .asleep := by
  induction l generalizing s with
  | nil =>
    have hpos : 1 ≤ s.monitor.left := by
      cases hm : s.monitor with
      | stopping pc =>
        simp [Monitor.left, Pc.left]
        omega
      | resuming pc => cases pc <;> simp [Monitor.left, Pc.left, Pc.left.pollsLeft] <;> omega
      | _ =>
        rw [hm] at h
        cases h
    rw [List.count_nil] at hl
    omega
  | cons o l ih =>
    have hstep : (step hangMs s o).monitor = .asleep ∨ (step hangMs s o).monitor.recovers = true ∧
        (step hangMs s o).monitor.left ≤ l.count .monitorNext := by
      by_cases ho : o = .monitorNext
      · subst ho
        rw [List.count_cons_self] at hl
        refine (monitorNext_left h).imp_right fun hr => ⟨hr.1, ?_⟩
        have := hr.2
        show (monitorNext s).monitor.left ≤ _
        omega
      · rw [List.count_cons_of_ne ho] at hl
        rw [step_recovering h ho]
        exact .inr ⟨h, hl⟩
    rcases hstep with ha | ⟨hr, hl'⟩
    · exact ⟨[o], by simp, ha⟩
    · obtain ⟨l₁, hpre, ha⟩ := ih hr hl'
      exact ⟨o :: l₁, List.cons_prefix_cons.mpr ⟨rfl, hpre⟩, ha⟩

/-- The accesses of the longest recovery. -/
def maxRecovery : Nat := 11016

theorem pollsLeft_le (budget : UInt32) (w : Nat) :
    Pc.left.pollsLeft budget w ≤ Pc.left.pollsLeft budget 0 := by
  unfold Pc.left.pollsLeft
  omega

theorem pcLeft_le (budget : UInt32) (pc : Pc) :
    pc.left budget ≤ 4 + Pc.left.pollsLeft budget 0 := by
  cases pc with
  | pollReady w =>
    have := pollsLeft_le budget w.toNat
    simp only [Pc.left]
    omega
  | _ =>
    simp only [Pc.left, Pc.left.pollsLeft]
    omega

theorem left_le (m : Monitor) : m.left ≤ maxRecovery := by
  cases m with
  | stopping pc =>
    have := pcLeft_le 0 pc
    have h0 : Pc.left.pollsLeft 0 0 = 4 := by decide
    have h1 : Pc.resumeReady.left (budgetUs cpu1ResumeTimeoutMs) = 11008 := by decide
    simp only [Monitor.left, maxRecovery]
    omega
  | resuming pc =>
    have := pcLeft_le (budgetUs cpu1ResumeTimeoutMs) pc
    have h1 : Pc.left.pollsLeft (budgetUs cpu1ResumeTimeoutMs) 0 = 11004 := by decide
    simp only [Monitor.left, maxRecovery]
    omega
  | _ => exact Nat.zero_le _

/-- In every run with a clock that does not go back: a check restarts CPU1 if and only if the
heartbeat has stood still, with the link up, at every check since one that is longer ago than
the threshold; and a restart is over after at most 11016 accesses of the monitor, whatever
the other threads do. -/
theorem stalled_restarted (hangMs : Int) (l : List Op) (hl : Clocked l) :
    Exact hangMs (run (step hangMs) .init l).checks ∧
      ∀ l', (run (step hangMs) .init l).monitor.recovers = true →
        maxRecovery ≤ l'.count .monitorNext →
          ∃ l₁, l₁ <+: l' ∧ (run (step hangMs) .init (l ++ l₁)).monitor = .asleep := by
  have hw : Watches hangMs (run (step hangMs) .init l) :=
    run_invariant l .init fun _ o h => watches_step h o
  refine ⟨hw.exact (newest_run l hl).1, fun l' hr hn => ?_⟩
  obtain ⟨l₁, hpre, ha⟩ := recovery_ends hangMs l' hr ((left_le _).trans hn)
  exact ⟨l₁, hpre, by rwa [run_append]⟩

/-- CPU1 comes up, links and hangs; the monitor looks at it three times. -/
def hangingEvents : List Op :=
  [.ipcInit, .boot true 200 ⟨false, false, false, false, 0, 0⟩, .bootNext, .bootNext, .attach,
    .request, .handle, .look 0, .see 0, .hangCpu1, .beat, .look 500, .see 500, .look 600, .see 600]

theorem stalled_restarted_hanging : Exact 500 (run (step 500) .init hangingEvents).checks ∧
    ∃ l₁, l₁ <+: List.replicate maxRecovery .monitorNext ∧
      (run (step 500) .init (hangingEvents ++ l₁)).monitor = .asleep := by
  obtain ⟨hx, hend⟩ := stalled_restarted 500 hangingEvents (by decide +kernel)
  exact ⟨hx, hend _ (by decide +kernel) (by simp)⟩

end SynapticOS.Cpu1
