import SynapticOS.HealthLaws
import SynapticOS.Lib.DeadMan
import Mathlib.Algebra.Order.Group.Int

/-!
# The watchdog

A round of the health thread looks at the sources, then at CPU1, which takes its time when CPU1
has to be restarted, and feeds the watchdog if every busy source was fresh at the look. The
other threads go on meanwhile. The watchdog resets the chip `timeoutMs` after it was fed.
-/

namespace SynapticOS.Health

open Lib DeadMan

variable {n : Nat}

structure Keeper (n : Nat) where
  monitor : Monitor n
  /-- The thread is past `check_sources`: since when, and what it returned. -/
  round : Option (Int × Bool)
  wdtArmed : Bool
  /-- When the watchdog was fed, the latest first. -/
  feeds : List Int
  /-- When a round came to its end, the latest first. -/
  rounds : List Int
  /-- The time of the last step. -/
  clock : Int

/-- After `syn_health_init`, which has armed the watchdog or not. -/
def Keeper.init (n : Nat) (wdtArmed : Bool) : Keeper n := ⟨.init n, none, wdtArmed, [], [], 0⟩

inductive Op
  /-- A call of another thread; the tick is `check_sources` of the health thread. -/
  | event (e : Event)
  /-- `check_cpu1` has returned. -/
  | feed

/-- The rest of a round. -/
def Keeper.feed (now : Int) (s : Keeper n) : Keeper n :=
  match s.round with
  | none => s
  | some (_, allOk) => { s with
      round := none
      feeds := if s.wdtArmed && allOk then now :: s.feeds else s.feeds
      rounds := now :: s.rounds }

def Keeper.check (now : Int) (s : Keeper n) : Keeper n :=
  if s.round.isSome then s
  else { s with
    monitor := s.monitor.step (now, .tick)
    round := some (now, (checkSources now s.monitor.health).1) }

def Keeper.step (s : Keeper n) : Int × Op → Keeper n
  | (now, .event .tick) => { s.check now with clock := now }
  | (now, .event e) => { s with monitor := s.monitor.step (now, e), clock := now }
  | (now, .feed) => { s.feed now with clock := now }

-- ---------------------------------------------------------------------------
-- The switch
-- ---------------------------------------------------------------------------

/-- Until when a source is fresh. -/
def Monitor.due (m : Monitor n) (i : Fin n) : Option Int :=
  if (m.health.sources i).name.isSome && (m.watch i).busy then
    some ((m.watch i).since + (m.health.sources i).periodMs.toNat)
  else none

/-- The health thread keeps a dead man's switch. -/
def Keeper.switch (s : Keeper n) : Switch (Fin n) Int := ⟨s.monitor.due, s.round, s.feeds⟩

/-- An event that does not come from source `i`. -/
def Event.Leaves (i : Fin n) : Event → Prop
  | .kick id | .setBusy id _ => slotOf n id ≠ some i
  | _ => True

instance (i : Fin n) (e : Event) : Decidable (e.Leaves i) := by
  unfold Event.Leaves
  split <;> infer_instance

variable {m : Monitor n} {s : Keeper n} {i : Fin n} {e : Event} {now u : Int}

/-- `check_sources` tells whether everyone is fresh. -/
theorem check_fresh (hm : m.Ok) (now : Int) :
    (checkSources now m.health).1 = true ↔ ∀ i u, m.due i = some u → now ≤ u := by
  rw [check_ok]
  refine forall_congr' fun i => ?_
  rw [(hm i).overdue]
  unfold Monitor.due Watch.late
  cases (m.health.sources i).name.isSome <;> cases (m.watch i).busy <;> simp
  omega

theorem due_tick (m : Monitor n) (now : Int) : (m.step (now, .tick)).due = m.due := by
  funext i
  have hlook : ∀ s : Source, (s.look now).name = s.name ∧ (s.look now).periodMs = s.periodMs := by
    intro s
    unfold Source.look
    split <;> exact ⟨rfl, rfl⟩
  have hsee : ∀ (w : Watch) (p : UInt32), (w.see now p).busy = w.busy ∧
      (w.see now p).since = w.since := fun _ _ => ⟨rfl, rfl⟩
  simp only [Monitor.due, Monitor.step, check_sources, hlook]
  split <;> simp_all

/-- One slot changes, and is fresh from now on. -/
theorem due_set (i : Fin n) {f : Source → Source} {g : Watch → Watch}
    (h : Monitor.due ⟨m.health.set i f, at? m.watch (some i) g⟩ i = m.due i ∨
      ∀ u, Monitor.due ⟨m.health.set i f, at? m.watch (some i) g⟩ i = some u → now ≤ u)
    (j : Fin n) :
    Monitor.due ⟨m.health.set i f, at? m.watch (some i) g⟩ j = m.due j ∨
      ∀ u, Monitor.due ⟨m.health.set i f, at? m.watch (some i) g⟩ j = some u → now ≤ u := by
  by_cases hj : j = i
  · exact hj ▸ h
  · left
    simp [Monitor.due, Table.set, at?, hj]

/-- Every event leaves a source as it was or makes it fresh. -/
theorem due_step (m : Monitor n) (now : Int) (e : Event) (j : Fin n) :
    (m.step (now, e)).due j = m.due j ∨ ∀ u, (m.step (now, e)).due j = some u → now ≤ u := by
  cases e with
  | tick => exact .inl (by rw [due_tick])
  | setFaultCb cb => exact .inl rfl
  | register name periodMs =>
    unfold Monitor.step register
    dsimp only
    cases freeSlot m.health with
    | none => exact .inl rfl
    | some i =>
      refine due_set i (f := fun _ => ⟨name, periodMs, now, true, false, 0⟩)
        (g := fun w => { w.fresh now with busy := true }) (.inr ?_) j
      simp [Monitor.due, Table.set, at?, Watch.fresh]
  | kick id =>
    unfold Monitor.step kick
    dsimp only
    cases slotOf n id with
    | none => exact .inl rfl
    | some i =>
      refine due_set i (.inr ?_) j
      simp [Monitor.due, Table.set, at?, Watch.fresh]
  | setBusy id busy =>
    unfold Monitor.step setBusy
    dsimp only
    cases slotOf n id with
    | none => exact .inl rfl
    | some i =>
      refine due_set i (.inr ?_) j
      cases busy <;> simp [Monitor.due, Table.set, at?]

/-- A source that is registered is changed by its own calls only. -/
theorem due_leaves (hname : (m.health.sources i).name.isSome = true) (he : e.Leaves i) :
    (m.step (now, e)).due i = m.due i := by
  have hset : ∀ (k : Fin n) (f : Source → Source) (g : Watch → Watch), k ≠ i →
      Monitor.due ⟨m.health.set k f, at? m.watch (some k) g⟩ i = m.due i := by
    intro k f g hk
    simp [Monitor.due, Table.set, at?, Ne.symm hk]
  cases e with
  | tick => rw [due_tick]
  | setFaultCb cb => rfl
  | register name periodMs =>
    unfold Monitor.step register
    dsimp only
    cases hf : freeSlot m.health with
    | none => rfl
    | some k =>
      refine hset k (fun _ => ⟨name, periodMs, now, true, false, 0⟩)
        (fun w => { w.fresh now with busy := true }) ?_
      rintro rfl
      have := freeSlot_free hf
      simp [hname] at this
  | kick id | setBusy id busy =>
    simp only [Monitor.step, kick, setBusy]
    cases hs : slotOf n id with
    | none => rfl
    | some k => exact hset k _ _ fun h => he (h ▸ hs)

theorem due_name (h : m.due i = some u) : (m.health.sources i).name.isSome = true := by
  unfold Monitor.due at h
  split at h
  next hb => exact (Bool.and_eq_true_iff.mp hb).1
  next => cases h

-- ---------------------------------------------------------------------------
-- Steps
-- ---------------------------------------------------------------------------

theorem ok_keeper (hm : s.monitor.Ok) (o : Int × Op) : (s.step o).monitor.Ok := by
  obtain ⟨now, o⟩ := o
  cases o with
  | event e =>
    cases e with
    | tick =>
      simp only [Keeper.step, Keeper.check]
      split
      · exact hm
      · exact (ok_step hm _).1
    | _ => exact (ok_step hm _).1
  | feed =>
    simp only [Keeper.step, Keeper.feed]
    split <;> exact hm

@[simp] theorem step_clock (s : Keeper n) (o : Int × Op) : (s.step o).clock = o.1 := by
  obtain ⟨now, o⟩ := o
  cases o with
  | event e => cases e <;> rfl
  | feed => rfl

/-- What the threads do is a step of the switch. -/
theorem switch_step (hm : s.monitor.Ok) (o : Int × Op) :
    DeadMan.Step o.1 s.switch (s.step o).switch := by
  obtain ⟨now, o⟩ := o
  have hstay : DeadMan.Step now s.switch s.switch := .sign fun _ => .inl rfl
  cases o with
  | event e =>
    cases e with
    | tick =>
      simp only [Keeper.step, Keeper.check]
      split
      · exact hstay
      · have := DeadMan.Step.look (s := s.switch) (check_fresh hm now).mp
        simpa [Keeper.switch, due_tick] using this
    | _ => exact .sign (due_step s.monitor now _)
  | feed =>
    simp only [Keeper.step, Keeper.feed]
    split
    · exact hstay
    next allOk hr =>
      cases harm : s.wdtArmed && allOk with
      | false => exact .pass
      | true =>
        obtain ⟨-, rfl⟩ := Bool.and_eq_true_iff.mp harm
        exact .wind hr

/-- The clock is right; nothing comes from source `i`, and a round is over `d` after its look. -/
def Silent (i : Fin n) (d : Int) (s : Keeper n) (o : Int × Op) : Prop :=
  s.clock ≤ o.1 ∧
    match o.2 with
    | .event e => e.Leaves i
    | .feed => ∀ t ∈ s.round, o.1 ≤ t.1 + d

instance (i : Fin n) (d : Int) (s : Keeper n) (o : Int × Op) : Decidable (Silent i d s o) := by
  unfold Silent
  have : Decidable (match o.2 with
    | .event e => e.Leaves i
    | .feed => ∀ t ∈ s.round, o.1 ≤ t.1 + d) := by
    split <;> infer_instance
  infer_instance

theorem starved_step {before : List Int} {u d : Int} (hm : s.monitor.Ok)
    (hs : s.switch.Starved i u d before s.clock) {o : Int × Op} (ho : Silent i d s o) :
    (s.step o).switch.Starved i u d before (s.step o).clock := by
  rw [step_clock]
  obtain ⟨now, o⟩ := o
  obtain ⟨hclock, ho⟩ := ho
  refine (switch_step hm (now, o)).starved hclock ?_ ?_ hs
  · cases o with
    | event e =>
      cases e with
      | tick =>
        simp only [Keeper.step, Keeper.check]
        split
        · rfl
        · exact congrFun (due_tick ..) i
      | _ => exact due_leaves (due_name hs.due) ho
    | feed =>
      simp only [Keeper.step, Keeper.feed]
      split <;> rfl
  · intro t ok ht hnone
    cases o with
    | event e =>
      -- an event does not end the round
      cases e with
      | tick => simp_all [Keeper.switch, Keeper.step, Keeper.check]
      | _ => exact absurd (ht.symm.trans hnone) (by simp)
    | feed => exact ho (t, ok) ht

/-- In every run: once a source that is registered and busy gives no sign of life, whatever
else happens, the watchdog is fed at most once after the source is overdue, and not later than a
round takes after that. -/
theorem hung_source_starves (n : Nat) (armed : Bool) (l silent : List (Int × Op)) (i : Fin n)
    (d : Int) (hclock : Along Keeper.step (fun s o => s.clock ≤ o.1) (Keeper.init n armed) l)
    (hname : ((run Keeper.step (Keeper.init n armed) l).monitor.health.sources i).name.isSome =
      true)
    (hbusy : ((run Keeper.step (Keeper.init n armed) l).monitor.watch i).busy = true)
    (hsilent : Along Keeper.step (Silent i d) (run Keeper.step (Keeper.init n armed) l) silent) :
    let s := run Keeper.step (Keeper.init n armed) l
    let overdue := (s.monitor.watch i).since + (s.monitor.health.sources i).periodMs.toNat
    ∃ late, (run Keeper.step s silent).feeds = late ++ s.feeds ∧
      late.countP (overdue < ·) ≤ 1 ∧ ∀ f ∈ late, f ≤ overdue + d := by
  have hinv := hclock.invariant
    (I := fun s => s.monitor.Ok ∧ s.switch.Sound s.clock)
    ⟨Monitor.Ok.init, fun _ _ h => (nomatch h), fun _ h => (nomatch h)⟩
    fun s o h hc => ⟨ok_keeper h.1 o, step_clock s o ▸ (switch_step h.1 o).sound hc h.2⟩
  generalize run Keeper.step (Keeper.init n armed) l = s at *
  have hdue : s.switch.due i = some
      ((s.monitor.watch i).since + (s.monitor.health.sources i).periodMs.toNat) := by
    simp [Keeper.switch, Monitor.due, hname, hbusy]
  have hend := hsilent.invariant
    (I := fun s' => s'.monitor.Ok ∧ s'.switch.Starved i ((s.monitor.watch i).since +
      (s.monitor.health.sources i).periodMs.toNat) d s.feeds s'.clock)
    ⟨hinv.1, hinv.2.starved hdue⟩ fun _ o h hc => ⟨ok_keeper h.1 o, starved_step h.1 h.2 hc⟩
  obtain ⟨late, hw, hle, hcount⟩ := hend.2.wound
  refine ⟨late, hw, ?_, hle⟩
  rcases hcount with h | ⟨h, -⟩ <;> omega

/-- A source with a period of 150 ms, and a round. -/
def startEvents : List (Int × Op) :=
  [(0, .event (.register (some 1) 150)), (0, .event .tick), (0, .feed)]

/-- It says nothing more; the first round restarts CPU1. -/
def hungEvents : List (Int × Op) :=
  [(100, .event .tick), (160, .feed), (260, .event .tick), (260, .feed)]

theorem hung_source_starves_once : ∃ late,
    (run Keeper.step (run Keeper.step (Keeper.init 1 true) startEvents) hungEvents).feeds =
      late ++ (run Keeper.step (Keeper.init 1 true) startEvents).feeds ∧
    late.countP (150 < ·) ≤ 1 ∧ ∀ f ∈ late, f ≤ 150 + 60 :=
  hung_source_starves 1 true startEvents hungEvents 0 60 (by decide) (by decide) (by decide)
    (by decide)

/-- Every look finds everyone fresh. -/
def Healthy (s : Keeper n) : Int × Op → Prop
  | (now, .event .tick) => s.switch.Fresh now
  | _ => True

/-- In every run in which the sources are fresh, every round feeds the watchdog. -/
theorem fresh_rounds_feed (n : Nat) (l : List (Int × Op))
    (h : Along Keeper.step Healthy (Keeper.init n true) l) :
    (run Keeper.step (Keeper.init n true) l).feeds =
      (run Keeper.step (Keeper.init n true) l).rounds := by
  have hinv := h.invariant (I := fun s => s.monitor.Ok ∧ s.wdtArmed = true ∧ s.feeds = s.rounds ∧
    ∀ t ok, s.round = some (t, ok) → ok = true)
    ⟨Monitor.Ok.init, rfl, rfl, fun _ _ h => (nomatch h)⟩ ?_
  · exact hinv.2.2.1
  · rintro s ⟨now, o⟩ ⟨hm, harm, hfeeds, hround⟩ hc
    refine ⟨ok_keeper hm _, ?_⟩
    cases o with
    | event e =>
      cases e with
      | tick =>
        simp only [Keeper.step, Keeper.check]
        split
        · exact ⟨harm, hfeeds, hround⟩
        · refine ⟨harm, hfeeds, ?_⟩
          rintro t ok ⟨⟩
          exact (check_fresh hm now).mpr hc
      | _ => exact ⟨harm, hfeeds, hround⟩
    | feed =>
      simp only [Keeper.step, Keeper.feed]
      split
      · exact ⟨harm, hfeeds, hround⟩
      next hr =>
        refine ⟨harm, ?_, by simp⟩
        simp [harm, hround _ _ hr, hfeeds]

end SynapticOS.Health
