import SynapticOS.Cpu1.Boot

/-!
# CPU1 during a session

CPU1 stays in reset from the park to the unpark in every run that takes five cares, and each
of the five is needed.
-/

namespace SynapticOS.Cpu1

open Lib

variable {s : State} {soc : Soc} {hangMs : Int}

-- ---------------------------------------------------------------------------
-- Cares
-- ---------------------------------------------------------------------------

/-- What a session that parks CPU1 rests on. -/
inductive Care
  /-- CPU1 does not run while the link is down when it is parked. -/
  | link
  /-- The monitor is not in `check_cpu1` when CPU1 is parked. -/
  | monitor
  /-- The monitor does not look at the link while CPU1 is parked. -/
  | look
  /-- No `STATUS_REQ` is handled during the session. -/
  | request
  /-- The application does not boot CPU1 from the park to the unpark. -/
  | boot
  deriving DecidableEq

def Session.isParking : Session → Bool
  | .parking _ => true
  | _ => false

/-- From the park to the unpark. -/
def Session.parks (x : Session) : Bool := x.isParking || x = .active

def Care.Meets : Care → State → Op → Prop
  | .link, s, .park => s.soc.linkUp = true ∨ s.soc.running = false
  | .monitor, s, .park => s.monitor = .asleep
  | .look, s, .look _ => s.session.isParking = false
  | .request, s, .handle => s.session ≠ .active
  | .boot, s, .park => s.app = none
  | .boot, s, .boot .. => s.session.parks = false
  | _, _, _ => True

instance (c : Care) (s : State) (o : Op) : Decidable (c.Meets s o) := by
  unfold Care.Meets
  split <;> infer_instance

-- ---------------------------------------------------------------------------
-- The invariant
-- ---------------------------------------------------------------------------

/-- The link comes up only after the application has booted CPU1. -/
structure Soc.Ok (soc : Soc) : Prop where
  registered : soc.handlerRegistered = true → soc.booted = true
  linkUp : soc.linkUp = true → soc.booted = true

/-- A thread at `pc` in `syn_boot_secondary_stop`. -/
def Stops (pc : Pc) (soc : Soc) : Prop :=
  match pc with
  | .stopAssert | .stopGate => True
  | .stopReady | .stopLink => soc.running = false
  | _ => False

/-- While CPU1 is parked nobody else is at it. -/
def Parks (s : State) : Prop :=
  match s.session with
  | .parking pc => s.monitor = .asleep ∧ s.app = none ∧ Stops pc s.soc
  | .active => s.monitor = .asleep ∧ s.app = none ∧ s.soc.running = false ∧ s.soc.linkUp = false
  | _ => True

structure Inv (s : State) : Prop where
  soc : s.soc.Ok
  parks : Parks s

/-- The two bits of `CPUCTRL` and what the boot sequence leaves behind stay. -/
structure Same (a b : Soc) : Prop where
  running : b.running = a.running
  booted : b.booted = a.booted
  registered : b.handlerRegistered = a.handlerRegistered
  linkUp : b.linkUp = a.linkUp

theorem Same.ok (h : Same soc soc') (hs : soc.Ok) : soc'.Ok :=
  ⟨fun hr => by rw [h.booted]; exact hs.registered (h.registered ▸ hr),
    fun hl => by rw [h.booted]; exact hs.linkUp (h.linkUp ▸ hl)⟩

theorem Stops.same (h : soc'.running = soc.running) (hs : Stops pc soc) : Stops pc soc' := by
  cases pc <;> simp_all [Stops]

theorem attach_same (soc : Soc) : Same soc (attach soc) := by
  unfold attach
  split <;> constructor <;> rfl

theorem beat_same (soc : Soc) : Same soc (beat soc) := by
  unfold beat
  split
  · split <;> constructor <;> rfl
  · constructor <;> rfl

theorem request_same (soc : Soc) : Same soc (request soc) := by
  unfold request
  split <;> constructor <;> rfl

theorem hangCpu1_same (soc : Soc) : Same soc (hangCpu1 soc) := by
  unfold hangCpu1
  split <;> constructor <;> rfl

theorem Inv.onSoc (hi : Inv s) (h : Same s.soc (f s.soc)) : Inv (onSoc f s) := by
  refine ⟨h.ok hi.soc, ?_⟩
  have hp := hi.parks
  unfold Parks at hp ⊢
  cases hs : s.session with
  | none | unparking => simp [Cpu1.onSoc, hs]
  | parking pc =>
    simp only [hs] at hp
    obtain ⟨hm, ha, hstop⟩ := hp
    simp only [Cpu1.onSoc, hs]
    exact ⟨hm, ha, hstop.same h.running⟩
  | active =>
    simp only [hs] at hp
    obtain ⟨hm, ha, hr, hl⟩ := hp
    simp only [Cpu1.onSoc, hs]
    exact ⟨hm, ha, h.running.trans hr, h.linkUp.trans hl⟩

/-- A session that does not park CPU1 asks for nothing. -/
theorem Inv.free (hsoc : s.soc.Ok) (hs : s.session.parks = false) : Inv s := by
  refine ⟨hsoc, ?_⟩
  unfold Parks
  cases h : s.session <;> simp_all [Session.parks, Session.isParking]

/-- While CPU1 is parked the monitor and the application are elsewhere. -/
theorem Inv.alone (hi : Inv s) (hs : s.session.parks = true) :
    s.monitor = .asleep ∧ s.app = none := by
  have hp := hi.parks
  unfold Parks at hp
  cases h : s.session <;> simp_all [Session.parks, Session.isParking]

-- ---------------------------------------------------------------------------
-- The boot sequence
-- ---------------------------------------------------------------------------

theorem next_ok (hs : soc.Ok) (budget : UInt32) (pc : Pc) : (pc.next budget soc).1.Ok := by
  obtain ⟨hr, hl⟩ := hs
  cases pc with
  | pollReady | testReady | pollLink | testLink =>
    simp only [Pc.next]
    split <;> exact ⟨hr, hl⟩
  | stopLink | resumeLink => exact ⟨hr, fun h => Bool.noConfusion h⟩
  | _ => exact ⟨hr, hl⟩

theorem handle_ok (hs : soc.Ok) : (handle soc).Ok := by
  obtain ⟨hr, hl⟩ := hs
  unfold handle
  split_ifs with h1 h2
  · exact ⟨hr, hl⟩
  · exact ⟨hr, fun _ => hr h2⟩
  · exact ⟨hr, hl⟩

theorem handle_running (soc : Soc) : (handle soc).running = soc.running := by
  unfold handle
  split_ifs <;> rfl

theorem bootSecondary_ok (hs : soc.Ok) (sharedBase : Bool) (timeoutMs : UInt32) (bank1 : Bank1) :
    (bootSecondary sharedBase timeoutMs bank1 soc).1.Ok := by
  obtain ⟨hr, hl⟩ := hs
  unfold bootSecondary
  dsimp only
  split_ifs
  · exact ⟨hr, hl⟩
  · exact ⟨hr, hl⟩
  · exact ⟨fun _ => rfl, fun _ => rfl⟩
  · exact ⟨fun _ => rfl, fun _ => rfl⟩

/-- The stop goes on, or it has returned and CPU1 is in reset with the link down. -/
theorem stops_next (hs : Stops pc soc) :
    (∃ pc', (pc.next 0 soc).2 = .at pc' ∧ Stops pc' (pc.next 0 soc).1) ∨
      ((pc.next 0 soc).2 = .ret none ∧ (pc.next 0 soc).1.running = false ∧
        (pc.next 0 soc).1.linkUp = false) := by
  cases pc with
  | stopAssert => exact .inl ⟨.stopGate, rfl, trivial⟩
  | stopGate => exact .inl ⟨.stopReady, rfl, rfl⟩
  | stopReady => exact .inl ⟨.stopLink, rfl, hs⟩
  | stopLink => exact .inr ⟨rfl, hs, rfl⟩
  | _ => exact hs.elim

-- ---------------------------------------------------------------------------
-- The threads
-- ---------------------------------------------------------------------------

theorem Inv.stopped (hsoc : s.soc.Ok) (hs : s.session.parks = false) (e : Option Errno) :
    Inv (stopped e s) := by
  unfold Cpu1.stopped
  cases e with
  | some e => exact .free hsoc hs
  | none =>
    dsimp only
    split <;> exact .free hsoc hs

theorem inv_look (hi : Inv s) (now : Int) (hc : s.session.isParking = false) :
    Inv (look now s) := by
  unfold look
  cases hm : s.monitor with
  | linked | stopping | resuming => exact hi
  | asleep =>
    dsimp only
    split_ifs with hl
    · refine .free hi.soc ?_
      have hp := hi.parks
      unfold Parks at hp
      cases h : s.session <;> simp_all [Session.parks, Session.isParking]
    · refine ⟨hi.soc, ?_⟩
      have hp := hi.parks
      unfold Parks at hp ⊢
      cases h : s.session <;> simp_all

theorem inv_see (hi : Inv s) (now : Int) : Inv (see hangMs now s) := by
  unfold see
  cases hm : s.monitor with
  | asleep | stopping | resuming => exact hi
  | linked =>
    have hs : s.session.parks = false := by
      cases hs : s.session.parks with
      | false => rfl
      | true =>
        rw [(hi.alone hs).1] at hm
        cases hm
    dsimp only
    split_ifs
    · exact .free hi.soc hs
    · exact .free hi.soc hs
    · exact .free hi.soc hs
    · split
      · exact .free ⟨hi.soc.registered, hi.soc.linkUp⟩ hs
      · apply Inv.stopped
        · exact ⟨hi.soc.registered, hi.soc.linkUp⟩
        · exact hs

theorem inv_monitorNext (hi : Inv s) : Inv (monitorNext s) := by
  unfold monitorNext
  have hfree : s.monitor ≠ .asleep → s.session.parks = false := by
    intro hm
    cases hs : s.session.parks with
    | false => rfl
    | true => exact absurd (hi.alone hs).1 hm
  cases hm : s.monitor with
  | asleep | linked => exact hi
  | stopping pc =>
    have hs := hfree (by simp [hm])
    have hok := next_ok hi.soc 0 pc
    dsimp only [goOn]
    split
    · exact .free hok hs
    · apply Inv.stopped
      · exact hok
      · exact hs
  | resuming pc =>
    have hs := hfree (by simp [hm])
    have hok := next_ok hi.soc (budgetUs cpu1ResumeTimeoutMs) pc
    dsimp only [goOn]
    split <;> exact .free hok hs

theorem inv_boot (hi : Inv s) (sharedBase : Bool) (timeoutMs : UInt32) (bank1 : Bank1)
    (hc : s.session.parks = false) : Inv (boot sharedBase timeoutMs bank1 s) := by
  have hok := bootSecondary_ok hi.soc sharedBase timeoutMs bank1
  unfold boot
  split
  · exact hi
  · split
    next h => exact .free (by simpa [h] using hok) hc
    next h => exact .free (by simpa [h] using hok) hc

theorem inv_bootNext (hi : Inv s) : Inv (bootNext s) := by
  unfold bootNext
  cases ha : s.app with
  | none => exact hi
  | some call =>
    obtain ⟨pc, budget⟩ := call
    have hs : s.session.parks = false := by
      cases hs : s.session.parks with
      | false => rfl
      | true =>
        rw [(hi.alone hs).2] at ha
        cases ha
    exact .free (next_ok hi.soc budget pc) hs

theorem inv_handle (hi : Inv s) (hc : s.session ≠ .active) : Inv (onSoc handle s) := by
  refine ⟨handle_ok hi.soc, ?_⟩
  have hp := hi.parks
  unfold Parks at hp ⊢
  cases hs : s.session with
  | none | unparking => simp [onSoc, hs]
  | active => exact absurd hs hc
  | parking pc =>
    simp only [hs] at hp
    simp only [onSoc, hs]
    exact ⟨hp.1, hp.2.1, hp.2.2.same (handle_running s.soc)⟩

theorem inv_park (hi : Inv s) (hlink : s.soc.linkUp = true ∨ s.soc.running = false)
    (hm : s.monitor = .asleep) (ha : s.app = none) : Inv (park s) := by
  have hparking : Inv { s with session := .parking .stopAssert } := ⟨hi.soc, hm, ha, trivial⟩
  unfold park
  cases hl : s.soc.linkUp with
  | true =>
    have hstop : bootSecondaryStop s.soc = .at .stopAssert := if_pos (hi.soc.linkUp hl)
    simp only [hstop, if_true]
    split
    · exact hparking
    · exact hparking
    · exact hi
  | false =>
    have hr := hlink.resolve_left (Bool.eq_false_iff.mp hl)
    have hactive : Inv { s with session := .active } := ⟨hi.soc, hm, ha, hr, hl⟩
    simp only [Bool.false_eq_true, if_false]
    split
    · exact hactive
    · exact hactive
    · exact hi

theorem inv_unpark (hi : Inv s) : Inv (unpark s) := by
  unfold unpark
  split
  · split_ifs
    · dsimp only
      split <;> exact .free hi.soc rfl
    · exact .free hi.soc rfl
  · exact hi

theorem inv_sessionNext (hi : Inv s) : Inv (sessionNext s) := by
  unfold sessionNext
  cases hs : s.session with
  | none | active => exact hi
  | unparking pc =>
    dsimp only [goOn]
    have hok := next_ok hi.soc (budgetUs otaCpu1ResumeTimeoutMs) pc
    split <;> exact .free hok rfl
  | parking pc =>
    have hp := hi.parks
    simp only [Parks, hs] at hp
    obtain ⟨hm, ha, hstop⟩ := hp
    have hok := next_ok hi.soc 0 pc
    dsimp only [goOn]
    rcases stops_next hstop with ⟨pc', hpc, hst⟩ | ⟨hret, hr, hl⟩
    · rw [hpc]
      exact ⟨hok, hm, ha, hst⟩
    · rw [hret]
      exact ⟨hok, hm, ha, hr, hl⟩

theorem inv_step (hi : Inv s) (o : Op) (hc : ∀ c : Care, c.Meets s o) :
    Inv (step hangMs s o) := by
  cases o with
  | attach => exact hi.onSoc (attach_same _)
  | beat => exact hi.onSoc (beat_same _)
  | request => exact hi.onSoc (request_same _)
  | ipcInit => exact hi.onSoc ⟨rfl, rfl, rfl, rfl⟩
  | boot sharedBase timeoutMs bank1 => exact inv_boot hi sharedBase timeoutMs bank1 (hc .boot)
  | bootNext => exact inv_bootNext hi
  | hangCpu1 => exact hi.onSoc (hangCpu1_same _)
  | handle => exact inv_handle hi (hc .request)
  | look now => exact inv_look hi now (hc .look)
  | see now => exact inv_see hi now
  | monitorNext => exact inv_monitorNext hi
  | park => exact inv_park hi (hc .link) (hc .monitor) (hc .boot)
  | sessionNext => exact inv_sessionNext hi
  | unpark => exact inv_unpark hi

theorem inv_run (hi : Inv s) {l : List Op} (hl : ∀ c : Care, Along (step hangMs) c.Meets s l) :
    Inv (run (step hangMs) s l) := by
  induction l generalizing s with
  | nil => exact hi
  | cons o l ih =>
    refine ih (inv_step hi o fun c => ?_) fun c => ?_
    · cases hl c with
      | cons h _ => exact h
    · cases hl c with
      | cons _ h => exact h

theorem Inv.init : Inv .init := .free ⟨fun h => (nomatch h), fun h => (nomatch h)⟩ rfl

-- ---------------------------------------------------------------------------
-- Lapses
-- ---------------------------------------------------------------------------

def goodImage : Bank1 := ⟨true, true, false, true, 0x20010000, 0x101⟩

/-- CPU1 is booted and linked, with another request on its way; the monitor has seen it. -/
def linkedUp : List Op :=
  [.ipcInit, .boot true 200 goodImage, .bootNext, .bootNext, .attach, .request, .handle,
    .bootNext, .bootNext, .bootNext, .bootNext, .request, .look 0, .see 0]

/-- CPU1 is parked. -/
def parkDone : List Op := List.replicate 4 .sessionNext

/-- The monitor parks CPU1 and releases it again. -/
def restart : List Op := .see 1000 :: List.replicate 8 .monitorNext

/-- A run that takes all cares but one. -/
def Care.lapse : Care → List Op
  -- CPU1 has not answered in time and boots late
  | .link => .ipcInit :: .boot true 1 goodImage :: (List.replicate 14 .bootNext ++ [.park])
  | .monitor => linkedUp ++ [.look 1000, .park] ++ parkDone ++ restart
  | .look => linkedUp ++ [.park, .look 1000] ++ parkDone ++ restart
  | .request => linkedUp ++ .park :: parkDone ++ [.handle, .look 1000] ++ restart
  | .boot => linkedUp ++ .park :: parkDone ++ [.boot true 200 goodImage, .bootNext, .bootNext]

/-- In every run that takes the five cares CPU1 is in reset, with the link down, from the park
to the unpark; none of the cares can be left out. -/
theorem parked_through_session :
    (∀ (hangMs : Int) (l : List Op), (∀ c : Care, Along (step hangMs) c.Meets .init l) →
      (run (step hangMs) .init l).session = .active →
        (run (step hangMs) .init l).soc.running = false ∧
          (run (step hangMs) .init l).soc.linkUp = false) ∧
    ∀ c : Care, ∃ l, (∀ c' : Care, c' ≠ c → Along (step 500) c'.Meets .init l) ∧
      (run (step 500) .init l).session = .active ∧
        (run (step 500) .init l).soc.running = true := by
  refine ⟨fun hangMs l hl hs => ?_, fun c => ⟨c.lapse, fun c' hc => ?_, ?_⟩⟩
  · have hp := (inv_run .init hl).parks
    simp only [Parks, hs] at hp
    exact hp.2.2
  · cases c <;> cases c' <;> first | exact absurd rfl hc | decide +kernel
  · cases c <;> decide +kernel

theorem parked_through_linked :
    (run (step 500) .init (linkedUp ++ .park :: parkDone)).soc.running = false ∧
      (run (step 500) .init (linkedUp ++ .park :: parkDone)).soc.linkUp = false := by
  refine parked_through_session.1 500 _ (fun c => ?_) (by decide +kernel)
  cases c <;> decide +kernel

end SynapticOS.Cpu1
