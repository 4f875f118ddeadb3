import SynapticOS.Dma.Edma
import SynapticOS.Lib.Lanes
import Mathlib.Tactic.Common

/-!
# One transfer at a time

A channel that is not active moves nothing, and one that moves something is never started
again, if callbacks do not restart their own channel as a circular one and nobody uses a channel
that a thread is about to halt.
-/

namespace SynapticOS.Dma.Edma

open Lib

variable {s : State} {l : Lane} {i j : Fin 4} {handled : Bool}

/-- `handled`: the channel's handler is in the callback. -/
structure Lane.Ok (handled : Bool) (l : Lane) : Prop where
  overruns : l.overruns = 0
  moving : ∀ t, l.engine = some t →
    t = transfer l.ch ∧ (l.ch.active = true ∨ l.halting = true)
  /-- In the callback a circular channel is about to be armed again. -/
  active : l.ch.active = true →
    l.engine.isSome = true ∨ handled = true ∧ l.ch.cfg.circular = true
  halting : l.halting = true → l.ch.active = false
  told : l.halting = false → phase l.events = some l.ch.phase
  /-- A transfer that a thread is about to halt can still come to its end. -/
  halted : l.halting = true → ∃ p, phase l.events = some p ∧
    (l.engine.isSome = true → p = .busy l.ch.client l.ch.cfg.circular)

theorem Lane.Ok.init : Lane.init.Ok handled := by
  refine ⟨rfl, ?_, ?_, ?_, fun _ => rfl, ?_⟩ <;> simp [Lane.init, Channel.init]

-- ---------------------------------------------------------------------------
-- A channel
-- ---------------------------------------------------------------------------

/-- Nothing moves on a channel that is neither active nor about to be halted. -/
theorem Lane.Ok.idle (h : l.Ok handled) (ha : l.ch.active = false) (hh : l.halting = false) :
    l.engine = none := by
  cases he : l.engine with
  | none => rfl
  | some t =>
    have := (h.moving t he).2
    simp [ha, hh] at this

theorem Lane.Ok.idle_phase (h : l.Ok handled) (ha : l.ch.active = false)
    (hh : l.halting = false) : phase l.events = some .idle := by
  simpa [Channel.phase, ha] using h.told hh

theorem Lane.trigger_ok (ho : l.overruns = 0) (he : l.engine = none) (ha : l.ch.active = true)
    (hh : l.halting = false) (hp : phase l.events = some l.ch.phase) : l.trigger.Ok handled := by
  refine ⟨?_, ?_, fun _ => .inl rfl, ?_, fun _ => hp, ?_⟩
  · simpa [Lane.trigger, he] using ho
  · rintro t ⟨⟩
    exact ⟨rfl, .inl ha⟩
  · simp [Lane.trigger, hh]
  · simp [Lane.trigger, hh]

/-- A channel on which nothing moves may be set up in any way. -/
theorem Lane.Ok.setup (h : l.Ok handled) (ha : l.ch.active = false) (hh : l.halting = false)
    {ch : Channel} (hch : ch.active = false) : Lane.Ok handled { l with ch := ch } := by
  have he := h.idle ha hh
  refine ⟨h.overruns, by simp [he], by simp [hch], by simp [hch], fun _ => ?_, by simp [hh]⟩
  simpa [Channel.phase, hch] using h.idle_phase ha hh

theorem Lane.Ok.configure (h : l.Ok handled) (hh : l.halting = false) (cfg : DmaConfig) :
    (l.configure cfg).2.Ok handled := by
  unfold Lane.configure
  split_ifs with _ _ ha
  · exact h
  · exact h
  · exact h
  · have ha := Bool.eq_false_of_not_eq_true ha
    exact h.setup ha hh ha

theorem Lane.Ok.start (h : l.Ok handled) (hh : l.halting = false) (client : Client)
    (dmaConfig : Option Errno) : (l.start client dmaConfig).2.Ok handled := by
  unfold Lane.start
  split_ifs with _ ha
  · exact h
  · exact h
  · have ha := Bool.eq_false_of_not_eq_true ha
    cases dmaConfig with
    | some e => exact h.setup ha hh ha
    | none =>
      exact Lane.trigger_ok h.overruns (h.idle ha hh) rfl hh (phase_cons (h.idle_phase ha hh))

theorem Lane.Ok.phase_some (h : l.Ok handled) : ∃ p, phase l.events = some p := by
  cases hh : l.halting with
  | false => exact ⟨_, h.told hh⟩
  | true => exact ⟨_, (h.halted hh).choose_spec.1⟩

theorem Lane.Ok.stop (h : l.Ok handled) : l.stop.Ok handled := by
  refine ⟨h.overruns, fun t ht => ⟨(h.moving t ht).1, .inr rfl⟩, fun ha => (nomatch ha),
    fun _ => rfl, fun hh => (nomatch hh), fun _ => ?_⟩
  cases hh : l.halting with
  | true => exact h.halted hh
  | false =>
    refine ⟨_, h.told hh, fun he => ?_⟩
    obtain ⟨t, ht⟩ := Option.isSome_iff_exists.mp he
    have ha := (h.moving t ht).2.resolve_right (by simp [hh])
    simp [Channel.phase, ha, Lane.stop]

theorem Lane.Ok.halt (h : l.Ok handled) (ha : l.ch.active = false) (halting : Bool) :
    Lane.Ok handled { l.halt with halting := halting } := by
  obtain ⟨p, hp⟩ := h.phase_some
  have hidle : phase l.halt.events = some .idle := (phase_cons hp).trans (next_stopped p)
  refine ⟨h.overruns, by simp [Lane.halt], by simp [Lane.halt, ha], fun _ => ha, fun _ => ?_,
    fun _ => ⟨_, hidle, by simp [Lane.halt]⟩⟩
  simpa [Channel.phase, Lane.halt, ha] using hidle

theorem Lane.Ok.done (h : l.Ok handled) (he : l.engine.isSome = true) (status : Int) :
    (l.done status).Ok true := by
  obtain ⟨t, ht⟩ := Option.isSome_iff_exists.mp he
  refine ⟨h.overruns, by simp [Lane.done], ?_, fun hh => ?_, fun hh => ?_, fun hh => ?_⟩
  · simp only [Lane.done]
    split_ifs with hc
    · simp
    · simp_all
  · simp [Lane.done, h.halting hh]
  · have ha := (h.moving t ht).2.resolve_right (by simpa [Lane.done] using hh)
    have hp := h.told hh
    simp only [Channel.phase, ha, if_true] at hp
    rw [Lane.done, phase_cons hp]
    by_cases hc : status < 0 ∨ l.ch.cfg.circular = false <;> simp [Channel.phase, ha, hc]
  · obtain ⟨p, hp, hbusy⟩ := h.halted hh
    rw [hbusy he] at hp
    exact ⟨_, (phase_cons hp).trans (next_called ..), by simp [Lane.done]⟩

/-- A channel that the callback has started again is not circular. -/
theorem Lane.Ok.rearm (h : l.Ok handled)
    (hc : l.engine.isSome = true → l.ch.cfg.circular = false) (reloaded : Bool) :
    (l.rearm reloaded).Ok false := by
  unfold Lane.rearm
  split_ifs with hac hr
  · obtain ⟨ha, hcirc⟩ := Bool.and_eq_true_iff.mp hac
    have hh : l.halting = false := Bool.eq_false_of_not_eq_true fun hh => by
      simp [h.halting hh] at ha
    refine Lane.trigger_ok h.overruns ?_ ha hh (h.told hh)
    exact Option.not_isSome_iff_eq_none.mp fun he => by simp [hc he] at hcirc
  · obtain ⟨ha, hcirc⟩ := Bool.and_eq_true_iff.mp hac
    have he : l.engine = none :=
      Option.not_isSome_iff_eq_none.mp fun he => by simp [hc he] at hcirc
    have hh : l.halting = false := Bool.eq_false_of_not_eq_true fun hh => by
      simp [h.halting hh] at ha
    have hp := h.told hh
    simp only [Channel.phase, ha, hcirc, if_true] at hp
    exact ⟨h.overruns, by simp [he], by simp, by simp, fun _ => phase_cons hp, by simp [hh]⟩
  · refine ⟨h.overruns, h.moving, fun ha => .inl ?_, h.halting, h.told, h.halted⟩
    exact (h.active ha).resolve_right fun hn => hac (by simp [ha, hn.2])

-- ---------------------------------------------------------------------------
-- The driver
-- ---------------------------------------------------------------------------

def Inv (s : State) : Prop := Lanes Lane.Ok s.handler s.lanes

/-- What the clients have to see to. -/
inductive Care
  /-- A channel that a callback has started again itself is not circular. -/
  | restart
  /-- Nobody sets up or starts a channel that a thread is about to halt. -/
  | halt
  deriving DecidableEq

def Care.Meets : Care → State → Op → Prop
  | .restart, s, .rearm _ => ∀ i ∈ s.handler,
    (s.lanes i).engine.isSome = true → (s.lanes i).ch.cfg.circular = false
  | .halt, s, .configure channel _ | .halt, s, .start channel _ _ =>
    ∀ i ∈ getChannel channel s.dmaReady, (s.lanes i).halting = false
  | _, _, _ => True

instance (c : Care) (s : State) (o : Op) : Decidable (c.Meets s o) := by
  unfold Care.Meets
  split <;> infer_instance

theorem inv_step (h : Inv s) (o : Op) (hc : ∀ c : Care, c.Meets s o) : Inv (step s o) := by
  cases o with
  | init deviceReady =>
    simp only [step, dmaInit]
    split_ifs <;> exact h
  | configure channel config =>
    cases hi : getChannel channel s.dmaReady with
    | none => simpa only [step, hi] using h
    | some i =>
      cases config with
      | none => simpa only [step, hi] using h
      | some cfg =>
        simp only [step, hi]
        exact h.update ((h i).configure (hc .halt i hi) cfg)
  | start channel client dmaConfig =>
    cases hi : getChannel channel s.dmaReady with
    | none => simpa only [step, hi] using h
    | some i =>
      simp only [step, hi]
      exact h.update ((h i).start (hc .halt i hi) client dmaConfig)
  | stop channel =>
    cases hi : getChannel channel s.dmaReady with
    | none => simpa only [step, hi] using h
    | some i =>
      cases hh : s.handler with
      | none =>
        simp only [step, hi, hh]
        exact h.update (h i).stop
      | some _ =>
        simp only [step, hi, hh]
        exact h.update ((h i).stop.halt rfl _)
  | halt i =>
    simp only [step]
    split_ifs with hh
    · exact h.update ((h i).halt ((h i).halting hh.2) false)
    · exact h
  | done i status =>
    simp only [step]
    split_ifs with hd
    · rw [Inv, Option.isNone_iff_eq_none.mp hd.1] at h
      exact h.enter ((h i).done hd.2 status)
    · exact h
  | rearm reloaded =>
    cases hw : s.handler with
    | none => simpa only [step, hw] using h
    | some i =>
      simp only [step, hw]
      have hcare := hc .restart i hw
      rw [Inv, hw] at h
      exact h.leave ((h i).rearm hcare reloaded)

theorem inv_run {ops : List Op} (h : Inv s) (hc : ∀ c : Care, Along step c.Meets s ops) :
    Inv (run step s ops) := by
  induction ops generalizing s with
  | nil => exact h
  | cons o ops ih =>
    refine ih (inv_step h o fun c => ?_) fun c => ?_
    · cases hc c with
      | cons ho _ => exact ho
    · cases hc c with
      | cons _ ho => exact ho

/-- A channel is used for one transfer at a time. When nobody is in the driver it has kept to the
contract, and is active as long as it moves something. -/
structure Exclusive (s : State) (i : Fin 4) : Prop where
  overruns : (s.lanes i).overruns = 0
  moving : ∀ t, (s.lanes i).engine = some t → t = transfer (s.lanes i).ch
  told : (s.lanes i).halting = false → phase (s.lanes i).events = some (s.lanes i).ch.phase
  active : s.handler ≠ some i → (s.lanes i).halting = false →
    ((s.lanes i).ch.active = true ↔ (s.lanes i).engine.isSome = true)

theorem Lane.Ok.exclusive (h : (s.lanes i).Ok (decide (s.handler = some i))) : Exclusive s i := by
  refine ⟨h.overruns, fun t ht => (h.moving t ht).1, h.told, fun hn hh => ?_⟩
  refine ⟨fun ha => ?_, fun he => ?_⟩
  · exact (h.active ha).resolve_right fun hc => hn (of_decide_eq_true hc.1)
  · obtain ⟨t, ht⟩ := Option.isSome_iff_exists.mp he
    exact ((h.moving t ht).2).resolve_right (by simp [hh])

-- ---------------------------------------------------------------------------
-- Lapses
-- ---------------------------------------------------------------------------

def frame (circular : Bool) : DmaConfig := ⟨.memory, .memory, 0x20000000, 0x20001000, 64, circular⟩

def started (circular : Bool) : List Op :=
  [.init true, .configure 0 (some (frame circular)), .start 0 ⟨some 1, 0⟩ none]

/-- A callback that restarts its channel as a circular one; one that restarts it while a thread
is in front of `dma_stop`. -/
def Care.lapse : Care → List Op
  | .restart => started false ++ [.done 0 0, .configure 0 (some (frame true)),
    .start 0 ⟨some 1, 0⟩ none, .rearm true]
  | .halt => started false ++ [.stop 0, .done 0 0, .start 0 ⟨some 1, 0⟩ none, .rearm true, .halt 0]

/-- In every run of the clients, the handlers and the engine: if the clients see to the two, every
channel is used for one transfer at a time; and neither can be left out. -/
theorem edma_exclusive :
    (∀ ops : List Op, (∀ c : Care, Along step c.Meets State.init ops) →
      ∀ i, Exclusive (run step State.init ops) i) ∧
    ∀ c : Care, (∀ c' ≠ c, Along step c'.Meets State.init c.lapse) ∧
      ¬Exclusive (run step State.init c.lapse) 0 := by
  constructor
  · intro ops hc i
    exact (inv_run (fun _ => .init) hc i).exclusive
  · intro c
    cases c with
    | restart =>
      refine ⟨fun c' hc' => ?_, fun h => absurd h.overruns (by decide)⟩
      cases c' with
      | restart => exact absurd rfl hc'
      | halt => decide
    | halt =>
      refine ⟨fun c' hc' => ?_, fun h => absurd (h.active (by decide) (by decide)) (by decide)⟩
      cases c' with
      | restart => decide
      | halt => exact absurd rfl hc'

/-- A circular transfer that a thread stops while its block comes to its end, beside one that the
callback starts again; then the stopped channel is used again. -/
def sharedRun : List Op :=
  started true ++ [.configure 1 (some (frame false)), .start 1 ⟨some 2, 0⟩ none, .done 0 0,
    .start 0 ⟨some 1, 0⟩ none, .rearm true, .done 1 0, .start 1 ⟨some 2, 1⟩ none, .rearm true,
    .stop 0, .done 0 0, .rearm true, .halt 0, .start 0 ⟨some 1, 1⟩ none]

/-- Both channels move something in the end. -/
theorem edma_exclusive_shared : (∀ i, Exclusive (run step State.init sharedRun) i) ∧
    ((run step State.init sharedRun).lanes 0).engine.isSome = true ∧
    ((run step State.init sharedRun).lanes 1).engine.isSome = true := by
  refine ⟨edma_exclusive.1 sharedRun fun c => ?_, by decide, by decide⟩
  cases c with
  | restart => decide
  | halt => decide

end SynapticOS.Dma.Edma
