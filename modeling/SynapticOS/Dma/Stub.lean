import SynapticOS.Dma.Contract
import SynapticOS.Lib.Lanes
import Mathlib.Tactic.Common

/-!
# The DMA stub

Transfers are carried out by items of the system work queue, one item after another. No thread
preempts the work queue; the client's callback may call the backend. `syn_hal_dma_configure` and
`syn_hal_dma_start` are single steps: no two calls on one channel overlap. An item of
`k_work_submit` is assumed to be taken some time later, and not to be queued twice.
-/

namespace SynapticOS.Dma.Stub

open Lib

/-- `struct stub_channel`. -/
structure Lane where
  ch : Channel
  remaining : UInt32
  /-- The work item is in the queue. -/
  queued : Bool
  events : List Event
  deriving DecidableEq, Repr

structure State where
  dmaReady : Bool
  /-- The channel whose work item is in the client's callback. -/
  working : Option (Fin 4)
  lanes : Fin 4 → Lane

def Lane.init : Lane := ⟨.init, 0, false, []⟩

def State.init : State := ⟨false, none, fun _ => .init⟩

-- ---------------------------------------------------------------------------
-- A channel
-- ---------------------------------------------------------------------------

def Lane.configure (cfg : DmaConfig) (l : Lane) : Option Errno × Lane :=
  if cfg.srcAddr = 0 ∨ cfg.dstAddr = 0 ∨ cfg.transferSize = 0 then (some .einval, l)
  else if l.ch.active then (some .ebusy, l)
  else (none, { l with ch := { l.ch with cfg := cfg, configured := true } })

/-- `syn_hal_dma_start`. An item that is in the queue is not queued twice. -/
def Lane.start (client : Client) (l : Lane) : Option Errno × Lane :=
  if !l.ch.configured then (some .einval, l)
  else if l.ch.active then (some .ebusy, l)
  else (none, { l with
    ch := { l.ch with client := client, active := true }
    remaining := l.ch.cfg.transferSize
    queued := true
    events := .started client l.ch.cfg.circular :: l.events })

def Lane.stop (l : Lane) : Lane :=
  { l with ch := { l.ch with active := false }, events := .stopped :: l.events }

/-- `stub_transfer_work` up to the callback, on an active channel. -/
def Lane.transferWork (l : Lane) : Lane :=
  { l with
    queued := false
    remaining := 0
    ch := { l.ch with active := if l.ch.cfg.circular then l.ch.active else false }
    events := .called l.ch.client 0 :: l.events }

/-- `stub_transfer_work` behind the callback. -/
def Lane.rearm (l : Lane) : Lane :=
  if l.ch.active then { l with remaining := l.ch.cfg.transferSize, queued := true } else l

-- ---------------------------------------------------------------------------
-- The backend
-- ---------------------------------------------------------------------------

def dmaInit (s : State) : Option Errno × State :=
  if s.dmaReady then (some .ealready, s)
  else (none, { s with dmaReady := true, lanes := fun _ => .init })

def State.set (s : State) (i : Fin 4) (l : Lane) : State :=
  { s with lanes := Function.update s.lanes i l }

def getRemaining (channel : Int) (s : State) : Except Errno UInt32 :=
  match getChannel channel s.dmaReady with
  | some i => .ok (s.lanes i).remaining
  | none => .error .einval

inductive Op
  | init
  | configure (channel : Int) (config : Option DmaConfig)
  | start (channel : Int) (client : Client)
  | stop (channel : Int)
  /-- The work queue takes an item. -/
  | work (i : Fin 4)
  /-- The callback has returned, or there is none. -/
  | rearm
  deriving DecidableEq

def step (s : State) : Op → State
  | .init => (dmaInit s).2
  | .configure channel config =>
    match getChannel channel s.dmaReady, config with
    | some i, some cfg => s.set i ((s.lanes i).configure cfg).2
    | _, _ => s
  | .start channel client =>
    match getChannel channel s.dmaReady with
    | some i => s.set i ((s.lanes i).start client).2
    | none => s
  | .stop channel =>
    match getChannel channel s.dmaReady with
    | some i => s.set i (s.lanes i).stop
    | none => s
  | .work i =>
    if s.working.isNone ∧ (s.lanes i).queued = true then
      if (s.lanes i).ch.active then { s.set i (s.lanes i).transferWork with working := some i }
      else s.set i { s.lanes i with queued := false }
    else s
  | .rearm =>
    match s.working with
    | none => s
    | some i => { s.set i (s.lanes i).rearm with working := none }

-- ---------------------------------------------------------------------------
-- The contract
-- ---------------------------------------------------------------------------

variable {s : State} {l : Lane} {i : Fin 4} {working : Bool}

/-- An active channel has its item in the queue, or in front of being queued again. -/
structure Lane.Ok (working : Bool) (l : Lane) : Prop where
  phase : phase l.events = some l.ch.phase
  queued : l.ch.active = true → l.queued = true ∨ working = true
  remaining : l.ch.active = true → l.queued = true → l.remaining = l.ch.cfg.transferSize

theorem Lane.Ok.configure (h : l.Ok working) (cfg : DmaConfig) :
    (l.configure cfg).2.Ok working := by
  unfold Lane.configure
  split_ifs with _ ha
  · exact h
  · exact h
  · have hp := h.phase
    simp only [Channel.phase, ha] at hp
    exact ⟨by simpa [Channel.phase, ha] using hp, by simp [ha], by simp [ha]⟩

theorem Lane.Ok.start (h : l.Ok working) (client : Client) : (l.start client).2.Ok working := by
  unfold Lane.start
  split_ifs with _ ha
  · exact h
  · exact h
  · have hp := h.phase
    simp only [Channel.phase, ha] at hp
    exact ⟨phase_cons hp, fun _ => .inl rfl, fun _ _ => rfl⟩

theorem Lane.Ok.stop (h : l.Ok working) : l.stop.Ok working :=
  ⟨(phase_cons h.phase).trans (next_stopped _), by simp [Lane.stop], by simp [Lane.stop]⟩

theorem Lane.Ok.transferWork (h : l.Ok working) (ha : l.ch.active = true) :
    l.transferWork.Ok true := by
  have hp := h.phase
  simp only [Channel.phase, ha, if_true] at hp
  refine ⟨?_, fun _ => .inr rfl, by simp [Lane.transferWork]⟩
  rw [Lane.transferWork, phase_cons hp]
  cases hc : l.ch.cfg.circular <;> simp [Channel.phase, hc, ha]

theorem Lane.Ok.rearm (h : l.Ok working) : l.rearm.Ok false := by
  unfold Lane.rearm
  split_ifs with ha
  · exact ⟨h.phase, fun _ => .inl rfl, fun _ _ => rfl⟩
  · exact ⟨h.phase, fun hn => absurd hn ha, fun hn => absurd hn ha⟩

def Inv (s : State) : Prop := Lanes Lane.Ok s.working s.lanes

theorem Lane.Ok.init : Lane.init.Ok working :=
  ⟨rfl, fun h => (nomatch h), fun h => (nomatch h)⟩

theorem inv_step (h : Inv s) (o : Op) : Inv (step s o) := by
  cases o with
  | init =>
    simp only [step, dmaInit]
    split_ifs
    · exact h
    · exact fun _ => .init
  | configure channel config =>
    cases hi : getChannel channel s.dmaReady with
    | none => simpa only [step, hi] using h
    | some i =>
      cases config with
      | none => simpa only [step, hi] using h
      | some cfg =>
        simp only [step, hi]
        exact h.update ((h i).configure cfg)
  | start channel client =>
    cases hi : getChannel channel s.dmaReady with
    | none => simpa only [step, hi] using h
    | some i =>
      simp only [step, hi]
      exact h.update ((h i).start client)
  | stop channel =>
    cases hi : getChannel channel s.dmaReady with
    | none => simpa only [step, hi] using h
    | some i =>
      simp only [step, hi]
      exact h.update (h i).stop
  | work i =>
    simp only [step]
    split_ifs with hq ha
    · rw [Inv, Option.isNone_iff_eq_none.mp hq.1] at h
      exact h.enter ((h i).transferWork ha)
    · exact h.update ⟨(h i).phase, fun hn => absurd hn ha, fun hn => absurd hn ha⟩
    · exact h
  | rearm =>
    cases hw : s.working with
    | none => simpa only [step, hw] using h
    | some i =>
      simp only [step, hw]
      rw [Inv, hw] at h
      exact h.leave (h i).rearm

/-- In every run the stub keeps to the contract, and when no item is in a callback every transfer
that is not over is in the queue with all its bytes still to be moved. -/
theorem stub_keeps_contract (ops : List Op) (i : Fin 4) :
    let s := run step State.init ops
    phase (s.lanes i).events = some (s.lanes i).ch.phase ∧
      (s.working = none → (s.lanes i).ch.active = true → (s.lanes i).queued = true ∧
        (s.lanes i).remaining = (s.lanes i).ch.cfg.transferSize) := by
  have h := run_invariant (I := Inv) (s := State.init) ops (fun _ => .init) fun _ o h => inv_step h o
  refine ⟨(h i).phase, fun hn ha => ?_⟩
  have hq := ((h i).queued ha).resolve_right fun hw => by
    exact absurd (hn.symm.trans (of_decide_eq_true hw)) (by simp)
  exact ⟨hq, (h i).remaining ha hq⟩

end SynapticOS.Dma.Stub
