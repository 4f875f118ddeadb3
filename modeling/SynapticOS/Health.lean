import SynapticOS.Lib.Run
import Mathlib.Data.List.FinRange
import Mathlib.Logic.Function.Basic
import Mathlib.Tactic.Common

/-!
# The health monitor

Sources check in with `kick` and say when they have work; the monitor thread
looks at them on every tick and reports a busy source that is overdue. Times are
those of `k_uptime_get`, in milliseconds.

`Watch` is what the outside sees of a source: since when it is fresh, and
whether the stretch it is in, busy and overdue, has been seen by a tick.
-/

namespace SynapticOS.Health

variable {n : Nat}

structure Source where
  /-- None: the slot is free. -/
  name : Option Nat
  periodMs : UInt32
  lastKick : Int
  busy : Bool
  stale : Bool
  staleCount : UInt32
  deriving DecidableEq, Repr

def Source.free : Source := ⟨none, 0, 0, false, false, 0⟩

structure Table (n : Nat) where
  sources : Fin n → Source
  faultCb : Option Nat
  faultCount : UInt32
  /-- What was reported, and to which callback. -/
  reports : List (Fin n × Option Nat)

def Table.init (n : Nat) : Table n := ⟨fun _ => .free, none, 0, []⟩

def Table.set (h : Table n) (i : Fin n) (f : Source → Source) : Table n :=
  { h with sources := Function.update h.sources i (f (h.sources i)) }

-- ---------------------------------------------------------------------------
-- Calls
-- ---------------------------------------------------------------------------

def freeSlot (h : Table n) : Option (Fin n) :=
  (List.finRange n).find? fun i => (h.sources i).name.isNone

/-- `syn_health_register`; none is `-ENOSPC`. -/
def register (now : Int) (name : Option Nat) (periodMs : UInt32) (h : Table n) :
    Option (Fin n) × Table n :=
  match freeSlot h with
  | none => (none, h)
  | some i => (some i, h.set i fun _ => ⟨name, periodMs, now, true, false, 0⟩)

/-- The checks on an id. -/
def slotOf (n : Nat) (id : Int) : Option (Fin n) :=
  if h : 0 ≤ id ∧ id < n then some ⟨id.toNat, by omega⟩ else none

def kick (now : Int) (id : Int) (h : Table n) : Table n :=
  match slotOf n id with
  | none => h
  | some i => h.set i fun s => { s with lastKick := now, stale := false }

def setBusy (now : Int) (id : Int) (busy : Bool) (h : Table n) : Table n :=
  match slotOf n id with
  | none => h
  | some i => h.set i fun s =>
    { s with busy := busy, lastKick := if busy then now else s.lastKick }

def setFaultCb (cb : Option Nat) (h : Table n) : Table n := { h with faultCb := cb }

-- ---------------------------------------------------------------------------
-- The monitor
-- ---------------------------------------------------------------------------

/-- A registered source with work that did not check in within its period. -/
def Source.overdue (now : Int) (s : Source) : Bool :=
  s.name.isSome && s.busy && decide ((s.periodMs.toNat : Int) < now - s.lastKick)

/-- A new episode: report once. -/
def checkSource (now : Int) (h : Table n) (i : Fin n) : Table n :=
  if (h.sources i).overdue now ∧ (h.sources i).stale = false then
    { h.set i fun s => { s with stale := true, staleCount := s.staleCount + 1 } with
      faultCount := h.faultCount + 1
      reports := h.reports ++ [(i, h.faultCb)] }
  else h

/-- The loop of `check_sources` over the slots from the front of the list. -/
def checkFrom (now : Int) : List (Fin n) → Bool × Table n → Bool × Table n
  | [], r => r
  | i :: rest, (ok, h) =>
    checkFrom now rest (ok && !(h.sources i).overdue now, checkSource now h i)

def checkSources (now : Int) (h : Table n) : Bool × Table n :=
  checkFrom now (List.finRange n) (true, h)

-- ---------------------------------------------------------------------------
-- What is to be reported
-- ---------------------------------------------------------------------------

structure Watch where
  /-- When the source last checked in or was set busy. -/
  since : Int
  busy : Bool
  /-- A tick has seen the stretch that the source is in. -/
  ticked : Bool
  /-- Stretches, busy and overdue, that a tick has seen. -/
  episodes : Nat

structure Monitor (n : Nat) where
  health : Table n
  watch : Fin n → Watch

def Monitor.init (n : Nat) : Monitor n := ⟨.init n, fun _ => ⟨0, false, false, 0⟩⟩

inductive Event
  | register (name : Option Nat) (periodMs : UInt32)
  | kick (id : Int)
  | setBusy (id : Int) (busy : Bool)
  | setFaultCb (cb : Option Nat)
  | tick

/-- The stretch is over; it was fresh at `now`. -/
def Watch.fresh (now : Int) (w : Watch) : Watch := { w with since := now, ticked := false }

/-- A source with this period is busy and overdue. -/
def Watch.late (now : Int) (periodMs : UInt32) (w : Watch) : Bool :=
  w.busy && decide ((periodMs.toNat : Int) < now - w.since)

/-- A tick sees a source with this period. -/
def Watch.see (now : Int) (periodMs : UInt32) (w : Watch) : Watch :=
  let late := w.late now periodMs
  { w with ticked := late, episodes := if late && !w.ticked then w.episodes + 1 else w.episodes }

def at? (watch : Fin n → Watch) (i : Option (Fin n)) (f : Watch → Watch) : Fin n → Watch :=
  match i with
  | none => watch
  | some i => Function.update watch i (f (watch i))

def Monitor.step (m : Monitor n) : Int × Event → Monitor n
  | (now, .register name periodMs) =>
    let (i, h) := register now name periodMs m.health
    ⟨h, at? m.watch i fun w => { w.fresh now with busy := true }⟩
  | (now, .kick id) => ⟨kick now id m.health, at? m.watch (slotOf n id) (·.fresh now)⟩
  | (now, .setBusy id busy) =>
    ⟨setBusy now id busy m.health, at? m.watch (slotOf n id) fun w =>
      { w with busy := busy, since := if busy then now else w.since, ticked := false }⟩
  | (_, .setFaultCb cb) => ⟨setFaultCb cb m.health, m.watch⟩
  | (now, .tick) =>
    ⟨(checkSources now m.health).2, fun i =>
      let s := m.health.sources i
      if s.name.isSome then (m.watch i).see now s.periodMs else m.watch i⟩

end SynapticOS.Health
