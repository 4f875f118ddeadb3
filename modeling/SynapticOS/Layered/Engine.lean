import SynapticOS.Layered.Plan

/-!
# The layered session engine

One live session runs in the shared plan area, layer by layer. Between two
layers it can be parked in a suspension slot and resumed later; only the bytes
below the planned peak are kept, and resuming plans the blob again.

A blob is its content: the blobs stay as they were when they were loaded.
-/

namespace SynapticOS.Layered

open Lib

def ctxSlots : Nat := 2

/-- `struct layered_ctx` of an occupied slot. -/
structure Parked where
  model : List UInt8
  next : Nat
  area : List UInt8

structure Engine where
  resident : Option (List UInt8)
  plan : Plan
  area : Mem
  next : Nat
  active : Bool
  slots : Nat → Option Parked

abbrev EngineM := Act Engine Errno

def Engine.boot : Engine :=
  ⟨none, ⟨[], 0, [], [], 0, 0⟩, fun _ => 0, 0, false, fun _ => none⟩

def livePlan (lim : Limits) (blob : List UInt8) : EngineM Unit :=
  Act.zoom Engine.plan (fun p e => { e with plan := p }) (planLive lim blob)

/-- The probe of a new resident blob; it has a plan of its own. -/
def onLoad (lim : Limits) (blob : List UInt8) : EngineM Unit := Act.modify fun e =>
  match ((parseModel lim blob).run Engine.boot.plan).1 with
  | .ok () => { e with resident := some blob }
  | .error _ => { e with resident := none }

/-- A missing input is one of the wrong size. -/
def begin (lim : Limits) (input : List UInt8) : EngineM Nat := do
  match (← Act.get).resident with
  | none => pure 0
  | some blob =>
    match ← Act.attempt (livePlan lim blob) with
    | .error .enotsup => pure 0
    | .error e => Act.throw e
    | .ok () => do
      let p := (← Act.get).plan
      if input.length ≠ p.inputSize then Act.throw .einval
      else do
        Act.modify fun e =>
          { e with area := e.area.put (p.off 0) input, next := 0, active := true }
        pure p.layerCount

-- ---------------------------------------------------------------------------
-- Layers
-- ---------------------------------------------------------------------------

/-- A source as a layer reads it. -/
structure Source where
  byte : Nat → UInt8
  size : Nat

/-- Output byte `j` of layer `i`: two positions of the primary source, and the
skip source when present. -/
def mix (i j : Nat) (a : Source) (b : Option Source) : UInt8 :=
  let acc := (a.byte (j % a.size)).toNat * 31 + (a.byte ((j * 7 + i) % a.size)).toNat +
    i * 13 + j * 3
  UInt8.ofNat (acc + b.elim 0 fun b => (b.byte (j % b.size)).toNat * 17)

def Plan.source (p : Plan) (m : Mem) (b : Nat) : Source := ⟨fun k => m (p.off b + k), p.bufSize b⟩

/-- The output loop of a layer: each byte is stored before the next is computed. -/
def runLayer (p : Plan) (i : Nat) (l : Layer) : Nat → Nat → Mem → Mem
  | 0, _, m => m
  | k + 1, j, m =>
    let byte := mix i j (p.source m l.srcA) (l.srcB.map (p.source m))
    runLayer p i l k (j + 1) (m.put (p.off (i + 1) + j) [byte])

def step : EngineM Nat := do
  let e ← Act.get
  match e.active, e.plan.layers[e.next]? with
  | true, some l => do
    Act.modify fun e =>
      { e with area := runLayer e.plan e.next l l.outSize 0 e.area, next := e.next + 1 }
    pure (e.plan.layerCount - (e.next + 1))
  | _, _ => Act.throw .eperm

def remaining : EngineM Nat := do
  let e ← Act.get
  if e.active then pure (e.plan.layerCount - e.next) else Act.throw .eperm

def output (cap : Nat) : EngineM (List UInt8) := do
  let e ← Act.get
  let final := e.plan.layerCount
  if e.active = false then Act.throw .eperm
  else if e.next < final then Act.throw .ebusy
  else if cap < e.plan.bufSize final then Act.throw .enomem
  else do
    Act.modify fun e => { e with active := false }
    pure (e.area.read (e.plan.off final) (e.plan.bufSize final))

-- ---------------------------------------------------------------------------
-- Suspension slots
-- ---------------------------------------------------------------------------

def Engine.freeSlot (e : Engine) : Option Nat :=
  (List.range ctxSlots).find? fun s => (e.slots s).isNone

def save : EngineM Nat := do
  let e ← Act.get
  if e.active = false then Act.throw .eperm
  else
    match e.freeSlot with
    | none => Act.throw .enospc
    | some s => do
      let kept : Parked := ⟨e.plan.model, e.next, e.area.read 0 e.plan.plannedPeak⟩
      Act.modify fun e => { e with slots := Function.update e.slots s (some kept), active := false }
      pure s

def slotFree (s : Nat) : EngineM Unit := Act.modify fun e =>
  if s < ctxSlots then { e with slots := Function.update e.slots s none } else e

def restore (lim : Limits) (s : Nat) : EngineM Unit := do
  let e ← Act.get
  match if s < ctxSlots then e.slots s else none with
  | none => Act.throw .einval
  | some kept =>
    match ← Act.attempt (livePlan lim kept.model) with
    | .error _ => Act.throw .einval
    | .ok () => Act.modify fun e =>
      { e with
        area := e.area.put 0 kept.area
        next := kept.next
        active := true
        slots := Function.update e.slots s none }

-- ---------------------------------------------------------------------------
-- Whole inferences
-- ---------------------------------------------------------------------------

def stepN : Nat → EngineM Unit
  | 0 => pure ()
  | k + 1 => do
    let _ ← step
    stepN k

/-- Run the live session to its end. -/
def finish (cap : Nat) : EngineM (List UInt8) := do
  let n ← remaining
  stepN n
  output cap

structure Session where
  blob : List UInt8
  input : List UInt8
  deriving DecidableEq, Repr

def infer (lim : Limits) (s : Session) (cap : Nat) : EngineM (List UInt8) := do
  onLoad lim s.blob
  let _ ← begin lim s.input
  finish cap

-- ---------------------------------------------------------------------------
-- The reference evaluator
-- ---------------------------------------------------------------------------

def refSource (bufs : List (List UInt8)) (b : Nat) : Source :=
  ⟨fun k => (bufs.getD b []).getD k 0, (bufs.getD b []).length⟩

def refLayer (bufs : List (List UInt8)) (i : Nat) (l : Layer) : List UInt8 :=
  (List.range l.outSize).map fun j => mix i j (refSource bufs l.srcA) (l.srcB.map (refSource bufs))

/-- The input and the outputs of the layers, every one in a buffer of its own. -/
def refBufs : List Layer → Nat → List (List UInt8) → List (List UInt8)
  | [], _, bufs => bufs
  | l :: rest, i, bufs => refBufs rest (i + 1) (bufs ++ [refLayer bufs i l])

def reference (layers : List Layer) (input : List UInt8) : List UInt8 :=
  (refBufs layers 0 [input]).getD layers.length []

end SynapticOS.Layered
