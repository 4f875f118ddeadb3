import SynapticOS.Npu.Neutron

/-!
# NPU residency

The model registry over the Neutron backend, and the jobs that are dispatched
between its calls. Residency changes and jobs exclude each other, so a call or a
job is one step. What ran is kept with the registry entry it ran for (`Ran`).
-/

namespace SynapticOS.Npu

open Lib Layered

structure ModelSlot where
  active : Bool
  loaded : Bool
  name : List UInt8
  crc32 : UInt32
  data : Option Nat
  size : Nat
  deriving DecidableEq, Repr

def ModelSlot.free : ModelSlot := ⟨false, false, [], 0, none, 0⟩

/-- A model stage that succeeded: the entry of its model and the executor. -/
structure Ran where
  slot : ModelSlot
  exec : Exec
  deriving DecidableEq, Repr

structure Rig where
  slots : Nat → ModelSlot
  resident : Option Nat
  hal : Hal
  ran : List Ran

def Rig.init : Rig := ⟨fun _ => .free, none, Hal.init, []⟩

namespace Rig

def setSlot (s : Rig) (i : Nat) (x : ModelSlot) : Rig :=
  { s with slots := Function.update s.slots i x }

/-- The entry behind a handle, if it is active. -/
def index (b : Board) (s : Rig) (h : Nat) : Option Nat :=
  if 0 < h ∧ h ≤ b.models ∧ (s.slots (h - 1)).active then some (h - 1) else none

end Rig

-- ---------------------------------------------------------------------------
-- The registry
-- ---------------------------------------------------------------------------

def register (b : Board) (name : List UInt8) (crc32 : UInt32) (s : Rig) : Rig :=
  if (List.range b.models).any fun i => (s.slots i).active && decide ((s.slots i).name = name) then s
  else
    match (List.range b.models).find? fun i => !(s.slots i).active with
    | none => s
    | some i => s.setSlot i ⟨true, false, name, crc32, none, 0⟩

def setData (b : Board) (h : Nat) (data : Option Nat) (size : Nat) (s : Rig) : Rig :=
  match s.index b h with
  | none => s
  | some i =>
    if data ≠ none ∧ size = 0 then s
    else s.setSlot i { s.slots i with data := data, size := if data = none then 0 else size }

/-- The blob that loading an entry hands to the HAL. -/
def ModelSlot.toLoad (x : ModelSlot) : Option Nat :=
  match x.data with
  | none => none
  | some addr => if x.size = 0 then none else some addr

def ModelSlot.crcOk (b : Board) (x : ModelSlot) (addr : Nat) : Bool :=
  decide (x.crc32 = 0 ∨ crc32Ieee (b.blob addr x.size) = x.crc32)

def halLoad (b : Board) (drv : Driver) (x : ModelSlot) (s : Rig) : Except Errno Unit × Rig :=
  match x.toLoad with
  | none => (.ok (), s)
  | some addr =>
    if x.crcOk b addr = false then (.error .eilseq, s)
    else
      match s.hal.load b drv addr x.size with
      | (.ok (), hal) => (.ok (), { s with hal := hal, resident := some addr })
      | (.error e, hal) => (.error e, { s with hal := hal })

def doLoad (b : Board) (drv : Driver) (i : Nat) (s : Rig) : Rig :=
  match halLoad b drv (s.slots i) s with
  | (.ok (), s) => s.setSlot i { s.slots i with loaded := true }
  | (.error _, s) => s

def load (b : Board) (h : Nat) (drv : Driver) (s : Rig) : Rig :=
  match s.index b h with
  | none => s
  | some i => if (s.slots i).loaded then s else doLoad b drv i s

/-- No job of the entry's model is suspended. -/
def unloadSlot (b : Board) (i : Nat) (drv : Driver) (s : Rig) : Rig :=
  if (s.slots i).loaded = false then s
  else
    let s := s.setSlot i { s.slots i with loaded := false }
    if (s.slots i).data ≠ none ∧ (s.slots i).data = s.resident then
      { s with hal := s.hal.unload b drv, resident := none }
    else s

/-- `suspended` is what `syn_infer_model_suspended` answers. -/
def unload (b : Board) (h : Nat) (suspended : Bool) (drv : Driver) (s : Rig) : Rig :=
  match s.index b h with
  | none => s
  | some i => if suspended then s else unloadSlot b i drv s

def unregister (b : Board) (h : Nat) (suspended : Bool) (drv : Driver) (s : Rig) : Rig :=
  match s.index b h with
  | none => s
  | some i =>
    if suspended then s
    else
      let s := unloadSlot b i drv s
      s.setSlot i { s.slots i with active := false, loaded := false, data := none, size := 0 }

def swap (b : Board) (old new : Nat) (drv : Driver) (s : Rig) : Rig :=
  match s.index b old, s.index b new with
  | some o, some n =>
    if o = n then s
    else
      let s := s.setSlot o { s.slots o with loaded := false }
      if (s.slots n).loaded then s else doLoad b drv n s
  | _, _ => s

-- ---------------------------------------------------------------------------
-- Jobs
-- ---------------------------------------------------------------------------

def ensureResident (b : Board) (drv : Driver) (i : Nat) (s : Rig) : Except Errno Unit × Rig :=
  let x := s.slots i
  if x.loaded = false then (.error .enoexec, s)
  else if x.data = none ∨ x.data = s.resident then (.ok (), s)
  else halLoad b drv x s

/-- A job of the model behind `h`, from the residency check to the end of its
model stage. -/
def job (b : Board) (h : Nat) (input : List UInt8) (drv : Driver) (st : Stage) (s : Rig) : Rig :=
  match s.index b h with
  | none => s
  | some i =>
    match ensureResident b drv i s with
    | (.error _, s) => s
    | (.ok (), s) =>
      match s.hal.stage b drv st input with
      | (.error _, hal) => { s with hal := hal }
      | (.ok x, hal) => { s with hal := hal, ran := s.ran ++ [⟨s.slots i, x⟩] }

inductive Op
  | register (name : List UInt8) (crc32 : UInt32)
  | setData (h : Nat) (data : Option Nat) (size : Nat)
  | load (h : Nat) (drv : Driver)
  | unload (h : Nat) (suspended : Bool) (drv : Driver)
  | unregister (h : Nat) (suspended : Bool) (drv : Driver)
  | swap (old new : Nat) (drv : Driver)
  | job (h : Nat) (input : List UInt8) (drv : Driver) (st : Stage)
  /-- A suspended job runs on. -/
  | resume (slot : Nat) (st : Stage)
  deriving DecidableEq, Repr

def step (b : Board) (s : Rig) : Op → Rig
  | .register name crc32 => register b name crc32 s
  | .setData h data size => setData b h data size s
  | .load h drv => load b h drv s
  | .unload h suspended drv => unload b h suspended drv s
  | .unregister h suspended drv => unregister b h suspended drv s
  | .swap old new drv => swap b old new drv s
  | .job h input drv st => job b h input drv st s
  | .resume slot st => { s with hal := s.hal.resume b st slot }

/-- A model stage that succeeded ran for a loaded model, on the executor that the
attached blob calls for, and from that blob. -/
def Contract (b : Board) (s : Rig) : Prop :=
  ∀ r ∈ s.ran, ∀ addr, r.slot.data = some addr →
    r.slot.loaded = true ∧ r.exec = calledFor b (b.blob addr r.slot.size)

end SynapticOS.Npu
