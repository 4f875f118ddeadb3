import SynapticOS.Crc
import SynapticOS.Store.Types

/-!
# The RAM model registry

`syn_model_register` and its siblings over a fixed table: a model is found by
name, a handle is the table index plus one. Loading hands the payload to the
single-residency NPU after a CRC check. The payloads of stored models are
pointers into the mapped window.
-/

namespace SynapticOS

open Lib

/-- A payload pointer: into the mapped window, or into application memory. -/
inductive DataPtr
  | window (off : Nat)
  | app (addr : Nat)
  deriving DecidableEq, Repr

/-- `struct model_slot` of an active entry. -/
structure ModelSlot where
  loaded : Bool
  info : ModelInfo
  data : Option DataPtr
  dataSize : Nat

/-- The table, the pointer the NPU holds, and what the registry sees of its
surroundings: handles with a suspended job, the results of the next HAL loads,
application memory. -/
structure Models where
  slots : Nat → Option ModelSlot
  resident : Option DataPtr
  suspended : Nat → Bool
  hal : List (Except Errno Unit)
  app : Mem

abbrev ModelsM := Act Models Errno

namespace Models

/-- The table after a reset. -/
def zero (hal : List (Except Errno Unit)) (app : Mem) : Models :=
  ⟨fun _ => none, none, fun _ => false, hal, app⟩

def setSlot (m : Models) (i : Nat) (s : Option ModelSlot) : Models :=
  { m with slots := Function.update m.slots i s }

/-- The first active entry with this name. -/
def findName (n : Nat) (name : List UInt8) (m : Models) : Option Nat :=
  (List.range n).find? fun i => (m.slots i).any fun s => s.info.cname = name

def findFree (n : Nat) (m : Models) : Option Nat :=
  (List.range n).find? fun i => (m.slots i).isNone

def handleToIndex (n : Nat) (h : Nat) : Option Nat := if h = 0 ∨ n < h then none else some (h - 1)

/-- The active entry behind a handle. -/
def entry (n : Nat) (h : Nat) (m : Models) : Option (Nat × ModelSlot) :=
  (handleToIndex n h).bind fun i => (m.slots i).map fun s => (i, s)

def getByName (n : Nat) (name : List UInt8) (m : Models) : Except Errno Nat :=
  match m.findName n name with
  | some i => .ok (i + 1)
  | none => .error .enoent

def getInfo (n : Nat) (h : Nat) (m : Models) : Except Errno ModelInfo :=
  match m.entry n h with
  | some (_, s) => .ok s.info
  | none => .error .einval

def isLoaded (n : Nat) (h : Nat) (m : Models) : Bool := (m.entry n h).any fun (_, s) => s.loaded

def register (n : Nat) (info : ModelInfo) : ModelsM Nat := do
  let m ← Act.get
  match m.findName n info.cname with
  | some _ => Act.throw .eexist
  | none =>
    match m.findFree n with
    | some i =>
      Act.modify fun m => m.setSlot i (some ⟨false, info, none, 0⟩)
      pure (i + 1)
    | none => Act.throw .enomem

def unload (n : Nat) (h : Nat) : ModelsM Unit := do
  let m ← Act.get
  match m.entry n h with
  | none => Act.throw .einval
  | some (i, s) =>
    if s.loaded = false then Act.throw .ealready
    else if m.suspended h then Act.throw .ebusy
    else
      Act.modify fun m => m.setSlot i (some { s with loaded := false })
      if s.data ≠ none ∧ s.data = m.resident then Act.modify fun m => { m with resident := none }
      else pure ()

def unregister (n : Nat) (h : Nat) : ModelsM Unit := do
  let m ← Act.get
  match m.entry n h with
  | none => Act.throw .einval
  | some (i, s) =>
    if m.suspended h then Act.throw .ebusy
    else
      let _ ← Act.attempt (if s.loaded then unload n h else pure ())
      Act.modify fun m => m.setSlot i none

/-- The bytes behind a payload pointer; `mem` is the mapped window. -/
def payload (m : Models) (mem : Mem) (d : DataPtr) (size : Nat) : List UInt8 :=
  match d with
  | .window off => mem.read off size
  | .app addr => m.app.read addr size

/-- `syn_hal_npu_load_model`: the next result of the HAL. -/
def halLoad : ModelsM Unit := fun m =>
  match m.hal with
  | [] => (.ok (), m)
  | r :: rest => (r, { m with hal := rest })

/-- `model_hal_load`: CRC gate, then the HAL. -/
def halLoadSlot (mem : Mem) (s : ModelSlot) : ModelsM Unit := do
  match s.data with
  | some d =>
    if 0 < s.dataSize then
      let m ← Act.get
      if s.info.crc32 ≠ 0 ∧ crc32Ieee (m.payload mem d s.dataSize) ≠ s.info.crc32 then
        Act.throw .eilseq
      else
        halLoad
        Act.modify fun m => { m with resident := some d }
    else pure ()
  | none => pure ()

def load (n : Nat) (mem : Mem) (h : Nat) : ModelsM Unit := do
  let m ← Act.get
  match m.entry n h with
  | none => Act.throw .einval
  | some (i, s) =>
    if s.loaded then Act.throw .ealready
    else
      halLoadSlot mem s
      Act.modify fun m => m.setSlot i (some { s with loaded := true })

def setData (n : Nat) (h : Nat) (data : Option DataPtr) (size : Nat) : ModelsM Unit := do
  let m ← Act.get
  match m.entry n h with
  | none => Act.throw .einval
  | some (i, s) =>
    if data.isSome ∧ size = 0 then Act.throw .einval
    else
      Act.modify fun m =>
        m.setSlot i (some { s with data := data, dataSize := if data.isSome then size else 0 })

end Models

end SynapticOS
