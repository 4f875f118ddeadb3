import SynapticOS.Crc
import SynapticOS.Layered.Engine

/-!
# The Neutron backend

`syn_hal_npu_neutron.c` with the layered engine beside it: what a load and an
unload do to the prepared model and to the resident layered blob, and which of the
two, or the stub, a model stage runs on. The driver's answers come with the call.

The blobs stay as they are in memory while they are used.
-/

namespace SynapticOS.Npu

open Lib Layered

abbrev maxModelSize : Nat := 440 * 1024 - 64
abbrev maxInputSize : Nat := 96 * 96 * 3
abbrev maxOutputSize : Nat := 256

/-- The build, what `neutronInit` and `neutronGetModelContextSize` say, and the
memory with the blobs. -/
structure Board where
  lim : Limits
  models : Nat
  scratch : Nat
  ctxMax : Nat
  hwOk : Bool
  ctxNeed : Nat
  mem : Mem

/-- Whether the driver's calls succeed. -/
structure Driver where
  unprepare : Bool
  prepare : Bool
  run : Bool
  deriving DecidableEq, Repr

-- ---------------------------------------------------------------------------
-- SYNN payloads
-- ---------------------------------------------------------------------------

def synnMagic : UInt32 := 0x4E4E5953
def synnVersion : UInt32 := 1
def synnHdrSize : Nat := 48

/-- A section of the payload: its offset and its size. -/
structure Section where
  off : Nat
  size : Nat
  deriving DecidableEq, Repr

/-- `struct syn_synn_desc`. -/
structure Synn where
  microcode : Section
  weights : Section
  kernels : Section
  inputSize : Nat
  outputSize : Nat
  scratchSize : Nat
  deriving DecidableEq, Repr

def rd32 (data : List UInt8) (off : Nat) : Nat := (u32At data off).toNat

def synnDesc (data : List UInt8) : Synn :=
  ⟨⟨rd32 data 8, rd32 data 12⟩, ⟨rd32 data 16, rd32 data 20⟩, ⟨rd32 data 24, rd32 data 28⟩,
    rd32 data 32, rd32 data 36, rd32 data 40⟩

def Section.inside (s : Section) (size : Nat) : Bool := decide (s.off + s.size ≤ size)
def Section.aligned (s : Section) : Bool := decide (s.off % 16 = 0)

def synnParse (data : List UInt8) : Except Errno Synn :=
  if data.length < synnHdrSize then .error .enotsup
  else if u32At data 0 ≠ synnMagic then .error .enotsup
  else if u32At data 4 ≠ synnVersion then .error .einval
  else if u32At data 44 ≠ 0 then .error .einval
  else
    let d := synnDesc data
    if ¬(d.microcode.inside data.length ∧ d.weights.inside data.length ∧
        d.kernels.inside data.length) then .error .einval
    else if ¬(d.microcode.aligned ∧ d.weights.aligned ∧ d.kernels.aligned) then .error .einval
    else if d.inputSize = 0 ∨ d.outputSize = 0 then .error .einval
    else .ok d

-- ---------------------------------------------------------------------------
-- The driver's model
-- ---------------------------------------------------------------------------

structure Neutron where
  prepared : Bool
  /-- The payload that the model configuration points into. -/
  model : List UInt8
  inputSize : Nat
  deriving DecidableEq, Repr

def neutronUnprepare (drv : Driver) (n : Neutron) : Except Errno Unit × Neutron :=
  if n.prepared = false then (.ok (), n)
  else (if drv.unprepare then .ok () else .error .eio, { n with prepared := false })

/-- What `neutron_prepare` checks before it touches the driver. -/
def neutronCheck (b : Board) (data : List UInt8) : Except Errno Synn :=
  match synnParse data with
  | .error e => .error e
  | .ok d =>
    if b.hwOk = false then .error .enodev
    else if maxInputSize < d.inputSize ∨ maxOutputSize < d.outputSize then .error .einval
    else if b.scratch < d.scratchSize then .error .enomem
    else if b.ctxMax < b.ctxNeed then .error .enomem
    else .ok d

def neutronPrepare (b : Board) (drv : Driver) (data : List UInt8) (n : Neutron) :
    Except Errno Unit × Neutron :=
  match neutronCheck b data with
  | .error e => (.error e, n)
  | .ok d =>
    match neutronUnprepare drv n with
    | (.error e, n) => (.error e, n)
    | (.ok (), n) =>
      if drv.prepare then (.ok (), ⟨true, data, d.inputSize⟩)
      else (.error .eio, { n with model := data })

-- ---------------------------------------------------------------------------
-- Residency
-- ---------------------------------------------------------------------------

inductive HalState
  | idle | busy | error
  deriving DecidableEq, Repr

structure Hal where
  state : HalState
  modelLoaded : Bool
  data : Option Nat
  size : Nat
  inputSize : Nat
  neutron : Neutron
  engine : Engine

def Hal.init : Hal := ⟨.idle, false, none, 0, 0, ⟨false, [], 0⟩, Engine.boot⟩

/-- The blob at an address. -/
def Board.blob (b : Board) (addr size : Nat) : List UInt8 := b.mem.read addr size

def Hal.onLoad (b : Board) (data : List UInt8) (s : Hal) : Hal :=
  { s with engine := ((Layered.onLoad b.lim data).run s.engine).2 }

/-- `syn_hal_npu_load_model`. -/
def Hal.load (b : Board) (drv : Driver) (addr size : Nat) (s : Hal) : Except Errno Unit × Hal :=
  if size = 0 then (.error .einval, s)
  else if s.state = .busy then (.error .ebusy, s)
  else if maxModelSize < size then (.error .enomem, s)
  else
    match neutronPrepare b drv (b.blob addr size) s.neutron with
    | (.ok (), n) =>
      (.ok (), { s with neutron := n, data := some addr, size := size, modelLoaded := true })
    | (.error .enotsup, n) =>
      (.ok (), { s with
        neutron := (neutronUnprepare drv n).2
        data := some addr, size := size, modelLoaded := true }.onLoad b (b.blob addr size))
    | (.error e, n) => (.error e, { s with neutron := n })

/-- `syn_hal_npu_unload_model`. -/
def Hal.unload (b : Board) (drv : Driver) (s : Hal) : Hal :=
  if s.state = .busy then s
  else
    { s with
      neutron := (neutronUnprepare drv s.neutron).2
      modelLoaded := false, data := none, size := 0 }.onLoad b []

-- ---------------------------------------------------------------------------
-- The model stage
-- ---------------------------------------------------------------------------

/-- What computes a result, and from which blob. -/
inductive Exec
  | neutron (model : List UInt8)
  | layered (model : List UInt8)
  | stub
  deriving DecidableEq, Repr

def Hal.setInput (size : Nat) (s : Hal) : Except Errno Unit × Hal :=
  if size = 0 then (.error .einval, s)
  else if s.modelLoaded = false then (.error .eperm, s)
  else if s.state = .busy then (.error .ebusy, s)
  else if maxInputSize < size then (.error .enomem, s)
  else (.ok (), { s with inputSize := size })

/-- `syn_hal_npu_invoke`: while it runs the state is busy. -/
def Hal.invoke (drv : Driver) (s : Hal) : Except Errno Exec × Hal :=
  if s.modelLoaded = false then (.error .eperm, s)
  else if s.state = .busy then (.error .ebusy, s)
  else if s.neutron.prepared then
    if s.inputSize ≠ s.neutron.inputSize then (.error .einval, { s with state := .idle })
    else if drv.run then (.ok (.neutron s.neutron.model), { s with state := .idle })
    else (.error .eio, { s with state := .error })
  else (.ok .stub, { s with state := .idle })

/-- What the job's surroundings decide: the layer after which it is preempted, the
room for the output. -/
structure Stage where
  preempt : Option Nat
  cap : Nat
  room : Bool
  deriving DecidableEq, Repr

/-- The layer loop from a live session on. A preempted session is parked, unless
no slot is free. -/
def session (st : Stage) : EngineM (List UInt8) :=
  match st.preempt with
  | none => finish st.cap
  | some k => do
    stepN k
    match ← Act.attempt save with
    | .ok _ => Act.throw .eintr
    | .error _ => finish st.cap

/-- `execute_model_stage` of a job that is not resumed. -/
def Hal.stage (b : Board) (drv : Driver) (st : Stage) (input : List UInt8) (s : Hal) :
    Except Errno Exec × Hal :=
  match (begin b.lim input).run s.engine with
  | (.error e, g) => (.error e, { s with engine := g })
  | (.ok n, g) =>
    if n ≠ 0 then
      match (session st).run g with
      | (.error e, g') => (.error e, { s with engine := g' })
      | (.ok _, g') =>
        (if st.room then .ok (.layered g.plan.model) else .error .enomem, { s with engine := g' })
    else
      match Hal.setInput input.length { s with engine := g } with
      | (.error e, s) => (.error e, s)
      | (.ok (), s) =>
        match s.invoke drv with
        | (.error e, s) => (.error e, s)
        | (.ok x, s) => (if st.room then .ok x else .error .enomem, s)

/-- A resumed job runs on from its slot. -/
def Hal.resume (b : Board) (st : Stage) (slot : Nat) (s : Hal) : Hal :=
  match (restore b.lim slot).run s.engine with
  | (.error _, g) => { s with engine := g }
  | (.ok (), g) => { s with engine := ((session st).run g).2 }

/-- The layered engine takes the blob. -/
def layeredAccepts (lim : Limits) (data : List UInt8) : Bool :=
  match ((parseModel lim data).run Engine.boot.plan).1 with
  | .ok _ => true
  | .error _ => false

/-- The executor that a blob calls for. -/
def calledFor (b : Board) (data : List UInt8) : Exec :=
  match synnParse data with
  | .ok _ => .neutron data
  | .error _ => if layeredAccepts b.lim data then .layered data else .stub

end SynapticOS.Npu
