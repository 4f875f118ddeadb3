import SynapticOS.Infer.Sched
import SynapticOS.Memory.Arena
import SynapticOS.Remote.DrainGate
import SynapticOS.Remote.Exchange

/-!
# One inference, local and across the cores

`syn_infer_run_sync` on CPU0, the handler of a request, and the call on CPU1, with
nothing else going on: a call runs to its end, messages arrive and nothing times
out. What the NPU computes is a parameter, it is a function of the bytes of the
input tensor. A local caller has its tensor outside the arena; the handler
allocates one there, of the model's input type.
-/

namespace SynapticOS.Remote.Inference

open Lib Memory

abbrev stageMinCapacity : Nat := 64

abbrev Ret := Int

abbrev Fault := { e : Ret // e ≠ 0 }

def enoent : Fault := ⟨-2, by decide⟩
def enoexec : Fault := ⟨-8, by decide⟩
def eagain : Fault := ⟨-11, by decide⟩
def enomem : Fault := ⟨-12, by decide⟩
def ebusy : Fault := ⟨-16, by decide⟩
def einval : Fault := ⟨-22, by decide⟩
def emsgsize : Fault := ⟨-90, by decide⟩

structure Model where
  loaded : Bool
  inputDtype : Dtype
  outputDtype : Dtype
  outputSize : Nat
  deriving DecidableEq, Repr

structure Npu where
  /-- The swap of `syn_model_ensure_resident`, if one is needed. -/
  makeResident : Except Fault Unit
  /-- The layer loop, or `set_input` and `invoke`, on the bytes of a tensor. -/
  compute : List UInt8 → Except Fault (List UInt8)
  /-- Reading the result into a tensor of so many bytes. -/
  getOutput : Nat → List UInt8 → Except Fault (List UInt8)

structure Cpu0 where
  models : Nat → Option Model
  /-- Which pipelines are in use. -/
  pipes : List Bool
  jobs : List Infer.JobState
  maxConcurrent : Nat
  gate : DrainGate.Gate
  arena : Arena
  mem : Mem

-- ---------------------------------------------------------------------------
-- A local inference
-- ---------------------------------------------------------------------------

/-- `alloc_stage_output` for the model stage. -/
def allocOutput (cfg : Memory.Cfg) (m : Model) (a : Arena) : Option Tensor × Arena :=
  tensorAlloc cfg [max m.outputSize stageMinCapacity % sizeMod] .int8 .ephemeral a

/-- `execute_model_stage`: the output tensor takes the size of the result. -/
def modelStage (cfg : Memory.Cfg) (npu : Npu) (m : Model) (input : List UInt8) (s : Cpu0) :
    Except Fault Tensor × Cpu0 :=
  match npu.compute input with
  | .error e => (.error e, s)
  | .ok r =>
    match allocOutput cfg m s.arena with
    | (none, a) => (.error enomem, { s with arena := a })
    | (some t, a) =>
      match npu.getOutput t.size r with
      | .error e => (.error e, { s with arena := a })
      | .ok out =>
        (.ok { t with size := out.length, dtype := m.outputDtype, ndim := 1, shape := out.length :: t.shape.tail },
          { s with arena := a, mem := s.mem.put t.data out })

def submits (s : Cpu0) : Bool :=
  decide (s.jobs.countP Infer.JobState.active < s.maxConcurrent) && s.jobs.contains .free

/-- `syn_infer_run_sync` on a tensor with these bytes. The pipeline and the job
are given back before it returns. -/
def runSync (cfg : Memory.Cfg) (npu : Npu) (h : Nat) (input : List UInt8) (s : Cpu0) :
    Except Fault Tensor × Cpu0 :=
  match s.models h with
  | none => (.error (if s.pipes.contains false = false then enomem else if h = 0 then einval else enoent), s)
  | some m =>
    if m.loaded = false then (.error enoexec, s)
    else if s.pipes.contains false = false then (.error enomem, s)
    else if submits s = false then (.error ebusy, s)
    else
      match npu.makeResident with
      | .error e => (.error e, s)
      | .ok () => modelStage cfg npu m input s

-- ---------------------------------------------------------------------------
-- Across the cores
-- ---------------------------------------------------------------------------

/-- `infer_req_handler` from the length check on. -/
def serve (cfg : Memory.Cfg) (npu : Npu) (m : Model) (slot : Slot) (s : Cpu0) : Ret × Slot × Cpu0 :=
  if inputSize < slot.inputLen ∨ slot.inputLen = 0 then (emsgsize.1, slot, s)
  else
    match tensorAlloc cfg [slot.inputLen] m.inputDtype .ephemeral s.arena with
    | (none, a) => (enomem.1, slot, { s with arena := a })
    | (some t, a) =>
      let mem := s.mem.put t.data (slot.input.read 0 slot.inputLen)
      match runSync cfg npu slot.model (mem.read t.data t.size) { s with arena := a, mem := mem } with
      | (.error e, s) => (e.1, slot, { s with arena := resetEphemeral s.arena })
      | (.ok out, s) =>
        let s' := { s with arena := resetEphemeral s.arena }
        if outputSize < out.size then (emsgsize.1, slot, s')
        else
          (0, { slot with
            output := slot.output.put 0 (s.mem.read out.data out.size), outputLen := out.size }, s')

/-- `infer_req_handler` between entering and leaving the gate. -/
def admitted (cfg : Memory.Cfg) (npu : Npu) (slot : Slot) (s : Cpu0) : Ret × Slot × Cpu0 :=
  match s.models slot.model with
  | none => (einval.1, slot, s)
  | some m => serve cfg npu m slot s

def respond : Ret × Slot × Cpu0 → Ret × Slot × Cpu0
  | (ret, slot, s) => (ret, { slot with inferStatus := ret }, { s with gate := { s.gate with busy := false } })

def inferReqHandler (cfg : Memory.Cfg) (npu : Npu) (slot : Slot) (s : Cpu0) : Ret × Slot × Cpu0 :=
  let slot := { slot with outputLen := 0 }
  if s.gate.paused then (eagain.1, { slot with inferStatus := eagain.1 }, s)
  else respond (admitted cfg npu slot { s with gate := { s.gate with busy := true } })

structure Caller where
  output : List UInt8
  outputLen : Nat
  deriving DecidableEq, Repr

def takeResponse (caller : Caller) : Ret × Slot × Cpu0 → Ret × Caller × Slot × Cpu0
  | (ret, slot, s) =>
    if ret ≠ 0 then (ret, caller, slot, s)
    else if caller.output.length < slot.outputLen then (emsgsize.1, caller, slot, s)
    else
      (0, ⟨slot.output.read 0 slot.outputLen ++ caller.output.drop slot.outputLen, slot.outputLen⟩, slot, s)

/-- `syn_remote_infer` with a buffer of `caller.output.length` bytes. -/
def remoteInfer (cfg : Memory.Cfg) (npu : Npu) (h : Nat) (input : List UInt8) (caller : Caller)
    (slot : Slot) (s : Cpu0) : Ret × Caller × Slot × Cpu0 :=
  if input.length = 0 then (einval.1, caller, slot, s)
  else if inputSize < input.length then (emsgsize.1, caller, slot, s)
  else
    takeResponse caller (inferReqHandler cfg npu
      { slot with model := h, inputLen := input.length, input := slot.input.put 0 input } s)

-- ---------------------------------------------------------------------------
-- The property
-- ---------------------------------------------------------------------------

/-- The local inference returns zero with output `o`. -/
def LocalGives (cfg : Memory.Cfg) (npu : Npu) (h : Nat) (input : List UInt8) (s : Cpu0) (o : List UInt8) :
    Prop :=
  ∃ t s', runSync cfg npu h input s = (.ok t, s') ∧ s'.mem.read t.data t.size = o

/-- The remote one does: `o` is at the front of the buffer, the rest is as it was. -/
def RemoteGives (cfg : Memory.Cfg) (npu : Npu) (h : Nat) (input : List UInt8) (caller : Caller)
    (slot : Slot) (s : Cpu0) (o : List UInt8) : Prop :=
  (remoteInfer cfg npu h input caller slot s).1 = 0 ∧
    (remoteInfer cfg npu h input caller slot s).2.1 = ⟨o ++ caller.output.drop o.length, o.length⟩

/-- The remote inference is the local one, for outputs that fit. -/
structure Equals (cfg : Memory.Cfg) (npu : Npu) (h : Nat) (input : List UInt8) (caller : Caller)
    (slot : Slot) (s : Cpu0) : Prop where
  same : ∀ o, RemoteGives cfg npu h input caller slot s o ↔
    LocalGives cfg npu h input s o ∧ o.length ≤ outputSize ∧ o.length ≤ caller.output.length
  untouched : (remoteInfer cfg npu h input caller slot s).1 ≠ 0 →
    (remoteInfer cfg npu h input caller slot s).2.1 = caller

def Ready (m : Model) (s : Cpu0) : Prop :=
  m.loaded = true ∧ s.pipes.contains false = true ∧ submits s = true

def LocalRoom (cfg : Memory.Cfg) (m : Model) (a : Arena) : Prop := (allocOutput cfg m a).1.isSome

def RemoteRoom (cfg : Memory.Cfg) (m : Model) (n : Nat) (a : Arena) : Prop :=
  ∃ t a', tensorAlloc cfg [n] m.inputDtype .ephemeral a = (some t, a') ∧ LocalRoom cfg m a'

/-- What a request needs beyond a local run, where a local run gets as far as an
output: serving is not paused, the arena has room for the input too, and an
element of it is a byte. -/
structure Admits (cfg : Memory.Cfg) (m : Model) (n : Nat) (s : Cpu0) : Prop where
  dtype : Ready m s → LocalRoom cfg m s.arena → dtypeSize m.inputDtype = 1
  room : Ready m s → (LocalRoom cfg m s.arena ↔ s.gate.paused = false ∧ RemoteRoom cfg m n s.arena)

end SynapticOS.Remote.Inference
