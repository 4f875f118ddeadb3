import SynapticOS.Lib.Bytes

/-!
# The cross-core inference protocol

CPU1 writes a request into the exchange slot, sends a message and waits for the
answer; CPU0 takes one message at a time, serves it from the slot and answers.
The two rings are queues; other messages share them. One operation is one access
to the slot, a ring or the response semaphore. What CPU0's services say (the drain
gate, the registry, the arena, the inference) comes with the operation.

A call is known by its number (`Ask.call`); its messages carry the number along,
which the code's messages do not.
-/

namespace SynapticOS.Remote

open Lib

abbrev inputSize : Nat := 27648
abbrev outputSize : Nat := 4096
abbrev nameSize : Nat := 32
abbrev sendTries : Nat := 10

/-- Zero or a negative errno. -/
abbrev Ret := Int

def eagain : Ret := -11
def enomem : Ret := -12
def emsgsize : Ret := -90

inductive Kind
  | inferReq | inferResp | modelLoad | other
  deriving DecidableEq, Repr

structure Msg where
  kind : Kind
  msgId : Nat
  priority : Nat
  payloadOffset : Nat
  status : Ret
  call : Nat
  deriving DecidableEq, Repr

def Msg.zero : Msg := ⟨.other, 0, 0, 0, 0, 0⟩

/-- The exchange slot. -/
structure Slot where
  model : Nat
  modelName : Mem
  inputLen : Nat
  outputLen : Nat
  inferStatus : Ret
  input : Mem
  output : Mem

inductive Req
  | lookup (name : List UInt8)
  | infer (model : Nat) (input : List UInt8) (cap priority : Nat)
  deriving DecidableEq, Repr

structure Ask where
  call : Nat
  req : Req
  deriving DecidableEq, Repr

/-- Where the calling thread of CPU1 is, under `remote_lock`. -/
inductive Cpu1
  | idle
  /-- About to write the model and the length. -/
  | heading (ask : Ask) (inPlace : Bool)
  /-- `n` bytes of the name or the input are written. -/
  | writing (ask : Ask) (n : Nat)
  | resetting (ask : Ask)
  | sending (ask : Ask) (tries : Nat)
  | waiting (ask : Ask)
  /-- Has the token. -/
  | answered (ask : Ask)
  /-- The status was zero. -/
  | reading (ask : Ask)
  | copying (ask : Ask) (len : Nat) (bytes : List UInt8)
  deriving DecidableEq, Repr

/-- The receiving thread of CPU1. -/
inductive Rx
  | idle | giving
  deriving DecidableEq, Repr

/-- Where the receiving thread of CPU0 is in a handler. -/
inductive Cpu0
  | idle
  | lookup (m : Msg)
  | found (m : Msg) (ret : Ret) (handle : Nat)
  | clearing (m : Msg)
  | gate (m : Msg)
  | info (m : Msg)
  | length (m : Msg)
  | alloc (m : Msg)
  | copying (m : Msg) (len : Nat) (bytes : List UInt8)
  | starting (m : Msg) (bytes : List UInt8)
  | running (m : Msg) (model : Nat) (input : List UInt8)
  | writing (m : Msg) (out : List UInt8) (n : Nat)
  | status (m : Msg) (ret : Ret)
  | sending (m : Msg) (kind : Kind) (ret : Ret) (tries : Nat)
  deriving DecidableEq, Repr

/-- What CPU0 has produced, and for which call. -/
inductive Made
  | handle (call : Nat) (name : List UInt8) (handle : Nat)
  | output (call model : Nat) (input out : List UInt8)
  deriving DecidableEq, Repr

/-- What a call that returns zero hands to its caller. -/
inductive Answer
  | handle (handle : Nat)
  | output (bytes : List UInt8) (len : Nat)
  deriving DecidableEq, Repr

structure Link where
  slot : Slot
  toCpu0 : List Msg
  toCpu1 : List Msg
  nextId0 : Nat
  nextId1 : Nat
  cpu0 : Cpu0
  cpu1 : Cpu1
  rx : Rx
  respMsg : Msg
  respSem : Bool
  /-- CPU0 serves; CPU1 has registered its handlers. -/
  serving : Bool
  handlersReady : Bool
  calls : Nat
  made : List Made
  returns : List (Ask × Answer)

def Link.init : Link where
  slot := ⟨0, fun _ => 0, 0, 0, 0, fun _ => 0, fun _ => 0⟩
  toCpu0 := []
  toCpu1 := []
  nextId0 := 0
  nextId1 := 0
  cpu0 := .idle
  cpu1 := .idle
  rx := .idle
  respMsg := Msg.zero
  respSem := false
  serving := false
  handlersReady := false
  calls := 0
  made := []
  returns := []

/-- A string up to its end. -/
def cstr (bs : List UInt8) : List UInt8 := bs.takeWhile (· ≠ 0)

/-- `syn_ipc_send` numbers a message. -/
def nextId (n : Nat) : Nat := (n + 1) % 2 ^ 32

-- ---------------------------------------------------------------------------
-- CPU1
-- ---------------------------------------------------------------------------

/-- `syn_remote_model_lookup` up to the slot. -/
def beginLookup (name : List UInt8) (s : Link) : Link :=
  if s.cpu1 = .idle ∧ (cstr name).length < nameSize then
    { s with cpu1 := .writing ⟨s.calls, .lookup (cstr name)⟩ 0, handlersReady := true, calls := s.calls + 1 }
  else s

/-- Where the input of `syn_remote_infer` is. -/
inductive Source
  | bytes (input : List UInt8)
  /-- In the slot already. -/
  | inPlace (len : Nat)
  deriving DecidableEq, Repr

def Source.input (slot : Slot) : Source → List UInt8
  | .bytes input => input
  | .inPlace len => slot.input.read 0 len

def Source.isInPlace : Source → Bool
  | .bytes _ => false
  | .inPlace _ => true

/-- `syn_remote_infer` up to the slot. -/
def beginInfer (model : Nat) (src : Source) (cap priority : Nat) (s : Link) : Link :=
  let input := src.input s.slot
  if s.cpu1 = .idle ∧ input.length ≠ 0 ∧ input.length ≤ inputSize then
    { s with
      cpu1 := .heading ⟨s.calls, .infer model input cap priority⟩ src.isInPlace
      handlersReady := true, calls := s.calls + 1 }
  else s

def Req.kind : Req → Kind
  | .lookup _ => .modelLoad
  | .infer _ _ _ _ => .inferReq

def Req.priority : Req → Nat
  | .lookup _ => 0
  | .infer _ _ _ priority => priority

def Ask.msg (ask : Ask) (id : Nat) : Msg := ⟨ask.req.kind, id, ask.req.priority, 0, 0, ask.call⟩

/-- The call returns zero. -/
def returned (s : Link) (ask : Ask) (a : Answer) : Link :=
  { s with cpu1 := .idle, returns := s.returns ++ [(ask, a)] }

/-- The next step of the call on CPU1. -/
def stepCpu1 (ring : Nat) (s : Link) : Link :=
  match s.cpu1 with
  | .idle => s
  | .heading ask inPlace =>
    match ask.req with
    | .lookup _ => { s with cpu1 := .writing ask 0 }
    | .infer model input _ _ =>
      { s with
        slot := { s.slot with model := model, inputLen := input.length }
        cpu1 := .writing ask (if inPlace then input.length else 0) }
  | .writing ask n =>
    match ask.req with
    | .lookup name =>
      match (name ++ [0])[n]? with
      | some b =>
        { s with
          slot := { s.slot with modelName := s.slot.modelName.put n [b] }
          cpu1 := .writing ask (n + 1) }
      | none => { s with cpu1 := .resetting ask }
    | .infer _ input _ _ =>
      match input[n]? with
      | some b =>
        { s with
          slot := { s.slot with input := s.slot.input.put n [b] }
          cpu1 := .writing ask (n + 1) }
      | none => { s with cpu1 := .resetting ask }
  | .resetting ask => { s with respSem := false, cpu1 := .sending ask 0 }
  | .sending ask tries =>
    let id := nextId s.nextId1
    if s.toCpu0.length < ring then
      { s with toCpu0 := s.toCpu0 ++ [ask.msg id], nextId1 := id, cpu1 := .waiting ask }
    else
      { s with nextId1 := id, cpu1 := if tries + 1 < sendTries then .sending ask (tries + 1) else .idle }
  | .waiting ask => if s.respSem then { s with respSem := false, cpu1 := .answered ask } else s
  | .answered ask => { s with cpu1 := if s.respMsg.status = 0 then .reading ask else .idle }
  | .reading ask =>
    match ask.req with
    | .lookup _ => returned s ask (.handle s.slot.model)
    | .infer _ _ cap _ =>
      { s with cpu1 := if s.slot.outputLen ≤ cap then .copying ask s.slot.outputLen [] else .idle }
  | .copying ask len bytes =>
    if bytes.length < len then
      { s with cpu1 := .copying ask len (bytes ++ [s.slot.output bytes.length]) }
    else returned s ask (.output bytes s.slot.outputLen)

/-- The wait for the response times out. -/
def timeout (s : Link) : Link :=
  match s.cpu1 with
  | .waiting _ => { s with cpu1 := .idle }
  | _ => s

def Msg.forCpu1 (m : Msg) : Bool := decide (m.kind = .inferResp ∨ m.kind = .modelLoad)

/-- The receiving thread of CPU1 takes a message, up to `k_sem_give`. -/
def deliver (s : Link) : Link :=
  match s.rx, s.toCpu1 with
  | .idle, m :: rest =>
    if s.handlersReady ∧ m.forCpu1 then { s with toCpu1 := rest, respMsg := m, rx := .giving }
    else { s with toCpu1 := rest }
  | _, _ => s

def give (s : Link) : Link :=
  match s.rx with
  | .giving => { s with respSem := true, rx := .idle }
  | .idle => s

-- ---------------------------------------------------------------------------
-- CPU0
-- ---------------------------------------------------------------------------

/-- The receiving thread of CPU0 takes a message. -/
def take (s : Link) : Link :=
  match s.cpu0, s.toCpu0 with
  | .idle, m :: rest =>
    let s := { s with toCpu0 := rest }
    if s.serving then
      match m.kind with
      | .modelLoad => { s with cpu0 := .lookup m }
      | .inferReq => { s with cpu0 := .clearing m }
      | _ => s
    else s
  | _, _ => s

/-- The answer to `m`. -/
def Msg.reply (m : Msg) (kind : Kind) (id : Nat) (ret : Ret) : Msg :=
  ⟨kind, id, if kind = .inferResp then m.priority else 0, m.msgId, ret, m.call⟩

/-- The next step of a handler. `res` is what the service it calls returns,
`handle` and `out` what it hands out. -/
def stepCpu0 (ring : Nat) (res : Ret) (handle : Nat) (out : List UInt8) (s : Link) : Link :=
  match s.cpu0 with
  | .idle => s
  | .lookup m =>
    let slot := { s.slot with modelName := s.slot.modelName.put (nameSize - 1) [0] }
    let name := cstr (slot.modelName.read 0 nameSize)
    if res = 0 then
      { s with slot := slot, made := s.made ++ [.handle m.call name handle], cpu0 := .found m 0 handle }
    else { s with slot := slot, cpu0 := .found m res 0 }
  | .found m ret handle =>
    { s with slot := { s.slot with model := handle }, cpu0 := .sending m .modelLoad ret 0 }
  | .clearing m => { s with slot := { s.slot with outputLen := 0 }, cpu0 := .gate m }
  | .gate m => { s with cpu0 := if res = 0 then .info m else .status m eagain }
  | .info m => { s with cpu0 := if res = 0 then .length m else .status m res }
  | .length m =>
    { s with
      cpu0 := if inputSize < s.slot.inputLen ∨ s.slot.inputLen = 0 then .status m emsgsize else .alloc m }
  | .alloc m => { s with cpu0 := if res = 0 then .copying m s.slot.inputLen [] else .status m enomem }
  | .copying m len bytes =>
    { s with
      cpu0 := if bytes.length < len then .copying m len (bytes ++ [s.slot.input bytes.length])
        else .starting m bytes }
  | .starting m bytes => { s with cpu0 := .running m s.slot.model bytes }
  | .running m model input =>
    if res ≠ 0 then { s with cpu0 := .status m res }
    else
      { s with
        made := s.made ++ [.output m.call model input out]
        cpu0 := if out.length ≤ outputSize then .writing m out 0 else .status m emsgsize }
  | .writing m out n =>
    match out[n]? with
    | some b =>
      { s with
        slot := { s.slot with output := s.slot.output.put n [b] }, cpu0 := .writing m out (n + 1) }
    | none => { s with slot := { s.slot with outputLen := out.length }, cpu0 := .status m 0 }
  | .status m ret =>
    { s with slot := { s.slot with inferStatus := ret }, cpu0 := .sending m .inferResp ret 0 }
  | .sending m kind ret tries =>
    let id := nextId s.nextId0
    if s.toCpu1.length < ring then
      { s with toCpu1 := s.toCpu1 ++ [m.reply kind id ret], nextId0 := id, cpu0 := .idle }
    else
      { s with
        nextId0 := id
        cpu0 := if tries + 1 < sendTries then .sending m kind ret (tries + 1) else .idle }

-- ---------------------------------------------------------------------------
-- Steps
-- ---------------------------------------------------------------------------

inductive Op
  /-- `syn_remote_serve_init`. -/
  | serveInit
  | lookup (name : List UInt8)
  | infer (model : Nat) (src : Source) (cap priority : Nat)
  | cpu1
  | timeout
  | deliver
  | give
  | take
  | cpu0 (res : Ret) (handle : Nat) (out : List UInt8)
  /-- Another message, from CPU1 or from CPU0. -/
  | other0
  | other1
  deriving DecidableEq, Repr

def step (ring : Nat) (s : Link) : Op → Link
  | .serveInit => { s with serving := true }
  | .lookup name => beginLookup name s
  | .infer model src cap priority => beginInfer model src cap priority s
  | .cpu1 => stepCpu1 ring s
  | .timeout => timeout s
  | .deliver => deliver s
  | .give => give s
  | .take => take s
  | .cpu0 res handle out => stepCpu0 ring res handle out s
  | .other0 => if s.toCpu0.length < ring then { s with toCpu0 := s.toCpu0 ++ [Msg.zero] } else s
  | .other1 => if s.toCpu1.length < ring then { s with toCpu1 := s.toCpu1 ++ [Msg.zero] } else s

-- ---------------------------------------------------------------------------
-- What the protocol is for
-- ---------------------------------------------------------------------------

/-- CPU0 produced the answer for this very request. -/
def Ask.answeredBy (ask : Ask) (made : List Made) : Answer → Prop
  | .handle handle => ∃ name, ask.req = .lookup name ∧ .handle ask.call name handle ∈ made
  | .output bytes len => ∃ model input cap priority, ask.req = .infer model input cap priority ∧
    .output ask.call model input bytes ∈ made ∧ len = bytes.length

/-- CPU1 rewrites the slot. -/
def Cpu1.rewrites : Cpu1 → Bool
  | .heading _ _ | .writing _ _ => true
  | _ => false

/-- The next step of CPU0 reads the request in the slot. -/
def Cpu0.reads : Cpu0 → Bool
  | .lookup _ | .info _ | .length _ | .alloc _ | .copying _ _ _ | .starting _ _ => true
  | _ => false

structure Belongs (s : Link) : Prop where
  answers : ∀ r ∈ s.returns, r.1.answeredBy s.made r.2
  apart : s.cpu1.rewrites = true → s.cpu0.reads = false

end SynapticOS.Remote
