import SynapticOS.Lib.Index
import SynapticOS.Lib.Ring
import SynapticOS.Lib.Run
import Mathlib.Data.Fintype.Pi

/-!
# The message ring

One ring of the shared region, word by word. `n` threads of one core push, one
thread of the other core pops. A step reads an index, copies one word of a
message, or publishes an index; stores are seen in program order.

`sent` are the messages whose push has returned zero, `got` those that were
popped.
-/

namespace SynapticOS.Ipc

open Lib

/-- `syn_ipc_msg_t` has five words. -/
abbrev msgWords : Nat := 5

abbrev Msg := Fin msgWords → UInt32

/-- The indices count modulo this. -/
abbrev wrap : Nat := 2 ^ 32

/-- Zero or a negative errno. -/
abbrev Ret := Int

def eagain : Ret := -11

/-- Where a thread is in `syn_ipc_ring_push`. -/
inductive Producer
  | idle
  /-- Has read its own index. -/
  | started (m : Msg) (head : Nat)
  /-- `k` words are in the slot. -/
  | filling (m : Msg) (head : Nat) (k : Nat)
  deriving DecidableEq

/-- Where the receiver is in `syn_ipc_ring_pop`. -/
inductive Consumer
  | idle
  | started (tail : Nat)
  /-- `k` words are copied out. -/
  | copying (tail : Nat) (k : Nat) (m : Msg)
  deriving DecidableEq

structure Ring (n : Nat) where
  head : Nat
  tail : Nat
  slots : Nat → Msg
  prod : Fin n → Producer
  cons : Consumer
  sent : List Msg
  got : List Msg

variable {n N c : Nat} {s s' : Ring n} {t : Fin n} {m : Msg}

namespace Ring

/-- An empty ring whose counters stand at `c`. -/
def start (n c : Nat) : Ring n :=
  ⟨c, c, fun _ _ => 0, fun _ => .idle, .idle, [], []⟩

def setProd (s : Ring n) (t : Fin n) (p : Producer) : Ring n :=
  { s with prod := Function.update s.prod t p }

/-- The push reads its own index. -/
def pushStart (t : Fin n) (m : Msg) (s : Ring n) : Ring n :=
  match s.prod t with
  | .idle => s.setProd t (.started m s.head)
  | _ => s

/-- The next step of a push, and what the call returns if it is the last one. -/
def pushNext (N : Nat) (t : Fin n) (s : Ring n) : Ring n × Option Ret :=
  match s.prod t with
  | .idle => (s, none)
  | .started m head =>
    if (head + wrap - s.tail) % wrap ≥ N then (s.setProd t .idle, some eagain)
    else (s.setProd t (.filling m head 0), none)
  | .filling m head k =>
    if hk : k < msgWords then
      let slot := Function.update (s.slots (head % N)) ⟨k, hk⟩ (m ⟨k, hk⟩)
      ({ s.setProd t (.filling m head (k + 1)) with
        slots := Function.update s.slots (head % N) slot }, none)
    else
      ({ s.setProd t .idle with head := (head + 1) % wrap, sent := s.sent ++ [m] }, some 0)

def popStart (s : Ring n) : Ring n :=
  match s.cons with
  | .idle => { s with cons := .started s.tail }
  | _ => s

/-- The next step of a pop, and what it returns if it is the last one: a message,
or none for `-EAGAIN`. -/
def popNext (N : Nat) (s : Ring n) : Ring n × Option (Option Msg) :=
  match s.cons with
  | .idle => (s, none)
  | .started tail =>
    if s.head = tail then ({ s with cons := .idle }, some none)
    else ({ s with cons := .copying tail 0 fun _ => 0 }, none)
  | .copying tail k m =>
    if hk : k < msgWords then
      let m := Function.update m ⟨k, hk⟩ (s.slots (tail % N) ⟨k, hk⟩)
      ({ s with cons := .copying tail (k + 1) m }, none)
    else
      ({ s with cons := .idle, tail := (tail + 1) % wrap, got := s.got ++ [m] }, some (some m))

inductive Op (n : Nat)
  | pushStart (t : Fin n) (m : Msg)
  | pushNext (t : Fin n)
  | popStart
  | popNext

def step (N : Nat) (s : Ring n) : Op n → Ring n
  | .pushStart t m => pushStart t m s
  | .pushNext t => (pushNext N t s).1
  | .popStart => popStart s
  | .popNext => (popNext N s).1

-- ---------------------------------------------------------------------------
-- The property
-- ---------------------------------------------------------------------------

/-- The ring is a queue of at most `N` messages. -/
structure Fifo (N : Nat) (s : Ring n) : Prop where
  order : s.got <+: s.sent
  room : s.sent.length ≤ s.got.length + N
  full : ∀ t, (pushNext N t s).2 = some eagain → s.sent.length = s.got.length + N
  empty : (popNext N s).2 = some none → s.got = s.sent

/-- No push is under way when another begins. -/
def Alone (s : Ring n) : Op n → Prop
  | .pushStart t _ => ∀ i, i ≠ t → s.prod i = .idle
  | _ => True

instance (s : Ring n) (o : Op n) : Decidable (Alone s o) := by
  unfold Alone
  cases o <;> dsimp only <;> infer_instance

-- ---------------------------------------------------------------------------
-- The invariant
-- ---------------------------------------------------------------------------

def ProdOk (N c : Nat) (s : Ring n) : Producer → Prop
  | .idle => True
  | .started _ head => head = s.head
  | .filling m head k => head = s.head ∧ s.sent.length < s.got.length + N ∧
    ∀ i : Fin msgWords, i < k → s.slots ((c + s.sent.length) % N) i = m i

def ConsOk (s : Ring n) : Consumer → Prop
  | .idle => True
  | .started tail => tail = s.tail
  | .copying tail k m => tail = s.tail ∧ ∃ x, s.sent[s.got.length]? = some x ∧
    ∀ i : Fin msgWords, i < k → m i = x i

structure Ok (N c : Nat) (s : Ring n) : Prop where
  head : s.head = (c + s.sent.length) % wrap
  tail : s.tail = (c + s.got.length) % wrap
  keeps : Ring.Keeps N c s.slots s.sent s.got.length
  order : s.got <+: s.sent
  alone : ∀ i t, s.prod i ≠ .idle → s.prod t ≠ .idle → i = t
  prod : ∀ t, ProdOk N c s (s.prod t)
  cons : ConsOk s s.cons

end Ring

end SynapticOS.Ipc
