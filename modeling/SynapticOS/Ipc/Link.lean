import SynapticOS.Ipc.Ring

/-!
# Sending and receiving

`n` threads of one core send, the other core receives: its mailbox interrupt
wakes the receiving thread, which empties the ring into handlers and a queue. A
step is an access to the ring, to the mailbox, to the event semaphore, to a
handler entry or to the queue. Handlers are addresses, zero is none.
-/

namespace SynapticOS.Ipc

open Lib

def typeCount : Nat := 6

/-- The type lies in the low byte of the second word. -/
def Msg.type (m : Msg) : Nat := (m 1).toNat % 256

/-- `syn_ipc_send` gives an id to a message without one, and a time to all. -/
def Msg.stamp (m : Msg) (id now : UInt32) : Msg :=
  Function.update (if m 0 = 0 then Function.update m 0 id else m) 3 now

/-- Where a thread is in `syn_ipc_send`. -/
inductive Sender
  | idle
  | stamped (m : Msg)
  | pushing
  | kicking
  deriving DecidableEq

inductive Isr
  | idle
  /-- Has read the mailbox. -/
  | read (value : Bool)
  | giving
  deriving DecidableEq

/-- Where the receiving thread is. -/
inductive Rx
  | popping
  /-- About to look for the handler. -/
  | looking (m : Msg)
  | calling (m : Msg) (fn : Nat)
  | handling (m : Msg) (fn ctx : Nat)
  /-- There is no handler. -/
  | putting (m : Msg)
  /-- At the event semaphore. -/
  | blocked
  deriving DecidableEq

/-- What became of a message. -/
inductive Fate
  | handled (fn : Nat)
  | queued
  | dropped
  deriving DecidableEq, Repr

structure Link (n : Nat) where
  ring : Ring n
  nextId : UInt32
  senders : Fin n → Sender
  mailbox : Bool
  isr : Isr
  event : Bool
  rx : Rx
  fns : Nat → Nat
  ctxs : Nat → Nat
  queue : List Msg
  log : List (Msg × Fate)

variable {n N : Nat} {s s' : Link n} {t : Fin n} {m : Msg}

namespace Link

def init (n : Nat) : Link n :=
  { ring := Ring.start n 0, nextId := 0, senders := fun _ => .idle, mailbox := false, isr := .idle
    event := false, rx := .popping, fns := fun _ => 0, ctxs := fun _ => 0, queue := [], log := [] }

def setSender (s : Link n) (t : Fin n) (x : Sender) : Link n :=
  { s with senders := Function.update s.senders t x }

/-- `syn_ipc_send` up to the push. -/
def send (t : Fin n) (m : Msg) (now : UInt32) (s : Link n) : Link n :=
  match s.senders t with
  | .idle =>
    if m.type ≥ typeCount then s
    else
      { s.setSender t (.stamped (m.stamp (s.nextId + 1) now)) with
        nextId := if m 0 = 0 then s.nextId + 1 else s.nextId }
  | _ => s

/-- The next step of a send. -/
def sendNext (N : Nat) (t : Fin n) (s : Link n) : Link n :=
  match s.senders t with
  | .idle => s
  | .stamped m => { s.setSender t .pushing with ring := Ring.pushStart t m s.ring }
  | .pushing =>
    match Ring.pushNext N t s.ring with
    | (r, none) => { s with ring := r }
    | (r, some ret) => { s.setSender t (if ret = 0 then .kicking else .idle) with ring := r }
  | .kicking => { s.setSender t .idle with mailbox := true }

def isrNext (s : Link n) : Link n :=
  match s.isr with
  | .idle => { s with isr := .read s.mailbox }
  | .read value => { s with isr := .giving, mailbox := s.mailbox && !value }
  | .giving => { s with isr := .idle, event := true }

/-- The handler that is registered for a message. -/
def handler (s : Link n) (m : Msg) : Nat := if m.type < typeCount then s.fns m.type else 0

def rxNext (N : Nat) (s : Link n) : Link n :=
  match s.rx with
  | .popping =>
    if s.ring.cons = .idle then { s with ring := Ring.popStart s.ring }
    else
      match Ring.popNext N s.ring with
      | (r, none) => { s with ring := r }
      | (r, some none) => { s with ring := r, rx := .blocked }
      | (r, some (some m)) => { s with ring := r, rx := .looking m }
  | .looking m =>
    if s.handler m ≠ 0 then
      { s with rx := .calling m (s.handler m), log := s.log ++ [(m, .handled (s.handler m))] }
    else { s with rx := .putting m }
  | .calling m fn => { s with rx := .handling m fn (s.ctxs m.type) }
  | .handling _ _ _ => { s with rx := .popping }
  | .putting m =>
    if s.queue.length < N then
      { s with rx := .popping, queue := s.queue ++ [m], log := s.log ++ [(m, .queued)] }
    else { s with rx := .popping, log := s.log ++ [(m, .dropped)] }
  | .blocked => if s.event then { s with rx := .popping, event := false } else s

/-- `syn_ipc_receive` takes a message from the queue. -/
def receive (s : Link n) : Link n := { s with queue := s.queue.tail }

/-- `syn_ipc_register_handler` writes the context first. -/
def setCtx (type ctx : Nat) (s : Link n) : Link n :=
  if type < typeCount then { s with ctxs := Function.update s.ctxs type ctx } else s

def setFn (type fn : Nat) (s : Link n) : Link n :=
  if type < typeCount then { s with fns := Function.update s.fns type fn } else s

inductive Op (n : Nat)
  | send (t : Fin n) (m : Msg) (now : UInt32)
  | sendNext (t : Fin n)
  | isrNext
  | rxNext
  | receive
  | setCtx (type ctx : Nat)
  | setFn (type fn : Nat)

def step (N : Nat) (s : Link n) : Op n → Link n
  | .send t m now => send t m now s
  | .sendNext t => sendNext N t s
  | .isrNext => isrNext s
  | .rxNext => rxNext N s
  | .receive => receive s
  | .setCtx type ctx => setCtx type ctx s
  | .setFn type fn => setFn type fn s

-- ---------------------------------------------------------------------------
-- The properties
-- ---------------------------------------------------------------------------

/-- The message that the receiving thread holds. -/
def inHand (s : Link n) : List Msg :=
  match s.rx with
  | .looking m | .putting m => [m]
  | _ => []

/-- Nothing is under way, and the receiving thread sleeps. -/
structure Asleep (s : Link n) : Prop where
  rx : s.rx = .blocked
  event : s.event = false
  isr : s.isr = .idle
  mailbox : s.mailbox = false
  senders : ∀ t, s.senders t = .idle

/-- What the step from `s` to `s'` may do with a message. -/
def Fair (N : Nat) (s s' : Link n) (m : Msg) : Fate → Prop
  | .handled fn => s.rx = .looking m ∧ fn = s.handler m ∧ fn ≠ 0
  | .queued => s.rx = .putting m ∧ s'.queue = s.queue ++ [m]
  | .dropped => s.rx = .putting m ∧ N ≤ s.queue.length

/-- No message is left behind. -/
structure Delivers (N : Nat) (s : Link n) : Prop where
  asleep : Asleep s → s.ring.head = s.ring.tail ∧ s.ring.got = s.ring.sent
  order : s.ring.got <+: s.ring.sent
  popped : s.ring.got = s.log.map (·.1) ++ s.inHand
  once : ∀ o, (step N s o).log = s.log ∨
    ∃ m f, (step N s o).log = s.log ++ [(m, f)] ∧ Fair N s (step N s o) m f
  unhandled : ∀ o m, (step N s o).rx = .putting m → s.rx = .putting m ∨ s.handler m = 0

/-- No thread begins its push while another one is in it. -/
def Alone (s : Link n) : Op n → Prop
  | .sendNext t =>
    match s.senders t with
    | .stamped _ => ∀ i, i ≠ t → s.ring.prod i = .idle
    | _ => True
  | _ => True

instance (s : Link n) (o : Op n) : Decidable (Alone s o) := by
  unfold Alone
  cases o with
  | sendNext t => dsimp only; cases s.senders t <;> dsimp only <;> infer_instance
  | _ => dsimp only; infer_instance

end Link

end SynapticOS.Ipc
