import SynapticOS.Lib.Index
import SynapticOS.Memory.ArenaLaws

/-!
# Serving and local work

Local threads allocate inputs, submit jobs and read results; the scheduler
allocates stage buffers for the job it runs; the receiving thread serves requests
of the other core and resets the arena after each. An allocation reads where the
ephemeral region ends and, in a second step, moves that end. Which job runs when,
and how long a call waits, is up to the schedule.

`inputs` and `Job.blocks` are the blocks that a local thread still counts on.
-/

namespace SynapticOS.Memory

open Lib

/-- `arena_alloc` of an ephemeral tensor, between the two steps. -/
structure Call where
  size : Nat
  offset : Nat
  deriving DecidableEq, Repr

def Call.block (c : Call) : Block := ⟨false, .ephemeral, alignUp c.offset, c.size⟩

def callBegin (size : Nat) (a : Arena) : Call := ⟨size, a.bump .ephemeral⟩

def callEnd (c : Call) (a : Arena) : Option Block × Arena :=
  match arenaAllocAt .ephemeral c.offset c.size a with
  | (none, a) => (none, a)
  | (some _, a) => (some c.block, a)

inductive JobState
  | free | queued | running | suspended | finished
  deriving DecidableEq, Repr

/-- A job of a local thread, or one that serves the other core. -/
structure Job (n : Nat) where
  state : JobState
  owner : Option (Fin n)
  blocks : List Block
  deriving DecidableEq, Repr

/-- Where the scheduler is. -/
inductive Exec (m : Nat)
  | idle
  | running (j : Fin m)
  | allocating (j : Fin m) (c : Call)
  deriving DecidableEq, Repr

/-- Where the receiving thread is in `infer_req_handler`. -/
inductive Server (m : Nat)
  | idle
  | allocating (c : Call)
  /-- The input is copied. -/
  | allocated (b : Block)
  /-- In `syn_infer_run_sync`. -/
  | waiting (j : Fin m)
  | resetting
  deriving DecidableEq, Repr

structure Serving (n m : Nat) where
  arena : Arena
  locals : Fin n → Option Call
  inputs : Fin n → List Block
  jobs : Fin m → Job n
  exec : Exec m
  server : Server m

variable {n m : Nat} {s s' : Serving n m}

namespace Serving

def init (n m : Nat) (a : Arena) : Serving n m :=
  { arena := a, locals := fun _ => none, inputs := fun _ => [], jobs := fun _ => ⟨.free, none, []⟩
    exec := .idle, server := .idle }

def setJob (s : Serving n m) (j : Fin m) (x : Job n) : Serving n m :=
  { s with jobs := Function.update s.jobs j x }

-- ---------------------------------------------------------------------------
-- Local threads
-- ---------------------------------------------------------------------------

def allocBegin (t : Fin n) (size : Nat) (s : Serving n m) : Serving n m :=
  match s.locals t with
  | none => { s with locals := Function.update s.locals t (some (callBegin size s.arena)) }
  | some _ => s

def allocEnd (t : Fin n) (s : Serving n m) : Serving n m :=
  match s.locals t with
  | none => s
  | some c =>
    let r := callEnd c s.arena
    { s with
      arena := r.2, locals := Function.update s.locals t none
      inputs := Function.update s.inputs t (s.inputs t ++ r.1.toList) }

/-- A thread submits one of its inputs, which it may `keep` for other jobs, or a
tensor that does not lie in the arena. -/
def submit (t : Fin n) (j : Fin m) (b : Option Block) (keep : Bool) (s : Serving n m) : Serving n m :=
  match (s.jobs j).state, b with
  | .free, none => s.setJob j ⟨.queued, some t, []⟩
  | .free, some b =>
    if b ∈ s.inputs t then
      { s.setJob j ⟨.queued, some t, [b]⟩ with
        inputs := Function.update s.inputs t (if keep then s.inputs t else (s.inputs t).erase b) }
    else s
  | _, _ => s

/-- The owner has read the result. -/
def consume (j : Fin m) (s : Serving n m) : Serving n m :=
  match (s.jobs j).state with
  | .finished => s.setJob j ⟨.free, none, []⟩
  | _ => s

/-- A thread resets the arena, and counts on none of its blocks any more. -/
def localReset (t : Fin n) (s : Serving n m) : Serving n m :=
  match s.locals t with
  | none =>
    { s with
      arena := resetEphemeral s.arena, inputs := Function.update s.inputs t []
      jobs := fun j =>
        if (s.jobs j).owner = some t then { s.jobs j with blocks := [] } else s.jobs j }
  | some _ => s

-- ---------------------------------------------------------------------------
-- The receiving thread
-- ---------------------------------------------------------------------------

def serveBegin (size : Nat) (s : Serving n m) : Serving n m :=
  match s.server with
  | .idle => { s with server := .allocating (callBegin size s.arena) }
  | _ => s

def serveAlloc (s : Serving n m) : Serving n m :=
  match s.server with
  | .allocating c =>
    let r := callEnd c s.arena
    { s with arena := r.2, server := match r.1 with
      | none => .idle
      | some b => .allocated b }
  | _ => s

def serveSubmit (j : Fin m) (s : Serving n m) : Serving n m :=
  match s.server, (s.jobs j).state with
  | .allocated b, .free => { s.setJob j ⟨.queued, none, [b]⟩ with server := .waiting j }
  | _, _ => s

/-- The inference is refused. -/
def serveRefused (s : Serving n m) : Serving n m :=
  match s.server with
  | .allocated _ => { s with server := .resetting }
  | _ => s

/-- The wait ends, or runs out; a result is copied and its job freed. -/
def serveReturn (s : Serving n m) : Serving n m :=
  match s.server with
  | .waiting j =>
    match (s.jobs j).state with
    | .finished => { s.setJob j ⟨.free, none, []⟩ with server := .resetting }
    | _ => { s with server := .resetting }
  | _ => s

def serveReset (s : Serving n m) : Serving n m :=
  match s.server with
  | .resetting => { s with arena := resetEphemeral s.arena, server := .idle }
  | _ => s

-- ---------------------------------------------------------------------------
-- The scheduler
-- ---------------------------------------------------------------------------

def dispatch (j : Fin m) (s : Serving n m) : Serving n m :=
  match s.exec, (s.jobs j).state with
  | .idle, .queued | .idle, .suspended =>
    { s.setJob j { s.jobs j with state := .running } with exec := .running j }
  | _, _ => s

def stageBegin (size : Nat) (s : Serving n m) : Serving n m :=
  match s.exec with
  | .running j => { s with exec := .allocating j (callBegin size s.arena) }
  | _ => s

/-- `alloc_stage_output`. -/
def stageEnd (s : Serving n m) : Serving n m :=
  match s.exec with
  | .allocating j c =>
    let r := callEnd c s.arena
    { s.setJob j { s.jobs j with blocks := (s.jobs j).blocks ++ r.1.toList } with
      arena := r.2, exec := .running j }
  | _ => s

/-- The running job is suspended, or ends. -/
def leave (state : JobState) (s : Serving n m) : Serving n m :=
  match s.exec with
  | .running j => { s.setJob j { s.jobs j with state := state } with exec := .idle }
  | _ => s

inductive Op (n m : Nat)
  | allocBegin (t : Fin n) (size : Nat)
  | allocEnd (t : Fin n)
  | submit (t : Fin n) (j : Fin m) (b : Option Block) (keep : Bool)
  | consume (j : Fin m)
  | localReset (t : Fin n)
  | serveBegin (size : Nat)
  | serveAlloc
  | serveSubmit (j : Fin m)
  | serveRefused
  | serveReturn
  | serveReset
  | dispatch (j : Fin m)
  | stageBegin (size : Nat)
  | stageEnd
  | suspend
  | finish
  deriving DecidableEq, Repr

def step (s : Serving n m) : Op n m → Serving n m
  | .allocBegin t size => allocBegin t size s
  | .allocEnd t => allocEnd t s
  | .submit t j b keep => submit t j b keep s
  | .consume j => consume j s
  | .localReset t => localReset t s
  | .serveBegin size => serveBegin size s
  | .serveAlloc => serveAlloc s
  | .serveSubmit j => serveSubmit j s
  | .serveRefused => serveRefused s
  | .serveReturn => serveReturn s
  | .serveReset => serveReset s
  | .dispatch j => dispatch j s
  | .stageBegin size => stageBegin size s
  | .stageEnd => stageEnd s
  | .suspend => leave .suspended s
  | .finish => leave .finished s

-- ---------------------------------------------------------------------------
-- The property
-- ---------------------------------------------------------------------------

/-- The block that a step hands out. -/
def handsOut (s : Serving n m) : Op n m → Option Block
  | .allocEnd t => (s.locals t).bind fun c => (callEnd c s.arena).1
  | .serveAlloc =>
    match s.server with
    | .allocating c => (callEnd c s.arena).1
    | _ => none
  | .stageEnd =>
    match s.exec with
    | .allocating _ c => (callEnd c s.arena).1
    | _ => none
  | _ => none

/-- No step hands out a block of a local job. -/
def Kept (s : Serving n m) : Prop :=
  ∀ o b, handsOut s o = some b → ∀ j t, (s.jobs j).owner = some t → (s.jobs j).state ≠ .free →
    ∀ x ∈ (s.jobs j).blocks, Block.Apart s.arena b x

/-- No thread is inside an allocation. -/
def Quiet (s : Serving n m) : Prop :=
  (∀ t, s.locals t = none) ∧ (match s.server with
    | .allocating _ => False
    | _ => True) ∧ match s.exec with
    | .allocating _ _ => False
    | _ => True

instance (s : Serving n m) : Decidable (Quiet s) := by
  unfold Quiet
  cases s.server <;> cases s.exec <;> dsimp only <;> infer_instance

/-- The local thread `t` counts on no block. -/
def Free (s : Serving n m) (t : Fin n) : Prop :=
  s.inputs t = [] ∧ ∀ j, (s.jobs j).owner = some t → (s.jobs j).blocks = []

instance (s : Serving n m) (t : Fin n) : Decidable (Free s t) := by
  unfold Free; infer_instance

/-- Allocations do not overlap and do not wrap, and nobody resets the arena while
another local thread counts on a block. -/
def Safe (s : Serving n m) : Op n m → Prop
  | .allocBegin _ size | .serveBegin size | .stageBegin size =>
    Quiet s ∧ s.arena.usable + size + 16 ≤ sizeMod
  | .localReset t => ∀ i, i ≠ t → Free s i
  | .serveReset => ∀ i, Free s i
  | _ => True

instance (s : Serving n m) (o : Op n m) : Decidable (Safe s o) := by
  unfold Safe
  cases o <;> dsimp only <;> infer_instance

end Serving

end SynapticOS.Memory
