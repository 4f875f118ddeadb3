import SynapticOS.Lib.Run
import Mathlib.Algebra.BigOperators.Group.List.Basic
import Mathlib.Tactic.Common

/-!
# The tensor arena

A bump allocator with a persistent and an ephemeral region in one address range,
and a scratch pool above them. Offsets are taken from the base of the arena, or
of the pool for scratch blocks; sizes wrap as `size_t` does.

`live` are the blocks that were handed out and are not reclaimed: the persistent
ones since the initialization, the others since the last reset.
-/

namespace SynapticOS.Memory

open Lib

/-- `size_t` has 32 bits. -/
abbrev sizeMod : Nat := 2 ^ 32

/-- Zero or a negative errno. -/
abbrev Ret := Int

def einval : Ret := -22

structure Cfg where
  /-- `sizeof(syn_tensor_t)`. -/
  descriptor : Nat
  /-- `CONFIG_SYNAPTIC_SCRATCH_POOL_SIZE`. -/
  scratch : Nat
  pos : 0 < descriptor
  small : descriptor ≤ 64

inductive Dtype
  | int8 | uint8 | int16 | float16 | float32
  deriving DecidableEq, Repr

def dtypeSize : Dtype → Nat
  | .int8 | .uint8 => 1
  | .int16 | .float16 => 2
  | .float32 => 4

inductive Lifetime
  | persistent | ephemeral | shared
  deriving DecidableEq, Repr

structure Block where
  scratch : Bool
  lifetime : Lifetime
  offset : Nat
  size : Nat
  deriving DecidableEq, Repr

structure Arena where
  base : Nat
  total : Nat
  usable : Nat
  persistentUsed : Nat
  ephemeralUsed : Nat
  peak : Nat
  scratchTotal : Nat
  scratchUsed : Nat
  allocCount : Nat
  resetCount : Nat
  initialized : Bool
  live : List Block
  deriving DecidableEq, Repr

def Arena.zero : Arena := ⟨0, 0, 0, 0, 0, 0, 0, 0, 0, 0, false, []⟩

structure Tensor where
  data : Nat
  size : Nat
  dtype : Dtype
  ndim : Nat
  shape : List Nat
  lifetime : Lifetime
  deriving DecidableEq, Repr

-- ---------------------------------------------------------------------------
-- The allocator
-- ---------------------------------------------------------------------------

/-- `ALIGN_UP(x, 16)`. -/
def alignUp (x : Nat) : Nat := (x + 15) % sizeMod / 16 * 16

def memInit (cfg : Cfg) (base size : Nat) (a : Arena) : Ret × Arena :=
  if base = 0 ∨ size = 0 then (einval, a)
  else if size ≤ cfg.scratch then (einval, a)
  else
    (0, { base := base, total := size, usable := size - cfg.scratch, persistentUsed := 0
          ephemeralUsed := 0, peak := 0, scratchTotal := cfg.scratch, scratchUsed := 0
          allocCount := 0, resetCount := 0, initialized := true, live := [] })

def resetEphemeral (a : Arena) : Arena :=
  if a.initialized then
    { a with
      ephemeralUsed := 0, scratchUsed := 0, resetCount := (a.resetCount + 1) % 2 ^ 32
      live := a.live.filter fun b => !b.scratch && decide (b.lifetime = .persistent) }
  else a

/-- Where the next block of a lifetime would begin, before it is aligned. -/
def Arena.bump (a : Arena) : Lifetime → Nat
  | .persistent => a.persistentUsed
  | _ => (a.persistentUsed + a.ephemeralUsed) % sizeMod

/-- `arena_alloc` once it has read the offset; a block is known by its address. -/
def arenaAllocAt (lifetime : Lifetime) (offset size : Nat) (a : Arena) : Option Nat × Arena :=
  let aligned := alignUp offset
  let top := (aligned + size) % sizeMod
  if top > a.usable then (none, a)
  else
    let a' := match lifetime with
      | .persistent => { a with persistentUsed := top }
      | _ => { a with ephemeralUsed := (top + sizeMod - a.persistentUsed) % sizeMod }
    let current := (a'.persistentUsed + a'.ephemeralUsed) % sizeMod
    (some (a.base + aligned), { a' with
      peak := if current > a.peak then current else a.peak
      allocCount := (a.allocCount + 1) % 2 ^ 32
      live := a.live ++ [⟨false, lifetime, aligned, size⟩] })

def arenaAlloc (lifetime : Lifetime) (size : Nat) (a : Arena) : Option Nat × Arena :=
  arenaAllocAt lifetime (a.bump lifetime) size a

/-- The element count that `syn_mem_tensor_alloc` computes. -/
def elements (shape : List Nat) : Nat := shape.foldl (fun n d => n * d % sizeMod) 1

def dataSize (shape : List Nat) (dtype : Dtype) : Nat := elements shape * dtypeSize dtype % sizeMod

def tensorAlloc (cfg : Cfg) (shape : List Nat) (dtype : Dtype) (lifetime : Lifetime) (a : Arena) :
    Option Tensor × Arena :=
  if a.initialized = false ∨ shape.length = 0 ∨ 4 < shape.length then (none, a)
  else
    let desc := alignUp cfg.descriptor
    match arenaAlloc lifetime ((desc + dataSize shape dtype) % sizeMod) a with
    | (none, a) => (none, a)
    | (some block, a) =>
      (some { data := block + desc, size := dataSize shape dtype, dtype := dtype
              ndim := shape.length, shape := shape ++ List.replicate (4 - shape.length) 0
              lifetime := lifetime }, a)

def scratchAcquire (size : Nat) (a : Arena) : Option Nat × Arena :=
  if a.initialized = false ∨ size = 0 then (none, a)
  else
    let aligned := alignUp a.scratchUsed
    let top := (aligned + size) % sizeMod
    if top > a.scratchTotal then (none, a)
    else
      (some (a.base + a.usable + aligned), { a with
        scratchUsed := top, allocCount := (a.allocCount + 1) % 2 ^ 32
        live := a.live ++ [⟨true, .ephemeral, aligned, size⟩] })

/-- `arena_used` of `syn_mem_get_stats`. -/
def Arena.used (a : Arena) : Nat := (a.persistentUsed + a.ephemeralUsed) % sizeMod

inductive Op
  | tensorAlloc (shape : List Nat) (dtype : Dtype) (lifetime : Lifetime)
  | scratchAcquire (size : Nat)
  | resetEphemeral
  deriving DecidableEq, Repr

def step (cfg : Cfg) (a : Arena) : Op → Arena
  | .tensorAlloc shape dtype lifetime => (tensorAlloc cfg shape dtype lifetime a).2
  | .scratchAcquire size => (scratchAcquire size a).2
  | .resetEphemeral => resetEphemeral a

-- ---------------------------------------------------------------------------
-- The property
-- ---------------------------------------------------------------------------

/-- Where a block begins. -/
def Block.start (a : Arena) (b : Block) : Nat := if b.scratch then a.usable + b.offset else b.offset

def Block.Apart (a : Arena) (b c : Block) : Prop :=
  b.start a + b.size ≤ c.start a ∨ c.start a + c.size ≤ b.start a

structure Good (a : Arena) : Prop where
  apart : a.live.Pairwise (Block.Apart a)
  inside : ∀ b ∈ a.live, b.offset + b.size ≤ if b.scratch then a.scratchTotal else a.usable
  aligned : ∀ b ∈ a.live, b.offset % 16 = 0
  used : a.used ≤ a.usable

/-- Nothing wraps in an allocation from an arena of `size` bytes. -/
def Op.Small (cfg : Cfg) (size : Nat) : Op → Prop
  | .tensorAlloc shape dtype _ =>
    size + alignUp cfg.descriptor + shape.prod * dtypeSize dtype + 16 ≤ sizeMod
  | .scratchAcquire n => size + n + 16 ≤ sizeMod
  | .resetEphemeral => True

instance (cfg : Cfg) (size : Nat) (o : Op) : Decidable (o.Small cfg size) := by
  unfold Op.Small
  cases o <;> dsimp only <;> infer_instance

/-- No persistent block is allocated, unless it does not fit, while there are
ephemeral ones. -/
def Permitted (cfg : Cfg) (a : Arena) : Op → Prop
  | .tensorAlloc shape dtype .persistent =>
    a.ephemeralUsed = 0 ∨ shape.length = 0 ∨ 4 < shape.length ∨
      a.usable < alignUp a.persistentUsed + (alignUp cfg.descriptor + shape.prod * dtypeSize dtype)
  | _ => True

instance (cfg : Cfg) (a : Arena) (o : Op) : Decidable (Permitted cfg a o) := by
  unfold Permitted
  split <;> infer_instance

end SynapticOS.Memory
