import SynapticOS.Lib.Act
import SynapticOS.Lib.Bytes
import Mathlib.Data.List.Infix
import Mathlib.Tactic.Linarith

/-!
# The flash port

The narrow seam under the model store: `read`, `write`, `erase`,
`eraseSectors` and `isBlank`, range- and alignment-checked, over a NOR window.
Erasing sets `0xFF`; a page is programmed only when it is blank.

Every primitive consumes one entry of a fault plan. An `error` lets a prefix
of the work land and returns; a `powerLoss` does the same and turns the flash
off, after which no primitive does anything until the next boot. The trace
records each erase and program that was issued, with what landed of it.
-/

namespace SynapticOS

open Lib

inductive Errno
  | einval | ebusy | enoent | ealready | enospc | efbig | eilseq | eio | eacces | eperm
  | enodev | enodata | emsgsize | eexist | enomem | enoexec | etimedout | eagain
  | enotsup | eintr | ecanceled | einprogress | ehostdown
  deriving DecidableEq, Repr

/-- Geometry of a managed window. The checks are those of
`syn_flash_port_ram_init`; the window lies in a 32-bit address space. -/
structure Port where
  base : Nat
  size : Nat
  sectorSize : Nat
  pageSize : Nat
  /-- The backend hands out direct-read pointers. -/
  mapped : Bool
  page_pos : 0 < pageSize
  sector_pos : 0 < sectorSize
  page_dvd_sector : pageSize ∣ sectorSize
  sector_dvd_size : sectorSize ∣ size
  window : base + size < 2 ^ 32

/-- Where a faulty primitive stops: after `units` whole pages (sectors for an
erase) and, for a program, possibly half of the next page. -/
structure Tear where
  units : Nat
  half : Bool
  deriving DecidableEq, Repr

inductive Fault
  | none
  | error (tear : Tear)
  | powerLoss (tear : Tear)
  deriving DecidableEq, Repr

instance (f : Fault) : Decidable (∀ t, f ≠ .error t) :=
  match f with
  | .none | .powerLoss _ => isTrue fun _ h => nomatch h
  | .error t => isFalse fun h => h t rfl

/-- An issued flash command and the number of bytes that landed. -/
inductive FlashOp
  | erase (off len done : Nat)
  | program (off : Nat) (data : List UInt8) (done : Nat)
  deriving DecidableEq, Repr

structure Flash where
  mem : Mem
  powered : Bool
  plan : List Fault
  trace : List FlashOp

abbrev FlashM := Act Flash Errno

def erasedByte : UInt8 := 0xFF

/-- The bytes in `[lo, hi)` are blank. -/
def Erased (m : Mem) (lo hi : Nat) : Prop := ∀ a, lo ≤ a → a < hi → m a = erasedByte

def blank (m : Mem) (off len : Nat) : Bool := (List.range len).all fun i => m (off + i) == erasedByte

namespace Flash

-- ---------------------------------------------------------------------------
-- Primitives
-- ---------------------------------------------------------------------------

/-- Run a primitive under the next entry of the fault plan. -/
def prim (op : Option Tear → FlashM α) : FlashM α := fun fl =>
  if fl.powered then
    match fl.plan with
    | [] => (op none).run fl
    | .none :: rest => (op none).run { fl with plan := rest }
    | .error t :: rest => (op (some t)).run { fl with plan := rest }
    | .powerLoss t :: rest =>
      let (r, fl') := (op (some t)).run { fl with plan := rest }
      (r, { fl' with powered := false })
  else (.error .eio, fl)

def checkRange (p : Port) (off len : Nat) : Prop := len ≠ 0 ∧ off ≤ p.size ∧ len ≤ p.size - off

instance : Decidable (checkRange p off len) := by unfold checkRange; infer_instance

def read (p : Port) (off len : Nat) : FlashM (List UInt8) :=
  if checkRange p off len then
    prim fun
      | none => Act.gets fun fl => fl.mem.read off len
      | some _ => Act.throw .eio
  else Act.throw .einval

/-- The page loop of `ram_write`: how it ends and how many bytes landed. Later
pages do not see earlier ones, so the blank check reads the memory before. -/
def programPages (page : Nat) (m : Mem) : Nat → Option Tear → Nat → Except Errno Unit × Nat
  | 0, tear, _ => (if tear.isNone then .ok () else .error .eio, 0)
  | pages + 1, tear, off =>
    if tear.any fun t => t.units == 0 then
      (.error .eio, if tear.any fun t => t.half then page / 2 else 0)
    else if blank m off page then
      let (r, n) := programPages page m pages (tear.map fun t => ⟨t.units - 1, t.half⟩) (off + page)
      (r, page + n)
    else (.error .eacces, 0)

def ramWrite (p : Port) (off : Nat) (data : List UInt8) (tear : Option Tear) : FlashM Unit := fun fl =>
  let (r, n) := programPages p.pageSize fl.mem (data.length / p.pageSize) tear off
  (r, { fl with mem := fl.mem.put off (data.take n), trace := fl.trace ++ [.program off data n] })

def write (p : Port) (off : Nat) (data : List UInt8) : FlashM Unit :=
  if checkRange p off data.length then
    if off % p.pageSize ≠ 0 ∨ data.length % p.pageSize ≠ 0 then Act.throw .einval
    else prim (ramWrite p off data)
  else Act.throw .einval

def ramErase (p : Port) (off len : Nat) (tear : Option Tear) : FlashM Unit := fun fl =>
  let done := match tear with
    | none => len
    | some t => min len (t.units * p.sectorSize)
  (if tear.isNone then .ok () else .error .eio,
    { fl with
      mem := fl.mem.put off (List.replicate done erasedByte)
      trace := fl.trace ++ [.erase off len done] })

def erase (p : Port) (off len : Nat) : FlashM Unit :=
  if checkRange p off len then
    if off % p.sectorSize ≠ 0 ∨ len % p.sectorSize ≠ 0 then Act.throw .einval
    else prim (ramErase p off len)
  else Act.throw .einval

/-- One flash command per sector. -/
def eraseLoop (p : Port) : Nat → Nat → FlashM Unit
  | 0, _ => pure ()
  | k + 1, off => do
    prim (ramErase p off p.sectorSize)
    eraseLoop p k (off + p.sectorSize)

def eraseSectors (p : Port) (off len : Nat) : FlashM Unit :=
  if checkRange p off len then
    if off % p.sectorSize ≠ 0 ∨ len % p.sectorSize ≠ 0 then Act.throw .einval
    else eraseLoop p (len / p.sectorSize) off
  else Act.throw .einval

def isBlank (p : Port) (off len : Nat) : FlashM Bool :=
  if checkRange p off len then
    prim fun
      | none => Act.gets fun fl => blank fl.mem off len
      | some _ => Act.throw .eio
  else Act.throw .einval

/-- `syn_flash_mmap`: the window offset behind the pointer, or `NULL`. -/
def mmap (p : Port) (off : Nat) : Option Nat := if off < p.size ∧ p.mapped then some off else none

end Flash

-- ---------------------------------------------------------------------------
-- Memory facts
-- ---------------------------------------------------------------------------

section
variable {m m' : Mem} {lo hi off len : Nat}

theorem blank_iff : blank m off len = true ↔ Erased m off (off + len) := by
  simp only [blank, List.all_eq_true, List.mem_range, beq_iff_eq]
  constructor
  · intro h a ha hb
    obtain ⟨i, rfl⟩ := Nat.exists_eq_add_of_le ha
    exact h i (by omega)
  · intro h i hi
    exact h _ (by omega) (by omega)

theorem Erased.mono (h : Erased m lo hi) (hlo : lo ≤ lo') (hhi : hi' ≤ hi) : Erased m lo' hi' :=
  fun a h1 h2 => h a (by omega) (by omega)

theorem Erased.congr (h : Erased m lo hi) (hs : Mem.SameOn lo hi m m') : Erased m' lo hi :=
  fun a h1 h2 => (hs a h1 h2).trans (h a h1 h2)

theorem erased_put : Erased (m.put off (List.replicate len erasedByte)) off (off + len) := by
  intro a h1 h2
  obtain ⟨i, rfl⟩ := Nat.exists_eq_add_of_le h1
  rw [Mem.put_add (by simp; omega)]
  simp

end

end SynapticOS
