import SynapticOS.Store.Types

/-!
# Layered models and their plans

A layered blob lists its layers; each reads one or two buffers and writes one.
`parseModel` checks a blob, and `placeBuffers` gives every buffer an offset in
the shared plan area by first fit over the buffer lifetimes. Both work on the
one static plan, which keeps what a failed attempt left in it.

Buffer 0 is the model input, buffer `i + 1` the output of layer `i`.
-/

namespace SynapticOS.Layered

open Lib

/-- The build's limits on activations, with their configured ranges. -/
structure Limits where
  actMax : Nat
  planMax : Nat
  actMax_le : actMax ≤ 4096
  planMax_le : planMax ≤ 16384

def chainMagic : UInt32 := 0x4C4E5953
def dagMagic : UInt32 := 0x444E5953
def hdrSize : Nat := 8
def maxLayers : Nat := 16

def srcPrev : Int := -1
def srcInput : Int := -2
def srcNone : Int := -3

structure Layer where
  outSize : Nat
  work : Nat
  srcA : Nat
  srcB : Option Nat
  deriving DecidableEq, Repr

/-- `struct model_plan`. The arrays hold the entries of the last planning. -/
structure Plan where
  model : List UInt8
  inputSize : Nat
  layers : List Layer
  bufOff : List Nat
  plannedPeak : Nat
  naivePeak : Nat
  deriving DecidableEq, Repr

abbrev PlanM := Act Plan Errno

def Plan.layerCount (p : Plan) : Nat := p.layers.length

def Plan.bufSize (p : Plan) : Nat → Nat
  | 0 => p.inputSize
  | i + 1 => (p.layers[i]?).elim 0 Layer.outSize

def Plan.off (p : Plan) (b : Nat) : Nat := p.bufOff.getD b 0

-- ---------------------------------------------------------------------------
-- Parsing
-- ---------------------------------------------------------------------------

def rd16 (b : List UInt8) (off : Nat) : Nat := (u16At b off).toNat

def rds16 (b : List UInt8) (off : Nat) : Int :=
  if rd16 b off < 2 ^ 15 then rd16 b off else (rd16 b off : Int) - 2 ^ 16

/-- The buffer a source reference of layer `i` names; none is `-1` in the code. -/
def resolveSrc (raw : Int) (i : Nat) (allowNone : Bool) : Except Errno (Option Nat) :=
  if raw = srcNone then if allowNone then .ok none else .error .einval
  else if raw = srcPrev then .ok (some i)
  else if raw = srcInput then .ok (some 0)
  else if 0 ≤ raw ∧ raw.toNat < i then .ok (some (raw.toNat + 1))
  else .error .einval

def parseLayer (lim : Limits) (dag : Bool) (data : List UInt8) (i : Nat) : Except Errno Layer :=
  let d := hdrSize + i * (if dag then 8 else 4)
  let out := rd16 data d
  if out = 0 ∨ lim.actMax < out then .error .einval
  else
    match resolveSrc (if dag then rds16 data (d + 4) else srcPrev) i false,
        resolveSrc (if dag then rds16 data (d + 6) else srcNone) i true with
    | .ok (some a), .ok b => .ok ⟨out, rd16 data (d + 2), a, b⟩
    | _, _ => .error .einval

def parseLayers (lim : Limits) (dag : Bool) (data : List UInt8) : Nat → Nat → PlanM Unit
  | 0, _ => pure ()
  | k + 1, i =>
    match parseLayer lim dag data i with
    | .error e => Act.throw e
    | .ok l => do
      Act.modify fun p => { p with layers := p.layers ++ [l] }
      parseLayers lim dag data k (i + 1)

/-- The checks on the header: the number of layers and the input size. -/
def parseHeader (lim : Limits) (data : List UInt8) : Except Errno (Bool × Nat × Nat) :=
  if data.length < hdrSize then .error .enotsup
  else
    let dag : Bool := u32At data 0 = dagMagic
    if dag = false ∧ u32At data 0 ≠ chainMagic then .error .enotsup
    else
      let n := rd16 data 4
      let input := rd16 data 6
      if n = 0 ∨ maxLayers < n ∨ input = 0 ∨ lim.actMax < input then .error .einval
      else if data.length < hdrSize + n * (if dag then 8 else 4) then .error .einval
      else .ok (dag, n, input)

def parseModel (lim : Limits) (data : List UInt8) : PlanM Unit :=
  match parseHeader lim data with
  | .error e => Act.throw e
  | .ok (dag, n, input) => do
    Act.modify fun p => { p with model := data, inputSize := input, layers := [] }
    parseLayers lim dag data n 0

-- ---------------------------------------------------------------------------
-- Placement
-- ---------------------------------------------------------------------------

/-- The layer time at which a buffer is written; the input is there before
layer 0. -/
def defTime (b : Nat) : Nat := b - 1

def raise (t : Nat → Nat) (b i : Nat) : Nat → Nat := if t b < i then Function.update t b i else t

/-- Layer `i` reads its sources. -/
def Layer.reads (l : Layer) (i : Nat) (t : Nat → Nat) : Nat → Nat :=
  match l.srcB with
  | none => raise t l.srcA i
  | some b => raise (raise t l.srcA i) b i

/-- The last readers of the buffers, from layer `i` onwards. -/
def lastReads : List Layer → Nat → (Nat → Nat) → Nat → Nat
  | [], _, t => t
  | l :: rest, i, t => lastReads rest (i + 1) (l.reads i t)

/-- The layer time until which a buffer must stay. The final output is read
after the last layer. -/
def Plan.last (p : Plan) : Nat → Nat :=
  Function.update (lastReads p.layers 0 defTime) p.layerCount p.layerCount

/-- A buffer that is placed already: its lifetime and its addresses. -/
structure Placed where
  born : Nat
  last : Nat
  off : Nat
  size : Nat

/-- Both lifetime and addresses of a buffer at `off` overlap those of `o`. -/
def Placed.clashes (o : Placed) (born last size off : Nat) : Prop :=
  (born ≤ o.last ∧ o.born ≤ last) ∧ off < o.off + o.size ∧ o.off < off + size

instance (o : Placed) (born last size off : Nat) : Decidable (o.clashes born last size off) := by
  unfold Placed.clashes; infer_instance

/-- One pass over the placed buffers: bump past each that clashes. -/
def fitPass (born last size : Nat) : List Placed → Nat → Bool → Nat × Bool
  | [], off, moved => (off, moved)
  | o :: rest, off, moved =>
    if o.clashes born last size off then fitPass born last size rest (o.off + o.size) true
    else fitPass born last size rest off moved

/-- Passes until one moves nothing. -/
def fit (born last size : Nat) (placed : List Placed) : Nat → Nat → Nat
  | 0, off => off
  | fuel + 1, off =>
    match fitPass born last size placed off false with
    | (off', true) => fit born last size placed fuel off'
    | (off', false) => off'

def Plan.placed (p : Plan) (last : Nat → Nat) : List Placed :=
  p.bufOff.zipIdx.map fun (off, b) => ⟨defTime b, last b, off, p.bufSize b⟩

/-- The placement of buffer `b`. No pass repeats an offset, so `b + 1` passes are
enough. -/
def placeBuffer (lim : Limits) (last : Nat → Nat) (b : Nat) : PlanM Nat := do
  let p ← Act.get
  let size := p.bufSize b
  let off := fit (defTime b) (last b) size (p.placed last) (b + 1) 0
  if lim.planMax < off + size then Act.throw .enomem
  else do
    Act.modify fun p => { p with bufOff := p.bufOff ++ [off] }
    pure (off + size)

def placeFrom (lim : Limits) (last : Nat → Nat) : Nat → Nat → Nat → PlanM Unit
  | 0, _, peak => Act.modify fun p => { p with plannedPeak := peak }
  | k + 1, b, peak => do
    let top ← placeBuffer lim last b
    placeFrom lim last k (b + 1) (max peak top)

def placeBuffers (lim : Limits) : PlanM Unit := do
  let p ← Act.get
  let nbuf := p.layerCount + 1
  Act.modify fun p =>
    { p with naivePeak := ((List.range nbuf).map p.bufSize).sum, bufOff := [] }
  placeFrom lim p.last nbuf 0 0

/-- Parse and place into the live plan. -/
def planLive (lim : Limits) (data : List UInt8) : PlanM Unit := do
  parseModel lim data
  placeBuffers lim

end SynapticOS.Layered
