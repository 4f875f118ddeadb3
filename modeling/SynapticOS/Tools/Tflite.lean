import SynapticOS.Synm
import SynapticOS.Tools.Synn

/-!
# Model files on the host

`parse_tflite` and `pack` of the packing tool. Every position that the parser reads is
computed from the file, and neither `struct.unpack_from` nor an index of a byte string
refuses a negative one: both count it from the end. `parse_fine_iff` says for which files the
parser stays inside of the file or raises ValueError.
-/

namespace SynapticOS.Tools

open Lib

-- ---------------------------------------------------------------------------
-- Reads
-- ---------------------------------------------------------------------------

/-- What the parser does with its buffer: it reads bytes, and it takes a tensor from the
vector of tensors. -/
inductive Event
  | read (pos : Int) (size : Nat)
  | tensor (index : Int) (count : Nat)

/-- How a function of the parser ends, and what it has done until then. -/
structure Reads (α : Type) where
  result : Except Exn α
  events : List Event

namespace Reads

instance : Monad Reads where
  pure a := ⟨.ok a, []⟩
  bind x f :=
    match x.result with
    | .error e => ⟨.error e, x.events⟩
    | .ok a => ⟨(f a).result, x.events ++ (f a).events⟩

def throw (e : Exn) : Reads α := ⟨.error e, []⟩

def note (ev : Event) : Reads Unit := ⟨.ok (), [ev]⟩

end Reads

/-- Where `size` bytes at a position are in a buffer of `len` bytes. -/
def offsetOf (len size : Nat) (pos : Int) : Option Nat :=
  if pos < 0 then
    if pos + size > 0 ∨ pos + len < 0 then none else some (pos + len).toNat
  else if pos + size ≤ len then some pos.toNat
  else none

def readAt (e : Exn) (buf : List UInt8) (size : Nat) (pos : Int) (value : Nat → α) : Reads α :=
  match offsetOf buf.length size pos with
  | none => ⟨.error e, [.read pos size]⟩
  | some off => ⟨.ok (value off), [.read pos size]⟩

/-- `struct.unpack_from`. -/
def unpackFrom (buf : List UInt8) (size : Nat) (pos : Int) (value : Nat → α) : Reads α :=
  readAt .structError buf size pos value

def u16Num (buf : List UInt8) (off : Nat) : Nat := (u16At buf off).toNat
def u32Num (buf : List UInt8) (off : Nat) : Nat := (u32At buf off).toNat
def i32Num (buf : List UInt8) (off : Nat) : Int := (u32At buf off).toInt32.toInt

-- ---------------------------------------------------------------------------
-- The flatbuffer
-- ---------------------------------------------------------------------------

namespace FB

variable (buf : List UInt8)

def u16 (pos : Int) : Reads Nat := unpackFrom buf 2 pos (u16Num buf)
def i32 (pos : Int) : Reads Int := unpackFrom buf 4 pos (i32Num buf)
def u32 (pos : Int) : Reads Nat := unpackFrom buf 4 pos (u32Num buf)

def indirect (pos : Int) : Reads Int := do
  let off ← u32 buf pos
  return pos + off

def field (table : Int) (fieldId : Nat) : Reads (Option Int) := do
  let soff ← i32 buf table
  let vtable := table - soff
  let vsize ← u16 buf vtable
  let entry := 4 + 2 * fieldId
  if entry ≥ vsize then return none
  else
    let off ← u16 buf (vtable + entry)
    if off = 0 then return none
    else return some (table + off)

/-- Where the elements of a vector begin, and how many there are. An absent vector has none,
and no base in the source. -/
structure Vec where
  base : Int
  len : Nat

def vector (table : Int) (fieldId : Nat) : Reads Vec := do
  let pos ← field buf table fieldId
  match pos with
  | none => return ⟨0, 0⟩
  | some pos =>
    let vec ← indirect buf pos
    let len ← u32 buf vec
    return ⟨vec + 4, len⟩

end FB

open FB

/-- `TFLITE_DTYPES`. -/
def tfliteDtypes : List String :=
  ["FLOAT32", "FLOAT16", "INT32", "UINT8", "INT64", "STRING", "BOOL", "INT16", "COMPLEX64", "INT8",
    "FLOAT64", "COMPLEX128", "UINT64", "RESOURCE", "VARIANT", "UINT32", "UINT16", "INT4"]

def dtypeName (dtype : Nat) : String := tfliteDtypes.getD dtype ("?" ++ toString dtype)

/-- What the parser returns. -/
structure Parsed where
  inputShape : List Int
  outputShape : List Int
  inputDtype : String
  outputDtype : String

/-- The first `n` elements of a shape. -/
def readShape (buf : List UInt8) (base : Int) : Nat → Reads (List Int)
  | 0 => pure []
  | n + 1 => do
    let dims ← readShape buf base n
    let dim ← i32 buf (base + 4 * n)
    return dims ++ [dim]

/-- The type byte, 0 where it is absent. -/
def readDtype (buf : List UInt8) : Option Int → Reads Nat
  | none => pure 0
  | some tpos => readAt .indexError buf 1 tpos fun off => (buf.getD off 0).toNat

def tensorInfo (buf : List UInt8) (tens : Vec) (index : Int) : Reads (List Int × String) :=
  if index ≥ tens.len then Reads.throw .valueError
  else do
    Reads.note (.tensor index tens.len)
    let tensor ← indirect buf (tens.base + 4 * index)
    let shape ← vector buf tensor 0
    let dims ← readShape buf shape.base shape.len
    let tpos ← field buf tensor 1
    let dtype ← readDtype buf tpos
    return (dims, dtypeName dtype)

/-- The identifier at byte 4. -/
def hasIdentifier (buf : List UInt8) : Bool :=
  buf.length ≥ 8 && slice buf 4 4 == [0x54, 0x46, 0x4C, 0x33]

/-- The tensors of the first input and of the first output of a subgraph. -/
def parseTensors (buf : List UInt8) (tens ins outs : Vec) : Reads Parsed :=
  if ins.len = 0 ∨ outs.len = 0 ∨ tens.len = 0 then Reads.throw .valueError
  else do
    let inIndex ← i32 buf ins.base
    let input ← tensorInfo buf tens inIndex
    let outIndex ← i32 buf outs.base
    let output ← tensorInfo buf tens outIndex
    return ⟨input.1, output.1, input.2, output.2⟩

def parseTflite (buf : List UInt8) : Reads Parsed :=
  if !hasIdentifier buf then Reads.throw .valueError
  else do
    let model ← indirect buf 0
    let sg ← vector buf model 2
    if sg.len = 0 then Reads.throw .valueError
    else
      let subgraph ← indirect buf sg.base
      let tens ← vector buf subgraph 0
      let ins ← vector buf subgraph 1
      let outs ← vector buf subgraph 2
      parseTensors buf tens ins outs

-- ---------------------------------------------------------------------------
-- Packing
-- ---------------------------------------------------------------------------

/-- Four dimensions, zero where there are fewer. -/
def padDims (shape : List Int) : List UInt16 :=
  shape.map (fun d => UInt16.ofNat d.toNat) ++ List.replicate (4 - shape.length) 0

def shape4 (shape : List Int) : Except Exn (List UInt16) :=
  if shape.length > 4 then .error .systemExit
  else if shape.any fun d => !(0 ≤ d && d ≤ 0xFFFF) then .error .systemExit
  else .ok (padDims shape)

/-- The arguments of `pack`: the name as it is encoded, and the shapes that the text of their
options gives. -/
structure PackArgs where
  name : List UInt8
  inputShape : Option (List Int)
  outputShape : Option (List Int)

/-- The header as `SYNM_HDR` packs it, behind the magic and the version. -/
def packHeader (name payload : List UInt8) (input output : List UInt16) : Except Exn (List UInt8) :=
  match packWord payload.length with
  | .error e => .error e
  | .ok size => .ok (le32 synmMagic ++ le32 synmVersion ++
      (name ++ List.replicate (32 - name.length) 0) ++ size ++ le32 (crc32Ieee payload) ++
      input.flatMap le16 ++ output.flatMap le16)

/-- The shapes of a file, where it is read as a model. -/
def fileShapes (args : PackArgs) (payload : List UInt8) : Except Exn (List Int × List Int) :=
  match (parseTflite payload).result with
  | .ok p => .ok (p.inputShape, p.outputShape)
  | .error .valueError =>
    if args.inputShape.isNone ∨ args.outputShape.isNone then .error .systemExit else .ok ([], [])
  | .error e => .error e

/-- What `pack` writes. -/
def pack (args : PackArgs) (payload : List UInt8) : Except Exn (List UInt8) := do
  if payload.length = 0 then .error .systemExit
  else if args.name.length > 31 then .error .systemExit
  else
    let shapes ← fileShapes args payload
    let input ← shape4 (args.inputShape.getD shapes.1)
    let output ← shape4 (args.outputShape.getD shapes.2)
    let hdr ← packHeader args.name payload input output
    return hdr ++ payload

-- ---------------------------------------------------------------------------
-- Where a model is
-- ---------------------------------------------------------------------------

/-- Bytes at a position that is counted from the end where it is negative. -/
def Counted (len : Nat) (pos : Int) (size off : Nat) : Prop :=
  pos = off ∧ off + size ≤ len ∨ pos < 0 ∧ pos + len = off ∧ off + size ≤ len

/-- Bytes at a position inside of the file. -/
def Inside (len : Nat) (pos : Int) (size off : Nat) : Prop := pos = off ∧ off + size ≤ len

section Chain

variable (at_ : Int → Nat → Nat → Prop) (buf : List UInt8)

/-- Field `id` of the table at a position, by the table's vtable. -/
def FieldAt (table : Int) (id : Nat) (r : Option Int) : Prop :=
  ∃ o v, at_ table 4 o ∧ at_ (table - i32Num buf o) 2 v ∧
    (u16Num buf v ≤ 4 + 2 * id ∧ r = none ∨
      4 + 2 * id < u16Num buf v ∧ ∃ e, at_ (table - i32Num buf o + (4 + 2 * id : Nat)) 2 e ∧
        r = if u16Num buf e = 0 then none else some (table + u16Num buf e))

/-- Vector `id` of the table at a position. -/
def VectorAt (table : Int) (id : Nat) (v : Vec) : Prop :=
  FieldAt at_ buf table id none ∧ v = ⟨0, 0⟩ ∨
  ∃ pos o l, FieldAt at_ buf table id (some pos) ∧ at_ pos 4 o ∧ at_ (pos + u32Num buf o) 4 l ∧
    v = ⟨pos + u32Num buf o + 4, u32Num buf l⟩

/-- The subgraphs of the model. -/
def SubgraphsAt (sg : Vec) : Prop := ∃ o, at_ 0 4 o ∧ VectorAt at_ buf (0 + u32Num buf o) 2 sg

/-- The tensors, inputs and outputs of the first subgraph. -/
def ListsAt (tens ins outs : Vec) : Prop :=
  ∃ sg q, SubgraphsAt at_ buf sg ∧ sg.len ≠ 0 ∧ at_ sg.base 4 q ∧
    VectorAt at_ buf (sg.base + u32Num buf q) 0 tens ∧
    VectorAt at_ buf (sg.base + u32Num buf q) 1 ins ∧
    VectorAt at_ buf (sg.base + u32Num buf q) 2 outs

/-- The first element of a vector of tensor indices. -/
def IndexAt (v : Vec) (index : Int) : Prop := ∃ o, at_ v.base 4 o ∧ index = i32Num buf o

/-- A tensor with all elements of its shape and its type. -/
def TensorAt (tens : Vec) (index : Int) : Prop :=
  ∃ o shape tpos, at_ (tens.base + 4 * index) 4 o ∧
    VectorAt at_ buf (tens.base + 4 * index + u32Num buf o) 0 shape ∧
    (∀ i < shape.len, ∃ d, at_ (shape.base + 4 * (i : Int)) 4 d) ∧
    FieldAt at_ buf (tens.base + 4 * index + u32Num buf o) 1 tpos ∧
    ∀ pos, tpos = some pos → ∃ d, at_ pos 1 d

end Chain

/-- What the parser refuses with ValueError. -/
inductive Rejected (buf : List UInt8) : Prop
  | identifier (h : hasIdentifier buf = false)
  | subgraphs (sg : Vec) (h : SubgraphsAt (Counted buf.length) buf sg) (len : sg.len = 0)
  | lists (tens ins outs : Vec) (h : ListsAt (Counted buf.length) buf tens ins outs)
    (len : ins.len = 0 ∨ outs.len = 0 ∨ tens.len = 0)
  | input (tens ins outs : Vec) (h : ListsAt (Counted buf.length) buf tens ins outs) (index : Int)
    (hi : IndexAt (Counted buf.length) buf ins index) (le : tens.len ≤ index)
  | output (tens ins outs : Vec) (h : ListsAt (Counted buf.length) buf tens ins outs)
    (index index' : Int) (hi : IndexAt (Counted buf.length) buf ins index)
    (lt : index < tens.len) (ht : TensorAt (Counted buf.length) buf tens index)
    (ho : IndexAt (Counted buf.length) buf outs index') (le : tens.len ≤ index')

/-- A model whose first input and first output are tensors inside of the file. -/
def Complete (buf : List UInt8) : Prop :=
  hasIdentifier buf = true ∧
  ∃ tens ins outs, ListsAt (Inside buf.length) buf tens ins outs ∧
    ins.len ≠ 0 ∧ outs.len ≠ 0 ∧ tens.len ≠ 0 ∧
    ∃ index index', IndexAt (Inside buf.length) buf ins index ∧ 0 ≤ index ∧ index < tens.len ∧
      TensorAt (Inside buf.length) buf tens index ∧
      IndexAt (Inside buf.length) buf outs index' ∧ 0 ≤ index' ∧ index' < tens.len ∧
      TensorAt (Inside buf.length) buf tens index'

-- ---------------------------------------------------------------------------
-- Returning
-- ---------------------------------------------------------------------------

/-- `x` returns `a`, and all it has done until then is in `W`. -/
def Yields (W : Event → Prop) (x : Reads α) (a : α) : Prop :=
  x.result = .ok a ∧ ∀ ev ∈ x.events, W ev

section Rules

variable {α β : Type} {W : Event → Prop} {x y : Reads α} {f : α → Reads β} {a a' : α} {b : β}

theorem yields_pure : Yields W (pure a' : Reads α) a ↔ a = a' := by
  constructor
  · rintro ⟨h, -⟩
    exact (Except.ok.inj h).symm
  · rintro rfl
    exact ⟨rfl, fun ev hev => absurd hev List.not_mem_nil⟩

theorem yields_bind : Yields W (x >>= f) b ↔ ∃ a, Yields W x a ∧ Yields W (f a) b := by
  obtain ⟨r, events⟩ := x
  cases r with
  | error e =>
    constructor
    · rintro ⟨h, -⟩
      cases h
    · rintro ⟨a, ⟨h, -⟩, -⟩
      cases h
  | ok a =>
    constructor
    · rintro ⟨h, hev⟩
      exact ⟨a, ⟨rfl, fun ev he => hev ev (List.mem_append_left _ he)⟩, h,
        fun ev he => hev ev (List.mem_append_right _ he)⟩
    · rintro ⟨_, ⟨h, hev⟩, hb, hev'⟩
      cases h
      exact ⟨hb, fun ev he => (List.mem_append.mp he).elim (hev ev) (hev' ev)⟩

/-- `x` returns. -/
def Succeeds (W : Event → Prop) (x : Reads α) : Prop := ∃ a, Yields W x a

theorem succeeds_pure : Succeeds W (pure a : Reads α) := ⟨a, yields_pure.mpr rfl⟩

theorem succeeds_bind : Succeeds W (x >>= f) ↔ ∃ a, Yields W x a ∧ Succeeds W (f a) := by
  constructor
  · rintro ⟨b, hb⟩
    obtain ⟨a, ha, hb⟩ := yields_bind.mp hb
    exact ⟨a, ha, b, hb⟩
  · rintro ⟨a, ha, b, hb⟩
    exact ⟨b, yields_bind.mpr ⟨a, ha, hb⟩⟩

theorem not_succeeds_throw {e : Exn} : ¬Succeeds W (Reads.throw e : Reads α) :=
  fun ⟨_, h⟩ => nomatch h.1

theorem yields_note {ev : Event} {u : Unit} : Yields W (Reads.note ev) u ↔ W ev :=
  ⟨fun h => h.2 ev List.mem_cons_self, fun h => ⟨rfl, fun ev' he => by
    rw [List.mem_singleton.mp he]
    exact h⟩⟩

end Rules

def Event.Within (len : Nat) : Event → Prop
  | .read pos size => 0 ≤ pos ∧ pos + size ≤ len
  | .tensor index count => 0 ≤ index ∧ index < count

/-- `at_` says where bytes are that the parser reads in `W`. -/
def Follows (at_ : Int → Nat → Nat → Prop) (buf : List UInt8) (W : Event → Prop) : Prop :=
  ∀ pos size off, 0 < size →
    (at_ pos size off ↔ offsetOf buf.length size pos = some off ∧ W (.read pos size))

theorem offsetOf_eq_some {len size off : Nat} {pos : Int} (hs : 0 < size) :
    offsetOf len size pos = some off ↔ Counted len pos size off := by
  unfold offsetOf Counted
  split
  · split
    · simp only [reduceCtorEq, false_iff]
      omega
    · rw [Option.some.injEq]
      omega
  · split
    · rw [Option.some.injEq]
      omega
    · simp only [reduceCtorEq, false_iff]
      omega

/-- A negative position counts from the end. -/
example : offsetOf 8 4 (-4) = some 4 := by decide

theorem follows_counted (buf : List UInt8) : Follows (Counted buf.length) buf fun _ => True :=
  fun _ _ _ hs => by rw [offsetOf_eq_some hs, and_true]

theorem follows_inside (buf : List UInt8) :
    Follows (Inside buf.length) buf (Event.Within buf.length) := by
  intro pos size off hs
  rw [offsetOf_eq_some hs]
  unfold Counted Inside Event.Within
  omega

-- ---------------------------------------------------------------------------
-- The parser follows the chain
-- ---------------------------------------------------------------------------

section Follow

variable {at_ : Int → Nat → Nat → Prop} {buf : List UInt8} {W : Event → Prop}

theorem yields_readAt (h : Follows at_ buf W) {e : Exn} {size : Nat} {pos : Int}
    {value : Nat → α} {a : α} (hs : 0 < size) :
    Yields W (readAt e buf size pos value) a ↔ ∃ off, at_ pos size off ∧ a = value off := by
  unfold readAt Yields
  cases ho : offsetOf buf.length size pos with
  | none =>
    constructor
    · rintro ⟨h, -⟩
      cases h
    · rintro ⟨off, hat, -⟩
      rw [((h pos size off hs).mp hat).1] at ho
      cases ho
  | some off =>
    constructor
    · rintro ⟨ha, hev⟩
      exact ⟨off, (h pos size off hs).mpr ⟨ho, hev _ List.mem_cons_self⟩, (Except.ok.inj ha).symm⟩
    · rintro ⟨off', hat, rfl⟩
      obtain ⟨ho', hw⟩ := (h pos size off' hs).mp hat
      rw [ho] at ho'
      cases ho'
      exact ⟨rfl, fun ev he => by rwa [List.mem_singleton.mp he]⟩

theorem yields_u16 (h : Follows at_ buf W) {pos : Int} {n : Nat} :
    Yields W (u16 buf pos) n ↔ ∃ off, at_ pos 2 off ∧ n = u16Num buf off :=
  yields_readAt h (by decide)

theorem yields_i32 (h : Follows at_ buf W) {pos n : Int} :
    Yields W (i32 buf pos) n ↔ ∃ off, at_ pos 4 off ∧ n = i32Num buf off :=
  yields_readAt h (by decide)

theorem yields_u32 (h : Follows at_ buf W) {pos : Int} {n : Nat} :
    Yields W (u32 buf pos) n ↔ ∃ off, at_ pos 4 off ∧ n = u32Num buf off :=
  yields_readAt h (by decide)

theorem yields_indirect (h : Follows at_ buf W) {pos p : Int} :
    Yields W (indirect buf pos) p ↔ ∃ off, at_ pos 4 off ∧ p = pos + u32Num buf off := by
  unfold indirect
  simp only [yields_bind, yields_u32 h, yields_pure]
  constructor
  · rintro ⟨_, ⟨off, hat, rfl⟩, rfl⟩
    exact ⟨off, hat, rfl⟩
  · rintro ⟨off, hat, rfl⟩
    exact ⟨_, ⟨off, hat, rfl⟩, rfl⟩

theorem yields_field (h : Follows at_ buf W) {table : Int} {id : Nat} {r : Option Int} :
    Yields W (field buf table id) r ↔ FieldAt at_ buf table id r := by
  unfold field FieldAt
  simp only [yields_bind, yields_i32 h, yields_u16 h]
  constructor
  · rintro ⟨_, ⟨o, ho, rfl⟩, _, ⟨v, hv, rfl⟩, hr⟩
    refine ⟨o, v, ho, hv, ?_⟩
    split at hr
    · rename_i hle
      exact .inl ⟨hle, yields_pure.mp hr⟩
    · rename_i hle
      obtain ⟨_, hoff, hr⟩ := yields_bind.mp hr
      obtain ⟨e, he, rfl⟩ := (yields_u16 h).mp hoff
      refine .inr ⟨Nat.not_le.mp hle, e, he, ?_⟩
      split at hr
      all_goals
        rename_i hz
        simp only [hz, if_true, if_false]
        exact yields_pure.mp hr
  · rintro ⟨o, v, ho, hv, hr⟩
    refine ⟨_, ⟨o, ho, rfl⟩, _, ⟨v, hv, rfl⟩, ?_⟩
    rcases hr with ⟨hle, rfl⟩ | ⟨hlt, e, he, rfl⟩
    · rw [if_pos hle]
      exact yields_pure.mpr rfl
    · rw [if_neg (Nat.not_le.mpr hlt)]
      refine yields_bind.mpr ⟨_, (yields_u16 h).mpr ⟨e, he, rfl⟩, ?_⟩
      split <;> exact yields_pure.mpr rfl

theorem yields_vector (h : Follows at_ buf W) {table : Int} {id : Nat} {v : Vec} :
    Yields W (vector buf table id) v ↔ VectorAt at_ buf table id v := by
  unfold vector VectorAt
  rw [yields_bind]
  constructor
  · rintro ⟨_ | pos, hpos, hv⟩
    · exact .inl ⟨(yields_field h).mp hpos, yields_pure.mp hv⟩
    · obtain ⟨_, hvec, hv⟩ := yields_bind.mp hv
      obtain ⟨o, ho, rfl⟩ := (yields_indirect h).mp hvec
      obtain ⟨_, hlen, hv⟩ := yields_bind.mp hv
      obtain ⟨l, hl, rfl⟩ := (yields_u32 h).mp hlen
      exact .inr ⟨pos, o, l, (yields_field h).mp hpos, ho, hl, yields_pure.mp hv⟩
  · rintro (⟨hf, rfl⟩ | ⟨pos, o, l, hf, ho, hl, rfl⟩)
    · exact ⟨none, (yields_field h).mpr hf, yields_pure.mpr rfl⟩
    · exact ⟨some pos, (yields_field h).mpr hf, yields_bind.mpr ⟨_, (yields_indirect h).mpr
        ⟨o, ho, rfl⟩, yields_bind.mpr ⟨_, (yields_u32 h).mpr ⟨l, hl, rfl⟩, yields_pure.mpr rfl⟩⟩⟩

theorem succeeds_readShape (h : Follows at_ buf W) {base : Int} {n : Nat} :
    Succeeds W (readShape buf base n) ↔ ∀ i < n, ∃ d, at_ (base + 4 * (i : Int)) 4 d := by
  induction n with
  | zero => exact ⟨fun _ i hi => absurd hi (Nat.not_lt_zero i), fun _ => succeeds_pure⟩
  | succ n ih =>
    rw [readShape, succeeds_bind]
    constructor
    · rintro ⟨dims, hdims, hlast⟩ i hi
      obtain ⟨d, hd, -⟩ := succeeds_bind.mp hlast
      rcases Nat.lt_succ_iff_lt_or_eq.mp hi with hi | rfl
      · exact ih.mp ⟨dims, hdims⟩ i hi
      · obtain ⟨off, hat, -⟩ := (yields_i32 h).mp hd
        exact ⟨off, hat⟩
    · intro hall
      obtain ⟨dims, hdims⟩ := ih.mpr fun i hi => hall i (by omega)
      obtain ⟨off, hat⟩ := hall n (Nat.lt_succ_self n)
      exact ⟨dims, hdims, succeeds_bind.mpr ⟨_, (yields_i32 h).mpr ⟨off, hat, rfl⟩, succeeds_pure⟩⟩

theorem succeeds_readDtype (h : Follows at_ buf W) {tpos : Option Int} :
    Succeeds W (readDtype buf tpos) ↔ ∀ pos, tpos = some pos → ∃ d, at_ pos 1 d := by
  cases tpos with
  | none => exact ⟨fun _ pos hpos => (by cases hpos), fun _ => succeeds_pure⟩
  | some tpos =>
    constructor
    · rintro ⟨n, hn⟩ _ ⟨⟩
      obtain ⟨d, hd, -⟩ := (yields_readAt h (by decide)).mp hn
      exact ⟨d, hd⟩
    · intro hall
      obtain ⟨d, hd⟩ := hall tpos rfl
      exact ⟨_, (yields_readAt h (by decide)).mpr ⟨d, hd, rfl⟩⟩

theorem succeeds_tensorInfo (h : Follows at_ buf W) {tens : Vec} {index : Int} :
    Succeeds W (tensorInfo buf tens index) ↔
      index < tens.len ∧ W (.tensor index tens.len) ∧ TensorAt at_ buf tens index := by
  unfold tensorInfo TensorAt
  by_cases hlt : index < tens.len
  · rw [if_neg (not_le.mpr hlt)]
    constructor
    · intro hinfo
      obtain ⟨_, hnote, hinfo⟩ := succeeds_bind.mp hinfo
      obtain ⟨_, htensor, hinfo⟩ := succeeds_bind.mp hinfo
      obtain ⟨o, ho, rfl⟩ := (yields_indirect h).mp htensor
      obtain ⟨shape, hshape, hinfo⟩ := succeeds_bind.mp hinfo
      obtain ⟨dims, hdims, hinfo⟩ := succeeds_bind.mp hinfo
      obtain ⟨tpos, htpos, hinfo⟩ := succeeds_bind.mp hinfo
      obtain ⟨dtype, hdtype, -⟩ := succeeds_bind.mp hinfo
      exact ⟨hlt, yields_note.mp hnote, o, shape, tpos, ho, (yields_vector h).mp hshape,
        (succeeds_readShape h).mp ⟨dims, hdims⟩, (yields_field h).mp htpos,
        (succeeds_readDtype h).mp ⟨dtype, hdtype⟩⟩
    · rintro ⟨-, hnote, o, shape, tpos, ho, hshape, hdims, htpos, hdtype⟩
      obtain ⟨dims, hdims⟩ := (succeeds_readShape h).mpr hdims
      obtain ⟨dtype, hdtype⟩ := (succeeds_readDtype h).mpr hdtype
      refine succeeds_bind.mpr ⟨(), yields_note.mpr hnote, ?_⟩
      refine succeeds_bind.mpr ⟨_, (yields_indirect h).mpr ⟨o, ho, rfl⟩, ?_⟩
      refine succeeds_bind.mpr ⟨shape, (yields_vector h).mpr hshape, ?_⟩
      refine succeeds_bind.mpr ⟨dims, hdims, ?_⟩
      refine succeeds_bind.mpr ⟨tpos, (yields_field h).mpr htpos, ?_⟩
      exact succeeds_bind.mpr ⟨dtype, hdtype, succeeds_pure⟩
  · rw [if_pos (not_lt.mp hlt)]
    exact iff_of_false not_succeeds_throw fun hh => hlt hh.1

/-- The tensors of both ends are read. -/
theorem succeeds_parseTensors (h : Follows at_ buf W) {tens ins outs : Vec} :
    Succeeds W (parseTensors buf tens ins outs) ↔
      ins.len ≠ 0 ∧ outs.len ≠ 0 ∧ tens.len ≠ 0 ∧
      ∃ index index', IndexAt at_ buf ins index ∧ index < tens.len ∧
        W (.tensor index tens.len) ∧ TensorAt at_ buf tens index ∧
        IndexAt at_ buf outs index' ∧ index' < tens.len ∧ W (.tensor index' tens.len) ∧
        TensorAt at_ buf tens index' := by
  unfold parseTensors
  split
  · rename_i hlens
    exact iff_of_false not_succeeds_throw fun ⟨hi, ho, ht, _⟩ => hlens.elim hi fun h => h.elim ho ht
  rename_i hlens
  simp only [not_or] at hlens
  constructor
  · intro hp
    obtain ⟨index, hindex, hp⟩ := succeeds_bind.mp hp
    obtain ⟨input, hinput, hp⟩ := succeeds_bind.mp hp
    obtain ⟨index', hindex', hp⟩ := succeeds_bind.mp hp
    obtain ⟨output, houtput, -⟩ := succeeds_bind.mp hp
    obtain ⟨hlt, hw, ht⟩ := (succeeds_tensorInfo h).mp ⟨input, hinput⟩
    obtain ⟨hlt', hw', ht'⟩ := (succeeds_tensorInfo h).mp ⟨output, houtput⟩
    exact ⟨hlens.1, hlens.2.1, hlens.2.2, index, index', (yields_i32 h).mp hindex, hlt, hw, ht,
      (yields_i32 h).mp hindex', hlt', hw', ht'⟩
  · rintro ⟨-, -, -, index, index', hindex, hlt, hw, ht, hindex', hlt', hw', ht'⟩
    obtain ⟨input, hinput⟩ := (succeeds_tensorInfo h).mpr ⟨hlt, hw, ht⟩
    obtain ⟨output, houtput⟩ := (succeeds_tensorInfo h).mpr ⟨hlt', hw', ht'⟩
    refine succeeds_bind.mpr ⟨index, (yields_i32 h).mpr hindex, ?_⟩
    refine succeeds_bind.mpr ⟨input, hinput, ?_⟩
    refine succeeds_bind.mpr ⟨index', (yields_i32 h).mpr hindex', ?_⟩
    exact succeeds_bind.mpr ⟨output, houtput, succeeds_pure⟩

/-- A parse that returns has followed the chain to the lists of the subgraph. -/
theorem succeeds_parse (h : Follows at_ buf W) :
    Succeeds W (parseTflite buf) ↔ hasIdentifier buf = true ∧
      ∃ tens ins outs, ListsAt at_ buf tens ins outs ∧
        Succeeds W (parseTensors buf tens ins outs) := by
  unfold parseTflite
  cases hid : hasIdentifier buf with
  | false => exact iff_of_false not_succeeds_throw fun hh => nomatch hh.1
  | true =>
    rw [if_neg (by decide)]
    constructor
    · intro hp
      obtain ⟨_, hmodel, hp⟩ := succeeds_bind.mp hp
      obtain ⟨o, ho, rfl⟩ := (yields_indirect h).mp hmodel
      obtain ⟨sg, hsg, hp⟩ := succeeds_bind.mp hp
      split at hp
      · exact absurd hp not_succeeds_throw
      rename_i hlen
      obtain ⟨_, hsub, hp⟩ := succeeds_bind.mp hp
      obtain ⟨q, hq, rfl⟩ := (yields_indirect h).mp hsub
      obtain ⟨tens, htens, hp⟩ := succeeds_bind.mp hp
      obtain ⟨ins, hins, hp⟩ := succeeds_bind.mp hp
      obtain ⟨outs, houts, hp⟩ := succeeds_bind.mp hp
      exact ⟨rfl, tens, ins, outs, ⟨sg, q, ⟨o, ho, (yields_vector h).mp hsg⟩, hlen, hq,
        (yields_vector h).mp htens, (yields_vector h).mp hins, (yields_vector h).mp houts⟩, hp⟩
    · rintro ⟨-, tens, ins, outs, ⟨sg, q, ⟨o, ho, hsg⟩, hlen, hq, htens, hins, houts⟩, hp⟩
      refine succeeds_bind.mpr ⟨_, (yields_indirect h).mpr ⟨o, ho, rfl⟩, ?_⟩
      refine succeeds_bind.mpr ⟨sg, (yields_vector h).mpr hsg, ?_⟩
      rw [if_neg hlen]
      refine succeeds_bind.mpr ⟨_, (yields_indirect h).mpr ⟨q, hq, rfl⟩, ?_⟩
      refine succeeds_bind.mpr ⟨tens, (yields_vector h).mpr htens, ?_⟩
      refine succeeds_bind.mpr ⟨ins, (yields_vector h).mpr hins, ?_⟩
      exact succeeds_bind.mpr ⟨outs, (yields_vector h).mpr houts, hp⟩

end Follow

-- ---------------------------------------------------------------------------
-- Refusing
-- ---------------------------------------------------------------------------

/-- `x` raises ValueError. -/
def Refuses (x : Reads α) : Prop := x.result = .error .valueError

section Refuse

variable {α β : Type} {x : Reads α} {f : α → Reads β} {buf : List UInt8}

theorem refuses_bind (hx : ¬Refuses x) :
    Refuses (x >>= f) ↔ ∃ a, Yields (fun _ => True) x a ∧ Refuses (f a) := by
  obtain ⟨r, events⟩ := x
  cases r with
  | error e =>
    refine iff_of_false (fun h => hx (congrArg Except.error (Except.error.inj h))) ?_
    rintro ⟨a, ⟨h, -⟩, -⟩
    cases h
  | ok a =>
    constructor
    · exact fun h => ⟨a, ⟨rfl, fun _ _ => trivial⟩, h⟩
    · rintro ⟨_, ⟨h, -⟩, hf⟩
      cases h
      exact hf

theorem refuses_bind_left (hx : Refuses x) : Refuses (x >>= f) := by
  obtain ⟨r, events⟩ := x
  cases hx
  rfl

theorem not_refuses_pure (a : α) : ¬Refuses (pure a : Reads α) := fun h => by cases h

theorem not_refuses_bind (hx : ¬Refuses x) (hf : ∀ a, ¬Refuses (f a)) : ¬Refuses (x >>= f) := by
  rw [refuses_bind hx]
  exact fun ⟨a, _, h⟩ => hf a h

theorem not_refuses_readAt {e : Exn} (he : e ≠ .valueError) (size : Nat) (pos : Int)
    (value : Nat → α) : ¬Refuses (readAt e buf size pos value) := by
  unfold readAt Refuses
  split
  · exact fun h => he (Except.error.inj h)
  · exact fun h => by cases h

theorem not_refuses_unpackFrom (size : Nat) (pos : Int) (value : Nat → α) :
    ¬Refuses (unpackFrom buf size pos value) := not_refuses_readAt (by decide) size pos value

theorem not_refuses_i32 (pos : Int) : ¬Refuses (i32 buf pos) := not_refuses_unpackFrom _ _ _

theorem not_refuses_indirect (pos : Int) : ¬Refuses (indirect buf pos) :=
  not_refuses_bind (not_refuses_unpackFrom _ _ _) fun _ => not_refuses_pure _

theorem not_refuses_field (table : Int) (id : Nat) : ¬Refuses (field buf table id) := by
  refine not_refuses_bind (not_refuses_i32 _) fun soff => not_refuses_bind
    (not_refuses_unpackFrom _ _ _) fun vsize => ?_
  dsimp only
  split
  · exact not_refuses_pure _
  · refine not_refuses_bind (not_refuses_unpackFrom _ _ _) fun off => ?_
    split <;> exact not_refuses_pure _

theorem not_refuses_vector (table : Int) (id : Nat) : ¬Refuses (vector buf table id) := by
  refine not_refuses_bind (not_refuses_field _ _) fun pos => ?_
  cases pos with
  | none => exact not_refuses_pure _
  | some pos =>
    exact not_refuses_bind (not_refuses_indirect _) fun vec => not_refuses_bind
      (not_refuses_unpackFrom _ _ _) fun len => not_refuses_pure _

theorem not_refuses_readShape (base : Int) (n : Nat) : ¬Refuses (readShape buf base n) := by
  induction n with
  | zero => exact not_refuses_pure _
  | succ n ih =>
    exact not_refuses_bind ih fun dims => not_refuses_bind (not_refuses_i32 _) fun dim =>
      not_refuses_pure _

theorem refuses_tensorInfo (tens : Vec) (index : Int) :
    Refuses (tensorInfo buf tens index) ↔ tens.len ≤ index := by
  unfold tensorInfo
  split
  · rename_i hge
    exact iff_of_true rfl hge
  · rename_i hlt
    refine iff_of_false ?_ hlt
    refine not_refuses_bind (fun h => by cases h) fun _ => not_refuses_bind
      (not_refuses_indirect _) fun tensor => not_refuses_bind (not_refuses_vector _ _) fun shape =>
      not_refuses_bind (not_refuses_readShape _ _) fun dims => not_refuses_bind
      (not_refuses_field _ _) fun tpos => not_refuses_bind ?_ fun dtype => not_refuses_pure _
    cases tpos with
    | none => exact not_refuses_pure _
    | some tpos => exact not_refuses_readAt (e := .indexError) (by decide) _ _ _

theorem refuses_parseTensors {tens ins outs : Vec} :
    Refuses (parseTensors buf tens ins outs) ↔ ins.len = 0 ∨ outs.len = 0 ∨ tens.len = 0 ∨
      ∃ index, IndexAt (Counted buf.length) buf ins index ∧ (tens.len ≤ index ∨
        index < tens.len ∧ TensorAt (Counted buf.length) buf tens index ∧
          ∃ index', IndexAt (Counted buf.length) buf outs index' ∧ tens.len ≤ index') := by
  have h := follows_counted buf
  unfold parseTensors
  split
  · rename_i hlens
    refine iff_of_true rfl ?_
    rcases hlens with hlen | hlen | hlen
    · exact .inl hlen
    · exact .inr (.inl hlen)
    · exact .inr (.inr (.inl hlen))
  rename_i hlens
  simp only [not_or] at hlens
  rw [refuses_bind (not_refuses_i32 _)]
  constructor
  · rintro ⟨index, hindex, hp⟩
    refine .inr (.inr (.inr ⟨index, (yields_i32 h).mp hindex, ?_⟩))
    rcases Classical.em (Refuses (tensorInfo buf tens index)) with hr | hr
    · exact .inl ((refuses_tensorInfo _ _).mp hr)
    · obtain ⟨input, hinput, hp⟩ := (refuses_bind hr).mp hp
      obtain ⟨index', hindex', hp⟩ := (refuses_bind (not_refuses_i32 _)).mp hp
      obtain ⟨hlt, -, ht⟩ := (succeeds_tensorInfo h).mp ⟨input, hinput⟩
      refine .inr ⟨hlt, ht, index', (yields_i32 h).mp hindex', ?_⟩
      by_contra hle
      have hr' : ¬Refuses (tensorInfo buf tens index') := fun hr' =>
        hle ((refuses_tensorInfo _ _).mp hr')
      obtain ⟨output, -, hp⟩ := (refuses_bind hr').mp hp
      exact not_refuses_pure _ hp
  · rintro (hz | hz | hz | ⟨index, hindex, hcase⟩)
    · exact absurd hz hlens.1
    · exact absurd hz hlens.2.1
    · exact absurd hz hlens.2.2
    refine ⟨index, (yields_i32 h).mpr hindex, ?_⟩
    rcases hcase with hle | ⟨hlt, ht, index', hindex', hle⟩
    · exact refuses_bind_left ((refuses_tensorInfo _ _).mpr hle)
    · obtain ⟨input, hinput⟩ := (succeeds_tensorInfo h).mpr ⟨hlt, trivial, ht⟩
      have hr : ¬Refuses (tensorInfo buf tens index) := fun hr =>
        absurd ((refuses_tensorInfo _ _).mp hr) (not_le.mpr hlt)
      refine (refuses_bind hr).mpr ⟨input, hinput, ?_⟩
      refine (refuses_bind (not_refuses_i32 _)).mpr ⟨index', (yields_i32 h).mpr hindex', ?_⟩
      exact refuses_bind_left ((refuses_tensorInfo _ _).mpr hle)

/-- The parser raises ValueError for the files it should refuse. -/
theorem refuses_parse : Refuses (parseTflite buf) ↔ hasIdentifier buf = false ∨
    (∃ sg, SubgraphsAt (Counted buf.length) buf sg ∧ sg.len = 0) ∨
    ∃ tens ins outs, ListsAt (Counted buf.length) buf tens ins outs ∧
      Refuses (parseTensors buf tens ins outs) := by
  have h := follows_counted buf
  unfold parseTflite
  cases hid : hasIdentifier buf with
  | false => exact iff_of_true rfl (.inl rfl)
  | true =>
    rw [if_neg (by decide), refuses_bind (not_refuses_indirect _)]
    constructor
    · rintro ⟨_, hmodel, hp⟩
      obtain ⟨o, ho, rfl⟩ := (yields_indirect h).mp hmodel
      obtain ⟨sg, hsg, hp⟩ := (refuses_bind (not_refuses_vector _ _)).mp hp
      have hsg : SubgraphsAt (Counted buf.length) buf sg := ⟨o, ho, (yields_vector h).mp hsg⟩
      split at hp
      · rename_i hlen
        exact .inr (.inl ⟨sg, hsg, hlen⟩)
      rename_i hlen
      obtain ⟨_, hsub, hp⟩ := (refuses_bind (not_refuses_indirect _)).mp hp
      obtain ⟨q, hq, rfl⟩ := (yields_indirect h).mp hsub
      obtain ⟨tens, htens, hp⟩ := (refuses_bind (not_refuses_vector _ _)).mp hp
      obtain ⟨ins, hins, hp⟩ := (refuses_bind (not_refuses_vector _ _)).mp hp
      obtain ⟨outs, houts, hp⟩ := (refuses_bind (not_refuses_vector _ _)).mp hp
      exact .inr (.inr ⟨tens, ins, outs, ⟨sg, q, hsg, hlen, hq, (yields_vector h).mp htens,
        (yields_vector h).mp hins, (yields_vector h).mp houts⟩, hp⟩)
    · rintro (hn | ⟨sg, ⟨o, ho, hsg⟩, hlen⟩ |
        ⟨tens, ins, outs, ⟨sg, q, ⟨o, ho, hsg⟩, hlen, hq, htens, hins, houts⟩, hp⟩)
      · cases hn
      · refine ⟨_, (yields_indirect h).mpr ⟨o, ho, rfl⟩, ?_⟩
        refine (refuses_bind (not_refuses_vector _ _)).mpr ⟨sg, (yields_vector h).mpr hsg, ?_⟩
        rw [if_pos hlen]
        rfl
      · refine ⟨_, (yields_indirect h).mpr ⟨o, ho, rfl⟩, ?_⟩
        refine (refuses_bind (not_refuses_vector _ _)).mpr ⟨sg, (yields_vector h).mpr hsg, ?_⟩
        rw [if_neg hlen]
        refine (refuses_bind (not_refuses_indirect _)).mpr
          ⟨_, (yields_indirect h).mpr ⟨q, hq, rfl⟩, ?_⟩
        refine (refuses_bind (not_refuses_vector _ _)).mpr ⟨tens, (yields_vector h).mpr htens, ?_⟩
        refine (refuses_bind (not_refuses_vector _ _)).mpr ⟨ins, (yields_vector h).mpr hins, ?_⟩
        exact (refuses_bind (not_refuses_vector _ _)).mpr
          ⟨outs, (yields_vector h).mpr houts, hp⟩

end Refuse

-- ---------------------------------------------------------------------------
-- Which files are read as they should
-- ---------------------------------------------------------------------------

variable {buf name payload : List UInt8} {shape input output : List Int}

theorem refuses_iff_rejected : Refuses (parseTflite buf) ↔ Rejected buf := by
  rw [refuses_parse]
  constructor
  · rintro (hid | ⟨sg, hsg, hlen⟩ | ⟨tens, ins, outs, hlists, hp⟩)
    · exact .identifier hid
    · exact .subgraphs sg hsg hlen
    rcases refuses_parseTensors.mp hp with hz | hz | hz | ⟨index, hindex, hcase⟩
    · exact .lists tens ins outs hlists (.inl hz)
    · exact .lists tens ins outs hlists (.inr (.inl hz))
    · exact .lists tens ins outs hlists (.inr (.inr hz))
    rcases hcase with hle | ⟨hlt, ht, index', hindex', hle⟩
    · exact .input tens ins outs hlists index hindex hle
    · exact .output tens ins outs hlists index index' hindex hlt ht hindex' hle
  · intro h
    cases h with
    | identifier hid => exact .inl hid
    | subgraphs sg hsg hlen => exact .inr (.inl ⟨sg, hsg, hlen⟩)
    | lists tens ins outs hlists hlen =>
      refine .inr (.inr ⟨tens, ins, outs, hlists, refuses_parseTensors.mpr ?_⟩)
      rcases hlen with hz | hz | hz
      · exact .inl hz
      · exact .inr (.inl hz)
      · exact .inr (.inr (.inl hz))
    | input tens ins outs hlists index hindex hle =>
      exact .inr (.inr ⟨tens, ins, outs, hlists, refuses_parseTensors.mpr
        (.inr (.inr (.inr ⟨index, hindex, .inl hle⟩)))⟩)
    | output tens ins outs hlists index index' hindex hlt ht hindex' hle =>
      exact .inr (.inr ⟨tens, ins, outs, hlists, refuses_parseTensors.mpr
        (.inr (.inr (.inr ⟨index, hindex, .inr ⟨hlt, ht, index', hindex', hle⟩⟩)))⟩)

theorem succeeds_iff_complete :
    Succeeds (Event.Within buf.length) (parseTflite buf) ↔ Complete buf := by
  rw [succeeds_parse (follows_inside buf)]
  simp only [succeeds_parseTensors (follows_inside buf)]
  constructor
  · rintro ⟨hid, tens, ins, outs, hlists, hi, ho, ht, index, index', hindex, hlt, hw, htensor,
      hindex', hlt', hw', htensor'⟩
    exact ⟨hid, tens, ins, outs, hlists, hi, ho, ht, index, index', hindex, hw.1, hlt, htensor,
      hindex', hw'.1, hlt', htensor'⟩
  · rintro ⟨hid, tens, ins, outs, hlists, hi, ho, ht, index, index', hindex, h0, hlt, htensor,
      hindex', h0', hlt', htensor'⟩
    exact ⟨hid, tens, ins, outs, hlists, hi, ho, ht, index, index', hindex, hlt, ⟨h0, hlt⟩, htensor,
      hindex', hlt', ⟨h0', hlt'⟩, htensor'⟩

/-- The parser raises ValueError, or it returns what it has read inside of the file, through
indices of tensors that are there. -/
def ReadsFine (buf : List UInt8) : Prop :=
  (parseTflite buf).result = .error .valueError ∨
    ∃ p, (parseTflite buf).result = .ok p ∧ ∀ ev ∈ (parseTflite buf).events, ev.Within buf.length

theorem readsFine_iff : ReadsFine buf ↔ Rejected buf ∨ Complete buf := by
  rw [← refuses_iff_rejected, ← succeeds_iff_complete]
  rfl

def InRange (shape : List Int) : Prop := shape.length ≤ 4 ∧ ∀ d ∈ shape, 0 ≤ d ∧ d ≤ 0xFFFF

/-- A packaged model. -/
def synmImage (name payload : List UInt8) (input output : List Int) : List UInt8 :=
  le32 synmMagic ++ le32 synmVersion ++ (name ++ List.replicate (32 - name.length) 0) ++
    le32 (UInt32.ofNat payload.length) ++ le32 (crc32Ieee payload) ++
    (padDims input).flatMap le16 ++ (padDims output).flatMap le16 ++ payload

/-- A file that is not empty is packed with every name and all shapes that fit the header. -/
def PackFine (payload : List UInt8) : Prop :=
  payload ≠ [] → ∀ (name : List UInt8) (input output : List Int), name.length ≤ 31 →
    InRange input → InRange output →
    pack ⟨name, some input, some output⟩ payload = .ok (synmImage name payload input output)

theorem shape4_of_inRange (h : InRange shape) : shape4 shape = .ok (padDims shape) := by
  have hany : (shape.any fun d => !(0 ≤ d && d ≤ 0xFFFF)) = false := by
    rw [List.any_eq_false]
    intro d hd
    have := h.2 d hd
    simp only [Bool.not_eq_true', Bool.and_eq_false_iff, decide_eq_false_iff_not]
    omega
  unfold shape4
  rw [if_neg (Nat.not_lt.mpr h.1), if_neg (by rw [hany]; decide)]

/-- A file that is read as it should does not stop `pack`. -/
theorem fileShapes_of_readsFine (name : List UInt8) (input output : List Int)
    (h : ReadsFine payload) :
    ∃ shapes, fileShapes ⟨name, some input, some output⟩ payload = .ok shapes := by
  unfold fileShapes
  rcases h with h | ⟨p, h, -⟩
  · rw [h]
    exact ⟨_, rfl⟩
  · rw [h]
    exact ⟨_, rfl⟩

theorem pack_of_fileShapes {shapes : List Int × List Int} (hp : payload ≠ [])
    (hs : fileShapes ⟨name, some input, some output⟩ payload = .ok shapes)
    (hn : name.length ≤ 31) (hi : InRange input) (ho : InRange output) :
    pack ⟨name, some input, some output⟩ payload =
      (packHeader name payload (padDims input) (padDims output)).map (· ++ payload) := by
  have hlen : payload.length ≠ 0 := fun h => hp (List.length_eq_zero_iff.mp h)
  unfold pack
  rw [if_neg hlen, if_neg (Nat.not_lt.mpr hn), hs]
  show (shape4 input >>= fun i => shape4 output >>= fun o =>
    packHeader name payload i o >>= fun hdr => pure (hdr ++ payload)) = _
  rw [shape4_of_inRange hi, shape4_of_inRange ho]
  show (packHeader name payload (padDims input) (padDims output) >>= fun hdr =>
    pure (hdr ++ payload)) = _
  cases packHeader name payload (padDims input) (padDims output) <;> rfl

theorem packFine_iff (h : ReadsFine payload) : PackFine payload ↔ payload.length < 2 ^ 32 := by
  constructor
  · intro hpack
    by_contra hlt
    have hp : payload ≠ [] := by
      rintro rfl
      exact hlt (by decide)
    obtain ⟨shapes, hs⟩ := fileShapes_of_readsFine [] [] [] h
    have hnil : InRange [] := ⟨by decide, fun d hd => absurd hd List.not_mem_nil⟩
    have heq := hpack hp [] [] [] (by decide) hnil hnil
    rw [pack_of_fileShapes hp hs (by decide) hnil hnil] at heq
    unfold packHeader packWord at heq
    rw [if_neg hlt] at heq
    cases heq
  · intro hlt hp name input output hn hi ho
    obtain ⟨shapes, hs⟩ := fileShapes_of_readsFine name input output h
    rw [pack_of_fileShapes hp hs hn hi ho]
    unfold packHeader
    rw [packWord_of_lt hlt]
    rfl

/-- A file is read as it should, and packed with explicit shapes, if and only if it is below
4 GiB and either the chain of its tables, counted from the end of the file where a position is
negative, leads to something the parser refuses, or it leads to both tensors without leaving
the file. -/
theorem parse_fine_iff (buf : List UInt8) :
    ReadsFine buf ∧ PackFine buf ↔ (Rejected buf ∨ Complete buf) ∧ buf.length < 2 ^ 32 := by
  rw [← readsFine_iff]
  exact and_congr_right fun h => packFine_iff h

/-- The identifier, behind an offset of the root table that is outside of the file. -/
def strayRoot : List UInt8 := [0xFF, 0xFF, 0, 0, 0x54, 0x46, 0x4C, 0x33]

theorem strayRoot_not_fine : ¬(ReadsFine strayRoot ∧ PackFine strayRoot) := by
  have hresult : (parseTflite strayRoot).result = .error .structError := by rfl
  rintro ⟨h | ⟨p, h, -⟩, -⟩
  · rw [hresult] at h
    cases h
  · rw [hresult] at h
    cases h

end SynapticOS.Tools
