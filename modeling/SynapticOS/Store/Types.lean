import SynapticOS.FlashPort
import SynapticOS.Lib.PingPong

/-!
# Data of the model store

Model records as they are laid out in memory, the layout of the window, and
the state of the store: the adopted registry (`Reg`), the bookkeeping of its
two copies, and whether the store is up. A slot number is a `uint8_t` with
`slotNone` for "no slot".
-/

namespace SynapticOS

open Lib

-- ---------------------------------------------------------------------------
-- Model records
-- ---------------------------------------------------------------------------

/-- `syn_model_info_t`. Enumerators are stored as 32-bit integers. -/
structure ModelInfo where
  name : Vector UInt8 32
  version : Vector UInt8 16
  inputSize : UInt32
  outputSize : UInt32
  flashOffset : UInt32
  flashSize : UInt32
  sramRequired : UInt32
  crc32 : UInt32
  inputDtype : UInt32
  outputDtype : UInt32
  inputShape : Vector UInt8 4
  outputShape : Vector UInt8 4
  deriving DecidableEq

/-- The zeroed record. -/
instance : Inhabited ModelInfo where
  default := ⟨Vector.replicate 32 0, Vector.replicate 16 0, 0, 0, 0, 0, 0, 0, 0, 0,
    Vector.replicate 4 0, Vector.replicate 4 0⟩

def infoSize : Nat := 88

def le16 (x : UInt16) : List UInt8 := toLe x.toNat 2
def le32 (x : UInt32) : List UInt8 := toLe x.toNat 4

@[simp] theorem length_le16 (x : UInt16) : (le16 x).length = 2 := length_toLe _ _
@[simp] theorem length_le32 (x : UInt32) : (le32 x).length = 4 := length_toLe _ _

def u16At (b : List UInt8) (off : Nat) : UInt16 := UInt16.ofNat (ofLe (slice b off 2))
def u32At (b : List UInt8) (off : Nat) : UInt32 := UInt32.ofNat (ofLe (slice b off 4))
def bytesAt (b : List UInt8) (off n : Nat) : Vector UInt8 n := Vector.ofFn fun i => b.getD (off + i) 0

theorem ofNat_ofLe_le16 (x : UInt16) : UInt16.ofNat (ofLe (le16 x)) = x := by
  rw [le16, ofLe_toLe x.toNat_lt, UInt16.ofNat_toNat]

theorem ofNat_ofLe_le32 (x : UInt32) : UInt32.ofNat (ofLe (le32 x)) = x := by
  rw [le32, ofLe_toLe x.toNat_lt, UInt32.ofNat_toNat]

/-- A field that lies behind the bytes of other fields. -/
theorem u32At_append {a : List UInt8} (h : a.length ≤ off) :
    u32At (a ++ b) off = u32At b (off - a.length) := by
  obtain ⟨k, rfl⟩ := Nat.exists_eq_add_of_le h
  rw [u32At, slice_right rfl, u32At, Nat.add_sub_cancel_left]

theorem u16At_append {a : List UInt8} (h : a.length ≤ off) :
    u16At (a ++ b) off = u16At b (off - a.length) := by
  obtain ⟨k, rfl⟩ := Nat.exists_eq_add_of_le h
  rw [u16At, slice_right rfl, u16At, Nat.add_sub_cancel_left]

theorem u32At_cons (h : 1 ≤ off) : u32At (x :: b) off = u32At b (off - 1) :=
  u32At_append (a := [x]) h

theorem bytesAt_append {a : List UInt8} (h : a.length ≤ off) (n : Nat) :
    bytesAt (a ++ b) off n = bytesAt b (off - a.length) n := by
  obtain ⟨k, rfl⟩ := Nat.exists_eq_add_of_le h
  ext i hi
  have hk : a.length ≤ a.length + k + i := by omega
  have hj : a.length + k + i - a.length = a.length + k - a.length + i := by omega
  simp only [bytesAt, Vector.getElem_ofFn, List.getD_eq_getElem?_getD,
    List.getElem?_append_right hk, hj]

theorem u32At_le32 (x : UInt32) (b : List UInt8) : u32At (le32 x ++ b) 0 = x := by
  rw [u32At, slice_front (length_le32 x), ofNat_ofLe_le32]

theorem u16At_le16 (x : UInt16) (b : List UInt8) : u16At (le16 x ++ b) 0 = x := by
  rw [u16At, slice_front (length_le16 x), ofNat_ofLe_le16]

theorem bytesAt_toList (v : Vector UInt8 n) (b : List UInt8) : bytesAt (v.toList ++ b) 0 n = v := by
  ext i hi
  have h : i < v.toList.length := by simpa using hi
  simp [bytesAt, List.getElem?_append_left h, hi]

namespace ModelInfo

def bytes (i : ModelInfo) : List UInt8 :=
  i.name.toList ++ (i.version.toList ++ (le32 i.inputSize ++ (le32 i.outputSize ++
    (le32 i.flashOffset ++ (le32 i.flashSize ++ (le32 i.sramRequired ++ (le32 i.crc32 ++
    (le32 i.inputDtype ++ (le32 i.outputDtype ++ (i.inputShape.toList ++
    (i.outputShape.toList ++ [])))))))))))

def ofBytes (b : List UInt8) : ModelInfo where
  name := bytesAt b 0 32
  version := bytesAt b 32 16
  inputSize := u32At b 48
  outputSize := u32At b 52
  flashOffset := u32At b 56
  flashSize := u32At b 60
  sramRequired := u32At b 64
  crc32 := u32At b 68
  inputDtype := u32At b 72
  outputDtype := u32At b 76
  inputShape := bytesAt b 80 4
  outputShape := bytesAt b 84 4

@[simp] theorem length_bytes (i : ModelInfo) : i.bytes.length = infoSize := by
  simp [bytes, infoSize]

theorem ofBytes_bytes (i : ModelInfo) : ofBytes i.bytes = i := by
  simp [-List.append_nil, ofBytes, bytes, u32At_append, bytesAt_append, u32At_le32, bytesAt_toList]

/-- The name up to its terminator: what `strncmp` over 32 bytes compares. -/
def cname (i : ModelInfo) : List UInt8 := i.name.toList.takeWhile (· ≠ 0)

end ModelInfo

-- ---------------------------------------------------------------------------
-- Layout
-- ---------------------------------------------------------------------------

/-- `syn_store_layout_t`: offsets are relative to the window. -/
structure Layout where
  registryOff : Copy → Nat
  registrySize : Nat
  slotOff : Nat → Nat
  slotSize : Nat
  slotCount : Nat

def slotNone : Nat := 0xFF

def synmHdrSize : Nat := 64

def hdrSize : Nat := 24

def imgSize (slots : Nat) : Nat := hdrSize + slots * infoSize

def roundUp (v align : Nat) : Nat := (v + align - 1) / align * align

/-- The page-buffer size that page sizes have to divide. -/
def ioBufSize : Nat := 256

/-- The build's parameters and the arguments of `syn_store_init`. -/
structure Config where
  port : Port
  lay : Layout
  maxSlots : Nat
  maxModels : Nat
  maxSlots_le : maxSlots ≤ 8

def add32 (a b : Nat) : Nat := (a + b) % 2 ^ 32

def Layout.regions (lay : Layout) : List (Nat × Nat) :=
  [(lay.registryOff .zero, lay.registrySize), (lay.registryOff .one, lay.registrySize)] ++
    (List.range lay.slotCount).map fun s => (lay.slotOff s, lay.slotSize)

/-- `layout_validate` accepts. -/
def layoutValid (cfg : Config) : Prop :=
  let p := cfg.port
  let lay := cfg.lay
  2 ≤ lay.slotCount ∧ lay.slotCount ≤ cfg.maxSlots ∧
  lay.registrySize ≠ 0 ∧ lay.slotSize ≠ 0 ∧
  roundUp (imgSize lay.slotCount) p.pageSize ≤ lay.registrySize ∧
  synmHdrSize < lay.slotSize ∧
  p.pageSize ≤ ioBufSize ∧ ioBufSize % p.pageSize = 0 ∧
  (∀ r ∈ lay.regions, r.1 % p.sectorSize = 0 ∧ r.2 % p.sectorSize = 0 ∧
    r.1 ≤ p.size ∧ r.2 ≤ p.size - r.1) ∧
  lay.regions.Pairwise fun r q => ¬(r.1 < add32 q.1 q.2 ∧ q.1 < add32 r.1 r.2)

instance (cfg : Config) : Decidable (layoutValid cfg) := by unfold layoutValid; infer_instance

-- ---------------------------------------------------------------------------
-- State
-- ---------------------------------------------------------------------------

/-- The adopted state of the registry. -/
structure Reg where
  generation : UInt32
  activeSlot : Nat
  prevActive : Nat
  stagedSlot : Nat
  occupiedMask : BitVec 8
  record : Nat → ModelInfo

def Reg.occupied (r : Reg) (s : Nat) : Prop := r.occupiedMask.getLsbD s = true

instance (r : Reg) (s : Nat) : Decidable (r.occupied s) := by unfold Reg.occupied; infer_instance

/-- The registry of a fresh store. -/
def Reg.empty : Reg := ⟨0, slotNone, slotNone, slotNone, 0, fun _ => default⟩

/-- `st`, less its configuration and its timing statistics. -/
structure St where
  ready : Bool
  reg : Reg
  wear : Copy → UInt32
  copyValid : Copy → Bool
  newestCopy : Copy

/-- `st` before `syn_store_init`. -/
def St.zero : St := ⟨false, Reg.empty, fun _ => 0, fun _ => false, .zero⟩

end SynapticOS
