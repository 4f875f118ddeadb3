import SynapticOS.Store.Image
import SynapticOS.Store.LayoutLaws
import Mathlib.Data.Nat.Bitwise

/-!
# Registry images: round trip and boot scan

The registry in a copy depends on the bytes of that copy only
(`copyReg_congr`); a blank copy holds none; a copy that starts with a complete
image holds the registry it was built from (`copyReg_of_image`). A header the
boot scan loads is the one `copyView` accepts, whatever faults the scan meets
(`copyLoad_spec`).
-/

namespace SynapticOS

open Lib

variable {cfg : Config} {m m' : Mem} {c : Copy}

-- ---------------------------------------------------------------------------
-- Which bytes matter
-- ---------------------------------------------------------------------------

theorem hdrSize_le_imgSize (n : Nat) : hdrSize ≤ imgSize n := Nat.le_add_right _ _

theorem StoreHdr.accepts.imgSize_le (hv : layoutValid cfg) {h : StoreHdr} (ha : h.accepts cfg) :
    imgSize h.slots ≤ cfg.lay.registrySize := hv.imgSize_le ha.2.2.2.2

theorem blank_congr (h : Mem.SameOn off (off + len) m m') : blank m' off len = blank m off len := by
  rw [Bool.eq_iff_iff, blank_iff, blank_iff]
  exact ⟨fun he => he.congr h.symm, fun he => he.congr h⟩

theorem copyView_congr (hv : layoutValid cfg)
    (h : Mem.SameOn (cfg.lay.registryOff c) (cfg.lay.registryOff c + cfg.lay.registrySize) m m') :
    copyView cfg m' c = copyView cfg m c := by
  have hread : ∀ n, n ≤ cfg.lay.registrySize →
      m'.read (cfg.lay.registryOff c) n = m.read (cfg.lay.registryOff c) n := fun n hn =>
    Mem.read_congr (h.mono (Nat.le_refl _) (by omega))
  have hhdr := hread hdrSize ((hdrSize_le_imgSize _).trans (hv.imgSize_le (Nat.le_refl _)))
  have hblank : blank m' (cfg.lay.registryOff c) cfg.port.pageSize =
      blank m (cfg.lay.registryOff c) cfg.port.pageSize :=
    blank_congr (h.mono (Nat.le_refl _) (by have := hv.page_le_registry; omega))
  simp only [copyView, hhdr, hblank]
  congr 1
  refine propext (and_congr_right fun _ => and_congr_right fun ha => and_congr_right fun _ => ?_)
  rw [hread _ (ha.imgSize_le hv)]

theorem copyView_accepts {h : StoreHdr} (hc : copyView cfg m c = some h) :
    h.accepts cfg ∧ h.rolesInRange ∧ (h.version = 1 → h.prevActive.toNat = slotNone) := by
  simp only [copyView] at hc
  split at hc
  · rename_i hcond
    cases hc
    obtain ⟨-, ha, hr, -⟩ := hcond
    generalize StoreHdr.ofBytes (m.read (cfg.lay.registryOff c) hdrSize) = h at *
    unfold StoreHdr.normalize
    split
    · rename_i hv1
      exact ⟨ha, ⟨hr.1, hr.2.1, hr.2.2.1, .inl hv1⟩, fun _ => rfl⟩
    · rename_i hv1
      exact ⟨ha, hr, fun h1 => absurd h1 hv1⟩
  · cases hc

/-- The record of slot `s` ends before the image of a table that holds it. -/
theorem record_end_le (h : s < slots) : hdrSize + infoSize * s + infoSize ≤ imgSize slots := by
  have hfit : infoSize * s + infoSize ≤ slots * infoSize := by
    rw [← Nat.mul_succ, Nat.mul_comm slots]
    exact Nat.mul_le_mul_left _ h
  rw [imgSize]
  omega

theorem copyRecord_congr (hs : hdrSize + infoSize * s + infoSize ≤ cfg.lay.registrySize)
    (h : Mem.SameOn (cfg.lay.registryOff c) (cfg.lay.registryOff c + cfg.lay.registrySize) m m') :
    copyRecord cfg m' c s = copyRecord cfg m c s := by
  rw [copyRecord, copyRecord, Mem.read_congr (h.mono ?_ ?_)]
  · rw [Nat.add_assoc]
    exact Nat.le_add_right _ _
  · simp only [Nat.add_assoc] at hs ⊢
    exact Nat.add_le_add_left hs _

theorem StoreHdr.reg_congr {h : StoreHdr} {f g : Nat → ModelInfo} (hfg : ∀ s < h.slots, f s = g s) :
    h.reg f = h.reg g := by
  have hrec : (fun s => if s < h.slots then f s else default) =
      fun s => if s < h.slots then g s else default := by
    funext s
    split
    · exact hfg s ‹_›
    · rfl
  rw [StoreHdr.reg, hrec, ← StoreHdr.reg]

theorem copyReg_congr (hv : layoutValid cfg)
    (h : Mem.SameOn (cfg.lay.registryOff c) (cfg.lay.registryOff c + cfg.lay.registrySize) m m') :
    copyReg cfg m' c = copyReg cfg m c := by
  rw [copyReg, copyReg, copyView_congr hv h]
  refine Option.map_congr fun hdr hh => StoreHdr.reg_congr fun s hs => ?_
  exact copyRecord_congr ((record_end_le hs).trans ((copyView_accepts hh).1.imgSize_le hv)) h

theorem copyReg_blank (hb : blank m (cfg.lay.registryOff c) cfg.port.pageSize = true) :
    copyReg cfg m c = none := by
  simp [copyReg, copyView, hb]

-- ---------------------------------------------------------------------------
-- Adopted registries fit the layout
-- ---------------------------------------------------------------------------

/-- A slot number that is none or names a slot. -/
def SlotFits (cfg : Config) (s : Nat) : Prop := s = slotNone ∨ s < cfg.lay.slotCount

/-- The fields of a registry are what an image of this layout can hold. -/
structure Reg.Fits (cfg : Config) (r : Reg) : Prop where
  active : SlotFits cfg r.activeSlot
  prev : SlotFits cfg r.prevActive
  staged : SlotFits cfg r.stagedSlot
  mask : ∀ s, r.occupied s → s < cfg.lay.slotCount
  record : ∀ s, cfg.lay.slotCount ≤ s → r.record s = default

theorem Reg.empty_fits : Reg.empty.Fits cfg where
  active := .inl rfl
  prev := .inl rfl
  staged := .inl rfl
  mask := by simp [Reg.occupied, Reg.empty]
  record _ _ := rfl

theorem lt_of_masked {mask : BitVec 8} {n s : Nat}
    (h : UInt8.ofBitVec mask &&& ~~~(UInt8.ofNat (2 ^ n - 1)) = 0) (hs : mask.getLsbD s = true) :
    s < n := by
  have hs8 : s < 8 := BitVec.lt_of_getLsbD hs
  have hb := congrArg (fun x : UInt8 => x.toBitVec.getLsbD s) h
  simp only [UInt8.toBitVec_and, UInt8.toBitVec_not, UInt8.toBitVec_ofNat', BitVec.getLsbD_and,
    BitVec.getLsbD_not, BitVec.getLsbD_ofNat, hs, hs8, decide_true, Bool.true_and,
    Nat.testBit_two_pow_sub_one] at hb
  by_contra hlt
  simp [hlt] at hb

theorem StoreHdr.slotOk.fits {v : UInt8} {n : Nat} (h : StoreHdr.slotOk n v)
    (hn : n ≤ cfg.lay.slotCount) : SlotFits cfg v.toNat := by
  rcases h with h | h
  · exact .inr (by omega)
  · exact .inl h

/-- An accepted header fits with any record table. -/
theorem copyView_fits {h : StoreHdr} (hh : copyView cfg m c = some h) (record : Nat → ModelInfo) :
    (h.reg record).Fits cfg := by
  obtain ⟨ha, hr, hprev⟩ := copyView_accepts hh
  have hn : h.slots ≤ cfg.lay.slotCount := ha.2.2.2.2
  exact {
    active := hr.1.fits hn
    prev := by
      rcases hr.2.2.2 with hv | hp
      · exact .inl (hprev hv)
      · exact hp.fits hn
    staged := hr.2.1.fits hn
    mask := fun s hs => Nat.lt_of_lt_of_le
      (lt_of_masked hr.2.2.1 hs) hn
    record := fun s hs => if_neg (by omega) }

theorem copyReg_fits {r : Reg} (h : copyReg cfg m c = some r) : r.Fits cfg := by
  simp only [copyReg, Option.map_eq_some_iff] at h
  obtain ⟨hdr, hh, rfl⟩ := h
  exact copyView_fits hh _

-- ---------------------------------------------------------------------------
-- The round trip
-- ---------------------------------------------------------------------------

@[simp] theorem length_recordBytes (cfg : Config) (r : Reg) :
    (r.recordBytes cfg).length = infoSize * cfg.lay.slotCount := by
  simp [Reg.recordBytes, length_flatMap_const (fun s => ModelInfo.length_bytes (r.record s))]

@[simp] theorem length_imageCore (cfg : Config) (r : Reg) (gen wear : UInt32) :
    (imageCore cfg r gen wear).length = imgSize cfg.lay.slotCount := by
  simp [imageCore, imgSize, Nat.mul_comm]

theorem length_imageBuild (cfg : Config) (r : Reg) (gen wear : UInt32) :
    (imageBuild cfg r gen wear).length = roundUp (imgSize cfg.lay.slotCount) cfg.port.pageSize := by
  have := le_roundUp (v := imgSize cfg.lay.slotCount) cfg.port.page_pos
  simp only [imageBuild, List.length_append, length_imageCore, List.length_replicate]
  omega

/-- Only the last four bytes of a header depend on its CRC field. -/
theorem StoreHdr.bytes_eq (h : StoreHdr) :
    ∃ front : List UInt8, front.length = 20 ∧
      ∀ crc, ({ h with crc32 := crc } : StoreHdr).bytes = front ++ le32 crc := by
  refine ⟨le32 h.magic ++ (le16 h.version ++ ([h.slotCount, h.prevActive] ++ (le32 h.generation ++
    (le32 h.wear ++ [h.activeSlot, h.stagedSlot, h.occupiedMask, h.rsvd1])))), by simp, fun crc => ?_⟩
  simp only [bytes, List.append_assoc, List.append_nil]

theorem zeroCrc_bytes (h : StoreHdr) (rest : List UInt8) :
    zeroCrc (h.bytes ++ rest) = ({ h with crc32 := 0 } : StoreHdr).bytes ++ rest := by
  obtain ⟨front, hl, hb⟩ := h.bytes_eq
  have hh : h.bytes = front ++ le32 h.crc32 := hb h.crc32
  have hd : (front ++ (le32 h.crc32 ++ rest)).drop 24 = rest := by
    rw [← List.append_assoc]
    exact List.drop_left' (by simp [hl])
  have h0 : le32 0 = [0, 0, 0, 0] := by decide
  rw [hb 0, hh, zeroCrc, List.append_assoc, List.take_left' hl, hd, h0, List.append_assoc]

theorem zeroCrc_imageCore (cfg : Config) (r : Reg) (gen wear : UInt32) :
    zeroCrc (imageCore cfg r gen wear) =
      (r.hdr cfg gen wear 0).bytes ++ r.recordBytes cfg := zeroCrc_bytes _ _

theorem storeVersion_ne_one : storeVersion ≠ 1 := by decide

/-- The header of a complete image. -/
def Reg.imageHdr (cfg : Config) (r : Reg) (gen wear : UInt32) : StoreHdr :=
  r.hdr cfg gen wear (crc32Ieee ((r.hdr cfg gen wear 0).bytes ++ r.recordBytes cfg))

theorem imageCore_eq (cfg : Config) (r : Reg) (gen wear : UInt32) :
    imageCore cfg r gen wear = (r.imageHdr cfg gen wear).bytes ++ r.recordBytes cfg := rfl

theorem imageHdr_slots (hv : layoutValid cfg) (r : Reg) (gen wear : UInt32) :
    (r.imageHdr cfg gen wear).slots = cfg.lay.slotCount := by
  have h8 := hv.count_le
  simp only [StoreHdr.slots, Reg.imageHdr, Reg.hdr, storeVersion_ne_one, if_false,
    UInt8.toNat_ofNat']
  omega

theorem imageHdr_accepts (hv : layoutValid cfg) (r : Reg) (gen wear : UInt32) :
    (r.imageHdr cfg gen wear).accepts cfg := by
  refine ⟨rfl, .inl rfl, ?_, ?_, ?_⟩ <;> rw [imageHdr_slots hv]
  · exact hv.count_ge
  · exact hv.2.1

theorem SlotFits.slotOk (hv : layoutValid cfg) (h : SlotFits cfg s) :
    (UInt8.ofNat s).toNat = s ∧ StoreHdr.slotOk cfg.lay.slotCount (UInt8.ofNat s) := by
  have h8 := hv.count_le
  have hs : (UInt8.ofNat s).toNat = s := by
    rw [UInt8.toNat_ofNat']
    rcases h with rfl | h
    · rfl
    · omega
  refine ⟨hs, ?_⟩
  rw [StoreHdr.slotOk, hs]
  exact h.symm

theorem masked_of_lt {mask : BitVec 8} {n : Nat} (h : ∀ s, mask.getLsbD s = true → s < n) :
    UInt8.ofBitVec mask &&& ~~~(UInt8.ofNat (2 ^ n - 1)) = 0 := by
  rw [← UInt8.toBitVec_inj]
  apply BitVec.eq_of_getLsbD_eq
  intro i hi
  simp only [UInt8.toBitVec_and, UInt8.toBitVec_not, UInt8.toBitVec_ofNat', BitVec.getLsbD_and,
    BitVec.getLsbD_not, BitVec.getLsbD_ofNat, hi, decide_true, Bool.true_and,
    Nat.testBit_two_pow_sub_one]
  cases hm : mask.getLsbD i
  · simp
  · simp [h i hm]

theorem imageHdr_rolesInRange (hv : layoutValid cfg) {r : Reg} (hf : r.Fits cfg) (gen wear : UInt32) :
    (r.imageHdr cfg gen wear).rolesInRange := by
  rw [StoreHdr.rolesInRange, imageHdr_slots hv]
  exact ⟨(hf.active.slotOk hv).2, (hf.staged.slotOk hv).2, masked_of_lt hf.mask,
    .inr (hf.prev.slotOk hv).2⟩

theorem StoreHdr.getElem?_bytes_zero {h : StoreHdr} (hm : h.magic = storeMagic) :
    h.bytes[0]? = some 0x53 := by
  have hle : le32 storeMagic = [0x53, 0x59, 0x4E, 0x52] := by decide
  rw [bytes, hm, hle]
  rfl

theorem read_hdr_of_image {r : Reg}
    (hm : m.read (cfg.lay.registryOff c) (imgSize cfg.lay.slotCount) = imageCore cfg r gen wear) :
    m.read (cfg.lay.registryOff c) hdrSize = (r.imageHdr cfg gen wear).bytes := by
  rw [← Mem.read_take (hdrSize_le_imgSize cfg.lay.slotCount), hm, imageCore_eq,
    List.take_left' (StoreHdr.length_bytes _)]

theorem hdr_of_image {r : Reg}
    (hm : m.read (cfg.lay.registryOff c) (imgSize cfg.lay.slotCount) = imageCore cfg r gen wear) :
    StoreHdr.ofBytes (m.read (cfg.lay.registryOff c) hdrSize) = r.imageHdr cfg gen wear := by
  have h := StoreHdr.ofBytes_bytes (r.imageHdr cfg gen wear) []
  rwa [List.append_nil, ← read_hdr_of_image hm] at h

/-- A load of a complete image reports the wear that was written. -/
theorem wear_of_image {r : Reg} {h : StoreHdr}
    (hm : m.read (cfg.lay.registryOff c) (imgSize cfg.lay.slotCount) = imageCore cfg r gen wear)
    (hc : copyView cfg m c = some h) : h.wear = wear := by
  simp only [copyView, hdr_of_image hm] at hc
  split at hc
  · cases hc
    unfold StoreHdr.normalize
    split <;> rfl
  · cases hc

/-- A complete image at the start of a copy passes every check. -/
theorem copyView_of_image (hv : layoutValid cfg) {r : Reg} (hf : r.Fits cfg)
    (hm : m.read (cfg.lay.registryOff c) (imgSize cfg.lay.slotCount) = imageCore cfg r gen wear) :
    copyView cfg m c = some (r.imageHdr cfg gen wear) := by
  have hread := read_hdr_of_image hm
  have hh := hdr_of_image hm
  have hb : blank m (cfg.lay.registryOff c) cfg.port.pageSize = false := by
    rw [Bool.eq_false_iff]
    intro hb
    have h0 := blank_iff.mp hb (cfg.lay.registryOff c) (Nat.le_refl _)
      (Nat.lt_add_of_pos_right cfg.port.page_pos)
    have h1 : (m.read (cfg.lay.registryOff c) hdrSize)[0]? = some erasedByte := by
      rw [← h0]; rfl
    rw [hread, StoreHdr.getElem?_bytes_zero rfl] at h1
    exact absurd h1 (by decide)
  have hcrc : crc32Ieee (zeroCrc (m.read (cfg.lay.registryOff c)
      (imgSize (r.imageHdr cfg gen wear).slots))) = (r.imageHdr cfg gen wear).crc32 := by
    rw [imageHdr_slots hv, hm, zeroCrc_imageCore]
    simp only [Reg.imageHdr, Reg.hdr]
  have hn : (r.imageHdr cfg gen wear).normalize = r.imageHdr cfg gen wear :=
    if_neg storeVersion_ne_one
  simp only [copyView, hh]
  rw [if_pos ⟨hb, imageHdr_accepts hv r gen wear, imageHdr_rolesInRange hv hf gen wear, hcrc⟩, hn]

/-- The record of slot `s` in a complete image. -/
theorem copyRecord_of_image {r : Reg} (hs : s < cfg.lay.slotCount)
    (hm : m.read (cfg.lay.registryOff c) (imgSize cfg.lay.slotCount) = imageCore cfg r gen wear) :
    copyRecord cfg m c s = r.record s := by
  have hle := record_end_le hs
  have hslice : slice (imageCore cfg r gen wear) (hdrSize + infoSize * s) infoSize = (r.record s).bytes := by
    rw [imageCore_eq, slice_right (StoreHdr.length_bytes _), Reg.recordBytes,
      slice_flatMap (fun s => ModelInfo.length_bytes (r.record s)) _ (by simpa using hs)]
    simp
  have hread : slice (m.read (cfg.lay.registryOff c) (imgSize cfg.lay.slotCount))
      (hdrSize + infoSize * s) infoSize =
      m.read (cfg.lay.registryOff c + hdrSize + infoSize * s) infoSize := by
    rw [slice_read _ _ hle, Nat.add_assoc]
  rw [copyRecord, ← hread, hm, hslice, ModelInfo.ofBytes_bytes]

/-- Round trip: a copy that starts with the image of `r` holds `r`. -/
theorem copyReg_of_image (hv : layoutValid cfg) {r : Reg} (hf : r.Fits cfg)
    (hm : m.read (cfg.lay.registryOff c) (imgSize cfg.lay.slotCount) = imageCore cfg r gen wear) :
    copyReg cfg m c = some { r with generation := gen } := by
  rw [copyReg, copyView_of_image hv hf hm, Option.map_some]
  have hrec : (r.imageHdr cfg gen wear).reg (copyRecord cfg m c) =
      (r.imageHdr cfg gen wear).reg r.record :=
    StoreHdr.reg_congr fun s hs => copyRecord_of_image (by rwa [imageHdr_slots hv] at hs) hm
  have hself : (fun s => if s < cfg.lay.slotCount then r.record s else default) = r.record := by
    funext s
    split
    · rfl
    · exact (hf.record s (by omega)).symm
  rw [hrec, StoreHdr.reg, imageHdr_slots hv, hself]
  simp only [Reg.imageHdr, Reg.hdr, (hf.active.slotOk hv).1, (hf.prev.slotOk hv).1,
    (hf.staged.slotOk hv).1]

end SynapticOS
