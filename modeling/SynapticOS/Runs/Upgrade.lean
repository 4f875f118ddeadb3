import SynapticOS.Runs.Calm

/-!
# Registry images across layouts and versions

An image that one layout wrote is read back under any layout with at least as many
slots. A version 1 image, a fixed pair of records, is adopted in place; the first
commit after it writes the other copy in the current version.
-/

namespace SynapticOS

open Lib

variable {cfg : Config} {m : Mem} {c : Copy} {h : StoreHdr} {r : Reg} {rec : Nat → ModelInfo}
variable {n s : Nat} {gen wear : UInt32}

-- ---------------------------------------------------------------------------
-- Images of any accepted header
-- ---------------------------------------------------------------------------

/-- The records of the first `n` slots. -/
def recordTable (n : Nat) (rec : Nat → ModelInfo) : List UInt8 :=
  (List.range n).flatMap fun s => (rec s).bytes

theorem length_recordTable : (recordTable n rec).length = n * infoSize := by
  simp [recordTable, length_flatMap_const (fun s => ModelInfo.length_bytes (rec s)), Nat.mul_comm]

/-- A copy that starts with an accepted header, its records and the right CRC is
loaded. -/
theorem copyView_of_bytes (ha : h.accepts cfg) (hr : h.rolesInRange)
    (hm : m.read (cfg.lay.registryOff c) (imgSize h.slots) = h.bytes ++ recordTable h.slots rec)
    (hcrc : crc32Ieee (({ h with crc32 := 0 } : StoreHdr).bytes ++ recordTable h.slots rec) =
      h.crc32) : copyView cfg m c = some h.normalize := by
  have hread : m.read (cfg.lay.registryOff c) hdrSize = h.bytes := by
    rw [← Mem.read_take (hdrSize_le_imgSize h.slots), hm, List.take_left' (StoreHdr.length_bytes _)]
  have hh : StoreHdr.ofBytes (m.read (cfg.lay.registryOff c) hdrSize) = h := by
    have heq := StoreHdr.ofBytes_bytes h []
    rwa [List.append_nil, ← hread] at heq
  have hb : blank m (cfg.lay.registryOff c) cfg.port.pageSize = false := by
    rw [Bool.eq_false_iff]
    intro hb
    have h0 := blank_iff.mp hb (cfg.lay.registryOff c) (Nat.le_refl _)
      (Nat.lt_add_of_pos_right cfg.port.page_pos)
    have h1 : (m.read (cfg.lay.registryOff c) hdrSize)[0]? = some erasedByte := by
      rw [← h0]; rfl
    rw [hread, StoreHdr.getElem?_bytes_zero ha.1] at h1
    exact absurd h1 (by decide)
  simp only [copyView, hh]
  rw [if_pos ⟨hb, ha, hr, by rw [hm, zeroCrc_bytes, hcrc]⟩]

theorem copyRecord_of_bytes (hs : s < n)
    (hm : m.read (cfg.lay.registryOff c) (imgSize n) = h.bytes ++ recordTable n rec) :
    copyRecord cfg m c s = rec s := by
  have hle := record_end_le hs
  have hslice : slice (h.bytes ++ recordTable n rec) (hdrSize + infoSize * s) infoSize =
      (rec s).bytes := by
    rw [slice_right (StoreHdr.length_bytes _), recordTable,
      slice_flatMap (fun s => ModelInfo.length_bytes (rec s)) _ (by simpa using hs)]
    simp
  have hread : slice (m.read (cfg.lay.registryOff c) (imgSize n))
      (hdrSize + infoSize * s) infoSize =
      m.read (cfg.lay.registryOff c + hdrSize + infoSize * s) infoSize := by
    rw [slice_read _ _ hle, Nat.add_assoc]
  rw [copyRecord, ← hread, hm, hslice, ModelInfo.ofBytes_bytes]

/-- The roles and the mask of a registry with `n` slots. -/
structure Reg.InRange (n : Nat) (r : Reg) : Prop where
  active : r.activeSlot < n ∨ r.activeSlot = slotNone
  staged : r.stagedSlot < n ∨ r.stagedSlot = slotNone
  mask : ∀ s, r.occupied s → s < n

/-- The registry with the records of its first `n` slots only. -/
def Reg.truncate (n : Nat) (r : Reg) : Reg :=
  { r with record := fun s => if s < n then r.record s else default }

theorem slotOk_ofNat (hn : n ≤ 8) (h : s < n ∨ s = slotNone) :
    (UInt8.ofNat s).toNat = s ∧ StoreHdr.slotOk n (UInt8.ofNat s) := by
  have hs : (UInt8.ofNat s).toNat = s := by
    rw [UInt8.toNat_ofNat']
    rcases h with h | rfl
    · omega
    · rfl
  refine ⟨hs, ?_⟩
  rw [StoreHdr.slotOk, hs]
  exact h

-- ---------------------------------------------------------------------------
-- The round trip between two layouts
-- ---------------------------------------------------------------------------

/-- A load without faults takes what the copy holds, records included. -/
theorem copyLoad_healthy {sc : Scan} (hv : layoutValid cfg) (hf : Flash.Healthy sc.flash)
    (hview : copyView cfg sc.flash.mem c = some h) :
    ∃ sc', (copyLoad cfg c).run sc = (.ok (some h), sc') ∧
      h.reg (unpackRecord sc'.imgBuf) = h.reg (copyRecord cfg sc.flash.mem c) := by
  have hl := copyLoad_spec hv c sc
  unfold Triple at hl
  split at hl
  next v sc' hrun =>
    have hp := (hf.later hl.scanned.later).1
    have hv' := (hl.complete hf.cutOnly hp).trans hview
    refine ⟨sc', by rw [hrun, hv'], StoreHdr.reg_congr fun s hs => hl.records h hv' s hs⟩
  next => exact hl.elim

/-- An image built for one layout, in a copy of another one with as many slots or
more. -/
theorem image_loads {cfg' : Config} (hv : layoutValid cfg') (h2 : 2 ≤ cfg.lay.slotCount)
    (hn : cfg.lay.slotCount ≤ cfg'.lay.slotCount) (hr : r.InRange cfg.lay.slotCount)
    (hp : r.prevActive < cfg.lay.slotCount ∨ r.prevActive = slotNone) (m : Mem) (c : Copy)
    (gen wear : UInt32) :
    let m' := m.put (cfg'.lay.registryOff c) (imageBuild cfg r gen wear)
    copyView cfg' m' c = some (r.imageHdr cfg gen wear) ∧
      (r.imageHdr cfg gen wear).reg (copyRecord cfg' m' c) =
        { r.truncate cfg.lay.slotCount with generation := gen } := by
  dsimp only
  have h8 : cfg.lay.slotCount ≤ 8 := hn.trans hv.count_le
  have hslots : (r.imageHdr cfg gen wear).slots = cfg.lay.slotCount := by
    simp only [StoreHdr.slots, Reg.imageHdr, Reg.hdr, storeVersion_ne_one, if_false,
      UInt8.toNat_ofNat']
    omega
  have hacc : (r.imageHdr cfg gen wear).accepts cfg' := by
    refine ⟨rfl, .inl rfl, ?_, ?_, ?_⟩ <;> rw [hslots]
    · exact h2
    · exact hn.trans hv.2.1
    · exact hn
  have hroles : (r.imageHdr cfg gen wear).rolesInRange := by
    rw [StoreHdr.rolesInRange, hslots]
    exact ⟨(slotOk_ofNat h8 hr.active).2, (slotOk_ofNat h8 hr.staged).2, masked_of_lt hr.mask,
      .inr (slotOk_ofNat h8 hp).2⟩
  have hm : (m.put (cfg'.lay.registryOff c) (imageBuild cfg r gen wear)).read
      (cfg'.lay.registryOff c) (imgSize cfg.lay.slotCount) =
      (r.imageHdr cfg gen wear).bytes ++ recordTable cfg.lay.slotCount r.record := by
    have hle := le_roundUp (v := imgSize cfg.lay.slotCount) cfg.port.page_pos
    rw [Mem.read_put_take (by rw [length_imageBuild]; exact hle), imageBuild,
      List.take_left' (length_imageCore _ _ _ _)]
    rfl
  refine ⟨?_, ?_⟩
  · have hview := @copyView_of_bytes cfg' _ c _ r.record hacc hroles (by rw [hslots]; exact hm)
      (by rw [hslots]; rfl)
    have hnorm : (r.imageHdr cfg gen wear).normalize = r.imageHdr cfg gen wear :=
      if_neg storeVersion_ne_one
    rwa [hnorm] at hview
  · have hrec : (r.imageHdr cfg gen wear).reg (copyRecord cfg' _ c) =
        (r.imageHdr cfg gen wear).reg r.record :=
      StoreHdr.reg_congr fun s hs => copyRecord_of_bytes (by rwa [hslots] at hs) hm
    rw [hrec, StoreHdr.reg, hslots]
    simp only [Reg.imageHdr, Reg.hdr, (slotOk_ofNat h8 hr.active).1, (slotOk_ofNat h8 hp).1,
      (slotOk_ofNat h8 hr.staged).1]
    rfl

-- ---------------------------------------------------------------------------
-- Version 1
-- ---------------------------------------------------------------------------

/-- The reserved bytes of a version 1 header. -/
structure Reserved where
  slotCount : UInt8
  prevActive : UInt8
  rsvd1 : UInt8

/-- The header of a version 1 image, up to its CRC. -/
def Reg.hdrV1 (r : Reg) (wear : UInt32) (rsvd : Reserved) (crc : UInt32) : StoreHdr where
  magic := storeMagic
  version := 1
  slotCount := rsvd.slotCount
  prevActive := rsvd.prevActive
  generation := r.generation
  wear := wear
  activeSlot := UInt8.ofNat r.activeSlot
  stagedSlot := UInt8.ofNat r.stagedSlot
  occupiedMask := UInt8.ofBitVec r.occupiedMask
  rsvd1 := rsvd.rsvd1
  crc32 := crc

/-- The header, two records, and the CRC over both. -/
def imageV1 (r : Reg) (wear : UInt32) (rsvd : Reserved) : List UInt8 :=
  let crc := crc32Ieee ((r.hdrV1 wear rsvd 0).bytes ++ recordTable 2 r.record)
  (r.hdrV1 wear rsvd crc).bytes ++ recordTable 2 r.record

/-- What a version 1 image of `r` stands for: two slots and no rollback pivot. -/
def Reg.pair (r : Reg) : Reg := { r.truncate 2 with prevActive := slotNone }

/-- A version 1 image at the start of a copy is adopted as its pair of slots. -/
theorem copyReg_of_imageV1 (hv : layoutValid cfg) (hr : r.InRange 2) {rsvd : Reserved}
    (hm : m.read (cfg.lay.registryOff c) (imgSize 2) = imageV1 r wear rsvd) :
    copyReg cfg m c = some r.pair := by
  generalize hcrc : crc32Ieee ((r.hdrV1 wear rsvd 0).bytes ++ recordTable 2 r.record) = crc
  have hm' : m.read (cfg.lay.registryOff c) (imgSize 2) =
      (r.hdrV1 wear rsvd crc).bytes ++ recordTable 2 r.record := by
    rw [hm, imageV1, hcrc]
  have hview : copyView cfg m c = some (r.hdrV1 wear rsvd crc).normalize :=
    copyView_of_bytes ⟨rfl, .inr rfl, Nat.le_refl 2, hv.count_ge.trans hv.2.1, hv.count_ge⟩
      ⟨(slotOk_ofNat (by decide) hr.active).2, (slotOk_ofNat (by decide) hr.staged).2,
        masked_of_lt hr.mask, .inl rfl⟩ hm' hcrc
  have hnorm : (r.hdrV1 wear rsvd crc).normalize =
      { r.hdrV1 wear rsvd crc with prevActive := UInt8.ofNat slotNone } := if_pos rfl
  rw [copyReg, hview, Option.map_some, hnorm]
  refine congrArg some (Eq.trans (StoreHdr.reg_congr fun s hs => copyRecord_of_bytes hs hm') ?_)
  rw [StoreHdr.reg]
  simp only [Reg.hdrV1, (slotOk_ofNat (show 2 ≤ 8 by decide) hr.active).1,
    (slotOk_ofNat (show 2 ≤ 8 by decide) hr.staged).1]
  rfl

-- ---------------------------------------------------------------------------
-- Adoption and the first commit
-- ---------------------------------------------------------------------------

variable {env : Env} {u : RegUpdate} {t : Store} {rsvd : Reserved}

theorem boot_adopted (hv : layoutValid cfg) (sys : Sys) (he : env.plan = []) :
    let s := sysStep cfg sys (env, .boot)
    Adopted cfg sys.store.flash.mem s.store.st ∧ s.store.flash.mem = sys.store.flash.mem ∧
      s.store.flash.powered = true ∧ s.store.st.ready = true := by
  have hbooted : ∀ t, Booted cfg (sys.restart env).store t →
      Adopted cfg sys.store.flash.mem t.st ∧ t.flash.mem = sys.store.flash.mem ∧
        t.flash.powered = true ∧ t.st.ready = true := by
    intro t hb
    have hh : Flash.Healthy (sys.restart env).store.flash := ⟨rfl, he⟩
    have hon := (hh.later hb.later).1
    exact ⟨hb.adopted hh.cutOnly hon, hb.mem, hon, hb.ready⟩
  have hspec := Sys.onStore_spec (s := sys.restart env) (storeInit_spec hv rfl)
  show Ends (exec cfg .boot) (sys.restart env) fun s =>
    Adopted cfg sys.store.flash.mem s.store.st ∧ s.store.flash.mem = sys.store.flash.mem ∧
      s.store.flash.powered = true ∧ s.store.st.ready = true
  exact Ends.of_triple hspec (fun _ s' hs => hbooted _ hs.1) fun _ s' hs => hbooted _ hs.1

theorem Adopted.of_newest {st : St} (h : Adopted cfg m st) (hc : copyReg cfg m c = some r)
    (ho : ∀ b, copyReg cfg m c.other = some b → b.seqNo < r.seqNo) :
    st.reg = r ∧ st.target = c.other := by
  have ha : adopt Reg.seqNo (copyReg cfg m) = some (c, r) := adopt_of_newest hc ho
  have hn := h.newest c r ha
  refine ⟨by rw [h.reg, ha]; rfl, ?_⟩
  rw [St.target, hn, h.valid, hc]
  rfl

/-- The first commit over an adopted copy writes the other one and leaves it alone. -/
theorem first_commit {s : Store} (hv : layoutValid cfg) (hr : s.st.reg = r)
    (ht : s.st.target = c.other) (hc : copyReg cfg s.flash.mem c = some r)
    (hf : (u.apply r).Fits cfg) (hrun : (commitUpdate cfg u).run s = (.ok (), t)) :
    copyReg cfg t.flash.mem c.other = some (r.next u) ∧ copyReg cfg t.flash.mem c = some r := by
  subst hr
  obtain ⟨hcm, -⟩ := (commitUpdate_spec hv u hf).ok hrun
  have hcopy := hcm.copy
  have hother := hcm.copyReg_other hv
  rw [ht] at hcopy
  rw [ht, Copy.other_other] at hother
  refine ⟨hcopy.trans (congrArg some hcm.reg), hother.trans hc⟩

/-- A boot adopts the pair of slots of a version 1 image; after the first commit the
other copy holds the changed pair, one generation on. -/
theorem upgrade_commits (env₁ : Env) (u : RegUpdate) (t : Store) (hv : layoutValid cfg)
    (hr : r.InRange 2)
    (hm : m.read (cfg.lay.registryOff c) (imgSize 2) = imageV1 r wear rsvd)
    (ho : ∀ b, copyReg cfg m c.other = some b → b.seqNo < r.seqNo) (he : env.plan = []) :
    let s₁ := sysStep cfg (Sys.cold m) (env, .boot)
    s₁.store.st.reg = r.pair ∧ ((u.apply r.pair).Fits cfg →
      (commitUpdate cfg u).run (s₁.enter env₁).store = (.ok (), t) →
        copyReg cfg t.flash.mem c.other = some (r.pair.next u) ∧
          copyReg cfg t.flash.mem c = some r.pair) := by
  dsimp only
  obtain ⟨hadopt, hmem, -, -⟩ := boot_adopted hv (Sys.cold m) he
  have hc : copyReg cfg m c = some r.pair := copyReg_of_imageV1 hv hr hm
  obtain ⟨hreg, htarget⟩ := hadopt.of_newest hc ho
  generalize sysStep cfg (Sys.cold m) (env, .boot) = s₁ at *
  refine ⟨hreg, fun hf hrun =>
    first_commit (s := (s₁.enter env₁).store) hv hreg htarget ?_ hf hrun⟩
  show copyReg cfg s₁.store.flash.mem c = some r.pair
  rw [hmem]
  exact hc

/-- Registry images between layouts: what one writes is loaded under any other with as
many slots or more, header and records. Registry images between versions: a version 1
image is adopted as its pair of slots, and the first commit writes an image that holds
the changed pair, one generation on, and that the next boot adopts unless the generation
has wrapped. -/
theorem registry_images :
    (∀ (cfg cfg' : Config) (r : Reg) (m : Mem) (c : Copy) (gen wear : UInt32) (sc : Scan),
      layoutValid cfg' → 2 ≤ cfg.lay.slotCount → cfg.lay.slotCount ≤ cfg'.lay.slotCount →
      r.InRange cfg.lay.slotCount →
      (r.prevActive < cfg.lay.slotCount ∨ r.prevActive = slotNone) → Flash.Healthy sc.flash →
      sc.flash.mem = m.put (cfg'.lay.registryOff c) (imageBuild cfg r gen wear) →
      ∃ h sc', (copyLoad cfg' c).run sc = (.ok (some h), sc') ∧ h.wear = wear ∧
        h.reg (unpackRecord sc'.imgBuf) =
          { r.truncate cfg.lay.slotCount with generation := gen }) ∧
    ∀ (cfg : Config) (r : Reg) (m : Mem) (c : Copy) (wear : UInt32) (rsvd : Reserved)
      (env env₁ env₂ : Env) (u : RegUpdate) (t : Store), layoutValid cfg → r.InRange 2 →
      m.read (cfg.lay.registryOff c) (imgSize 2) = imageV1 r wear rsvd →
      (∀ b, copyReg cfg m c.other = some b → b.seqNo < r.seqNo) → env.plan = [] →
      env₂.plan = [] →
      let s₁ := sysStep cfg (Sys.cold m) (env, .boot)
      s₁.store.st.reg = r.pair ∧ ((u.apply r.pair).Fits cfg →
        (commitUpdate cfg u).run (s₁.enter env₁).store = (.ok (), t) →
        copyReg cfg t.flash.mem c.other = some (r.pair.next u) ∧ (r.generation ≠ 0xFFFFFFFF →
          (sysStep cfg { s₁ with store := t } (env₂, .boot)).store.st.reg = r.pair.next u)) := by
  refine ⟨fun cfg cfg' r m c gen wear sc hv h2 hn hr hp hh hm => ?_,
    fun cfg r m c wear rsvd env env₁ env₂ u t hv hr hm ho he he₂ => ?_⟩
  · obtain ⟨hview, hreg⟩ := image_loads hv h2 hn hr hp m c gen wear
    rw [← hm] at hview hreg
    obtain ⟨sc', hrun, hrec⟩ := copyLoad_healthy hv hh hview
    exact ⟨_, sc', hrun, rfl, hrec.trans hreg⟩
  · obtain ⟨hreg, hcommit⟩ := upgrade_commits env₁ u t hv hr hm ho he
    refine ⟨hreg, fun hf hrun => ?_⟩
    obtain ⟨hnew, hold⟩ := hcommit hf hrun
    refine ⟨hnew, fun hg => ?_⟩
    have hb : r.pair.Bounded := by
      have hlt := r.generation.toNat_lt
      have hne : r.generation.toNat ≠ 0xFFFFFFFF := fun h => hg (UInt32.toNat_inj.mp h)
      show r.generation.toNat + 1 < 2 ^ 32
      omega
    obtain ⟨hadopt, -⟩ := boot_adopted hv
      { sysStep cfg (Sys.cold m) (env, .boot) with store := t } he₂
    refine (hadopt.of_newest hnew fun b hb' => ?_).1
    rw [Copy.other_other, hold] at hb'
    cases hb'
    have hnext : (r.pair.next u).seqNo = r.pair.seqNo + 1 := hb.seqNo_succ
    omega

/-- A device that has one model. -/
def oldReg (gen : UInt32) : Reg := ⟨gen, 0, slotNone, slotNone, 1, fun _ => namedModel 65⟩

/-- Its flash, written by version 1. -/
def oldFlash (gen : UInt32) : Mem := erasedMem.put 0 (imageV1 (oldReg gen) 0 ⟨0xFF, 0, 0⟩)

theorem oldReg_inRange (gen : UInt32) : (oldReg gen).InRange 2 where
  active := .inl (show 0 < 2 by decide)
  staged := .inr rfl
  mask := fun s hs => @lt_of_masked 1 2 s (by decide) hs

theorem length_imageV1 : (imageV1 r wear rsvd).length = imgSize 2 := by
  simp [imageV1, length_recordTable, imgSize]

theorem oldFlash_image (gen : UInt32) :
    (oldFlash gen).read (smallDevice.lay.registryOff .zero) (imgSize 2) =
      imageV1 (oldReg gen) 0 ⟨0xFF, 0, 0⟩ := by
  rw [← length_imageV1]
  exact Mem.read_put

theorem oldFlash_other (gen : UInt32) : copyReg smallDevice (oldFlash gen) .one = none := by
  refine copyReg_blank (blank_iff.mpr fun a ha _ => ?_)
  have hl : (imageV1 (oldReg gen) 0 ⟨0xFF, 0, 0⟩).length = 200 := length_imageV1
  have ha : 256 ≤ a := ha
  exact Mem.put_of_ge (by omega)

theorem oldFlash_older (gen : UInt32) (b : Reg)
    (hb : copyReg smallDevice (oldFlash gen) Copy.zero.other = some b) :
    b.seqNo < (oldReg gen).seqNo := by
  rw [show Copy.zero.other = .one from rfl, oldFlash_other] at hb
  cases hb

/-- The first boot of version 2. -/
def upgraded (gen : UInt32) : Sys := sysStep smallDevice (Sys.cold (oldFlash gen)) (quiet, .boot)

theorem upgraded_fits (gen : UInt32) :
    (Reg.clearStaged.apply (oldReg gen).pair).Fits smallDevice :=
  Reg.clearStaged_fits
    (copyReg_fits (copyReg_of_imageV1 smallDevice_valid (oldReg_inRange gen) (oldFlash_image gen)))

/-- Nothing is in the way of the first commit. -/
theorem upgraded_commits (gen : UInt32) : ∃ t,
    (commitUpdate smallDevice Reg.clearStaged).run ((upgraded gen).enter quiet).store =
      (.ok (), t) := by
  obtain ⟨-, -, hon, -⟩ := boot_adopted smallDevice_valid (Sys.cold (oldFlash gen))
    (show quiet.plan = [] from rfl)
  have hreg : ((upgraded gen).enter quiet).store.st.reg = (oldReg gen).pair :=
    (upgrade_commits quiet Reg.clearStaged (Sys.cold erasedMem).store smallDevice_valid
      (oldReg_inRange gen) (oldFlash_image gen) (oldFlash_older gen) rfl).1
  have hspec := commitUpdate_spec smallDevice_valid Reg.clearStaged (hreg ▸ upgraded_fits gen)
  unfold Triple at hspec
  split at hspec
  next t hrun => exact ⟨t, hrun⟩
  next hrun => exact absurd ⟨hon, rfl⟩ hspec.1.not_healthy

/-- The flash of a device with four slots, with what a device with two has written. -/
def movedFlash : Flash :=
  { (Sys.cold erasedMem).store.flash with
    mem := erasedMem.put (fourSlots.lay.registryOff .one) (imageBuild smallDevice (oldReg 7) 9 3)
    powered := true }

theorem registry_images_old :
    (∃ h sc, (copyLoad fourSlots .one).run ⟨movedFlash, []⟩ = (.ok (some h), sc) ∧ h.wear = 3 ∧
        h.reg (unpackRecord sc.imgBuf) = { (oldReg 7).truncate 2 with generation := 9 }) ∧
      (upgraded 7).store.st.reg = (oldReg 7).pair ∧
      ∃ t, (commitUpdate smallDevice Reg.clearStaged).run ((upgraded 7).enter quiet).store =
          (.ok (), t) ∧
        copyReg smallDevice t.flash.mem .one = some ((oldReg 7).pair.next Reg.clearStaged) ∧
        (sysStep smallDevice { upgraded 7 with store := t } (quiet, .boot)).store.st.reg =
          (oldReg 7).pair.next Reg.clearStaged := by
  obtain ⟨t, hrun⟩ := upgraded_commits 7
  obtain ⟨hreg, hcommit⟩ := registry_images.2 smallDevice (oldReg 7) (oldFlash 7) .zero 0
    ⟨0xFF, 0, 0⟩ quiet quiet quiet Reg.clearStaged t smallDevice_valid (oldReg_inRange 7)
    (oldFlash_image 7) (oldFlash_older 7) rfl rfl
  obtain ⟨hnew, hadopted⟩ := hcommit (upgraded_fits 7) hrun
  exact ⟨registry_images.1 smallDevice fourSlots (oldReg 7) erasedMem .one 9 3 ⟨movedFlash, []⟩
    fourSlots_valid (by decide) (by decide) (oldReg_inRange 7) (.inr rfl) ⟨rfl, rfl⟩ rfl, hreg, t,
    hrun, hnew, hadopted (by decide)⟩

/-- The first commit after the last generation is not adopted. -/
theorem upgrade_wraps : ¬∀ (cfg : Config) (r : Reg) (m : Mem) (c : Copy) (wear : UInt32)
    (rsvd : Reserved) (env env₁ env₂ : Env) (u : RegUpdate) (t : Store), layoutValid cfg →
    r.InRange 2 → m.read (cfg.lay.registryOff c) (imgSize 2) = imageV1 r wear rsvd →
    (∀ b, copyReg cfg m c.other = some b → b.seqNo < r.seqNo) → env.plan = [] → env₂.plan = [] →
    (u.apply r.pair).Fits cfg →
    let s₁ := sysStep cfg (Sys.cold m) (env, .boot)
    (commitUpdate cfg u).run (s₁.enter env₁).store = (.ok (), t) →
    (sysStep cfg { s₁ with store := t } (env₂, .boot)).store.st.reg = r.pair.next u := by
  intro hall
  have hv := smallDevice_valid
  have hr := oldReg_inRange 0xFFFFFFFF
  have hm := oldFlash_image 0xFFFFFFFF
  have ho := oldFlash_older 0xFFFFFFFF
  have hfits := upgraded_fits 0xFFFFFFFF
  obtain ⟨t, hrun⟩ := upgraded_commits 0xFFFFFFFF
  have hwrap := hall smallDevice (oldReg 0xFFFFFFFF) (oldFlash 0xFFFFFFFF)
    .zero 0 ⟨0xFF, 0, 0⟩ quiet quiet quiet Reg.clearStaged t hv hr hm ho rfl rfl hfits hrun
  obtain ⟨hnew, hold⟩ := (upgrade_commits quiet Reg.clearStaged t hv hr hm ho
    (show quiet.plan = [] from rfl)).2 hfits hrun
  obtain ⟨hadopt, -⟩ := boot_adopted hv { upgraded 0xFFFFFFFF with store := t }
    (show quiet.plan = [] from rfl)
  -- the boot goes back to what version 1 has written
  have hadopted := (hadopt.of_newest hold fun b hb => ?_).1
  · have h := congrArg Reg.generation (hadopted.symm.trans hwrap)
    exact absurd h (by decide)
  · rw [hnew] at hb
    cases hb
    decide

end SynapticOS
