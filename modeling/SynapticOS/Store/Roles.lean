import SynapticOS.Store.OpsLaws

/-!
# The roles of the slots

`RolesOk` says that the active slot, the rollback pivot and the staged slot are
occupied and different. Every update of an operation keeps it, with one
exception: staging a record over the rollback pivot. A torn image that is
accepted all the same satisfies it too, because a role that was not programmed
reads as none and a mask that was not programmed reads as all ones.
-/

namespace SynapticOS

open Lib

variable {cfg : Config} {s s' : Store} {r x : Reg} {slot i : Nat}

/-- Roles are held by occupied slots, and by different ones. -/
structure RolesOk (cfg : Config) (r : Reg) : Prop where
  active : SlotFits cfg r.activeSlot
  prev : SlotFits cfg r.prevActive
  staged : SlotFits cfg r.stagedSlot
  mask : ∀ i, r.occupied i → i < cfg.lay.slotCount
  active_occupied : r.activeSlot ≠ slotNone → r.occupied r.activeSlot
  prev_occupied : r.prevActive ≠ slotNone → r.occupied r.prevActive
  staged_occupied : r.stagedSlot ≠ slotNone → r.occupied r.stagedSlot
  active_ne_prev : r.activeSlot ≠ slotNone → r.activeSlot ≠ r.prevActive
  active_ne_staged : r.activeSlot ≠ slotNone → r.activeSlot ≠ r.stagedSlot
  prev_ne_staged : r.prevActive ≠ slotNone → r.prevActive ≠ r.stagedSlot

theorem RolesOk.empty (cfg : Config) : RolesOk cfg Reg.empty where
  active := .inl rfl
  prev := .inl rfl
  staged := .inl rfl
  mask i hi := by simp [Reg.occupied, Reg.empty] at hi
  active_occupied h := absurd rfl h
  prev_occupied h := absurd rfl h
  staged_occupied h := absurd rfl h
  active_ne_prev h := absurd rfl h
  active_ne_staged h := absurd rfl h
  prev_ne_staged h := absurd rfl h

/-- Forgetting roles and adding occupied slots keeps the roles in order. -/
theorem RolesOk.weaken (h : RolesOk cfg r) (hf : x.Fits cfg)
    (ha : x.activeSlot = slotNone ∨ x.activeSlot = r.activeSlot)
    (hp : x.prevActive = slotNone ∨ x.prevActive = r.prevActive)
    (hs : x.stagedSlot = slotNone ∨ x.stagedSlot = r.stagedSlot)
    (hm : ∀ i, r.occupied i → x.occupied i) : RolesOk cfg x where
  active := hf.active
  prev := hf.prev
  staged := hf.staged
  mask := hf.mask
  active_occupied hn := by
    have he := ha.resolve_left hn
    rw [he] at hn ⊢
    exact hm _ (h.active_occupied hn)
  prev_occupied hn := by
    have he := hp.resolve_left hn
    rw [he] at hn ⊢
    exact hm _ (h.prev_occupied hn)
  staged_occupied hn := by
    have he := hs.resolve_left hn
    rw [he] at hn ⊢
    exact hm _ (h.staged_occupied hn)
  active_ne_prev hn := by
    have he := ha.resolve_left hn
    rcases hp with hp | hp
    · rw [hp]; exact hn
    · rw [hp, he]; exact h.active_ne_prev (he ▸ hn)
  active_ne_staged hn := by
    have he := ha.resolve_left hn
    rcases hs with hs | hs
    · rw [hs]; exact hn
    · rw [hs, he]; exact h.active_ne_staged (he ▸ hn)
  prev_ne_staged hn := by
    have he := hp.resolve_left hn
    rcases hs with hs | hs
    · rw [hs]; exact hn
    · rw [hs, he]; exact h.prev_ne_staged (he ▸ hn)

theorem RolesOk.of_generation (h : RolesOk cfg r) (g : UInt32) :
    RolesOk cfg { r with generation := g } := { h with }

/-- The records behind a header play no part. -/
theorem RolesOk.of_header {h : StoreHdr} {f g : Nat → ModelInfo} (hr : RolesOk cfg (h.reg f))
    (hf : (h.reg g).Fits cfg) : RolesOk cfg (h.reg g) :=
  hr.weaken hf (.inr rfl) (.inr rfl) (.inr rfl) fun _ hi => hi

-- ---------------------------------------------------------------------------
-- Updates
-- ---------------------------------------------------------------------------

theorem dropSlot_cases (slot v : Nat) : Reg.dropSlot slot v = slotNone ∨
    Reg.dropSlot slot v = v ∧ v ≠ slot := by
  unfold Reg.dropSlot
  split
  · exact .inl rfl
  · exact .inr ⟨rfl, ‹_›⟩

theorem dropSlot_occupied (hn : Reg.dropSlot slot v ≠ slotNone) (h : v ≠ slotNone → r.occupied v) :
    r.occupied (Reg.dropSlot slot v) ∧ Reg.dropSlot slot v ≠ slot := by
  rcases dropSlot_cases slot v with hd | ⟨hd, hne⟩
  · exact absurd hd hn
  · rw [hd] at hn ⊢
    exact ⟨h hn, hne⟩

theorem dropSlot_ne (hn : slot ≠ slotNone) : Reg.dropSlot slot v ≠ slot := by
  rcases dropSlot_cases slot v with h | h
  · rw [h]; exact hn.symm
  · rw [h.1]; exact h.2

namespace RolesOk

theorem evict (h : RolesOk cfg r) (ha : slot ≠ r.activeSlot) :
    RolesOk cfg ((Reg.evict slot).apply r) where
  active := h.active
  prev := Reg.dropSlot_fits h.prev slot
  staged := Reg.dropSlot_fits h.staged slot
  mask i hi := h.mask i (Reg.occupied_evict.mp hi).1
  active_occupied hn := Reg.occupied_evict.mpr ⟨h.active_occupied hn, ha.symm⟩
  prev_occupied hn := Reg.occupied_evict.mpr (dropSlot_occupied hn h.prev_occupied)
  staged_occupied hn := Reg.occupied_evict.mpr (dropSlot_occupied hn h.staged_occupied)
  active_ne_prev hn := by
    show r.activeSlot ≠ Reg.dropSlot slot r.prevActive
    rcases dropSlot_cases slot r.prevActive with hd | ⟨hd, -⟩ <;> rw [hd]
    · exact hn
    · exact h.active_ne_prev hn
  active_ne_staged hn := by
    show r.activeSlot ≠ Reg.dropSlot slot r.stagedSlot
    rcases dropSlot_cases slot r.stagedSlot with hd | ⟨hd, -⟩ <;> rw [hd]
    · exact hn
    · exact h.active_ne_staged hn
  prev_ne_staged hn := by
    show Reg.dropSlot slot r.prevActive ≠ Reg.dropSlot slot r.stagedSlot
    have hn : Reg.dropSlot slot r.prevActive ≠ slotNone := hn
    rcases dropSlot_cases slot r.stagedSlot with hd | ⟨hd, -⟩ <;> rw [hd]
    · exact hn
    · rcases dropSlot_cases slot r.prevActive with hp | ⟨hp, -⟩
      · exact absurd hp hn
      · rw [hp] at hn ⊢
        exact h.prev_ne_staged hn

theorem clearStaged (h : RolesOk cfg r) : RolesOk cfg (Reg.clearStaged.apply r) where
  active := h.active
  prev := h.prev
  staged := .inl rfl
  mask i hi := h.mask i (Reg.occupied_clearStaged.mp hi).1
  active_occupied hn := Reg.occupied_clearStaged.mpr ⟨h.active_occupied hn, h.active_ne_staged hn⟩
  prev_occupied hn := Reg.occupied_clearStaged.mpr ⟨h.prev_occupied hn, h.prev_ne_staged hn⟩
  staged_occupied hn := absurd rfl hn
  active_ne_prev := h.active_ne_prev
  active_ne_staged hn := hn
  prev_ne_staged hn := hn

/-- Staging keeps the roles apart when the slot holds none of the others. -/
theorem markStaged (h : RolesOk cfg r) (h8 : slot < 8) (hs : slot < cfg.lay.slotCount)
    (ha : slot ≠ r.activeSlot) (hp : slot ≠ r.prevActive) (info : ModelInfo) :
    RolesOk cfg ((Reg.markStaged slot info).apply r) where
  active := h.active
  prev := h.prev
  staged := .inr hs
  mask i hi := by
    rcases (Reg.occupied_markStaged h8).mp hi with hi | rfl
    · exact h.mask i hi
    · exact hs
  active_occupied hn := (Reg.occupied_markStaged h8).mpr (.inl (h.active_occupied hn))
  prev_occupied hn := (Reg.occupied_markStaged h8).mpr (.inl (h.prev_occupied hn))
  staged_occupied _ := (Reg.occupied_markStaged h8).mpr (.inr rfl)
  active_ne_prev := h.active_ne_prev
  active_ne_staged _ := ha.symm
  prev_ne_staged _ := hp.symm

theorem activate (h : RolesOk cfg r) (hs : slot < cfg.lay.slotCount) (ho : r.occupied slot)
    (ha : slot ≠ r.activeSlot) (hn : slot ≠ slotNone) :
    RolesOk cfg ((Reg.activate slot).apply r) where
  active := .inr hs
  prev := h.active
  staged := Reg.dropSlot_fits h.staged slot
  mask := h.mask
  active_occupied _ := ho
  prev_occupied := h.active_occupied
  staged_occupied hd := (dropSlot_occupied hd h.staged_occupied).1
  active_ne_prev _ := ha
  active_ne_staged _ := (dropSlot_ne hn).symm
  prev_ne_staged hp := by
    show r.activeSlot ≠ Reg.dropSlot slot r.stagedSlot
    rcases dropSlot_cases slot r.stagedSlot with he | ⟨he, -⟩ <;> rw [he]
    · exact hp
    · exact h.active_ne_staged hp

theorem rollback (h : RolesOk cfg r) (hs : slot < cfg.lay.slotCount) (ho : r.occupied slot)
    (ha : slot ≠ r.activeSlot) (hst : slot ≠ r.stagedSlot) :
    RolesOk cfg ((Reg.rollback slot).apply r) where
  active := .inr hs
  prev := h.active
  staged := h.staged
  mask := h.mask
  active_occupied _ := ho
  prev_occupied := h.active_occupied
  staged_occupied := h.staged_occupied
  active_ne_prev _ := ha
  active_ne_staged _ := hst
  prev_ne_staged := h.active_ne_staged

theorem install (h : RolesOk cfg r) (h8 : slot < 8) (hs : slot < cfg.lay.slotCount)
    (ha : slot ≠ r.activeSlot) (hn : slot ≠ slotNone) (info : ModelInfo) :
    RolesOk cfg ((Reg.install slot info).apply r) := by
  have hprev : ((Reg.install slot info).apply r).prevActive = r.activeSlot := if_neg ha.symm
  have hocc : ∀ i, r.occupied i → ((Reg.install slot info).apply r).occupied i :=
    fun i hi => (Reg.occupied_install h8).mpr (.inl hi)
  exact {
    active := .inr hs
    prev := hprev ▸ h.active
    staged := Reg.dropSlot_fits h.staged slot
    mask := fun i hi => by
      rcases (Reg.occupied_install h8).mp hi with hi | rfl
      · exact h.mask i hi
      · exact hs
    active_occupied := fun _ => (Reg.occupied_install h8).mpr (.inr rfl)
    prev_occupied := fun hp => by
      rw [hprev] at hp ⊢
      exact hocc _ (h.active_occupied hp)
    staged_occupied := fun hd => hocc _ (dropSlot_occupied hd h.staged_occupied).1
    active_ne_prev := fun _ => hprev ▸ ha
    active_ne_staged := fun _ => (dropSlot_ne hn).symm
    prev_ne_staged := fun hp => by
      rw [hprev] at hp ⊢
      show r.activeSlot ≠ Reg.dropSlot slot r.stagedSlot
      rcases dropSlot_cases slot r.stagedSlot with he | ⟨he, -⟩ <;> rw [he]
      · exact hp
      · exact h.active_ne_staged hp }

end RolesOk

/-- A rollback never goes to the staged slot. -/
theorem rollbackTarget_ne_staged (h : RolesOk cfg r) (hp : rollbackTarget cfg r = some i) :
    i ≠ r.stagedSlot := by
  unfold rollbackTarget at hp
  split at hp
  · rename_i hc
    cases hp
    exact h.prev_ne_staged hc.1
  · have hm := List.mem_of_getLast? hp
    simp only [List.mem_filter, decide_eq_true_eq] at hm
    exact hm.2.2.2

-- ---------------------------------------------------------------------------
-- Torn images
-- ---------------------------------------------------------------------------

/-- A byte of a torn image was programmed or is blank. -/
theorem getD_tornMem (img : List UInt8) (h : i < len) (hl : len ≤ img.length) :
    ((tornMem cfg c img n).read (cfg.lay.registryOff c) len).getD i 0 =
      if i < n then img.getD i 0 else erasedByte := by
  have hi : i < ((tornMem cfg c img n).read (cfg.lay.registryOff c) len).length := by simpa using h
  rw [List.getD_eq_getElem _ _ hi, Mem.getElem_read, tornMem]
  by_cases hn : i < n
  · have ht : i < (img.take n).length := by simp only [List.length_take]; omega
    rw [Mem.put_add ht, List.getElem_take, if_pos hn, List.getD_eq_getElem _ _ (by omega)]
  · rw [Mem.put_of_ge (by simp only [List.length_take]; omega), if_neg hn]
    rfl

/-- The header of an image heads the bytes that are programmed. -/
theorem ofBytes_imageBuild (cfg : Config) (r : Reg) (gen wear : UInt32) :
    StoreHdr.ofBytes (imageBuild cfg r gen wear) = r.imageHdr cfg gen wear := by
  rw [imageBuild, imageCore_eq, List.append_assoc]
  exact StoreHdr.ofBytes_bytes _ _

theorem hdrSize_le_imageBuild (cfg : Config) (r : Reg) (gen wear : UInt32) :
    hdrSize ≤ (imageBuild cfg r gen wear).length := by
  rw [length_imageBuild]
  exact (hdrSize_le_imgSize _).trans (le_roundUp cfg.port.page_pos)

theorem StoreHdr.activeSlot_normalize (h : StoreHdr) : h.normalize.activeSlot = h.activeSlot := by
  unfold StoreHdr.normalize; split <;> rfl

theorem StoreHdr.stagedSlot_normalize (h : StoreHdr) : h.normalize.stagedSlot = h.stagedSlot := by
  unfold StoreHdr.normalize; split <;> rfl

theorem StoreHdr.occupiedMask_normalize (h : StoreHdr) :
    h.normalize.occupiedMask = h.occupiedMask := by
  unfold StoreHdr.normalize; split <;> rfl

theorem StoreHdr.prevActive_normalize (h : StoreHdr) :
    h.normalize.prevActive = UInt8.ofNat slotNone ∨ h.normalize.prevActive = h.prevActive := by
  unfold StoreHdr.normalize
  split
  · exact .inl rfl
  · exact .inr rfl

/-- A role byte of a torn image reads as the role or as none. -/
theorem tornRole (hv : layoutValid cfg) (h : SlotFits cfg v) (p : Prop) [Decidable p] :
    (if p then UInt8.ofNat v else erasedByte).toNat = slotNone ∨
      (if p then UInt8.ofNat v else erasedByte).toNat = v := by
  split
  · exact .inr (h.slotOk hv).1
  · exact .inl rfl

/-- A torn image that is accepted has its roles in order. -/
theorem RolesOk.torn (hv : layoutValid cfg) (hf : r.Fits cfg) (h : RolesOk cfg r) {c : Copy}
    {gen wear : UInt32} {n : Nat}
    (hx : copyReg cfg (tornMem cfg c (imageBuild cfg r gen wear) n) c = some x) :
    RolesOk cfg x := by
  have hfx := copyReg_fits hx
  have hlen := hdrSize_le_imageBuild cfg r gen wear
  have himg := ofBytes_imageBuild cfg r gen wear
  simp only [copyReg, Option.map_eq_some_iff] at hx
  obtain ⟨hdr, hview, rfl⟩ := hx
  simp only [copyView] at hview
  generalize imageBuild cfg r gen wear = img at *
  have hbyte : ∀ i < hdrSize, ((tornMem cfg c img n).read (cfg.lay.registryOff c) hdrSize).getD i 0 =
      if i < n then img.getD i 0 else erasedByte := fun i hi => getD_tornMem img hi hlen
  generalize (tornMem cfg c img n).read (cfg.lay.registryOff c) hdrSize = b at hview hbyte
  split at hview
  · cases hview
    have ha : (StoreHdr.ofBytes b).activeSlot = if 16 < n then UInt8.ofNat r.activeSlot else erasedByte :=
      (hbyte 16 (by decide)).trans (by rw [show img.getD 16 0 = UInt8.ofNat r.activeSlot from
        congrArg StoreHdr.activeSlot himg])
    have hs : (StoreHdr.ofBytes b).stagedSlot = if 17 < n then UInt8.ofNat r.stagedSlot else erasedByte :=
      (hbyte 17 (by decide)).trans (by rw [show img.getD 17 0 = UInt8.ofNat r.stagedSlot from
        congrArg StoreHdr.stagedSlot himg])
    have hp : (StoreHdr.ofBytes b).prevActive = if 7 < n then UInt8.ofNat r.prevActive else erasedByte :=
      (hbyte 7 (by decide)).trans (by rw [show img.getD 7 0 = UInt8.ofNat r.prevActive from
        congrArg StoreHdr.prevActive himg])
    have hm : (StoreHdr.ofBytes b).occupiedMask =
        if 18 < n then UInt8.ofBitVec r.occupiedMask else erasedByte :=
      (hbyte 18 (by decide)).trans (by rw [show img.getD 18 0 = UInt8.ofBitVec r.occupiedMask from
        congrArg StoreHdr.occupiedMask himg])
    generalize StoreHdr.ofBytes b = hdr at *
    refine h.weaken hfx ?_ ?_ ?_ ?_
    · rw [StoreHdr.reg, StoreHdr.activeSlot_normalize, ha]
      exact tornRole hv hf.active _
    · rcases StoreHdr.prevActive_normalize hdr with he | he
      · exact .inl (by rw [StoreHdr.reg, he]; rfl)
      · rw [StoreHdr.reg, he, hp]
        exact tornRole hv hf.prev _
    · rw [StoreHdr.reg, StoreHdr.stagedSlot_normalize, hs]
      exact tornRole hv hf.staged _
    · intro i hi
      rw [Reg.occupied, StoreHdr.reg, StoreHdr.occupiedMask_normalize, hm]
      split
      · exact hi
      · have h8 := hf.mask i hi
        have hc := hv.count_le
        have : ∀ j < 8, erasedByte.toBitVec.getLsbD j = true := by decide
        exact this i (by omega)
  · cases hview

end SynapticOS
