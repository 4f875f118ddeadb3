import SynapticOS.Store.Types

/-!
# What `layout_validate` guarantees

Every region of an accepted layout is sector-aligned and inside the window,
and two regions never overlap. The 32-bit sums of the overlap test do not wrap
on an accepted layout, because every region has been range-checked.
-/

namespace SynapticOS

open Lib

theorem le_roundUp (h : 0 < align) : v ≤ roundUp v align := by
  have h1 := Nat.div_add_mod (v + align - 1) align
  have h2 := Nat.mod_lt (v + align - 1) h
  rw [roundUp, Nat.mul_comm]
  omega

theorem dvd_roundUp (v align : Nat) : align ∣ roundUp v align := Nat.dvd_mul_left _ _

theorem roundUp_mod (v align : Nat) : roundUp v align % align = 0 :=
  Nat.mod_eq_zero_of_dvd (dvd_roundUp v align)

theorem roundUp_le (h : align ∣ bound) (hv : v ≤ bound) (ha : 0 < align) : roundUp v align ≤ bound := by
  obtain ⟨k, rfl⟩ := h
  have : (v + align - 1) / align ≤ k := by
    rw [Nat.div_le_iff_le_mul_add_pred ha]
    omega
  rw [roundUp, Nat.mul_comm]
  exact Nat.mul_le_mul_left align this

theorem align_le_roundUp (hv : 0 < v) (h : 0 < align) : align ≤ roundUp v align :=
  Nat.le_of_dvd (Nat.lt_of_lt_of_le hv (le_roundUp h)) (dvd_roundUp v align)

theorem roundUp_add {align w : Nat} (ha : 0 < align) (hw : align ∣ w) (m : Nat) :
    roundUp (w + m) align = w + roundUp m align := by
  obtain ⟨k, rfl⟩ := hw
  have h : align * k + m + align - 1 = align * k + (m + align - 1) := by omega
  rw [roundUp, roundUp, h, Nat.mul_add_div ha, Nat.add_mul, Nat.mul_comm k]

theorem imgSize_pos (slots : Nat) : 0 < imgSize slots := by simp [imgSize, hdrSize]

theorem imgSize_mono (h : a ≤ b) : imgSize a ≤ imgSize b := by
  simp only [imgSize]
  have := Nat.mul_le_mul_right infoSize h
  omega

/-- Two regions share no byte. -/
def Apart (r q : Nat × Nat) : Prop := r.1 + r.2 ≤ q.1 ∨ q.1 + q.2 ≤ r.1

namespace layoutValid

variable {cfg : Config} (h : layoutValid cfg)
include h

theorem count_ge : 2 ≤ cfg.lay.slotCount := h.1

theorem count_le : cfg.lay.slotCount ≤ 8 := h.2.1.trans cfg.maxSlots_le

theorem slot_ne_none (hs : s < cfg.lay.slotCount) : s ≠ slotNone := by
  have := h.count_le
  simp only [slotNone]
  omega

theorem image_fits : roundUp (imgSize cfg.lay.slotCount) cfg.port.pageSize ≤ cfg.lay.registrySize :=
  h.2.2.2.2.1

theorem imgSize_le (hs : slots ≤ cfg.lay.slotCount) : imgSize slots ≤ cfg.lay.registrySize :=
  (imgSize_mono hs).trans ((le_roundUp cfg.port.page_pos).trans h.image_fits)

theorem page_le_registry : cfg.port.pageSize ≤ cfg.lay.registrySize :=
  (align_le_roundUp (imgSize_pos _) cfg.port.page_pos).trans h.image_fits

theorem slot_gt_hdr : synmHdrSize < cfg.lay.slotSize := h.2.2.2.2.2.1

theorem page_dvd_buf : cfg.port.pageSize ∣ ioBufSize := Nat.dvd_of_mod_eq_zero h.2.2.2.2.2.2.2.1

theorem region (hr : r ∈ cfg.lay.regions) :
    r.1 % cfg.port.sectorSize = 0 ∧ r.2 % cfg.port.sectorSize = 0 ∧ r.1 + r.2 ≤ cfg.port.size := by
  obtain ⟨h1, h2, h3, h4⟩ := h.2.2.2.2.2.2.2.2.1 r hr
  exact ⟨h1, h2, by omega⟩

theorem regions_apart : cfg.lay.regions.Pairwise Apart := by
  refine h.2.2.2.2.2.2.2.2.2.imp_of_mem ?_
  intro r q hr hq hrq
  have hw := cfg.port.window
  have h1 := (h.region hr).2.2
  have h2 := (h.region hq).2.2
  have e1 : add32 r.1 r.2 = r.1 + r.2 := Nat.mod_eq_of_lt (by omega)
  have e2 : add32 q.1 q.2 = q.1 + q.2 := Nat.mod_eq_of_lt (by omega)
  rw [e1, e2] at hrq
  simp only [Apart]
  omega

-- ---------------------------------------------------------------------------
-- Registry copies
-- ---------------------------------------------------------------------------

omit h in
theorem copy_mem (c : Copy) : (cfg.lay.registryOff c, cfg.lay.registrySize) ∈ cfg.lay.regions := by
  cases c <;> simp [Layout.regions]

theorem copy_aligned (c : Copy) : cfg.lay.registryOff c % cfg.port.sectorSize = 0 :=
  (h.region (copy_mem c)).1

theorem registrySize_aligned : cfg.lay.registrySize % cfg.port.sectorSize = 0 :=
  (h.region (copy_mem .zero)).2.1

theorem copy_page_aligned (c : Copy) : cfg.lay.registryOff c % cfg.port.pageSize = 0 :=
  Nat.mod_eq_zero_of_dvd
    (cfg.port.page_dvd_sector.trans (Nat.dvd_of_mod_eq_zero (h.copy_aligned c)))

theorem copy_in_window (c : Copy) : cfg.lay.registryOff c + cfg.lay.registrySize ≤ cfg.port.size :=
  (h.region (copy_mem c)).2.2

theorem copies_apart (c : Copy) : Apart (cfg.lay.registryOff c, cfg.lay.registrySize)
    (cfg.lay.registryOff c.other, cfg.lay.registrySize) := by
  have hp := h.regions_apart
  simp only [Layout.regions, List.cons_append, List.pairwise_cons] at hp
  have h01 := hp.1 (cfg.lay.registryOff .one, cfg.lay.registrySize) (by simp)
  cases c
  · exact h01
  · exact h01.symm

theorem sector_le_registry : cfg.port.sectorSize ≤ cfg.lay.registrySize :=
  Nat.le_of_dvd (Nat.pos_of_ne_zero h.2.2.1) (Nat.dvd_of_mod_eq_zero h.registrySize_aligned)

-- ---------------------------------------------------------------------------
-- Slots
-- ---------------------------------------------------------------------------

omit h in
theorem slot_mem (hs : s < cfg.lay.slotCount) : (cfg.lay.slotOff s, cfg.lay.slotSize) ∈ cfg.lay.regions := by
  simp only [Layout.regions, List.mem_append, List.mem_map, List.mem_range]
  exact .inr ⟨s, hs, rfl⟩

theorem slot_aligned (hs : s < cfg.lay.slotCount) : cfg.lay.slotOff s % cfg.port.sectorSize = 0 :=
  (h.region (slot_mem hs)).1

theorem slotSize_aligned : cfg.lay.slotSize % cfg.port.sectorSize = 0 := by
  have hs : 0 < cfg.lay.slotCount := by have := h.count_ge; omega
  exact (h.region (slot_mem hs)).2.1

theorem slotSize_page_aligned : cfg.lay.slotSize % cfg.port.pageSize = 0 :=
  Nat.mod_eq_zero_of_dvd
    (cfg.port.page_dvd_sector.trans (Nat.dvd_of_mod_eq_zero h.slotSize_aligned))

theorem slot_page_aligned (hs : s < cfg.lay.slotCount) : cfg.lay.slotOff s % cfg.port.pageSize = 0 :=
  Nat.mod_eq_zero_of_dvd
    (cfg.port.page_dvd_sector.trans (Nat.dvd_of_mod_eq_zero (h.slot_aligned hs)))

theorem slot_in_window (hs : s < cfg.lay.slotCount) : cfg.lay.slotOff s + cfg.lay.slotSize ≤ cfg.port.size :=
  (h.region (slot_mem hs)).2.2

theorem copy_slot_apart (c : Copy) (hs : s < cfg.lay.slotCount) :
    Apart (cfg.lay.registryOff c, cfg.lay.registrySize) (cfg.lay.slotOff s, cfg.lay.slotSize) := by
  have hp := h.regions_apart
  simp only [Layout.regions, List.cons_append, List.nil_append, List.pairwise_cons] at hp
  have hm : (cfg.lay.slotOff s, cfg.lay.slotSize) ∈
      (List.range cfg.lay.slotCount).map fun s => (cfg.lay.slotOff s, cfg.lay.slotSize) :=
    List.mem_map.mpr ⟨s, List.mem_range.mpr hs, rfl⟩
  cases c
  · exact hp.1 _ (List.mem_cons_of_mem _ hm)
  · exact hp.2.1 _ hm

theorem slots_apart (hs : s < cfg.lay.slotCount) (ht : t < cfg.lay.slotCount) (hne : s ≠ t) :
    Apart (cfg.lay.slotOff s, cfg.lay.slotSize) (cfg.lay.slotOff t, cfg.lay.slotSize) := by
  have hp := h.regions_apart
  simp only [Layout.regions, List.cons_append, List.nil_append, List.pairwise_cons,
    List.pairwise_map] at hp
  have hr : ∀ i j, i < j → j < cfg.lay.slotCount →
      Apart (cfg.lay.slotOff i, cfg.lay.slotSize) (cfg.lay.slotOff j, cfg.lay.slotSize) := by
    intro i j hij hj
    have := List.pairwise_iff_getElem.mp hp.2.2 i j (by simp; omega) (by simpa using hj) hij
    rwa [List.getElem_range, List.getElem_range] at this
  rcases Nat.lt_or_gt_of_ne hne with hlt | hlt
  · exact hr s t hlt ht
  · exact (hr t s hlt hs).symm

end layoutValid

end SynapticOS
