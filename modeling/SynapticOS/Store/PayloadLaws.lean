import SynapticOS.Store.LayoutLaws
import SynapticOS.Store.Ops

/-!
# Programming and checking a payload

Whatever the faults, the code that fills a slot stays inside the slot, and a
payload whose CRC was read back and compared is what the flash holds.
-/

namespace SynapticOS

open Lib

variable {cfg : Config} {fl fl' : Flash} {off size : Nat} {data : List UInt8}

/-- The flash changed in `[lo, hi)` only. -/
structure Within (lo hi : Nat) (fl fl' : Flash) : Prop where
  mem : Mem.SameOutside lo hi fl.mem fl'.mem
  later : Flash.Later fl fl'

instance : IsPreorder Flash (Within lo hi) where
  refl _ := ⟨Mem.SameOutside.rfl, Std.Refl.refl _⟩
  trans _ _ _ h h' := ⟨h.mem.trans h'.mem, IsTrans.trans _ _ _ h.later h'.later⟩

theorem within_write (p : Port) (h1 : lo ≤ off) (h2 : off + data.length ≤ hi) :
    Respects (Within lo hi) (Flash.write p off data) := by
  intro fl
  have h := (Flash.write_spec p off data fl).and (Triple.of_respects (Flash.write_later p off data) fl)
  unfold Triple at h
  split at h
  · rename_i hr
    obtain ⟨⟨hm, -⟩, hl⟩ := h
    rw [hr]
    refine ⟨?_, hl⟩
    rw [hm]
    exact (Mem.sameOutside_put (Nat.le_refl _)).mono h1 h2
  · rename_i hr
    obtain ⟨⟨n, hn, hm, -⟩, hl⟩ := h
    rw [hr]
    refine ⟨?_, hl⟩
    rw [hm]
    exact (Mem.sameOutside_put (Nat.le_refl _)).mono h1 (by simp only [List.length_take]; omega)

theorem within_read (p : Port) (off len : Nat) : Respects (Within lo hi) (Flash.read p off len) := by
  intro fl
  have h := (Flash.read_spec p off len fl).and (Triple.of_respects (Flash.read_later p off len) fl)
  unfold Triple at h
  split at h
  · rename_i hr
    rw [hr]
    exact ⟨h.1.2.1 ▸ Mem.SameOutside.rfl, h.2⟩
  · rename_i hr
    rw [hr]
    exact ⟨h.1.1 ▸ Mem.SameOutside.rfl, h.2⟩

theorem within_eraseSectors (p : Port) (h1 : lo ≤ off) (h2 : off + len ≤ hi) :
    Respects (Within lo hi) (Flash.eraseSectors p off len) := by
  intro fl
  have h := (Flash.eraseSectors_spec p off len fl).and
    (Triple.of_respects (Flash.eraseSectors_later p off len) fl)
  unfold Triple at h
  split at h
  · rename_i hr
    rw [hr]
    exact ⟨h.1.1.mono h1 h2, h.2⟩
  · rename_i hr
    rw [hr]
    exact ⟨h.1.1.mono h1 h2, h.2⟩

/-- `R` allows reads, and erases and programs in `[lo, hi)`. -/
structure Confines (p : Port) (lo hi : Nat) (R : Flash → Flash → Prop) : Prop where
  read : ∀ off len, Respects R (Flash.read p off len)
  write : ∀ {off data}, lo ≤ off → off + data.length ≤ hi → Respects R (Flash.write p off data)
  erase : ∀ {off len}, lo ≤ off → off + len ≤ hi → Respects R (Flash.eraseSectors p off len)

theorem confines_within (p : Port) (lo hi : Nat) : Confines p lo hi (Within lo hi) where
  read := within_read p
  write := within_write p
  erase := within_eraseSectors p

theorem confines_issued (p : Port) (lo hi : Nat) : Confines p lo hi (Issued lo hi) where
  read off len fl := (Flash.read_untouched p off len fl).issued
  write := issued_write p
  erase := issued_eraseSectors p

-- ---------------------------------------------------------------------------
-- The CRC read back
-- ---------------------------------------------------------------------------

/-- The chunked CRC is the CRC of the whole. -/
theorem payloadCrc_spec (hpiece : 0 < piece) (hrange : off + size ≤ cfg.port.size) (fl : Flash) :
    Triple (payloadCrc cfg piece off size) fl
      (fun crc fl' => crc = crc32Ieee (fl.mem.read off size) ∧ fl'.mem = fl.mem ∧
        Flash.Later fl fl')
      (fun _ fl' => fl'.mem = fl.mem ∧ Flash.Later fl fl' ∧
        (Flash.CutOnly fl → fl'.powered = false)) := by
  unfold payloadCrc
  refine Triple.chunks (fun pos crc fl' => crc = crc32Ieee (fl.mem.read off pos) ∧
    fl'.mem = fl.mem ∧ Flash.Later fl fl') hpiece ?_ size 0 0 fl (Nat.le_add_left size 0) (Nat.zero_le _)
      ⟨(crc32IeeeUpdate_nil 0).symm, rfl, Std.Refl.refl _⟩
  rintro pos crc fl₁ hpos ⟨rfl, hm, hl⟩
  have hn : min piece (size - pos) ≤ size - pos := Nat.min_le_right _ _
  have hn0 : 0 < min piece (size - pos) := by omega
  generalize min piece (size - pos) = n at hn hn0
  refine Triple.bind ((Flash.read_spec cfg.port (off + pos) n fl₁).and
    (Triple.of_respects (Flash.read_later _ _ _) fl₁) |>.mono (fun _ _ h => h) ?_) ?_
  · rintro e fl₂ ⟨⟨hm₂, hcut⟩, hl₂⟩
    exact ⟨hm₂.trans hm, IsTrans.trans _ _ _ hl hl₂, fun hc =>
      hcut ⟨by omega, by omega, by omega⟩ (hc.later hl)⟩
  · rintro bs fl₂ ⟨⟨rfl, hm₂, -⟩, hl₂⟩
    refine Triple.pure' ⟨?_, hm₂.trans hm, IsTrans.trans _ _ _ hl hl₂⟩
    rw [crc32Ieee, crc32Ieee, ← crc32IeeeUpdate_append, hm, Mem.read_add]

-- ---------------------------------------------------------------------------
-- Filling a slot
-- ---------------------------------------------------------------------------

@[simp] theorem length_padTo (len : Nat) (bs : List UInt8) : (padTo len bs).length = max bs.length len := by
  simp only [padTo, List.length_append, List.length_replicate]
  omega

theorem length_slice (b : List UInt8) (h : off + n ≤ b.length) : (slice b off n).length = n := by
  simp only [slice, List.length_take, List.length_drop]
  omega

/-- Rounding up what starts on a page stays below a bound on a page. -/
theorem add_roundUp_le (hp : 0 < p) (ha : a % p = 0) (hb : b % p = 0) (h : a + n ≤ b) :
    a + roundUp n p ≤ b := by
  have hd : p ∣ b - a := Nat.dvd_sub (Nat.dvd_of_mod_eq_zero hb) (Nat.dvd_of_mod_eq_zero ha)
  have := roundUp_le hd (show n ≤ b - a by omega) hp
  omega

section
variable {R : Flash → Flash → Prop} [IsPreorder Flash R]

theorem Confines.writePayload (h : Confines cfg.port off (off + size) R)
    (hfit : synmHdrSize + data.length ≤ size) (hsize : size % cfg.port.pageSize = 0)
    (hbuf : cfg.port.pageSize ∣ ioBufSize)
    (hpos : pos < data.length → (synmHdrSize + pos) % cfg.port.pageSize = 0) :
    Respects R (writePayload cfg off data pos) := by
  have hp := cfg.port.page_pos
  refine Respects.chunks (fun pos => pos < data.length →
    (synmHdrSize + pos) % cfg.port.pageSize = 0) ?_ ?_ _ _ _ hpos
  · intro pos _ hlt hI
    have hn : min ioBufSize (data.length - pos) ≤ data.length - pos := Nat.min_le_right _ _
    generalize min ioBufSize (data.length - pos) = n at hn
    have hle := add_roundUp_le hp (hI hlt) hsize (show synmHdrSize + pos + n ≤ size by omega)
    have hn' := le_roundUp (v := n) hp
    refine h.write (by omega) ?_
    rw [length_padTo, length_slice data (by omega)]
    omega
  · intro pos hlt hI hlt'
    have hmin : min ioBufSize (data.length - pos) = ioBufSize := by omega
    rw [hmin, ← Nat.add_assoc, Nat.add_mod, hI hlt, Nat.mod_eq_zero_of_dvd hbuf]
    simp

theorem Confines.writeImage (h : Confines cfg.port (cfg.lay.slotOff slot)
      (cfg.lay.slotOff slot + cfg.lay.slotSize) R) (hv : layoutValid cfg) (hdr : SynmHdr)
    (hfit : synmHdrSize + data.length ≤ cfg.lay.slotSize) :
    Respects R (writeImage cfg (cfg.lay.slotOff slot) hdr data) := by
  have hp := cfg.port.page_pos
  have hsize : cfg.lay.slotSize % cfg.port.pageSize = 0 := hv.slotSize_page_aligned
  have hhdr := roundUp_le (Nat.dvd_of_mod_eq_zero hsize) (Nat.le_of_lt hv.slot_gt_hdr) hp
  have hge := le_roundUp (v := synmHdrSize) hp
  unfold SynapticOS.writeImage
  dsimp only
  refine Respects.bind (h.write (Nat.le_refl _) ?_) fun _ =>
    h.writePayload hfit hsize hv.page_dvd_buf fun hlt => ?_
  · simp only [length_padTo, List.length_append, SynmHdr.length_bytes, List.length_take]
    omega
  · have hmin : min (roundUp synmHdrSize cfg.port.pageSize - synmHdrSize) data.length =
        roundUp synmHdrSize cfg.port.pageSize - synmHdrSize := by omega
    rw [hmin, Nat.add_sub_cancel' hge]
    exact roundUp_mod _ _

omit [IsPreorder Flash R] in
theorem Confines.eraseSlot (h : Confines cfg.port (cfg.lay.slotOff slot)
      (cfg.lay.slotOff slot + cfg.lay.slotSize) R) (hv : layoutValid cfg)
    (hfit : size ≤ cfg.lay.slotSize) : Respects R
      (Flash.eraseSectors cfg.port (cfg.lay.slotOff slot) (roundUp size cfg.port.sectorSize)) :=
  h.erase (Nat.le_refl _) (Nat.add_le_add_left (roundUp_le
    (Nat.dvd_of_mod_eq_zero hv.slotSize_aligned) hfit cfg.port.sector_pos) _)

theorem Confines.payloadCrc (h : Confines cfg.port lo hi R) (piece off size : Nat) :
    Respects R (payloadCrc cfg piece off size) :=
  Respects.chunks (fun _ => True)
    (fun _ _ _ _ => Respects.bind (h.read _ _) fun _ => Respects.pure' _)
    (fun _ _ _ => trivial) _ _ _ trivial

theorem Confines.installPayload (h : Confines cfg.port (cfg.lay.slotOff slot)
      (cfg.lay.slotOff slot + cfg.lay.slotSize) R) (hv : layoutValid cfg) (info : ModelInfo)
    (hfit : synmHdrSize + data.length ≤ cfg.lay.slotSize) :
    Respects R (installPayload cfg slot info data) :=
  Respects.bind (h.eraseSlot hv hfit) fun _ =>
    Respects.bind (h.writeImage hv _ hfit) fun _ =>
      Respects.bind (h.payloadCrc _ _ _) fun _ =>
        Respects.ite (Respects.throw _) (Respects.pure' _)

end

/-- The whole flash part of `syn_store_install` stays in its slot, and succeeds
only when the payload that landed has the CRC of the data. -/
theorem installPayload_spec (hv : layoutValid cfg) (hs : slot < cfg.lay.slotCount)
    (info : ModelInfo) (hfit : synmHdrSize + data.length ≤ cfg.lay.slotSize) (fl : Flash) :
    Triple (installPayload cfg slot info data) fl
      (fun _ fl' => Within (cfg.lay.slotOff slot) (cfg.lay.slotOff slot + cfg.lay.slotSize) fl fl' ∧
        crc32Ieee (fl'.mem.read (payloadOff cfg slot) data.length) = crc32Ieee data)
      (fun _ fl' =>
        Within (cfg.lay.slotOff slot) (cfg.lay.slotOff slot + cfg.lay.slotSize) fl fl') := by
  have hwin := hv.slot_in_window hs
  have hin := confines_within cfg.port (cfg.lay.slotOff slot)
    (cfg.lay.slotOff slot + cfg.lay.slotSize)
  unfold installPayload
  dsimp only
  refine Triple.bind (Triple.of_respects (hin.eraseSlot hv hfit) fl) ?_
  intro _ fl₁ h₁
  refine Triple.bind (Triple.of_respects (hin.writeImage hv _ hfit) fl₁ |>.mono
    (fun _ _ h => h) fun _ _ h => IsTrans.trans _ _ _ h₁ h) ?_
  intro _ fl₂ h₂
  have h₂ := IsTrans.trans _ _ _ h₁ h₂
  refine Triple.bind (payloadCrc_spec (by decide)
    (show payloadOff cfg slot + data.length ≤ cfg.port.size by simp only [payloadOff]; omega)
    fl₂ |>.mono (fun _ _ h => h) fun _ fl₃ h => IsTrans.trans _ _ _ h₂
      ⟨h.1 ▸ Mem.SameOutside.rfl, h.2.1⟩) ?_
  rintro _ fl₃ ⟨rfl, hm, hl⟩
  have h₃ : Within _ _ fl fl₃ := IsTrans.trans _ _ _ h₂ ⟨hm ▸ Mem.SameOutside.rfl, hl⟩
  refine Triple.ite (fun _ => Triple.throw h₃) (fun hcrc => Triple.pure' ⟨h₃, ?_⟩)
  rw [hm]
  exact not_not.mp hcrc

end SynapticOS
