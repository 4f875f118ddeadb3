import SynapticOS.Store.Residents

/-!
# Operations on a flash without faults

With power and no fault ahead, an operation that passes its own checks ends well,
unless a suspended job holds the model it wants. `installPayload_faultless` says
which bytes an installation leaves in its slot.
-/

namespace SynapticOS

open Lib

variable {cfg : Config} {s s' : Store} {fl fl' : Flash} {off size slot : Nat} {data : List UInt8}

-- ---------------------------------------------------------------------------
-- Programming an image
-- ---------------------------------------------------------------------------

/-- Padded with erased bytes to whole pages. -/
def padded (cfg : Config) (image : List UInt8) : List UInt8 :=
  padTo (roundUp image.length cfg.port.pageSize) image

theorem length_padded (cfg : Config) (image : List UInt8) :
    (padded cfg image).length = roundUp image.length cfg.port.pageSize := by
  have := le_roundUp (v := image.length) cfg.port.page_pos
  rw [padded, length_padTo]
  omega

/-- Whole pages need no padding, and what follows them is padded by itself. -/
theorem padded_append {front : List UInt8} (h : cfg.port.pageSize ∣ front.length)
    (rest : List UInt8) : padded cfg (front ++ rest) = front ++ padded cfg rest := by
  have hround := roundUp_add cfg.port.page_pos h rest.length
  rw [padded, padded, padTo, padTo, List.length_append, hround, List.append_assoc]
  congr 3
  omega

@[simp] theorem padded_nil (cfg : Config) : padded cfg [] = [] := by
  have hp := cfg.port.page_pos
  have h : roundUp 0 cfg.port.pageSize = 0 := by
    rw [roundUp, Nat.div_eq_of_lt (by omega), Nat.zero_mul]
  rw [padded, List.length_nil, h]
  rfl

theorem slice_add (b : List UInt8) (off n k : Nat) :
    slice b off (n + k) = slice b off n ++ slice b (off + n) k := by
  rw [slice, slice, slice, List.take_add, List.drop_drop]

/-- The flash took `bs` at `off`. -/
structure Took (off : Nat) (bs : List UInt8) (fl fl' : Flash) : Prop where
  mem : fl'.mem = fl.mem.put off bs
  healthy : Flash.Healthy fl'

theorem write_faultless (h : Flash.Healthy fl) (hc : Flash.checkRange cfg.port off data.length)
    (ho : off % cfg.port.pageSize = 0) (hl : data.length % cfg.port.pageSize = 0)
    (he : Erased fl.mem off (off + data.length)) :
    Triple (Flash.write cfg.port off data) fl (fun _ fl' => Took off data fl fl')
      (fun _ _ => False) :=
  Triple.of_run (Flash.write_healthy h hc ho hl he) ⟨rfl, h⟩

theorem eraseSectors_faultless (h : Flash.Healthy fl) (ho : off % cfg.port.sectorSize = 0)
    (hc : Flash.checkRange cfg.port off len ∧ len % cfg.port.sectorSize = 0) :
    Triple (Flash.eraseSectors cfg.port off len) fl
      (fun _ fl' => Mem.SameOutside off (off + len) fl.mem fl'.mem ∧
          Erased fl'.mem off (off + len) ∧
        Flash.Healthy fl') (fun _ _ => False) := by
  refine ((Flash.eraseSectors_spec cfg.port off len fl).and
    (Triple.of_respects (Flash.eraseSectors_later cfg.port off len) fl)).mono ?_ ?_
  · rintro _ fl' ⟨⟨h1, h2, -⟩, hl⟩
    exact ⟨h1, h2, h.later hl⟩
  · rintro _ fl' ⟨⟨-, hcut⟩, hl⟩
    have hoff := hcut hc.1 ho hc.2 h.cutOnly
    have hon := (h.later hl).1
    rw [hoff] at hon
    cases hon

/-- The loop programs the rest of the payload behind the first pages. -/
theorem writePayload_faultless (h : Flash.Healthy fl) (hbuf : cfg.port.pageSize ∣ ioBufSize)
    {pos : Nat} (hpos : pos ≤ data.length)
    (hpage : pos < data.length → (off + synmHdrSize + pos) % cfg.port.pageSize = 0)
    (hend : off + synmHdrSize + pos + roundUp (data.length - pos) cfg.port.pageSize ≤ cfg.port.size)
    (he : Erased fl.mem (off + synmHdrSize + pos)
      (off + synmHdrSize + pos + roundUp (data.length - pos) cfg.port.pageSize)) :
    Triple (writePayload cfg off data pos) fl
      (fun _ fl' => Took (off + synmHdrSize + pos) (padded cfg (data.drop pos)) fl fl')
      (fun _ _ => False) := by
  have hp := cfg.port.page_pos
  have hall : slice data pos (data.length - pos) = data.drop pos := by
    rw [slice, List.take_of_length_le (by simp)]
  refine (Triple.chunks (fun q _ fl' => pos ≤ q ∧ (q < data.length → ioBufSize ∣ q - pos) ∧
      Took (off + synmHdrSize + pos) (padded cfg (slice data pos (q - pos))) fl fl')
    (by decide) ?_ data.length pos () fl (by omega) hpos ?_).mono ?_ (fun _ _ h => h)
  · rintro q _ fl₁ hq ⟨hle, hdvd, htook⟩
    have hdvd := hdvd hq
    have hn : min ioBufSize (data.length - q) ≤ data.length - q := Nat.min_le_right _ _
    have hn0 : 0 < min ioBufSize (data.length - q) := by
      have : 0 < ioBufSize := by decide
      omega
    have hfull : q + min ioBufSize (data.length - q) < data.length →
        min ioBufSize (data.length - q) = ioBufSize := by omega
    generalize min ioBufSize (data.length - q) = n at hn hn0 hfull
    have hfront : (slice data pos (q - pos)).length = q - pos := length_slice _ (by omega)
    have hpg : cfg.port.pageSize ∣ q - pos := hbuf.trans hdvd
    have hslice : slice data pos (q + n - pos) = slice data pos (q - pos) ++ slice data q n := by
      rw [show q + n - pos = (q - pos) + n by omega, slice_add, Nat.add_sub_cancel' hle]
    have hlen : (slice data q n).length = n := length_slice _ (by omega)
    have hpadded : padded cfg (slice data pos (q + n - pos)) =
        slice data pos (q - pos) ++ padded cfg (slice data q n) := by
      rw [hslice, padded_append (by rw [hfront]; exact hpg)]
    have hbefore : padded cfg (slice data pos (q - pos)) = slice data pos (q - pos) := by
      have := @padded_append cfg (slice data pos (q - pos)) (by rw [hfront]; exact hpg) []
      rwa [List.append_nil, padded_nil, List.append_nil] at this
    have hround : roundUp (data.length - pos) cfg.port.pageSize =
        (q - pos) + roundUp (data.length - q) cfg.port.pageSize := by
      rw [← roundUp_add hp hpg]
      congr 1
      omega
    have hmono : roundUp n cfg.port.pageSize ≤ roundUp (data.length - q) cfg.port.pageSize :=
      roundUp_le (dvd_roundUp _ _) (hn.trans (le_roundUp hp)) hp
    have hgen := le_roundUp (v := n) hp
    have hpad : padTo (roundUp n cfg.port.pageSize) (slice data q n) =
        padded cfg (slice data q n) := by
      rw [padded, hlen]
    rw [hpad]
    have hplen := length_padded cfg (slice data q n)
    rw [hlen] at hplen
    refine (write_faultless htook.healthy ?_ ?_ ?_ ?_).mono ?_ (fun _ _ h => h)
    · rw [hplen]
      exact ⟨by omega, by omega, by omega⟩
    · have h0 := hpage (by omega)
      rw [show off + synmHdrSize + q = off + synmHdrSize + pos + (q - pos) by omega, Nat.add_mod,
          h0,
        Nat.mod_eq_zero_of_dvd hpg]
      simp
    · rw [hplen]
      exact roundUp_mod _ _
    · rw [hplen, htook.mem, hbefore]
      intro a h1 h2
      rw [Mem.put_of_ge (by rw [hfront]; omega)]
      exact he a (by omega) (by omega)
    · rintro _ fl₂ ht
      refine ⟨by omega, fun hlt => ?_, ⟨?_, ht.healthy⟩⟩
      · rw [hfull hlt, show q + ioBufSize - pos = (q - pos) + ioBufSize by omega]
        exact Nat.dvd_add hdvd (Nat.dvd_refl _)
      · rw [ht.mem, htook.mem, hpadded, Mem.put_append, hfront, hbefore,
          show off + synmHdrSize + pos + (q - pos) = off + synmHdrSize + q by omega]
  · refine ⟨Nat.le_refl _, fun _ => by simp, ⟨?_, h⟩⟩
    simp [slice]
  · rintro _ fl' ⟨-, -, ht⟩
    rwa [hall] at ht

/-- Header pages and payload make one run of padded bytes. -/
theorem writeImage_faultless (hv : layoutValid cfg) (h : Flash.Healthy fl) (hdr : SynmHdr)
    (ho : off % cfg.port.pageSize = 0)
    (hend : off + roundUp (synmHdrSize + data.length) cfg.port.pageSize ≤ cfg.port.size)
    (he : Erased fl.mem off (off + roundUp (synmHdrSize + data.length) cfg.port.pageSize)) :
    Triple (writeImage cfg off hdr data) fl
      (fun _ fl' => Took off (padded cfg (hdr.bytes ++ data)) fl fl') (fun _ _ => False) := by
  have hp := cfg.port.page_pos
  have hhdr := le_roundUp (v := synmHdrSize) hp
  have hsize := le_roundUp (v := synmHdrSize + data.length) hp
  have hmono : roundUp synmHdrSize cfg.port.pageSize ≤
      roundUp (synmHdrSize + data.length) cfg.port.pageSize :=
    roundUp_le (dvd_roundUp _ _) (by omega) hp
  have hdvd := dvd_roundUp synmHdrSize cfg.port.pageSize
  unfold writeImage
  dsimp only
  generalize hH : roundUp synmHdrSize cfg.port.pageSize = H at hhdr hmono hdvd
  have hlead : min (H - synmHdrSize) data.length ≤ data.length := Nat.min_le_right _ _
  have hlead' : min (H - synmHdrSize) data.length ≤ H - synmHdrSize := Nat.min_le_left _ _
  have hfull : min (H - synmHdrSize) data.length < data.length →
      synmHdrSize + min (H - synmHdrSize) data.length = H := by omega
  generalize min (H - synmHdrSize) data.length = lead at hlead hlead' hfull
  have hfront : (hdr.bytes ++ data.take lead).length = synmHdrSize + lead := by
    rw [List.length_append, SynmHdr.length_bytes, List.length_take, Nat.min_eq_left hlead]
  have hlen : (padTo H (hdr.bytes ++ data.take lead)).length = H := by
    rw [length_padTo, hfront]
    omega
  have hH0 : 0 < H := by
    have : 0 < synmHdrSize := by decide
    omega
  refine Triple.bind (write_faultless h ?_ ho ?_ ?_) ?_
  · rw [hlen]
    exact ⟨by omega, by omega, by omega⟩
  · rw [hlen]
    exact Nat.mod_eq_zero_of_dvd hdvd
  · rw [hlen]
    exact he.mono (Nat.le_refl _) (by omega)
  rintro _ fl₁ h₁
  rcases Nat.lt_or_ge lead data.length with hlt | hge
  · -- the header pages are full, the payload goes on behind them
    have hf := hfull hlt
    have hpad : padTo H (hdr.bytes ++ data.take lead) = hdr.bytes ++ data.take lead := by
      rw [padTo, hfront, hf, Nat.sub_self, List.replicate_zero, List.append_nil]
    have hpadded : padded cfg (hdr.bytes ++ data) =
        (hdr.bytes ++ data.take lead) ++ padded cfg (data.drop lead) := by
      rw [← padded_append (by rw [hfront, hf]; exact hdvd), List.append_assoc,
          List.take_append_drop]
    have hround : roundUp (synmHdrSize + data.length) cfg.port.pageSize =
        H + roundUp (data.length - lead) cfg.port.pageSize := by
      rw [← roundUp_add hp hdvd]
      congr 1
      omega
    refine (writePayload_faultless h₁.healthy hv.page_dvd_buf hlead (fun _ => ?_)
        (by omega) ?_).mono
      ?_ (fun _ _ h => h)
    · rw [Nat.add_assoc, hf, Nat.add_mod, ho, Nat.mod_eq_zero_of_dvd hdvd]
      simp
    · rw [h₁.mem]
      intro a h1 h2
      rw [Mem.put_of_ge (by rw [hlen]; omega)]
      exact he a (by omega) (by omega)
    · rintro _ fl₂ h₂
      refine ⟨?_, h₂.healthy⟩
      rw [h₂.mem, h₁.mem, hpadded, Mem.put_append, hfront, hpad, Nat.add_assoc]
  · -- the whole payload is in the header pages
    have hall : lead = data.length := by omega
    have hround : roundUp (synmHdrSize + data.length) cfg.port.pageSize = H :=
      Nat.le_antisymm (roundUp_le hdvd (by omega) hp) hmono
    have hpadded : padded cfg (hdr.bytes ++ data) = padTo H (hdr.bytes ++ data.take lead) := by
      rw [padded, hall, List.take_length, List.length_append, SynmHdr.length_bytes, hround]
    refine (writePayload_faultless h₁.healthy hv.page_dvd_buf hlead
        (fun hlt => by omega) ?_ ?_).mono
      ?_ (fun _ _ h => h)
    · rw [hall, Nat.sub_self, roundUp, Nat.div_eq_of_lt (by omega), Nat.zero_mul]
      omega
    · rw [hall, Nat.sub_self, roundUp, Nat.div_eq_of_lt (by omega), Nat.zero_mul]
      exact fun a h1 h2 => by omega
    · rintro _ fl₂ h₂
      refine ⟨?_, h₂.healthy⟩
      rw [h₂.mem, hall, List.drop_length, padded_nil, Mem.put_nil, h₁.mem, hpadded, hall]

/-- The first bytes of a region are `bs`, and an erase of whole sectors left the
rest of its last sector blank. -/
structure Imaged (cfg : Config) (off : Nat) (bs : List UInt8) (fl fl' : Flash) : Prop where
  image : fl'.mem.read off (padded cfg bs).length = padded cfg bs
  blank : Erased fl'.mem (off + (padded cfg bs).length)
    (off + roundUp bs.length cfg.port.sectorSize)
  outside : Mem.SameOutside off (off + roundUp bs.length cfg.port.sectorSize) fl.mem fl'.mem

theorem padded_le_sectors (cfg : Config) (bs : List UInt8) :
    (padded cfg bs).length ≤ roundUp bs.length cfg.port.sectorSize := by
  rw [length_padded]
  exact roundUp_le (cfg.port.page_dvd_sector.trans (dvd_roundUp _ _))
      (le_roundUp cfg.port.sector_pos)
    cfg.port.page_pos

/-- Programming the pages of an erased region. -/
theorem Took.imaged {fl₁ : Flash} {bs : List UInt8} (h : Took off (padded cfg bs) fl₁ fl')
    (he : Erased fl₁.mem off (off + roundUp bs.length cfg.port.sectorSize))
    (ho : Mem.SameOutside off (off + roundUp bs.length cfg.port.sectorSize) fl.mem fl₁.mem) :
    Imaged cfg off bs fl fl' where
  image := by
    have hr : (fl₁.mem.put off (padded cfg bs)).read off (padded cfg bs).length = _ :=
      Mem.read_put_take (Nat.le_refl _)
    rw [h.mem, hr, List.take_length]
  blank := by
    rw [h.mem]
    intro a h1 h2
    rw [Mem.put_of_ge h1]
    exact he a (by omega) h2
  outside := by
    rw [h.mem]
    refine ho.trans (Mem.sameOutside_put ?_)
    exact Nat.add_le_add_left (padded_le_sectors cfg bs) off

/-- The flash part of `syn_store_install`. -/
theorem installPayload_faultless (hv : layoutValid cfg) (h : Flash.Healthy fl)
    (hs : slot < cfg.lay.slotCount) (info : ModelInfo)
    (hfit : synmHdrSize + data.length ≤ cfg.lay.slotSize) :
    Triple (installPayload cfg slot info data) fl
      (fun _ fl' => Imaged cfg (cfg.lay.slotOff slot)
          ((installHdr info data).bytes ++ data) fl fl' ∧
        Flash.Healthy fl') (fun _ _ => False) := by
  have hwin := hv.slot_in_window hs
  have hlen : ((installHdr info data).bytes ++ data).length = synmHdrSize + data.length := by
    rw [List.length_append, SynmHdr.length_bytes]
  have hsec := roundUp_le (Nat.dvd_of_mod_eq_zero hv.slotSize_aligned) hfit cfg.port.sector_pos
  have hpage := roundUp_le (Nat.dvd_of_mod_eq_zero hv.slotSize_page_aligned) hfit cfg.port.page_pos
  have hple := padded_le_sectors cfg ((installHdr info data).bytes ++ data)
  rw [length_padded, hlen] at hple
  unfold installPayload
  dsimp only
  refine Triple.bind (eraseSectors_faultless h (hv.slot_aligned hs) ?_) ?_
  · have hge := le_roundUp (v := synmHdrSize + data.length) cfg.port.sector_pos
    have : 0 < synmHdrSize := by decide
    exact ⟨⟨by omega, by omega, by omega⟩, roundUp_mod _ _⟩
  rintro _ fl₁ ⟨ho, he, h₁⟩
  refine Triple.bind (writeImage_faultless hv h₁ _ (hv.slot_page_aligned hs) (by omega)
    (he.mono (Nat.le_refl _) (by omega))) ?_
  intro _ fl₂ h₂
  have himg : Imaged cfg (cfg.lay.slotOff slot) ((installHdr info data).bytes ++ data) fl fl₂ :=
    h₂.imaged (by rw [hlen]; exact he) (by rw [hlen]; exact ho)
  refine Triple.bind ((payloadCrc_spec (by decide)
    (show payloadOff cfg slot + data.length ≤ cfg.port.size by simp only [payloadOff]; omega)
    fl₂).mono (fun _ _ h => h) fun _ fl₃ h => ?_) ?_
  · have hoff := h.2.2 h₂.healthy.cutOnly
    have hon := (h₂.healthy.later h.2.1).1
    rw [hoff] at hon
    cases hon
  rintro _ fl₃ ⟨rfl, hm, hl⟩
  have hread : fl₂.mem.read (payloadOff cfg slot) data.length = data := by
    have hle := le_roundUp (v := synmHdrSize + data.length) cfg.port.page_pos
    have hsl := congrArg (fun bs => slice bs synmHdrSize data.length) himg.image
    rw [slice_read _ _ (by rw [length_padded, hlen]; omega)] at hsl
    rw [payloadOff, hsl, padded, padTo, List.append_assoc,
      slice_right_zero (SynmHdr.length_bytes _), slice_front rfl]
  rw [hread, if_neg (by simp)]
  exact Triple.pure' ⟨⟨hm ▸ himg.image, hm ▸ himg.blank, hm ▸ himg.outside⟩, h₂.healthy.later hl⟩

-- ---------------------------------------------------------------------------
-- Operations
-- ---------------------------------------------------------------------------

/-- Powered and ready, no fault ahead, no job suspended, the registry in its layout. -/
structure Calm (cfg : Config) (s : Store) : Prop where
  healthy : Flash.Healthy s.flash
  ready : s.st.ready = true
  idle : ∀ h, s.models.suspended h = false
  fits : s.st.reg.Fits cfg

theorem Calm.not_busy (h : Calm cfg s) (cur : Nat) : ¬NpuBusy cfg cur s := by
  rintro ⟨hd, -, hs⟩
  simp [h.idle hd] at hs

theorem Calm.unregisters (h : Calm cfg s) (slot : Nat) (e : Errno) (m : Models) :
    ¬Unregisters cfg slot s (.error e) m := by
  intro hu
  have hrun := ramUnregister_run cfg.maxModels (s.st.reg.record slot) s.models
  unfold Unregisters at hu
  split at hrun
  next => rw [hrun] at hu; cases hu
  next hd _ =>
    rw [h.idle hd, if_neg (by decide)] at hrun
    obtain ⟨m', hr, -⟩ := hrun
    rw [hr] at hu
    cases hu

theorem storeBeginStaging_calm (hv : layoutValid cfg) (h : Calm cfg s)
    (hs : slot < cfg.lay.slotCount) (ha : slot ≠ s.st.reg.activeSlot) :
    Triple (storeBeginStaging cfg slot) s (fun _ s' => Freed cfg slot s s') (fun _ _ => False) := by
  unfold storeBeginStaging
  refine Triple.gets_bind ?_
  rw [if_neg (by simp [h.ready]; omega), if_neg ha]
  refine Triple.ite (fun ho => Triple.pure' (.inl ⟨ho, ha, hs, rfl⟩)) (fun ho => ?_)
  refine (evictLocked_spec hv h.fits slot).mono (fun _ _ hc => .inr ⟨⟨hs, ha, not_not.mp ho⟩, hc⟩)
      ?_
  rintro e s' (⟨hu, -⟩ | ⟨-, hc⟩)
  · exact h.unregisters slot e _ hu
  · exact hc.not_healthy h.healthy

theorem storeMarkStaged_calm (hv : layoutValid cfg) (h : Calm cfg s)
    (hs : slot < cfg.lay.slotCount) (ha : slot ≠ s.st.reg.activeSlot) (info : ModelInfo) :
    Triple (storeMarkStaged cfg slot info) s
      (fun _ s' => CommitsTo cfg (Reg.markStaged slot info) s s') (fun _ _ => False) := by
  refine (storeMarkStaged_spec hv h.fits slot info).mono (fun _ _ h => h.2) ?_
  rintro _ s' (⟨hn, -⟩ | ⟨-, hc⟩)
  · exact ha (hn h.ready hs)
  · exact hc.toAborted.not_healthy h.healthy

theorem storeActivate_calm (hv : layoutValid cfg) (h : Calm cfg s)
    (ho : s.st.reg.occupied slot) (ha : slot ≠ s.st.reg.activeSlot) :
    Triple (storeActivate cfg slot) s
      (fun _ s' => Committed cfg ((Reg.activate slot).apply s.st.reg) s s') (fun _ _ => False) := by
  have hs := h.fits.mask slot ho
  unfold storeActivate activateLocked
  refine Triple.gets_bind ?_
  rw [if_neg (by simp [h.ready]; omega), if_neg (not_not.mpr ho), if_neg ha]
  refine Triple.gets_bind ?_
  refine (switchActive_exact hv _ slot _ (Reg.activate_fits h.fits hs)).mono (fun _ _ h => h.2.1) ?_
  rintro _ s' (⟨hb, -⟩ | ⟨-, hc, -⟩)
  · exact h.not_busy _ hb
  · exact hc.not_healthy h.healthy

theorem storeRollback_calm (hv : layoutValid cfg) (h : Calm cfg s)
    (ht : rollbackTarget cfg s.st.reg = some slot) :
    Triple (storeRollback cfg) s
      (fun _ s' => Committed cfg ((Reg.rollback slot).apply s.st.reg) s s') (fun _ _ => False) := by
  have hs := (rollbackTarget_spec h.fits ht).1
  unfold storeRollback rollbackLocked
  refine Triple.gets_bind ?_
  rw [if_neg (by simp [h.ready])]
  refine Triple.gets_bind ?_
  simp only [ht]
  refine (switchActive_exact hv _ slot _ (Reg.rollback_fits h.fits hs)).mono (fun _ _ h => h.2.1) ?_
  rintro _ s' (⟨hb, -⟩ | ⟨-, hc, -⟩)
  · exact h.not_busy _ hb
  · exact hc.not_healthy h.healthy

end SynapticOS
