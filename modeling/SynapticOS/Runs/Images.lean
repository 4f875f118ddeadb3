import SynapticOS.Runs.Payloads
import SynapticOS.Store.Faultless
import Mathlib.Data.List.TakeWhile

/-!
# What a session accepts

On a flash without faults a session ends in READY just when its chunks, put
together, are an image of the name and the size that it was begun with. The header
is captured, the pages are filled and the bytes are counted independently of each
other; `Streaming` says of all three that they are those of the bytes so far.
-/

namespace SynapticOS

open Lib

variable {cfg : Config} {s s' s₁ : Sys} {name image data : List UInt8} {total slot : Nat}

-- ---------------------------------------------------------------------------
-- Images
-- ---------------------------------------------------------------------------

/-- The first bytes as they stand in the header buffer. -/
def captured (image : List UInt8) : List UInt8 :=
  image.take synmHdrSize ++ List.replicate (synmHdrSize - image.length) 0

def imageHdr (image : List UInt8) : SynmHdr := SynmHdr.ofBytes (image.take synmHdrSize)

/-- A packaged model of this name and size. -/
structure WellFormed (name : List UInt8) (total : Nat) (image : List UInt8) : Prop where
  length : image.length = total
  magic : (imageHdr image).magic = synmMagic
  version : (imageHdr image).version = synmVersion
  modelSize : (imageHdr image).modelSize.toNat = total - synmHdrSize
  name : (imageHdr image).cname = name
  crc : (imageHdr image).crc32 = crc32Ieee (image.drop synmHdrSize)

theorem captured_of_le (h : synmHdrSize ≤ image.length) :
    captured image = image.take synmHdrSize := by
  rw [captured, Nat.sub_eq_zero_of_le h]
  simp

theorem take_append_of_le {n : Nat} (h : n ≤ image.length) (data : List UInt8) :
    (image ++ data).take n = image.take n := List.take_append_of_le_length h

theorem hdrCheck_iff {hdr : SynmHdr} {n : Vector UInt8 32} :
    hdrCheck hdr n total = .ok () ↔ hdr.magic = synmMagic ∧ hdr.version = synmVersion ∧
      hdr.modelSize.toNat = total - synmHdrSize ∧ hdr.cname = n.toList.takeWhile (· ≠ 0) := by
  refine ⟨hdrCheck_ok, fun ⟨h1, h2, h3, h4⟩ => ?_⟩
  unfold hdrCheck
  rw [if_neg (by simp [h1, h2]), if_neg (by simp [h3]), if_neg (by simp [h4])]

/-- A name that is a C string of at most 31 bytes survives packing. -/
theorem packName_cname (hz : 0 ∉ name) (hl : name.length ≤ 31) :
    (packName name).toList.takeWhile (· ≠ 0) = name := by
  have hall : name.takeWhile (· ≠ 0) = name := by
    rw [List.takeWhile_eq_self_iff]
    intro x hx
    simp only [ne_eq, decide_not, Bool.not_eq_eq_eq_not, Bool.not_true, decide_eq_false_iff_not]
    rintro rfl
    exact hz hx
  have hlist : (packName name).toList = name ++ List.replicate (32 - name.length) 0 := by
    unfold packName
    rw [hall, List.take_of_length_le hl]
    apply List.ext_getElem
    · simp
      omega
    intro i h1 h2
    simp only [bytesAt, Vector.getElem_toList, Vector.getElem_ofFn, Nat.zero_add]
    by_cases hi : i < name.length
    · rw [List.getElem_append_left hi, List.getD_eq_getElem _ _ hi]
    · rw [List.getElem_append_right (Nat.le_of_not_lt hi),
        List.getD_eq_default _ _ (Nat.le_of_not_lt hi)]
      simp
  rw [hlist]
  obtain ⟨k, hk⟩ : ∃ k, 32 - name.length = k + 1 := ⟨31 - name.length, by omega⟩
  rw [hk, List.replicate_succ, List.takeWhile_append_of_pos]
  · simp
  · intro x hx
    simp only [ne_eq, decide_not, Bool.not_eq_eq_eq_not, Bool.not_true, decide_eq_false_iff_not]
    rintro rfl
    exact hz hx

-- ---------------------------------------------------------------------------
-- The registry fits in every run
-- ---------------------------------------------------------------------------

def Fitting (cfg : Config) (s : Sys) : Prop := Holds cfg (fun _ t => t.st.reg.Fits cfg) s

theorem fits_keeps (cfg : Config) :
    Keeps cfg (fun _ s => s.st.reg.Fits cfg) (fun _ _ => True) (fun _ _ _ => True) where
  fits h := h
  ram h hd := hd.st ▸ h
  fill h _ _ hf := ⟨hf.st ▸ h, trivial⟩
  commit _ hf _ hc := hc.reg ▸ hf.of_generation _
  abort h _ _ ha := ha.reg ▸ h
  session _ _ := trivial
  close h _ := h
  start h _ := h

theorem fitting_step {x : Env × Op} (hv : layoutValid cfg) (h : Fitting cfg s) :
    Fitting cfg (sysStep cfg s x) := by
  refine sysStep_ends (fun _ => ?_) (fun hop _ => ?_) (fun _ => h)
  · refine Ends.zoom ((Ends.of_triple (storeInit_spec hv rfl) ?_ ?_).mono
      fun t ht => ⟨ht, OtaOk.zero cfg⟩)
    · exact fun _ _ hb => hb.header.fits
    · exact fun _ _ hb => hb.header.fits
  · have henter : Fitting cfg (s.enter x.1) := ⟨h.store, h.ota⟩
    refine (fits_keeps cfg).exec hv henter hop ?_
    cases x.2 <;> simp [Permits]

theorem fitting_run (hv : layoutValid cfg) (m : Mem) (l : List (Env × Op)) :
    Fitting cfg (run (sysStep cfg) (Sys.cold m) l) :=
  run_invariant l ⟨Reg.empty_fits, OtaOk.zero cfg⟩ fun _ _ h => fitting_step hv h

-- ---------------------------------------------------------------------------
-- The stream
-- ---------------------------------------------------------------------------

/-- `image` has been received since `s₁`, and nothing is wrong with it so far. -/
structure Streaming (cfg : Config) (s₁ : Sys) (image : List UInt8) (s : Sys) : Prop where
  state : s.ota.state = .downloading
  books : SessionOk cfg s.ota
  slot : s.ota.slot = s₁.ota.slot
  name : s.ota.name = s₁.ota.name
  totalSize : s.ota.totalSize = s₁.ota.totalSize
  received : s.ota.received = image.length
  hdr : s.ota.hdr = captured image
  pageBuf : s.ota.pageBuf = image.drop s.ota.writeOff
  st : s.store.st = s₁.store.st
  mem : s.store.flash.mem =
    s₁.store.flash.mem.put (cfg.lay.slotOff s₁.ota.slot) (image.take s.ota.writeOff)
  powered : s.store.flash.powered = true

/-- What is received is wrong, whatever follows. -/
structure Rejected (name : List UInt8) (total : Nat) (s₁ : Sys) (image : List UInt8)
    (s : Sys) : Prop where
  state : s.ota.state = .error
  st : s.store.st = s₁.store.st
  bad : ∀ more, ¬WellFormed name total (image ++ more)

/-- A session of this name and size has just begun. -/
structure Opened (cfg : Config) (name : List UInt8) (total : Nat) (s₁ : Sys) : Prop where
  start : Streaming cfg s₁ [] s₁
  name : s₁.ota.name.toList.takeWhile (· ≠ 0) = name
  totalSize : s₁.ota.totalSize = total
  fits : s₁.store.st.reg.Fits cfg
  ready : s₁.store.st.ready = true
  inactive : s₁.ota.slot ≠ s₁.store.st.reg.activeSlot
  erased : Erased s₁.store.flash.mem (cfg.lay.slotOff s₁.ota.slot)
    (cfg.lay.slotOff s₁.ota.slot + roundUp total cfg.port.sectorSize)

theorem Streaming.enter (h : Streaming cfg s₁ image s) (env : Env) :
    Streaming cfg s₁ image (s.enter env) := { h with }

theorem Rejected.enter (h : Rejected name total s₁ image s) (env : Env) :
    Rejected name total s₁ image (s.enter env) := { h with }

theorem Streaming.writeOff_le (h : Streaming cfg s₁ image s) : s.ota.writeOff ≤ image.length := by
  have h1 := h.books.received
  have h2 := h.received
  omega

/-- The bytes behind those programmed are still erased. -/
theorem Streaming.erased (h : Streaming cfg s₁ image s)
    (he : Erased s₁.store.flash.mem (cfg.lay.slotOff s₁.ota.slot) hi) :
    Erased s.store.flash.mem (cfg.lay.slotOff s.ota.slot + s.ota.writeOff) hi := by
  intro a h1 h2
  have hle := h.writeOff_le
  rw [h.slot] at h1
  rw [h.mem, Mem.put_of_ge (by rw [List.length_take]; omega)]
  exact he a (by omega) h2

/-- The header buffer takes the new bytes behind those it has. -/
theorem Ota.capture_eq {o : Ota} (hr : o.received = image.length) (hh : o.hdr = captured image)
    (data : List UInt8) : o.capture data = captured (image ++ data) := by
  unfold Ota.capture
  rw [hr, hh]
  split
  next hlt =>
    have h1 : (captured image).take image.length = image := by
      rw [captured, List.take_of_length_le (Nat.le_of_lt hlt), List.take_left]
    have h2 : (captured image).drop
        (image.length + min (synmHdrSize - image.length) data.length) =
          List.replicate (synmHdrSize - (image ++ data).length) 0 := by
      rw [captured, List.take_of_length_le (Nat.le_of_lt hlt), List.drop_length_add_append,
        List.drop_replicate, List.length_append]
      congr 1
      omega
    have h3 : data.take (min (synmHdrSize - image.length) data.length) =
        data.take (synmHdrSize - image.length) := by
      rw [← List.take_take, List.take_length]
    dsimp only
    rw [h1, h2, h3, captured, List.take_append, List.take_of_length_le (Nat.le_of_lt hlt),
      List.append_assoc]
  next hge =>
    have hle := Nat.le_of_not_lt hge
    rw [captured_of_le hle, captured_of_le (by simp; omega), take_append_of_le hle]

theorem Streaming.wrote (h : Streaming cfg s₁ image s) (hw : Wrote cfg data s s' k)
    (hp : s.store.flash.powered = true) : Streaming cfg s₁ (image ++ data) s' := by
  have hle := h.writeOff_le
  have hlen : (image.take s.ota.writeOff).length = s.ota.writeOff := by
    rw [List.length_take]
    omega
  have hstream : image ++ data = image.take s.ota.writeOff ++ s.ota.stream data := by
    rw [Ota.stream, h.pageBuf, ← List.append_assoc, List.take_append_drop]
  have htake : (image ++ data).take (s.ota.writeOff + k) =
      image.take s.ota.writeOff ++ (s.ota.stream data).take k := by
    rw [hstream]
    nth_rewrite 1 [← hlen]
    rw [List.take_length_add_append]
  have hdrop : (image ++ data).drop (s.ota.writeOff + k) = (s.ota.stream data).drop k := by
    rw [hstream]
    nth_rewrite 1 [← hlen]
    rw [List.drop_length_add_append]
  have hbooks := hw.sessionOk h.books
  have hota := hw.ota
  have hoff : s'.ota.writeOff = s.ota.writeOff + k := by rw [hota]
  exact {
    state := by rw [hota]; exact h.state
    books := hbooks
    slot := by rw [hota]; exact h.slot
    name := by rw [hota]; exact h.name
    totalSize := by rw [hota]; exact h.totalSize
    received := by rw [hota, List.length_append, ← h.received]
    hdr := by rw [hota]; exact Ota.capture_eq h.received h.hdr data
    pageBuf := by rw [hoff, hdrop, hota]
    st := hw.filled.st.trans h.st
    mem := by
      rw [hw.mem, h.mem, hoff, htake, Mem.put_append, hlen, h.slot]
    powered := hw.powered hp }

/-- What the checks say of a complete header is what they say of the image. -/
theorem Streaming.checked (h : Streaming cfg s₁ image s) (ho : Opened cfg name total s₁)
    (hle : synmHdrSize ≤ (image ++ data).length) :
    hdrCheck (SynmHdr.ofBytes (s.ota.capture data)) s.ota.name s.ota.totalSize = .ok () ↔
      (imageHdr (image ++ data)).magic = synmMagic ∧
          (imageHdr (image ++ data)).version = synmVersion ∧
        (imageHdr (image ++ data)).modelSize.toNat = total - synmHdrSize ∧
        (imageHdr (image ++ data)).cname = name := by
  rw [hdrCheck_iff, Ota.capture_eq h.received h.hdr, captured_of_le hle, h.name, ho.name,
    h.totalSize, ho.totalSize, imageHdr]

theorem imageHdr_append (hle : synmHdrSize ≤ image.length) (more : List UInt8) :
    imageHdr (image ++ more) = imageHdr image := by
  rw [imageHdr, imageHdr, take_append_of_le hle]

theorem Streaming.writeFails (h : Streaming cfg s₁ image s) (ho : Opened cfg name total s₁)
    (hh : Flash.Healthy s.store.flash) (hf : WriteFails cfg data s t) (more : List UInt8) :
    ¬WellFormed name total (image ++ data ++ more) := by
  intro hw
  have hlen := hw.length
  rw [List.length_append] at hlen
  have hbound : (image ++ data).length ≤ total := by omega
  have hrec := h.received
  cases hf with
  | long hl _ =>
    rw [hrec, h.totalSize, ho.totalSize, ← List.length_append] at hl
    omega
  | header hc e he _ =>
    have hle : synmHdrSize ≤ (image ++ data).length := by
      rw [List.length_append, ← hrec]
      exact hc.2
    have hok := (h.checked ho hle).mpr (by
      rw [← imageHdr_append hle more]
      exact ⟨hw.magic, hw.version, hw.modelSize, hw.name⟩)
    rw [Ota.verdict, hok] at he
    cases he
  | flash ht hcut =>
    have he := h.erased ho.erased
    have hround := le_roundUp (v := total) cfg.port.sector_pos
    have hend : cfg.lay.slotOff s.ota.slot + s.ota.writeOff + (s.ota.stream data).length ≤
        cfg.lay.slotOff s₁.ota.slot + roundUp total cfg.port.sectorSize := by
      have hb := h.books.received
      rw [Ota.stream, List.length_append, h.slot]
      rw [List.length_append] at hbound
      omega
    have hoff := hcut (he.mono (Nat.le_refl _) hend) hh.cutOnly
    rw [(hh.later ht.within.later).1] at hoff
    cases hoff

/-- A chunk adds to the stream or shows that it is wrong. -/
theorem Streaming.chunk (h : Streaming cfg s₁ image s) (ho : Opened cfg name total s₁)
    (hv : layoutValid cfg) (hh : Flash.Healthy s.store.flash) (hne : data ≠ []) :
    Ends (otaWriteChunk cfg data) s fun s' =>
      Streaming cfg s₁ (image ++ data) s' ∨ Rejected name total s₁ (image ++ data) s' := by
  refine Ends.of_triple (otaWriteChunk_spec hv (fun _ => h.books) data) ?_ ?_
  · rintro _ s' ⟨k, hw⟩
    exact .inl (h.wrote hw hh.1)
  · rintro _ s' (⟨hn | hn, -⟩ | ⟨-, herr, hf⟩)
    · exact absurd h.state hn
    · exact absurd hn hne
    · exact .inr ⟨herr, hf.filled.st.trans h.st, h.writeFails ho hh hf⟩

/-- A session in ERROR refuses what follows. -/
theorem Rejected.chunk (h : Rejected name total s₁ image s) (hv : layoutValid cfg) :
    Ends (otaWriteChunk cfg data) s (Rejected name total s₁ (image ++ data)) := by
  have hn : s.ota.state ≠ .downloading := by
    rw [h.state]
    decide
  refine Ends.of_triple (otaWriteChunk_spec hv (OtaOk.of_state hn) data) ?_ ?_
  · rintro _ s' ⟨k, hw⟩
    exact absurd hw.state hn
  · rintro _ s' (⟨-, rfl⟩ | ⟨hd, -, -⟩)
    · exact ⟨h.state, h.st, fun more => List.append_assoc image data more ▸ h.bad (data ++ more)⟩
    · exact absurd hd hn

-- ---------------------------------------------------------------------------
-- The end
-- ---------------------------------------------------------------------------

/-- A session that ended in READY, and what it left: the image in the slot, the
rest of it as it was begun, and the record. -/
structure Accepted (cfg : Config) (name image : List UInt8) (slot : Nat) (m : Mem) (s : Sys) :
    Prop where
  state : s.ota.state = .ready
  fits : (padded cfg image).length ≤ cfg.lay.slotSize
  bytes : s.store.flash.mem.read (cfg.lay.slotOff slot) (padded cfg image).length = padded cfg image
  rest : Mem.SameOn (cfg.lay.slotOff slot + (padded cfg image).length)
    (cfg.lay.slotOff slot + cfg.lay.slotSize) m s.store.flash.mem
  staged : s.store.st.reg.stagedSlot = slot
  occupied : s.store.st.reg.occupied slot
  recordName : (s.store.st.reg.record slot).cname = name
  flashOffset : (s.store.st.reg.record slot).flashOffset.toNat = cfg.port.base + payloadOff cfg slot
  flashSize : (s.store.st.reg.record slot).flashSize.toNat = image.length - synmHdrSize
  crc32 : (s.store.st.reg.record slot).crc32 = crc32Ieee (image.drop synmHdrSize)

/-- How a session ends that received `image`. -/
def Outcome (cfg : Config) (name : List UInt8) (total : Nat) (s₁ : Sys) (image : List UInt8)
    (s : Sys) : Prop :=
  WellFormed name total image ∧ Accepted cfg name image s₁.ota.slot s₁.store.flash.mem s ∨
    ¬WellFormed name total image ∧ s.ota.state = .error ∧ s.store.st = s₁.store.st

/-- The bytes programmed by the chunks and by the final flush. -/
theorem Streaming.flushed (h : Streaming cfg s₁ image s) (hv : layoutValid cfg)
    (hf : Flushed cfg s t) :
    t.flash.mem = s₁.store.flash.mem.put (cfg.lay.slotOff s₁.ota.slot) (padded cfg image) := by
  have hle := h.writeOff_le
  have hlen : (image.take s.ota.writeOff).length = s.ota.writeOff := by
    rw [List.length_take]
    omega
  have hpage : cfg.port.pageSize ∣ s.ota.writeOff :=
    hv.page_dvd_buf.trans (Nat.dvd_of_mod_eq_zero h.books.aligned)
  have hround := roundUp_add cfg.port.page_pos hpage (image.length - s.ota.writeOff)
  rw [Nat.add_sub_cancel' hle] at hround
  have hpad : padded cfg image = image.take s.ota.writeOff ++ s.ota.tail cfg := by
    rw [padded, padTo, Ota.tail, padTo, h.pageBuf, List.length_drop, ← List.append_assoc,
      List.take_append_drop, hround]
    congr 2
    omega
  rw [hf.mem, h.mem, hpad, Mem.put_append, hlen, h.slot]

theorem Streaming.synm (h : Streaming cfg s₁ image s) (hle : synmHdrSize ≤ image.length) :
    s.ota.synm = imageHdr image := by
  rw [Ota.synm, h.hdr, captured_of_le hle, imageHdr]

/-- The payload that the CRC is taken of is the image behind its header. -/
theorem Streaming.payloadOk (h : Streaming cfg s₁ image s) (hv : layoutValid cfg)
    (hle : synmHdrSize ≤ image.length)
    (hsize : (imageHdr image).modelSize.toNat = image.length - synmHdrSize)
    (hf : Flushed cfg s t) :
    PayloadOk cfg s.ota t.flash.mem ↔
        (imageHdr image).crc32 = crc32Ieee (image.drop synmHdrSize) := by
  have hlen : image.length ≤ (padded cfg image).length := by
    rw [length_padded]
    exact le_roundUp cfg.port.page_pos
  have hread : t.flash.mem.read (cfg.lay.slotOff s₁.ota.slot) image.length = image := by
    rw [h.flushed hv hf, Mem.read_put_take hlen, padded, padTo, List.take_left]
  rw [PayloadOk, PayloadCrc, h.synm hle, hsize, payloadOff, h.slot, ← Mem.read_drop hle, hread]
  exact eq_comm

theorem Streaming.accepted (h : Streaming cfg s₁ image s) (ho : Opened cfg name total s₁)
    (hv : layoutValid cfg) (hf : Finishes cfg s s' t) :
    WellFormed name total image ∧
      Accepted cfg name image s₁.ota.slot s₁.store.flash.mem s' := by
  have hlen : image.length = total := by
    rw [← h.received, hf.flushed.complete, h.totalSize, ho.totalSize]
  have hgt := h.books.total_gt
  rw [h.totalSize, ho.totalSize] at hgt
  have hle : synmHdrSize ≤ image.length := by omega
  have hchk := hdrCheck_ok (h.books.checked (h.received ▸ hle))
  rw [← Ota.synm, h.synm hle, h.name, ho.name, h.totalSize, ho.totalSize] at hchk
  obtain ⟨hmagic, hversion, hsize, hname⟩ := hchk
  have hsize' : (imageHdr image).modelSize.toNat = image.length - synmHdrSize := hlen ▸ hsize
  have hcrc := (h.payloadOk hv hle hsize' hf.flushed).mp hf.payload
  have hlt := h.slot ▸ h.books.slot_lt
  have hlt8 : s₁.ota.slot < 8 := Nat.lt_of_lt_of_le hlt hv.count_le
  have hreg := hf.commits.reg
  rw [h.slot] at hreg
  have hrec : s'.store.st.reg.record s₁.ota.slot = otaRecord cfg s.ota := by
    rw [hreg]
    simp [Reg.markStaged, Reg.setRecord]
  have hsynm : SynmHdr.ofBytes s.ota.hdr = imageHdr image := h.synm hle
  have hwin := hv.slot_in_window hlt
  have hslot := hv.slot_gt_hdr
  have hbase := cfg.port.window
  have hfit : (padded cfg image).length ≤ cfg.lay.slotSize := by
    have htot := h.books.total_le
    rw [h.totalSize, ho.totalSize] at htot
    rw [length_padded]
    exact roundUp_le (Nat.dvd_of_mod_eq_zero hv.slotSize_page_aligned) (by omega) cfg.port.page_pos
  refine ⟨⟨hlen, hmagic, hversion, hsize, hname, hcrc⟩, hf.state, hfit, ?_, ?_, ?_, ?_, ?_, ?_, ?_,
      ?_⟩
  · rw [Mem.read_congr ((hf.commits.slot hv hlt).mono (Nat.le_refl _) (by omega)),
      h.flushed hv hf.flushed, Mem.read_put]
  · intro a h1 h2
    rw [hf.commits.slot hv hlt a (by omega) h2, h.flushed hv hf.flushed, Mem.put_of_ge h1]
  · rw [hreg]
    rfl
  · rw [hreg]
    show ((Reg.markStaged s₁.ota.slot (otaRecord cfg s.ota)).apply t.st.reg).occupied s₁.ota.slot
    exact (Reg.occupied_markStaged hlt8).mpr (.inr rfl)
  · rw [hrec, ← ho.name, ← h.name]
    rfl
  · rw [hrec, otaRecord, h.slot]
    dsimp only
    rw [UInt32.toNat_ofNat_of_lt' (by rw [payloadOff]; show _ < 2 ^ 32; omega)]
  · rw [hrec, otaRecord, hsynm]
    exact hsize'
  · rw [hrec, otaRecord, hsynm]
    exact hcrc

/-- Finishing succeeds on an image and fails on anything else. -/
theorem Streaming.finish (h : Streaming cfg s₁ image s) (ho : Opened cfg name total s₁)
    (hv : layoutValid cfg) (hh : Flash.Healthy s.store.flash) :
    Ends (otaFinish cfg) s (Outcome cfg name total s₁ image) := by
  have hfits : s.store.st.reg.Fits cfg := h.st ▸ ho.fits
  refine Ends.of_triple (otaFinish_spec hv (fun _ => h.books) hfits) ?_ ?_
  · rintro _ s' ⟨t, hf⟩
    exact .inl (h.accepted ho hv hf)
  rintro _ s' (⟨hn, -⟩ | ⟨-, herr, hf⟩)
  · exact absurd h.state hn
  have hlen : WellFormed name total image → s.ota.received = s.ota.totalSize := by
    intro hw
    rw [h.received, hw.length, h.totalSize, ho.totalSize]
  have hpay : ∀ t, Flushed cfg s t → WellFormed name total image →
      PayloadOk cfg s.ota t.flash.mem := by
    intro t ht hw
    have hgt := h.books.total_gt
    rw [h.totalSize, ho.totalSize, ← hw.length] at hgt
    exact (h.payloadOk hv (Nat.le_of_lt hgt) (by rw [hw.modelSize, hw.length]) ht).mpr hw.crc
  cases hf with
  | short hne ht => exact .inr ⟨fun hw => hne (hlen hw), herr, ht ▸ h.st⟩
  | flash ht hcut =>
    have hb := h.books.received
    have hbound := h.books.bound
    rw [h.totalSize, ho.totalSize] at hbound
    have hpage : cfg.port.pageSize ∣ s.ota.writeOff :=
      hv.page_dvd_buf.trans (Nat.dvd_of_mod_eq_zero h.books.aligned)
    have hend : s.ota.writeOff + roundUp s.ota.pageBuf.length cfg.port.pageSize ≤
        roundUp total cfg.port.sectorSize := by
      rw [← roundUp_add cfg.port.page_pos hpage]
      refine roundUp_le (cfg.port.page_dvd_sector.trans (dvd_roundUp _ _)) ?_ cfg.port.page_pos
      have := le_roundUp (v := total) cfg.port.sector_pos
      omega
    have hoff := hcut ((h.erased ho.erased).mono (Nat.le_refl _) (by rw [h.slot]; omega)) hh.cutOnly
    rw [(hh.later ht.within.later).1] at hoff
    cases hoff
  | crc ht hn => exact .inr ⟨fun hw => hn (hpay _ ht hw), herr, ht.filled.st.trans h.st⟩
  | refused ht hok hr =>
    have hact := hr (h.st ▸ ho.ready)
    rw [h.slot, h.st] at hact
    exact absurd hact ho.inactive
  | commit t ht hok hne ha =>
    exact absurd (hh.later ht.filled.within.later) ha.toAborted.not_healthy

theorem Rejected.finish (h : Rejected name total s₁ image s) (hv : layoutValid cfg)
    (hf : s.store.st.reg.Fits cfg) : Ends (otaFinish cfg) s (Outcome cfg name total s₁ image) := by
  have hn : s.ota.state ≠ .downloading := by
    rw [h.state]
    decide
  refine Ends.of_triple (otaFinish_spec hv (OtaOk.of_state hn) hf) ?_ ?_
  · rintro _ s' ⟨t, hf⟩
    exact absurd hf.flushed.state hn
  · rintro _ s' (⟨-, rfl⟩ | ⟨hd, -, -⟩)
    · exact .inr ⟨List.append_nil image ▸ h.bad [], h.state, h.st⟩
    · exact absurd hd hn

-- ---------------------------------------------------------------------------
-- Whole sessions
-- ---------------------------------------------------------------------------

/-- The chunks, then the end; each call has its own surroundings. -/
def otaSession (chunks : List (Env × List UInt8)) (fin : Env) : List (Env × Op) :=
  chunks.map (fun c => (c.1, .otaWriteChunk c.2)) ++ [(fin, .otaFinish)]

theorem Superseded.ready {t t' : Store} (h : Superseded cfg t t') : t'.st.ready = t.st.ready := by
  cases h with
  | same _ h => rw [h]
  | cleared _ h => exact h.ready
  | kept _ h => exact h.ready

theorem Freed.ready {t t' : Store} (h : Freed cfg slot t t') : t'.st.ready = t.st.ready := by
  rcases h with ⟨-, -, -, rfl⟩ | ⟨-, -, h⟩
  · rfl
  · exact h.ready

/-- A call that begins a session opens it. -/
theorem opened {env : Env} (hv : layoutValid cfg) (hf : Fitting cfg s) (hz : 0 ∉ name)
    (hl : name.length ≤ 31) (hp : env.plan = [])
    (hb : call cfg s (env, .otaBegin name total) = (.ok (), s₁)) : Opened cfg name total s₁ := by
  unfold call at hb
  dsimp only at hb
  split at hb
  next hon =>
    have hh : Flash.Healthy (s.enter env).store.flash := ⟨hon, hp⟩
    obtain ⟨⟨hr, hgt, hle⟩, ⟨t, t', hsup, hfr, hfi, he⟩, hses⟩ :=
      (otaBegin_spec hv (s := s.enter env) hf.store name total).ok hb
    have hslot : s₁.ota.slot = stagingSlot cfg (s.enter env).store.st.reg := by rw [hses]; rfl
    have hlater : Flash.Later (s.enter env).store.flash s₁.store.flash :=
      IsTrans.trans _ _ _ (IsTrans.trans _ _ _ hsup.later hfr.later) hfi.within.later
    have hstate : s₁.ota.state = .downloading := by rw [hses]
    refine ⟨⟨hstate, OtaOk.begun hses hfr.lt hgt hle hstate, rfl, rfl, rfl, ?_, ?_, ?_, rfl, ?_,
        ?_⟩,
      ?_, ?_, ?_, ?_, ?_, hslot ▸ he⟩
    · rw [hses]
      rfl
    · rw [hses]
      rfl
    · rw [hses]
      rfl
    · simp
    · exact (hh.later hlater).1
    · rw [hses]
      exact packName_cname hz hl
    · rw [hses]
      rfl
    · rw [hfi.st]
      exact hfr.fits (hsup.fits hf.store)
    · rw [hfi.st, hfr.ready, hsup.ready]
      exact hr
    · rw [hslot, hfi.st]
      exact hfr.ne_active
  next => cases hb

theorem Opened.step (ho : Opened cfg name total s₁) (hv : layoutValid cfg) {env : Env}
    (hp : env.plan = []) (hne : data ≠ [])
    (h : Streaming cfg s₁ image s ∨ Rejected name total s₁ image s) :
    let s' := sysStep cfg s (env, .otaWriteChunk data)
    Streaming cfg s₁ (image ++ data) s' ∨ Rejected name total s₁ (image ++ data) s' := by
  refine sysStep_ends (I := fun s' => Streaming cfg s₁ (image ++ data) s' ∨
    Rejected name total s₁ (image ++ data) s') (fun hb => by cases hb) (fun _ hon => ?_)
        (fun hoff => ?_)
  · rcases h with h | h
    · exact (h.enter env).chunk ho hv ⟨hon, hp⟩ hne
    · exact ((h.enter env).chunk hv).mono fun _ => .inr
  · rcases h with h | h
    · rw [h.powered] at hoff
      cases hoff
    · exact .inr ⟨h.state, h.st, fun more =>
          List.append_assoc image data more ▸ h.bad (data ++ more)⟩

theorem Opened.outcome (ho : Opened cfg name total s₁) (hv : layoutValid cfg) {fin : Env}
    (hp : fin.plan = []) (chunks : List (Env × List UInt8))
    (hc : ∀ c ∈ chunks, c.1.plan = [] ∧ c.2 ≠ [])
    (h : Streaming cfg s₁ image s ∨ Rejected name total s₁ image s) :
    Outcome cfg name total s₁ (image ++ (chunks.map Prod.snd).flatten)
      (run (sysStep cfg) s (otaSession chunks fin)) := by
  induction chunks generalizing image s with
  | nil =>
    show Outcome cfg name total s₁ (image ++ []) (sysStep cfg s (fin, .otaFinish))
    rw [List.append_nil]
    refine sysStep_ends (fun hb => by cases hb) (fun _ hon => ?_) (fun hoff => ?_)
    · rcases h with h | h
      · exact (h.enter fin).finish ho hv ⟨hon, hp⟩
      · refine (h.enter fin).finish hv ?_
        rw [(h.enter fin).st]
        exact ho.fits
    · rcases h with h | h
      · rw [h.powered] at hoff
        cases hoff
      · exact .inr ⟨List.append_nil image ▸ h.bad [], h.state, h.st⟩
  | cons c chunks ih =>
    have hstep := ho.step hv (hc c List.mem_cons_self).1 (hc c List.mem_cons_self).2 h
    have := ih (fun d hd => hc d (List.mem_cons_of_mem c hd)) hstep
    rw [List.append_assoc] at this
    exact this

/-- What an accepted image leaves in its slot, from the first byte to the last. -/
theorem Accepted.slot_bytes (h : Accepted cfg name image slot m s)
    (h' : Accepted cfg name image slot m s') :
    s'.store.flash.mem.read (cfg.lay.slotOff slot) cfg.lay.slotSize =
      s.store.flash.mem.read (cfg.lay.slotOff slot) cfg.lay.slotSize := by
  have hfit := h.fits
  have hsame : Mem.SameOn (cfg.lay.slotOff slot + (padded cfg image).length)
      (cfg.lay.slotOff slot + (padded cfg image).length +
        (cfg.lay.slotSize - (padded cfg image).length)) s.store.flash.mem s'.store.flash.mem := by
    intro a h1 h2
    rw [h.rest a h1 (by omega), h'.rest a h1 (by omega)]
  rw [← Nat.add_sub_cancel' hfit, Mem.read_add, Mem.read_add, h.bytes, h'.bytes,
    Mem.read_congr hsame]

/-- In every state of every run, once a session has begun on a flash without
faults, it ends in READY just when its chunks, put together, are an image of that
name and size; then the image is in the slot and its record is staged, otherwise the
registry is as it was. Another cut of the same bytes ends the same way. -/
theorem session_accepts (hv : layoutValid cfg) (m : Mem) (past : List (Env × Op)) (hz : 0 ∉ name)
    (hl : name.length ≤ 31) {env fin : Env} {chunks : List (Env × List UInt8)}
    (hp : env.plan = [])
    (hb : call cfg (run (sysStep cfg) (Sys.cold m) past) (env, .otaBegin name total) = (.ok (), s₁))
    (hc : ∀ c ∈ chunks, c.1.plan = [] ∧ c.2 ≠ []) (hfin : fin.plan = []) :
    let image := (chunks.map Prod.snd).flatten
    let s := run (sysStep cfg) s₁ (otaSession chunks fin)
    (s.ota.state = .ready ↔ WellFormed name total image) ∧
    (WellFormed name total image →
      Accepted cfg name image s₁.ota.slot s₁.store.flash.mem s) ∧
    (¬WellFormed name total image → s.ota.state = .error ∧ s.store.st.reg = s₁.store.st.reg) ∧
    ∀ (chunks' : List (Env × List UInt8)) (fin' : Env), (chunks'.map Prod.snd).flatten = image →
      (∀ c ∈ chunks', c.1.plan = [] ∧ c.2 ≠ []) → fin'.plan = [] →
      let s' := run (sysStep cfg) s₁ (otaSession chunks' fin')
      s'.ota.state = s.ota.state ∧ (s.ota.state = .ready →
        s'.store.flash.mem.read (cfg.lay.slotOff s₁.ota.slot) cfg.lay.slotSize =
          s.store.flash.mem.read (cfg.lay.slotOff s₁.ota.slot) cfg.lay.slotSize) := by
  dsimp only
  have ho := opened hv (fitting_run hv m past) hz hl hp hb
  have hout : ∀ (chunks : List (Env × List UInt8)) (fin : Env),
      (∀ c ∈ chunks, c.1.plan = [] ∧ c.2 ≠ []) → fin.plan = [] →
      Outcome cfg name total s₁ (chunks.map Prod.snd).flatten
        (run (sysStep cfg) s₁ (otaSession chunks fin)) := fun chunks fin hc hfin =>
    List.nil_append (chunks.map Prod.snd).flatten ▸ ho.outcome hv hfin chunks hc (.inl ho.start)
  have h := hout chunks fin hc hfin
  generalize run (sysStep cfg) s₁ (otaSession chunks fin) = s at h
  rcases h with ⟨hw, ha⟩ | ⟨hn, herr, hst⟩
  · refine ⟨⟨fun _ => hw, fun _ => ha.state⟩, fun _ => ha, fun hn => absurd hw hn, ?_⟩
    intro chunks' fin' heq hc' hfin'
    rcases heq ▸ hout chunks' fin' hc' hfin' with ⟨-, ha'⟩ | ⟨hn, -, -⟩
    · exact ⟨ha'.state.trans ha.state.symm, fun _ => ha.slot_bytes ha'⟩
    · exact absurd hw hn
  · have hnr : s.ota.state ≠ .ready := by
      rw [herr]
      decide
    refine ⟨⟨fun hr => absurd hr hnr, fun hw => absurd hw hn⟩, fun hw => absurd hw hn,
      fun _ => ⟨herr, by rw [hst]⟩, ?_⟩
    intro chunks' fin' heq hc' hfin'
    rcases heq ▸ hout chunks' fin' hc' hfin' with ⟨hw, -⟩ | ⟨-, herr', -⟩
    · exact absurd hw hn
    · exact ⟨herr'.trans herr.symm, fun hr => absurd hr hnr⟩

def smallImage : List UInt8 := namedPackage 65

/-- A session for it on a device that has just come up. -/
def smallBegin : Except Errno Unit × Sys :=
  call smallDevice (run (sysStep smallDevice) (Sys.cold erasedMem) [(quiet, .boot)])
    (quiet, .otaBegin [65] 66)

theorem smallBegin_fst : smallBegin.1 = .ok () := by decide +kernel

theorem smallBegin_ok : call smallDevice (run (sysStep smallDevice) (Sys.cold erasedMem)
    [(quiet, .boot)]) (quiet, .otaBegin [65] 66) = (.ok (), smallBegin.2) := by
  rw [← smallBegin_fst]
  exact (Prod.mk.eta (p := smallBegin)).symm

def smallChunks : List (Env × List UInt8) :=
  [(quiet, smallImage.take 3), (quiet, smallImage.drop 3)]

theorem smallChunks_ok : ∀ c ∈ smallChunks, c.1.plan = [] ∧ c.2 ≠ [] := by
  simp only [smallChunks, List.mem_cons, List.not_mem_nil, or_false, forall_eq_or_imp, forall_eq]
  exact ⟨⟨rfl, by decide +kernel⟩, rfl, by decide +kernel⟩

theorem smallImage_wellFormed : WellFormed [65] 66 (smallChunks.map Prod.snd).flatten := by
  constructor <;> decide +kernel

theorem session_accepts_small :
    (run (sysStep smallDevice) smallBegin.2 (otaSession smallChunks quiet)).ota.state = .ready := by
  have h := session_accepts smallDevice_valid erasedMem [(quiet, .boot)] (by decide) (by decide) rfl
    smallBegin_ok smallChunks_ok (show quiet.plan = [] from rfl)
  exact h.1.mpr smallImage_wellFormed

end SynapticOS
