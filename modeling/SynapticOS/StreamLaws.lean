import SynapticOS.OtaLaws

/-!
# Streaming an image into its slot

What the page buffer programs is a prefix of the bytes received; the rest is in
the buffer until the final flush pads it. The header is captured from the same
bytes, wherever the chunks are cut.
-/

namespace SynapticOS

open Lib

variable {cfg : Config} {s s' : Sys} {slot : Nat} {name data : List UInt8} {totalSize : Nat}

-- ---------------------------------------------------------------------------
-- Writing chunks
-- ---------------------------------------------------------------------------

/-- The pages of the window offset `off` lie in a slot. -/
theorem slot_page_mod (hv : layoutValid cfg) (hs : slot < cfg.lay.slotCount)
    (hw : w % ioBufSize = 0) : (cfg.lay.slotOff slot + w) % cfg.port.pageSize = 0 := by
  have h1 := hv.slot_page_aligned hs
  have h2 := Nat.mod_eq_zero_of_dvd (hv.page_dvd_buf.trans (Nat.dvd_of_mod_eq_zero hw))
  rw [Nat.add_mod, h1, h2]
  simp

/-- What a flush of the buffer programs ends in the slot. -/
theorem writable_le (hv : layoutValid cfg) {o : Ota} (final : Bool) (ha : o.writeOff % ioBufSize = 0)
    (hb : o.writeOff + o.pageBuf.length ≤ cfg.lay.slotSize) :
    o.writeOff + (if final then roundUp o.pageBuf.length cfg.port.pageSize
      else o.pageBuf.length / cfg.port.pageSize * cfg.port.pageSize) ≤ cfg.lay.slotSize := by
  have hoff : o.writeOff % cfg.port.pageSize = 0 :=
    Nat.mod_eq_zero_of_dvd (hv.page_dvd_buf.trans (Nat.dvd_of_mod_eq_zero ha))
  have hdiv := Nat.div_mul_le_self o.pageBuf.length cfg.port.pageSize
  have hround := add_roundUp_le cfg.port.page_pos hoff hv.slotSize_page_aligned hb
  split <;> omega

/-- A flush programs whole pages of the buffer behind those already written. -/
theorem flushPages_spec (hv : layoutValid cfg) (final : Bool) (hs : s.ota.slot < cfg.lay.slotCount)
    (ha : s.ota.writeOff % ioBufSize = 0)
    (hb : s.ota.writeOff + s.ota.pageBuf.length ≤ cfg.lay.slotSize) :
    let buffered := s.ota.pageBuf.length
    let writable := if final then roundUp buffered cfg.port.pageSize
      else buffered / cfg.port.pageSize * cfg.port.pageSize
    Triple (flushPages cfg final) s
      (fun _ s' => Filled cfg s.ota.slot s.store s'.store ∧
        s'.store.flash.mem = s.store.flash.mem.put (cfg.lay.slotOff s.ota.slot + s.ota.writeOff)
          (padTo writable (s.ota.pageBuf.take writable)) ∧
        s'.ota = { s.ota with
          writeOff := s.ota.writeOff + writable, pageBuf := s.ota.pageBuf.drop writable } ∧
        (s.store.flash.powered = true → s'.store.flash.powered = true))
      (fun _ s' => Filled cfg s.ota.slot s.store s'.store ∧ s'.ota = s.ota ∧
        (Erased s.store.flash.mem (cfg.lay.slotOff s.ota.slot + s.ota.writeOff)
            (cfg.lay.slotOff s.ota.slot + s.ota.writeOff + writable) →
          Flash.CutOnly s.store.flash → s'.store.flash.powered = false)) := by
  dsimp only
  have hwin := hv.slot_in_window hs
  have hpage := slot_page_mod hv hs ha
  generalize hw : (if final then roundUp s.ota.pageBuf.length cfg.port.pageSize
      else s.ota.pageBuf.length / cfg.port.pageSize * cfg.port.pageSize) = writable
  have hmod : writable % cfg.port.pageSize = 0 := by
    rw [← hw]
    split
    · exact roundUp_mod _ _
    · exact Nat.mul_mod_left _ _
  have hle : s.ota.writeOff + writable ≤ cfg.lay.slotSize := hw ▸ writable_le hv final ha hb
  have hlen : (padTo writable (s.ota.pageBuf.take writable)).length = writable := by
    rw [length_padTo, List.length_take]
    omega
  unfold flushPages
  refine Triple.gets_bind ?_
  dsimp only
  rw [hw]
  refine Triple.ite (fun h0 => ?_) (fun h0 => ?_)
  · subst h0
    exact Triple.pure' ⟨Std.Refl.refl _, by simp [padTo], by simp, fun h => h⟩
  have hrange : Flash.checkRange cfg.port (cfg.lay.slotOff s.ota.slot + s.ota.writeOff)
      (padTo writable (s.ota.pageBuf.take writable)).length := by
    rw [hlen]
    exact ⟨h0, by omega, by omega⟩
  refine Triple.bind (Sys.onFlash_within cfg s.ota.slot
    (within_write cfg.port (by omega) (by omega)) (Flash.write_spec cfg.port _ _ _) |>.mono
      (fun _ _ h => h) ?_) ?_
  · rintro e s' ⟨⟨n, -, -, -, hcut⟩, hfill, hs'⟩
    refine ⟨hfill, by rw [hs'], fun he hc => hcut hrange hpage (by rw [hlen]; exact hmod) ?_ hc⟩
    rw [hlen]
    exact he
  · rintro _ s₁ ⟨⟨hm, hpow, -⟩, hfill, hs₁⟩
    have hota : s₁.ota = s.ota := by rw [hs₁]
    exact Triple.modify ⟨hfill, hm, by rw [hota], fun _ => hpow⟩

/-- The bytes that are not programmed yet, followed by those that are fed. -/
def Ota.stream (o : Ota) (src : List UInt8) : List UInt8 := o.pageBuf ++ src

/-- The page-buffer loop programs a prefix of the stream and keeps the rest. -/
structure Fed (cfg : Config) (src : List UInt8) (s s' : Sys) (k : Nat) : Prop where
  le : k ≤ (s.ota.stream src).length
  filled : Filled cfg s.ota.slot s.store s'.store
  mem : s'.store.flash.mem = s.store.flash.mem.put (cfg.lay.slotOff s.ota.slot + s.ota.writeOff)
    ((s.ota.stream src).take k)
  ota : s'.ota = { s.ota with
    writeOff := s.ota.writeOff + k, pageBuf := (s.ota.stream src).drop k }
  buffered : (s.ota.stream src).length < k + ioBufSize
  aligned : (s.ota.writeOff + k) % ioBufSize = 0
  powered : s.store.flash.powered = true → s'.store.flash.powered = true

theorem Fed.nil (ha : s.ota.writeOff % ioBufSize = 0) (hb : s.ota.pageBuf.length < ioBufSize) :
    Fed cfg [] s s 0 where
  le := Nat.zero_le _
  filled := Std.Refl.refl _
  mem := by simp
  ota := by simp [Ota.stream]
  buffered := by simpa [Ota.stream] using hb
  aligned := ha
  powered h := h

/-- A full buffer is flushed, and the loop goes on with the rest. -/
theorem Fed.flush {s₁ s₂ : Sys} {src : List UInt8} {n : Nat}
    (hn : s.ota.pageBuf.length + n = ioBufSize)
    (hfill : Filled cfg s.ota.slot s.store s₁.store)
    (hm : s₁.store.flash.mem = s.store.flash.mem.put (cfg.lay.slotOff s.ota.slot + s.ota.writeOff)
      (s.ota.pageBuf ++ src.take n))
    (hota : s₁.ota = { s.ota with writeOff := s.ota.writeOff + ioBufSize, pageBuf := [] })
    (hp : s.store.flash.powered = true → s₁.store.flash.powered = true)
    (hle : n ≤ src.length) (h : Fed cfg (src.drop n) s₁ s₂ k) : Fed cfg src s s₂ (ioBufSize + k) := by
  have hfront : (s.ota.pageBuf ++ src.take n).length = ioBufSize := by
    simp only [List.length_append, List.length_take]
    omega
  have hstream : s.ota.stream src = (s.ota.pageBuf ++ src.take n) ++ s₁.ota.stream (src.drop n) := by
    rw [hota]
    simp [Ota.stream]
  have htake : (s.ota.stream src).take (ioBufSize + k) =
      (s.ota.pageBuf ++ src.take n) ++ (s₁.ota.stream (src.drop n)).take k := by
    rw [hstream, ← hfront, List.take_length_add_append]
  have hdrop : (s.ota.stream src).drop (ioBufSize + k) = (s₁.ota.stream (src.drop n)).drop k := by
    rw [hstream, ← hfront, List.drop_length_add_append]
  have hlen : (s.ota.stream src).length = ioBufSize + (s₁.ota.stream (src.drop n)).length := by
    rw [hstream, List.length_append, hfront]
  have hfill₂ := h.filled
  have hslot : s₁.ota.slot = s.ota.slot := by rw [hota]
  have hoff : s₁.ota.writeOff = s.ota.writeOff + ioBufSize := by rw [hota]
  rw [hslot] at hfill₂
  have hle' := h.le
  have hbuf := h.buffered
  have hal := h.aligned
  rw [hoff] at hal
  exact {
    le := by omega
    filled := IsTrans.trans _ _ _ hfill hfill₂
    mem := by
      rw [h.mem, hm, htake, Mem.put_append (s.ota.pageBuf ++ src.take n), hfront, hslot, hoff,
        Nat.add_assoc]
    ota := by
      rw [h.ota, hdrop, hota]
      simp only [Nat.add_assoc]
    buffered := by omega
    aligned := by rw [← Nat.add_assoc]; exact hal
    powered := fun hq => h.powered (hp hq) }

theorem fillPages_spec (hv : layoutValid cfg) (fuel : Nat) (src : List UInt8)
    (hfuel : src.length ≤ fuel) (hs : s.ota.slot < cfg.lay.slotCount)
    (ha : s.ota.writeOff % ioBufSize = 0) (hbuf : s.ota.pageBuf.length < ioBufSize)
    (hb : s.ota.writeOff + s.ota.pageBuf.length + src.length ≤ cfg.lay.slotSize) :
    Triple (fillPages cfg fuel src) s (fun _ s' => ∃ k, Fed cfg src s s' k)
      (fun _ s' => Filled cfg s.ota.slot s.store s'.store ∧
        (Erased s.store.flash.mem (cfg.lay.slotOff s.ota.slot + s.ota.writeOff)
            (cfg.lay.slotOff s.ota.slot + s.ota.writeOff + (s.ota.stream src).length) →
          Flash.CutOnly s.store.flash → s'.store.flash.powered = false)) := by
  induction fuel generalizing src s with
  | zero =>
    have : src = [] := List.length_eq_zero_iff.mp (by omega)
    subst this
    exact Triple.pure' ⟨0, Fed.nil ha hbuf⟩
  | succ fuel ih =>
    unfold fillPages
    refine Triple.ite (fun h0 => ?_) (fun h0 => ?_)
    · subst h0
      exact Triple.pure' ⟨0, Fed.nil ha hbuf⟩
    refine Triple.gets_bind ?_
    dsimp only
    have hpos := List.length_pos_of_ne_nil h0
    generalize hn : min (ioBufSize - s.ota.pageBuf.length) src.length = n
    refine Triple.modify_bind ?_
    generalize hs₁ : ({ s with ota := { s.ota with
      pageBuf := s.ota.pageBuf ++ src.take n } } : Sys) = s₁
    have hst₁ : s₁.store = s.store := by rw [← hs₁]
    have hota₁ : s₁.ota = { s.ota with pageBuf := s.ota.pageBuf ++ src.take n } := by rw [← hs₁]
    have hslot₁ : s₁.ota.slot = s.ota.slot := by rw [hota₁]
    have hoff₁ : s₁.ota.writeOff = s.ota.writeOff := by rw [hota₁]
    have hlen₁ : s₁.ota.pageBuf.length = s.ota.pageBuf.length + n := by
      rw [hota₁]
      simp only [List.length_append, List.length_take]
      omega
    refine Triple.ite (fun hfull => ?_) (fun hpart => ?_)
    · -- the buffer is full: one flush of all of it
      have hwr : ioBufSize / cfg.port.pageSize * cfg.port.pageSize = ioBufSize :=
        Nat.div_mul_cancel hv.page_dvd_buf
      have hflush := flushPages_spec hv (s := s₁) false (hslot₁ ▸ hs) (hoff₁ ▸ ha)
        (by rw [hoff₁, hlen₁]; omega)
      simp only [Bool.false_eq_true, ↓reduceIte, hlen₁, hfull, hwr, hst₁, hslot₁, hoff₁] at hflush
      have hbuf₁ : padTo ioBufSize (s₁.ota.pageBuf.take ioBufSize) = s.ota.pageBuf ++ src.take n := by
        rw [List.take_of_length_le (by omega), padTo, hlen₁, hfull, Nat.sub_self, hota₁]
        simp
      rw [hbuf₁] at hflush
      refine Triple.bind (hflush.mono (fun _ _ h => h) ?_) ?_
      · rintro _ s₂ ⟨hfill, -, hcut⟩
        refine ⟨hfill, fun he hc => hcut (he.mono (Nat.le_refl _) ?_) hc⟩
        simp only [Ota.stream, List.length_append]
        omega
      rintro _ s₂ ⟨hfill, hm, hota₂, hpow⟩
      have hota₂ : s₂.ota = { s.ota with
          writeOff := s.ota.writeOff + ioBufSize, pageBuf := [] } := by
        rw [hota₂, hota₁, List.drop_eq_nil_of_le (by rw [← hota₁] ; omega)]
      have hslot₂ : s₂.ota.slot = s.ota.slot := by rw [hota₂]
      have hoff₂ : s₂.ota.writeOff = s.ota.writeOff + ioBufSize := by rw [hota₂]
      have hlen₂ : s₂.ota.pageBuf.length = 0 := by rw [hota₂]; rfl
      refine (ih (s := s₂) (src.drop n) (by simp; omega) (hslot₂ ▸ hs)
        (by rw [hoff₂, Nat.add_mod_right]; exact ha) (by rw [hlen₂]; decide)
        (by rw [hoff₂, hlen₂]; simp; omega)).mono ?_ ?_
      · rintro _ s' ⟨k, h⟩
        exact ⟨_, Fed.flush hfull hfill hm hota₂ hpow (by omega) h⟩
      · rintro _ s' ⟨hfill', hcut⟩
        rw [hslot₂] at hfill' hcut
        refine ⟨IsTrans.trans _ _ _ hfill hfill', fun he hc =>
          hcut (fun a h1 h2 => ?_) (hc.later hfill.within.later)⟩
        simp only [Ota.stream, hlen₂, List.length_append, List.length_drop, hoff₂] at h1 h2
        rw [hm, Mem.put_of_ge (by simp; omega)]
        exact he a (by omega) (by simp [Ota.stream]; omega)
    · have hall : n = src.length := by omega
      have hstream : s₁.ota.stream (src.drop n) = s.ota.stream src := by
        rw [hota₁, hall]
        simp [Ota.stream]
      refine (ih (s := s₁) (src.drop n) (by simp; omega) (hslot₁ ▸ hs) (hoff₁ ▸ ha)
        (by omega) (by rw [hoff₁, hlen₁]; simp; omega)).mono ?_ ?_
      · rintro _ s' ⟨k, h⟩
        refine ⟨k, ⟨hstream ▸ h.le, hslot₁ ▸ hst₁ ▸ h.filled, ?_, ?_, hstream ▸ h.buffered,
          hoff₁ ▸ h.aligned, fun hp => h.powered (hst₁ ▸ hp)⟩⟩
        · rw [h.mem, hst₁, hslot₁, hoff₁, hstream]
        · rw [h.ota, hstream, hota₁]
      · rintro _ s' ⟨hfill, hcut⟩
        rw [hst₁, hslot₁, hoff₁, hstream] at *
        exact ⟨hfill, hcut⟩

-- ---------------------------------------------------------------------------
-- Capturing the header
-- ---------------------------------------------------------------------------

/-- The header bytes once `data` has streamed past. -/
def Ota.capture (o : Ota) (data : List UInt8) : List UInt8 :=
  if o.received < synmHdrSize then
    let take := min (synmHdrSize - o.received) data.length
    o.hdr.take o.received ++ (data.take take ++ o.hdr.drop (o.received + take))
  else o.hdr

/-- The header is complete with these bytes and not before. -/
def Ota.completes (o : Ota) (data : List UInt8) : Prop :=
  o.received < synmHdrSize ∧ synmHdrSize ≤ o.received + data.length

/-- What the checks say of the header that `data` completes. -/
def Ota.verdict (o : Ota) (data : List UInt8) : Except Errno Unit :=
  hdrCheck (SynmHdr.ofBytes (o.capture data)) o.name o.totalSize

def Sys.setHdr (hdr : List UInt8) (s : Sys) : Sys := { s with ota := { s.ota with hdr := hdr } }

theorem captureHdr_spec (data : List UInt8) (s : Sys) :
    Triple (captureHdr data) s
      (fun _ s' => s' = s.setHdr (s.ota.capture data) ∧
        (s.ota.completes data → s.ota.verdict data = .ok ()))
      (fun e s' => s' = s.setHdr (s.ota.capture data) ∧ s.ota.completes data ∧
        s.ota.verdict data = .error e) := by
  unfold captureHdr
  refine Triple.gets_bind (Triple.ite (fun hlt => ?_) (fun hge => ?_))
  · have hcap : s.ota.hdr.take s.ota.received ++
        (data.take (min (synmHdrSize - s.ota.received) data.length) ++
          s.ota.hdr.drop (s.ota.received + min (synmHdrSize - s.ota.received) data.length)) =
        s.ota.capture data := by
      unfold Ota.capture
      rw [if_pos hlt]
    have hdone : s.ota.received + min (synmHdrSize - s.ota.received) data.length = synmHdrSize ↔
        s.ota.completes data := by
      unfold Ota.completes
      omega
    dsimp only
    rw [hcap]
    refine Triple.modify_bind (Triple.ite (fun hc => ?_) (fun hc => ?_))
    · split
      · rename_i e he
        exact Triple.throw ⟨rfl, hdone.mp hc, he⟩
      · rename_i he
        exact Triple.pure' ⟨rfl, fun _ => he⟩
    · exact Triple.pure' ⟨rfl, fun h => absurd (hdone.mpr h) hc⟩
  · refine Triple.pure' ⟨?_, fun h => absurd h.1 hge⟩
    rw [Ota.capture, if_neg hge]
    rfl

-- ---------------------------------------------------------------------------
-- Writing chunks
-- ---------------------------------------------------------------------------

/-- An accepted chunk: `k` bytes of the stream were programmed. -/
structure Wrote (cfg : Config) (data : List UInt8) (s s' : Sys) (k : Nat) : Prop where
  state : s.ota.state = .downloading
  bound : s.ota.received + data.length ≤ s.ota.totalSize
  checked : s.ota.completes data → s.ota.verdict data = .ok ()
  le : k ≤ (s.ota.stream data).length
  filled : Filled cfg s.ota.slot s.store s'.store
  mem : s'.store.flash.mem = s.store.flash.mem.put (cfg.lay.slotOff s.ota.slot + s.ota.writeOff)
    ((s.ota.stream data).take k)
  ota : s'.ota = { s.ota with
    hdr := s.ota.capture data
    received := s.ota.received + data.length
    writeOff := s.ota.writeOff + k
    pageBuf := (s.ota.stream data).drop k }
  buffered : (s.ota.stream data).length < k + ioBufSize
  aligned : (s.ota.writeOff + k) % ioBufSize = 0
  powered : s.store.flash.powered = true → s'.store.flash.powered = true

/-- Why a chunk is not accepted, and what it did to the store. -/
inductive WriteFails (cfg : Config) (data : List UInt8) (s : Sys) (t : Store) : Prop
  | long (h : s.ota.totalSize < s.ota.received + data.length) (ht : t = s.store)
  | header (h : s.ota.completes data) (e : Errno) (he : s.ota.verdict data = .error e)
    (ht : t = s.store)
  | flash (ht : Filled cfg s.ota.slot s.store t)
    (hcut : Erased s.store.flash.mem (cfg.lay.slotOff s.ota.slot + s.ota.writeOff)
        (cfg.lay.slotOff s.ota.slot + s.ota.writeOff + (s.ota.stream data).length) →
      Flash.CutOnly s.store.flash → t.flash.powered = false)

theorem WriteFails.filled {t : Store} (h : WriteFails cfg data s t) :
    Filled cfg s.ota.slot s.store t := by
  cases h with
  | long _ ht => exact ht ▸ Std.Refl.refl _
  | header _ _ _ ht => exact ht ▸ Std.Refl.refl _
  | flash ht _ => exact ht

/-- An accepted chunk keeps the books of its session. -/
theorem Wrote.sessionOk (h : Wrote cfg data s s' k) (hs : SessionOk cfg s.ota) :
    SessionOk cfg s'.ota := by
  have hr := hs.received
  have hle := h.le
  have hb := h.buffered
  have hbound := h.bound
  simp only [Ota.stream, List.length_append] at hle hb
  rw [h.ota]
  exact {
    slot_lt := hs.slot_lt
    total_gt := hs.total_gt
    total_le := hs.total_le
    received := by simp only [Ota.stream, List.length_drop, List.length_append]; omega
    buffered := by simp only [Ota.stream, List.length_drop, List.length_append]; omega
    bound := h.bound
    aligned := h.aligned
    checked := fun hge => by
      show hdrCheck (SynmHdr.ofBytes (s.ota.capture data)) s.ota.name s.ota.totalSize = .ok ()
      by_cases hlt : s.ota.received < synmHdrSize
      · exact h.checked ⟨hlt, hge⟩
      · rw [Ota.capture, if_neg hlt]
        exact hs.checked (Nat.le_of_not_lt hlt) }

theorem writeChunkLocked_spec (hv : layoutValid cfg) (ho : OtaOk cfg s.ota) (data : List UInt8) :
    Triple (writeChunkLocked cfg data) s (fun _ s' => ∃ k, Wrote cfg data s s' k)
      (fun x s' => (s.ota.state ≠ .downloading ∧ x = .refuse .eperm ∧ s' = s) ∨
        s.ota.state = .downloading ∧ (∃ e, x = .fail e) ∧ WriteFails cfg data s s'.store) := by
  unfold writeChunkLocked
  refine Triple.gets_bind ?_
  refine Triple.ite (fun hn => Triple.throw (.inl ⟨hn, rfl, rfl⟩)) (fun hd => ?_)
  have hd := not_not.mp hd
  have hses := ho hd
  refine Triple.ite (fun hl => Triple.throw (.inr ⟨hd, ⟨_, rfl⟩, .long hl rfl⟩)) (fun hb => ?_)
  have hb := Nat.le_of_not_lt hb
  refine Triple.bind (orFail_spec (captureHdr_spec data s) |>.mono (fun _ _ h => h) ?_) ?_
  · rintro _ s₁ ⟨e, rfl, rfl, hc, he⟩
    exact .inr ⟨hd, ⟨e, rfl⟩, .header hc e he rfl⟩
  rintro _ _ ⟨rfl, hchk⟩
  have hfit : s.ota.writeOff + s.ota.pageBuf.length + data.length ≤ cfg.lay.slotSize := by
    have h1 := hses.received
    have h2 := hses.total_le
    omega
  refine Triple.bind (orFail_spec (fillPages_spec hv data.length data (Nat.le_refl _)
    (s := s.setHdr (s.ota.capture data)) hses.slot_lt hses.aligned hses.buffered hfit) |>.mono
      (fun _ _ h => h) ?_) ?_
  · rintro _ s₁ ⟨e, rfl, hfill, hcut⟩
    exact .inr ⟨hd, ⟨e, rfl⟩, .flash hfill hcut⟩
  rintro _ s₁ ⟨k, h⟩
  refine Triple.modify ⟨k, ?_⟩
  exact {
    state := hd
    bound := hb
    checked := hchk
    le := h.le
    filled := h.filled
    mem := h.mem
    ota := by rw [h.ota]; rfl
    buffered := h.buffered
    aligned := h.aligned
    powered := h.powered }

theorem otaWriteChunk_spec (hv : layoutValid cfg) (ho : OtaOk cfg s.ota) (data : List UInt8) :
    Triple (otaWriteChunk cfg data) s (fun _ s' => ∃ k, Wrote cfg data s s' k)
      (fun _ s' => ((s.ota.state ≠ .downloading ∨ data = []) ∧ s' = s) ∨
        s.ota.state = .downloading ∧ s'.ota.state = .error ∧ WriteFails cfg data s s'.store) := by
  unfold otaWriteChunk
  refine Triple.ite (fun h0 => Triple.throw (.inl ⟨.inr (List.length_eq_zero_iff.mp h0), rfl⟩))
    (fun _ => ?_)
  refine (otaCall_spec (writeChunkLocked_spec hv ho data)).mono (fun _ _ h => h) ?_
  rintro e s' ((⟨hn, -, hs⟩ | ⟨-, ⟨_, he⟩, -⟩) | ⟨hst, s₁, (⟨-, he, -⟩ | ⟨hd, -, hf⟩), hs'⟩)
  · exact .inl ⟨.inl hn, hs⟩
  · cases he
  · cases he
  · exact .inr ⟨hd, hst, hs' ▸ hf⟩

-- ---------------------------------------------------------------------------
-- Finishing
-- ---------------------------------------------------------------------------

/-- The header of the session, once captured. -/
def Ota.synm (o : Ota) : SynmHdr := SynmHdr.ofBytes o.hdr

/-- The bytes the final flush programs. -/
def Ota.tail (cfg : Config) (o : Ota) : List UInt8 :=
  padTo (roundUp o.pageBuf.length cfg.port.pageSize) o.pageBuf

/-- The store once all of the stream is programmed. -/
structure Flushed (cfg : Config) (s : Sys) (t : Store) : Prop where
  state : s.ota.state = .downloading
  complete : s.ota.received = s.ota.totalSize
  filled : Filled cfg s.ota.slot s.store t
  mem : t.flash.mem = s.store.flash.mem.put (cfg.lay.slotOff s.ota.slot + s.ota.writeOff)
    (s.ota.tail cfg)

/-- The payload in the slot is the one the header describes. -/
def PayloadOk (cfg : Config) (o : Ota) (m : Mem) : Prop :=
  PayloadCrc cfg m o.slot o.synm.modelSize.toNat o.synm.crc32

/-- Why a session does not end in READY, and what finishing it did to the store. -/
inductive FinishFails (cfg : Config) (s : Sys) (t : Store) : Prop
  | short (h : s.ota.received ≠ s.ota.totalSize) (ht : t = s.store)
  | flash (ht : Filled cfg s.ota.slot s.store t)
    (hcut : Erased s.store.flash.mem (cfg.lay.slotOff s.ota.slot + s.ota.writeOff)
        (cfg.lay.slotOff s.ota.slot + s.ota.writeOff +
          roundUp s.ota.pageBuf.length cfg.port.pageSize) →
      Flash.CutOnly s.store.flash → t.flash.powered = false)
  | crc (hf : Flushed cfg s t) (h : ¬PayloadOk cfg s.ota t.flash.mem)
  | refused (hf : Flushed cfg s t) (h : PayloadOk cfg s.ota t.flash.mem)
    (hr : s.store.st.ready = true → s.ota.slot = s.store.st.reg.activeSlot)
  | commit (t₁ : Store) (hf : Flushed cfg s t₁) (h : PayloadOk cfg s.ota t₁.flash.mem)
    (hne : s.ota.slot ≠ s.store.st.reg.activeSlot)
    (ha : AbortsTo cfg (Reg.markStaged s.ota.slot (otaRecord cfg s.ota)) t₁ t)

/-- A session that ends in READY. -/
structure Finishes (cfg : Config) (s s' : Sys) (t : Store) : Prop where
  flushed : Flushed cfg s t
  payload : PayloadOk cfg s.ota t.flash.mem
  ne_active : s.ota.slot ≠ s.store.st.reg.activeSlot
  commits : CommitsTo cfg (Reg.markStaged s.ota.slot (otaRecord cfg s.ota)) t s'.store
  state : s'.ota.state = .ready
  slot : s'.ota.slot = s.ota.slot
  record : otaRecord cfg s'.ota = otaRecord cfg s.ota

/-- What validation and staging leave alone of a session. -/
structure SameImage (o o' : Ota) : Prop where
  slot : o'.slot = o.slot
  name : o'.name = o.name
  hdr : o'.hdr = o.hdr

theorem SameImage.record (h : SameImage o o') : otaRecord cfg o' = otaRecord cfg o := by
  simp only [otaRecord, h.slot, h.name, h.hdr]

theorem validate_spec (hsize : payloadOff cfg s.ota.slot + s.ota.synm.modelSize.toNat ≤ cfg.port.size) :
    Triple (validate cfg) s
      (fun _ s' => Filled cfg s.ota.slot s.store s'.store ∧
        s'.store.flash.mem = s.store.flash.mem ∧ SameImage s.ota s'.ota ∧
        PayloadOk cfg s.ota s.store.flash.mem)
      (fun _ s' => Filled cfg s.ota.slot s.store s'.store ∧
        s'.store.flash.mem = s.store.flash.mem ∧ SameImage s.ota s'.ota ∧
        (¬PayloadOk cfg s.ota s.store.flash.mem ∨
          (Flash.CutOnly s.store.flash → s'.store.flash.powered = false))) := by
  unfold validate Sys.modifyOta
  refine Triple.modify_bind (Triple.gets_bind ?_)
  dsimp only
  have hcrc := Store.onFlash_spec (s := s.store) (payloadCrc_spec
    (show 0 < 128 by decide) hsize s.store.flash)
  have hfill : ∀ t : Store, t = { s.store with flash := t.flash } →
      t.flash.mem = s.store.flash.mem → Flash.Later s.store.flash t.flash →
      Filled cfg s.ota.slot s.store t := fun t ht hm hl =>
    ⟨⟨hm ▸ Mem.SameOutside.rfl, hl⟩, by rw [ht], by rw [ht]⟩
  refine Triple.bind (Sys.onStore_spec (s := { s with ota := { s.ota with state := .validating } })
    hcrc |>.mono (fun _ _ h => h) ?_) ?_
  · rintro e s₁ ⟨⟨⟨hm, hl, hcut⟩, hst⟩, hs₁⟩
    exact ⟨hfill _ hst hm hl, hm, by rw [hs₁]; exact ⟨rfl, rfl, rfl⟩, .inr hcut⟩
  rintro crc s₁ ⟨⟨⟨rfl, hm, hl⟩, hst⟩, hs₁⟩
  have himg : SameImage s.ota s₁.ota := by rw [hs₁]; exact ⟨rfl, rfl, rfl⟩
  refine Triple.ite (fun hne => Triple.throw ⟨hfill _ hst hm hl, hm, himg, .inl hne⟩)
    (fun heq => Triple.pure' ⟨hfill _ hst hm hl, hm, himg, not_not.mp heq⟩)

theorem stage_spec (hv : layoutValid cfg) (hf : s.store.st.reg.Fits cfg)
    (hs : s.ota.slot < cfg.lay.slotCount) :
    Triple (stage cfg) s
      (fun _ s' => s.ota.slot ≠ s.store.st.reg.activeSlot ∧
        CommitsTo cfg (Reg.markStaged s.ota.slot (otaRecord cfg s.ota)) s.store s'.store ∧
        SameImage s.ota s'.ota ∧ s'.ota.state = .ready)
      (fun _ s' => ((s.store.st.ready = true → s.ota.slot = s.store.st.reg.activeSlot) ∧
          s'.store = s.store) ∨
        s.ota.slot ≠ s.store.st.reg.activeSlot ∧
          AbortsTo cfg (Reg.markStaged s.ota.slot (otaRecord cfg s.ota)) s.store s'.store) := by
  unfold stage Sys.modifyOta
  refine Triple.modify_bind (Triple.gets_bind ?_)
  refine Triple.bind (Sys.onStore_spec (s := { s with ota := { s.ota with state := .staging } })
    (storeMarkStaged_spec hv hf s.ota.slot (otaRecord cfg s.ota)) |>.mono (fun _ _ h => h) ?_) ?_
  · rintro e s₁ ⟨⟨hr, h⟩ | ⟨hne, h⟩, -⟩
    · exact .inl ⟨fun h1 => hr h1 hs, h⟩
    · exact .inr ⟨hne.2, h⟩
  · rintro _ s₁ ⟨⟨hne, h⟩, hs₁⟩
    refine Triple.modify ⟨hne.2, h, ?_, rfl⟩
    rw [hs₁]
    exact ⟨rfl, rfl, rfl⟩

/-- A complete session ends in READY with its record committed, or the reason
why not is known. -/
theorem otaFinish_spec (hv : layoutValid cfg) (ho : OtaOk cfg s.ota)
    (hf : s.store.st.reg.Fits cfg) :
    Triple (otaFinish cfg) s (fun _ s' => ∃ t, Finishes cfg s s' t)
      (fun _ s' => (s.ota.state ≠ .downloading ∧ s' = s) ∨
        s.ota.state = .downloading ∧ s'.ota.state = .error ∧ FinishFails cfg s s'.store) := by
  have hlocked : Triple (finishLocked cfg) s (fun _ s' => ∃ t, Finishes cfg s s' t)
      (fun x s' => (s.ota.state ≠ .downloading ∧ x = .refuse .eperm ∧ s' = s) ∨
        s.ota.state = .downloading ∧ (∃ e, x = .fail e) ∧ FinishFails cfg s s'.store) := by
    unfold finishLocked
    refine Triple.gets_bind ?_
    refine Triple.ite (fun hn => Triple.throw (.inl ⟨hn, rfl, rfl⟩)) (fun hd => ?_)
    have hd := not_not.mp hd
    have hses := ho hd
    refine Triple.ite (fun hl => Triple.throw (.inr ⟨hd, ⟨_, rfl⟩, .short hl rfl⟩)) (fun hc => ?_)
    have hc := not_not.mp hc
    have hwin := hv.slot_in_window hses.slot_lt
    have hr := hses.received
    have htot := hses.total_le
    have hgt := hses.total_gt
    have hms : s.ota.synm.modelSize.toNat = s.ota.totalSize - synmHdrSize :=
      (hdrCheck_ok (hses.checked (by omega))).2.2.1
    -- the final flush
    have hflush := flushPages_spec hv (s := s) true hses.slot_lt hses.aligned (by omega)
    simp only [↓reduceIte] at hflush
    have hlen := le_roundUp (v := s.ota.pageBuf.length) cfg.port.page_pos
    rw [List.take_of_length_le hlen] at hflush
    refine Triple.bind (orFail_spec hflush |>.mono (fun _ _ h => h) ?_) ?_
    · rintro _ s₁ ⟨e, rfl, hfill, -, hcut⟩
      exact .inr ⟨hd, ⟨e, rfl⟩, .flash hfill hcut⟩
    rintro _ s₁ ⟨hfill₁, hm₁, hota₁, -⟩
    have himg₁ : SameImage s.ota s₁.ota := by rw [hota₁]; exact ⟨rfl, rfl, rfl⟩
    have hsynm : s₁.ota.synm = s.ota.synm := by rw [Ota.synm, himg₁.hdr]; rfl
    have hpay : PayloadOk cfg s₁.ota s₁.store.flash.mem ↔ PayloadOk cfg s.ota s₁.store.flash.mem := by
      rw [PayloadOk, PayloadOk, hsynm, himg₁.slot]
    have hflushed : ∀ t, Filled cfg s.ota.slot s₁.store t → t.flash.mem = s₁.store.flash.mem →
        Flushed cfg s t := fun t ht hm =>
      ⟨hd, hc, IsTrans.trans _ _ _ hfill₁ ht, hm.trans hm₁⟩
    -- the CRC of what landed
    refine Triple.bind (orFail_spec (validate_spec (s := s₁) (by
      rw [hsynm, himg₁.slot, hms, payloadOff]; omega)) |>.mono (fun _ _ h => h) ?_) ?_
    · rintro _ s₂ ⟨e, rfl, hfill₂, hm₂, -, hbad | hcut⟩
      all_goals rw [himg₁.slot] at hfill₂
      · refine .inr ⟨hd, ⟨e, rfl⟩, .crc (hflushed _ hfill₂ hm₂) ?_⟩
        rw [hm₂]
        exact fun h => hbad (hpay.mpr h)
      · exact .inr ⟨hd, ⟨e, rfl⟩, .flash (IsTrans.trans _ _ _ hfill₁ hfill₂)
          fun _ hco => hcut (hco.later hfill₁.within.later)⟩
    rintro _ s₂ ⟨hfill₂, hm₂, himg₂, hok⟩
    rw [himg₁.slot] at hfill₂
    have hok : PayloadOk cfg s.ota s₂.store.flash.mem := hm₂ ▸ hpay.mp hok
    have hfl := hflushed _ hfill₂ hm₂
    have hst₂ : s₂.store.st = s.store.st := hfl.filled.st
    have hslot : s₂.ota.slot = s.ota.slot := himg₂.slot.trans himg₁.slot
    have hrec : otaRecord cfg s₂.ota = otaRecord cfg s.ota := himg₂.record.trans himg₁.record
    -- the commit
    have hstage := stage_spec hv (s := s₂) (hst₂ ▸ hf) (hslot ▸ hses.slot_lt)
    rw [hslot, hrec, hst₂] at hstage
    refine (orFail_spec hstage).mono ?_ ?_
    · rintro _ s₃ ⟨hne, hcm, himg₃, hready⟩
      exact ⟨s₂.store, hfl, hok, hne, hcm, hready, himg₃.slot.trans hslot,
        himg₃.record.trans hrec⟩
    · rintro _ s₃ ⟨e, rfl, ⟨hr, hst₃⟩ | ⟨hne, ha⟩⟩
      · exact .inr ⟨hd, ⟨e, rfl⟩, hst₃ ▸ .refused hfl hok hr⟩
      · exact .inr ⟨hd, ⟨e, rfl⟩, .commit s₂.store hfl hok hne ha⟩
  refine (otaCall_spec hlocked).mono (fun _ _ h => h) ?_
  rintro e s' ((⟨hn, -, hs⟩ | ⟨-, ⟨_, he⟩, -⟩) | ⟨hst, s₁, (⟨-, he, -⟩ | ⟨hd, -, hx⟩), hs'⟩)
  · exact .inl ⟨hn, hs⟩
  · cases he
  · cases he
  · exact .inr ⟨hd, hst, hs' ▸ hx⟩

end SynapticOS
