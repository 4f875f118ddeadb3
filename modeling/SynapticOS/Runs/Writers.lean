import SynapticOS.Runs.Calm

/-!
# The two writers of a slot

`syn_store_install` writes header pages and then the payload in pieces of the I/O
buffer; a session streams the same bytes through a page buffer. On a flash without
faults both leave the same bytes in the slot and the same place, size, CRC and name
in the record.
-/

namespace SynapticOS

open Lib

variable {cfg : Config} {s s' s₁ : Sys} {t t' : Store} {slot total : Nat}
variable {name data image : List UInt8} {info : ModelInfo}

-- ---------------------------------------------------------------------------
-- Headers
-- ---------------------------------------------------------------------------

namespace SynmHdr

theorem shapeAt_shapeBytes (v : Vector UInt16 4) (b : List UInt8) :
    shapeAt (shapeBytes v ++ b) 0 = v := by
  ext i hi
  have hblock := slice_flatMap length_le16 v.toList (i := i) (by simpa using hi)
  have hlen : (shapeBytes v).length = 8 := length_shapeBytes v
  have hi' : i < v.toList.length := by simpa using hi
  have hleft : slice (shapeBytes v ++ b) (2 * i) 2 = le16 v.toList[i] := by
    rw [slice_left (by omega)]
    exact hblock
  simp only [shapeAt, Vector.getElem_ofFn, Nat.zero_add, u16At, hleft, ofNat_ofLe_le16,
    Vector.getElem_toList]

theorem shapeAt_append {a : List UInt8} (h : a.length ≤ off) (b : List UInt8) :
    shapeAt (a ++ b) off = shapeAt b (off - a.length) := by
  ext i hi
  simp only [shapeAt, Vector.getElem_ofFn]
  rw [u16At_append (by omega)]
  congr 2
  omega

/-- A header is read back from its bytes. -/
theorem ofBytes_bytes (h : SynmHdr) (b : List UInt8) : ofBytes (h.bytes ++ b) = h := by
  have hb : h.bytes ++ b = le32 h.magic ++ (le32 h.version ++ (h.name.toList ++ (le32 h.modelSize ++
      (le32 h.crc32 ++ (shapeBytes h.inputShape ++ (shapeBytes h.outputShape ++ b)))))) := by
    simp [bytes]
  rw [hb]
  simp [ofBytes, u32At_append, bytesAt_append, shapeAt_append, u32At_le32, bytesAt_toList,
    shapeAt_shapeBytes]

end SynmHdr

/-- The header and the payload that an installation puts in its slot. -/
def packaged (info : ModelInfo) (data : List UInt8) : List UInt8 :=
  (installHdr info data).bytes ++ data

theorem length_packaged (info : ModelInfo) (data : List UInt8) :
    (packaged info data).length = synmHdrSize + data.length := by
  rw [packaged, List.length_append, SynmHdr.length_bytes]

/-- They are an image of the model's name. -/
theorem packaged_wellFormed (hz : 0 ∉ name) (hl : name.length ≤ 31) (hn : info.name = packName name)
    (hlen : data.length < 2 ^ 32) :
    WellFormed name (synmHdrSize + data.length) (packaged info data) := by
  have hhdr : imageHdr (packaged info data) = installHdr info data := by
    rw [imageHdr, packaged, List.take_left' (SynmHdr.length_bytes _)]
    have h := SynmHdr.ofBytes_bytes (installHdr info data) []
    rwa [List.append_nil] at h
  have hdrop : (packaged info data).drop synmHdrSize = data := by
    rw [packaged, List.drop_left' (SynmHdr.length_bytes _)]
  refine ⟨length_packaged info data, ?_, ?_, ?_, ?_, ?_⟩
  · rw [hhdr]
    rfl
  · rw [hhdr]
    rfl
  · rw [hhdr, Nat.add_sub_cancel_left]
    exact UInt32.toNat_ofNat_of_lt' hlen
  · rw [hhdr]
    show info.name.toList.takeWhile (· ≠ 0) = name
    rw [hn]
    exact packName_cname hz hl
  · rw [hhdr, hdrop]
    rfl

-- ---------------------------------------------------------------------------
-- The slot before it is filled
-- ---------------------------------------------------------------------------

/-- Dropping a predecessor and freeing a slot leave the bytes of the slots alone. -/
theorem Superseded.slotBytes (hv : layoutValid cfg) (h : Superseded cfg t t')
    (hs : slot < cfg.lay.slotCount) :
    Mem.SameOn (cfg.lay.slotOff slot) (cfg.lay.slotOff slot + cfg.lay.slotSize)
      t.flash.mem t'.flash.mem := by
  cases h with
  | same _ h => rw [h]; exact fun _ _ _ => rfl
  | cleared _ h => exact h.slot hv hs
  | kept _ h => exact h.slot hv hs

theorem Freed.slotBytes {i : Nat} (hv : layoutValid cfg) (h : Freed cfg i t t')
    (hs : slot < cfg.lay.slotCount) :
    Mem.SameOn (cfg.lay.slotOff slot) (cfg.lay.slotOff slot + cfg.lay.slotSize)
      t.flash.mem t'.flash.mem := by
  rcases h with ⟨-, -, -, rfl⟩ | ⟨-, -, h⟩
  · exact fun _ _ _ => rfl
  · exact h.slot hv hs

/-- A begin leaves its slot alone behind the sectors it erases. -/
theorem otaBegin_tail (hv : layoutValid cfg) (hf : s.store.st.reg.Fits cfg)
    (h : (otaBegin cfg name total).run s = (.ok (), s')) :
    let off := cfg.lay.slotOff (stagingSlot cfg s.store.st.reg)
    Mem.SameOn (off + roundUp total cfg.port.sectorSize) (off + cfg.lay.slotSize)
      s.store.flash.mem s'.store.flash.mem := by
  have hslot := (stagingSlot_spec hv s.store.st.reg).1
  have hlocked : Triple (beginLocked cfg name total) s
      (fun _ s' => let off := cfg.lay.slotOff (stagingSlot cfg s.store.st.reg)
        Mem.SameOn (off + roundUp total cfg.port.sectorSize) (off + cfg.lay.slotSize)
          s.store.flash.mem s'.store.flash.mem) (fun _ _ => True) := by
    unfold beginLocked
    refine Triple.bind ((beginPrepare_spec hv hf name total).mono (fun _ _ h => h)
      fun _ _ _ => trivial) ?_
    rintro _ s₁ ⟨rfl, hle, hsup, -⟩
    unfold beginErase
    refine Triple.bind (orFail_spec
        (Sys.onStore_spec (storeBeginStaging_spec hv (hsup.fits hf) _)) |>.mono
      (fun _ _ h => h) fun _ _ _ => trivial) ?_
    rintro _ s₂ ⟨hfr, -⟩
    refine Triple.bind (orFail_spec (Sys.onStore_spec (Store.onFlash_spec
      (Flash.eraseSectors_spec cfg.port _ _ _))) |>.mono (fun _ _ h => h) fun _ _ _ => trivial) ?_
    rintro _ s₃ ⟨⟨⟨ho, -⟩, -⟩, -⟩
    refine Triple.modify ?_
    dsimp only
    intro a h1 h2
    show s₃.store.flash.mem a = _
    rw [ho a (.inr h1), hfr.slotBytes hv hslot a (by omega) h2, hsup.slotBytes hv hslot a
        (by omega) h2]
  have hall : Triple (otaBegin cfg name total) s
      (fun _ s' => let off := cfg.lay.slotOff (stagingSlot cfg s.store.st.reg)
        Mem.SameOn (off + roundUp total cfg.port.sectorSize) (off + cfg.lay.slotSize)
          s.store.flash.mem s'.store.flash.mem) (fun _ _ => True) := by
    unfold otaBegin
    refine Triple.get_bind ?_
    refine Triple.ite (fun _ => Triple.throw trivial) (fun _ => ?_)
    refine Triple.ite (fun _ => Triple.throw trivial) (fun _ => ?_)
    exact (otaCall_spec hlocked).mono (fun _ _ h => h) fun _ _ _ => trivial
  exact hall.ok h

-- ---------------------------------------------------------------------------
-- The two ways
-- ---------------------------------------------------------------------------

/-- An installation on a flash without faults, the slot and its record. -/
theorem storeInstall_imaged (hv : layoutValid cfg) (hf : t.st.reg.Fits cfg)
    (hh : Flash.Healthy t.flash) {h : Nat}
    (hr : (storeInstall cfg info data).run t = (.ok h, t')) :
    let slot := stagingSlot cfg t.st.reg
    (synmHdrSize + data.length ≤ cfg.lay.slotSize) ∧
      (∃ fl fl', Mem.SameOn (cfg.lay.slotOff slot) (cfg.lay.slotOff slot + cfg.lay.slotSize)
          t.flash.mem fl.mem ∧ Imaged cfg (cfg.lay.slotOff slot) (packaged info data) fl fl' ∧
        Mem.SameOn (cfg.lay.slotOff slot) (cfg.lay.slotOff slot + cfg.lay.slotSize)
          fl'.mem t'.flash.mem) ∧
      t'.st.reg.activeSlot = slot ∧ t'.st.reg.record slot = installRecord cfg slot info data := by
  dsimp only
  have hslot := (stagingSlot_spec hv t.st.reg).1
  have hall : Triple (storeInstall cfg info data) t
      (fun _ t' => let slot := stagingSlot cfg t.st.reg
        (synmHdrSize + data.length ≤ cfg.lay.slotSize) ∧
          (∃ fl fl', Mem.SameOn (cfg.lay.slotOff slot) (cfg.lay.slotOff slot + cfg.lay.slotSize)
              t.flash.mem fl.mem ∧ Imaged cfg (cfg.lay.slotOff slot) (packaged info data) fl fl' ∧
            Mem.SameOn (cfg.lay.slotOff slot) (cfg.lay.slotOff slot + cfg.lay.slotSize)
              fl'.mem t'.flash.mem) ∧
          t'.st.reg.activeSlot = slot ∧
          t'.st.reg.record slot = installRecord cfg slot info data) (fun _ _ => True) := by
    unfold storeInstall
    refine Triple.gets_bind ?_
    split
    · exact Triple.throw trivial
    rename_i slot hc
    obtain ⟨hi, rfl⟩ := installChecks_ok hc
    generalize stagingSlot cfg t.st.reg = slot at hslot
    refine Triple.bind ((storeBeginStaging_spec hv hf slot).mono (fun _ _ h => h)
      fun _ _ _ => trivial) ?_
    intro _ t₁ hfr
    unfold installLocked
    refine Triple.bind ((Store.onFlash_spec
        (installPayload_faultless hv (hh.later hfr.later) hslot info
      hi.fits)).mono (fun _ _ h => h) fun _ _ _ => trivial) ?_
    rintro _ t₂ ⟨⟨himg, -⟩, ht₂⟩
    have hst : t₂.st = t₁.st := by rw [ht₂]
    refine Triple.bind ((commitUpdate_spec' hv _
        (Reg.install_fits hv (by rw [hst]; exact hfr.fits hf)
      hslot (installRecord cfg slot info data))).mono (fun _ _ h => h) fun _ _ _ => trivial) ?_
    intro _ t₃ hcm
    refine (registerSlot_spec cfg slot t₃).mono ?_ (fun _ _ _ => trivial)
    rintro _ t₄ ⟨hd, -⟩
    refine ⟨hi.fits, ⟨t₁.flash, t₂.flash, hfr.slotBytes hv hslot, himg, ?_⟩, ?_, ?_⟩
    · rw [hd.flash]
      exact hcm.slot hv hslot
    · rw [hd.st, hcm.reg]
      rfl
    · rw [hd.st, hcm.reg]
      simp [Reg.install, Reg.setRecord]
  exact hall.ok hr

theorem Opened.streams (ho : Opened cfg name total s₁) (hv : layoutValid cfg)
    (chunks : List (Env × List UInt8)) (hc : ∀ c ∈ chunks, c.1.plan = [] ∧ c.2 ≠ [])
    (hw : WellFormed name total (image ++ (chunks.map Prod.snd).flatten))
    (h : Streaming cfg s₁ image s) :
    Streaming cfg s₁ (image ++ (chunks.map Prod.snd).flatten)
      (run (sysStep cfg) s (chunks.map fun c => (c.1, .otaWriteChunk c.2))) := by
  induction chunks generalizing image s with
  | nil =>
    show Streaming cfg s₁ (image ++ []) s
    rw [List.append_nil]
    exact h
  | cons c chunks ih =>
    have happ : image ++ ((c :: chunks).map Prod.snd).flatten =
        (image ++ c.2) ++ (chunks.map Prod.snd).flatten := by
      rw [List.append_assoc]
      rfl
    rw [happ] at hw ⊢
    have hstep := ho.step hv (hc c List.mem_cons_self).1 (hc c List.mem_cons_self).2 (.inl h)
    exact ih (fun d hd => hc d (List.mem_cons_of_mem c hd)) hw
        (hstep.resolve_right fun hr => hr.bad _ hw)

/-- The record of a session whose chunks are an image. -/
theorem Opened.record (ho : Opened cfg name total s₁) (hv : layoutValid cfg) (fin : Env)
    {chunks : List (Env × List UInt8)} (hc : ∀ c ∈ chunks, c.1.plan = [] ∧ c.2 ≠ [])
    (hw : WellFormed name total (chunks.map Prod.snd).flatten)
    (hr : (run (sysStep cfg) s₁ (otaSession chunks fin)).ota.state = .ready) :
    ((run (sysStep cfg) s₁ (otaSession chunks fin)).store.st.reg.record s₁.ota.slot).name =
      s₁.ota.name := by
  have hstr := ho.streams hv chunks hc (by rwa [List.nil_append]) ho.start
  rw [otaSession, run_append] at hr ⊢
  generalize run (sysStep cfg) s₁ (chunks.map fun c => (c.1, Op.otaWriteChunk c.2)) = s at hr hstr
  have hfits : (s.enter fin).store.st.reg.Fits cfg := (hstr.enter fin).st ▸ ho.fits
  have hspec := otaFinish_spec hv (s := s.enter fin) (fun _ => (hstr.enter fin).books) hfits
  have hstep : sysStep cfg s (fin, .otaFinish) = ((otaFinish cfg).run (s.enter fin)).2 := by
    show (if s.store.flash.powered = true then _ else _ : Except Errno Unit × Sys).2 = _
    rw [if_pos hstr.powered]
    rfl
  rw [run_cons, run_nil, hstep] at hr ⊢
  unfold Triple at hspec
  split at hspec
  next hrun =>
    rw [hrun]
    obtain ⟨t, hf⟩ := hspec
    have hslot := (hstr.enter fin).slot
    rw [hf.commits.reg, ← hslot]
    show (Function.update t.st.reg.record _ _ _).name = _
    rw [Function.update_self]
    exact (hstr.enter fin).name
  next hrun =>
    rw [hrun] at hr
    rcases hspec with ⟨hn, rfl⟩ | ⟨-, herr, -⟩
    · exact absurd (hstr.enter fin).state hn
    · rw [herr] at hr
      cases hr

/-- In every state of every run, on a flash without faults: an installation and a
session that is begun with the same name and fed the same image, cut into chunks
anyhow, leave the same bytes in the whole slot, and records that agree on the place,
the size, the CRC and the name of the payload. -/
theorem writers_agree (hv : layoutValid cfg) (m : Mem) (past : List (Env × Op)) (hz : 0 ∉ name)
    (hl : name.length ≤ 31) (hn : info.name = packName name) {env₁ env₂ fin : Env}
    (hp₁ : env₁.plan = []) (hp₂ : env₂.plan = []) (hfin : fin.plan = [])
    (hi : call cfg (run (sysStep cfg) (Sys.cold m) past) (env₁, .install info data) = (.ok (), s'))
    (hb : call cfg (run (sysStep cfg) (Sys.cold m) past)
      (env₂, .otaBegin name (synmHdrSize + data.length)) = (.ok (), s₁))
    {chunks : List (Env × List UInt8)} (hc : ∀ c ∈ chunks, c.1.plan = [] ∧ c.2 ≠ [])
    (hall : (chunks.map Prod.snd).flatten = packaged info data) :
    let slot := stagingSlot cfg (run (sysStep cfg) (Sys.cold m) past).store.st.reg
    let s₂ := run (sysStep cfg) s₁ (otaSession chunks fin)
    let installed := s'.store.st.reg.record slot
    let streamed := s₂.store.st.reg.record slot
    s₂.ota.state = .ready ∧ s₂.store.st.reg.stagedSlot = slot ∧ s'.store.st.reg.activeSlot = slot ∧
      s₂.store.flash.mem.read (cfg.lay.slotOff slot) cfg.lay.slotSize =
        s'.store.flash.mem.read (cfg.lay.slotOff slot) cfg.lay.slotSize ∧
      streamed.flashOffset = installed.flashOffset ∧ streamed.flashSize = installed.flashSize ∧
      streamed.crc32 = installed.crc32 ∧ streamed.name = installed.name := by
  dsimp only
  have hfit := fitting_run hv m past
  have hses := session_accepts hv m past hz hl hp₂ hb hc hfin
  have hopen := opened hv hfit hz hl hp₂ hb
  generalize run (sysStep cfg) (Sys.cold m) past = s at hi hb hfit
  have hslot := (stagingSlot_spec hv s.store.st.reg).1
  have hwin := hv.slot_in_window hslot
  have hbase := cfg.port.window
  -- the installation
  unfold call at hi hb
  dsimp only at hi hb
  split at hi
  swap
  · cases hi
  next hon =>
  rw [if_pos hon] at hb
  have hins : ∃ h, (storeInstall cfg info data).run (s.enter env₁).store = (.ok h, s'.store) := by
    have hrun : (exec cfg (.install info data)).run (s.enter env₁) =
        match (storeInstall cfg info data).run (s.enter env₁).store with
        | (.ok _, t) => (.ok (), { s.enter env₁ with store := t })
        | (.error e, t) => (.error e, { s.enter env₁ with store := t }) := by
      show (Sys.onStore (storeInstall cfg info data) >>= fun _ => pure ()).run (s.enter env₁) = _
      rw [Act.run_bind, Sys.onStore, Act.run_zoom]
      rcases (storeInstall cfg info data).run (s.enter env₁).store with ⟨_ | _, _⟩ <;> rfl
    rw [hrun] at hi
    split at hi
    next h t hr =>
      cases hi
      exact ⟨h, hr⟩
    next => cases hi
  obtain ⟨h, hins⟩ := hins
  obtain ⟨hle, ⟨fl, fl', hsame, himg, hsame'⟩, hact, hrec⟩ :=
    storeInstall_imaged hv hfit.store (t := (s.enter env₁).store) ⟨hon, hp₁⟩ hins
  have hreg : (s.enter env₁).store.st.reg = s.store.st.reg := rfl
  rw [hreg] at hsame himg hsame' hact hrec
  -- the session
  obtain ⟨-, -, hbegun⟩ := (otaBegin_spec hv (s := s.enter env₂) hfit.store name _).ok hb
  have htail := otaBegin_tail hv (s := s.enter env₂) hfit.store hb
  have hs₁ : s₁.ota.slot = stagingSlot cfg s.store.st.reg := by rw [hbegun]; rfl
  have hw := packaged_wellFormed hz hl hn (show data.length < 2 ^ 32 by omega)
  have hname := hopen.record hv fin hc (hall ▸ hw)
  rw [hall] at hses
  have hacc := hses.2.1 hw
  have hready := hses.1.mpr hw
  generalize run (sysStep cfg) s₁ (otaSession chunks fin) = s₂ at hacc hready hname
  rw [hs₁] at hacc hname
  have htail : Mem.SameOn (cfg.lay.slotOff (stagingSlot cfg s.store.st.reg) +
      roundUp (synmHdrSize + data.length) cfg.port.sectorSize)
      (cfg.lay.slotOff (stagingSlot cfg s.store.st.reg) + cfg.lay.slotSize)
      s.store.flash.mem s₁.store.flash.mem := htail
  have herased := hopen.erased
  rw [hs₁] at herased
  have hrecName : s₁.ota.name = packName name := by rw [hbegun]; rfl
  rw [hrecName] at hname
  generalize stagingSlot cfg s.store.st.reg = slot at *
  have hsec := padded_le_sectors cfg (packaged info data)
  rw [length_packaged] at hsec
  refine ⟨hready, hacc.staged, hact, ?_, ?_, ?_, ?_, ?_⟩
  · refine Mem.read_congr fun a h1 h2 => ?_
    rcases Nat.lt_or_ge a (cfg.lay.slotOff slot + (padded cfg (packaged info data)).length) with
        h | h
    · -- the image
      rw [hsame' a h1 h2]
      exact Mem.sameOn_of_read (himg.image.trans hacc.bytes.symm) a h1 h
    rw [hacc.rest a h h2, hsame' a h1 h2]
    rcases Nat.lt_or_ge a (cfg.lay.slotOff slot +
        roundUp (synmHdrSize + data.length) cfg.port.sectorSize) with h' | h'
    · -- the erased rest of its last sector
      rw [himg.blank a h (by rw [length_packaged]; exact h'), herased a (by omega) h']
    · rw [himg.outside a (.inr (by rw [length_packaged]; exact h')), hsame a h1 h2, htail a h' h2]
      rfl
  · rw [hrec, ← UInt32.toNat_inj, hacc.flashOffset]
    exact (UInt32.toNat_ofNat_of_lt' (by rw [payloadOff]; show _ < 2 ^ 32; omega)).symm
  · rw [hrec, ← UInt32.toNat_inj, hacc.flashSize, length_packaged, Nat.add_sub_cancel_left]
    exact (UInt32.toNat_ofNat_of_lt' (by show _ < 2 ^ 32; omega)).symm
  · rw [hrec, hacc.crc32, packaged, List.drop_left' (SynmHdr.length_bytes _)]
    rfl
  · rw [hrec, hname hready]
    exact hn.symm

/-- An installation on a device that has just come up. -/
def smallInstall : Except Errno Unit × Sys :=
  call smallDevice (run (sysStep smallDevice) (Sys.cold erasedMem) [(quiet, .boot)])
    (quiet, .install (namedModel 65) [1, 2])

theorem smallInstall_fst : smallInstall.1 = .ok () := by decide +kernel

theorem smallInstall_ok : call smallDevice (run (sysStep smallDevice) (Sys.cold erasedMem)
    [(quiet, .boot)]) (quiet, .install (namedModel 65) [1, 2]) = (.ok (), smallInstall.2) := by
  rw [← smallInstall_fst]
  exact (Prod.mk.eta (p := smallInstall)).symm

theorem smallChunks_packaged :
    (smallChunks.map Prod.snd).flatten = packaged (namedModel 65) [1, 2] := by decide +kernel

theorem writers_agree_small :
    (run (sysStep smallDevice) smallBegin.2 (otaSession smallChunks quiet)).ota.state = .ready :=
  (writers_agree smallDevice_valid erasedMem [(quiet, .boot)] (show 0 ∉ [65] by decide)
    (by decide) rfl rfl rfl rfl smallInstall_ok smallBegin_ok smallChunks_ok smallChunks_packaged).1

end SynapticOS
