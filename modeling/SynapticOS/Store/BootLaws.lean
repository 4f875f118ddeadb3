import SynapticOS.Store.CommitLaws

/-!
# What the boot scan adopts

Whatever the reads do, a loaded header is one that `copyView` accepts. When no
read fails the scan adopts the newest registry (`Adopted`), and the adopted
state is in step with the copies (`Adopted.sync`).
-/

namespace SynapticOS

open Lib

variable {cfg : Config} {m : Mem} {c : Copy} {sc sc' : Scan}

-- ---------------------------------------------------------------------------
-- Loading a copy
-- ---------------------------------------------------------------------------

/-- The scan only reads. -/
structure Scanned (sc sc' : Scan) : Prop where
  mem : sc'.flash.mem = sc.flash.mem
  later : Flash.Later sc.flash sc'.flash

instance : IsPreorder Scan Scanned where
  refl _ := ⟨rfl, Std.Refl.refl _⟩
  trans _ _ _ h h' := ⟨h'.mem.trans h.mem, IsTrans.trans _ _ _ h.later h'.later⟩

/-- A read of the scan that no fault met. -/
theorem isBlank_scan_spec (hr : Flash.checkRange cfg.port off len) :
    Triple (onScan (Flash.isBlank cfg.port off len)) sc
      (fun b sc' => Scanned sc sc' ∧ b = blank sc.flash.mem off len ∧ sc'.imgBuf = sc.imgBuf)
      (fun _ sc' => Scanned sc sc' ∧ (Flash.CutOnly sc.flash → sc'.flash.powered = false)) :=
  Triple.zoom (((Flash.isBlank_spec cfg.port off len sc.flash).and
    (Triple.of_respects (Flash.isBlank_later cfg.port off len) sc.flash)).mono
      (fun _ _ h => ⟨⟨h.1.2.1, h.2⟩, h.1.1, rfl⟩) (fun _ _ h => ⟨⟨h.1.1, h.2⟩, h.1.2 hr⟩))

theorem readImg_spec (hr : Flash.checkRange cfg.port off len) :
    Triple (readImg cfg off len) sc
      (fun _ sc' => Scanned sc sc' ∧ sc'.imgBuf.take len = sc.flash.mem.read off len)
      (fun _ sc' => Scanned sc sc' ∧ (Flash.CutOnly sc.flash → sc'.flash.powered = false)) := by
  unfold readImg
  refine Triple.bind (Triple.zoom (Q := fun bs sc₁ => Scanned sc sc₁ ∧
    bs = sc.flash.mem.read off len) (((Flash.read_spec cfg.port off len sc.flash).and
      (Triple.of_respects (Flash.read_later cfg.port off len) sc.flash)).mono
        (fun _ _ h => ⟨⟨h.1.2.1, h.2⟩, h.1.1⟩) (fun _ _ h => ⟨⟨h.1.1, h.2⟩, h.1.2 hr⟩))) ?_
  rintro _ sc₁ ⟨hs, rfl⟩
  exact Triple.modify ⟨⟨hs.mem, hs.later⟩, List.take_left' Mem.length_read⟩

/-- Zeroing the CRC field leaves the records alone. -/
theorem unpackRecord_zeroCrc (img : List UInt8) (h : 24 ≤ img.length) (s : Nat) :
    unpackRecord (zeroCrc img) s = unpackRecord img s := by
  have hl : (img.take 20 ++ [0, 0, 0, 0]).length = hdrSize := by
    simp [hdrSize, Nat.min_eq_left (show 20 ≤ img.length by omega)]
  have hi : img = img.take 24 ++ img.drop 24 := (List.take_append_drop 24 img).symm
  have hl' : (img.take 24).length = hdrSize := by simp [hdrSize]; omega
  rw [unpackRecord, unpackRecord, zeroCrc, ← List.append_assoc, slice_right hl]
  conv => rhs; rw [hi, slice_right hl']

theorem take_zeroCrc {img : List UInt8} (h : 24 ≤ n) (hn : n ≤ img.length) :
    (zeroCrc img).take n = zeroCrc (img.take n) := by
  obtain ⟨k, rfl⟩ := Nat.exists_eq_add_of_le h
  have hl : (img.take 20 ++ [0, 0, 0, 0]).length = 24 := by
    simp [Nat.min_eq_left (show 20 ≤ img.length by omega)]
  rw [zeroCrc, zeroCrc, ← List.append_assoc, ← List.append_assoc, List.take_append, hl,
    List.take_of_length_le (by omega), Nat.add_sub_cancel_left, List.take_take,
    List.drop_take, Nat.add_sub_cancel_left, Nat.min_eq_left (by omega)]

theorem StoreHdr.slots_normalize (h : StoreHdr) : h.normalize.slots = h.slots := by
  unfold StoreHdr.normalize
  split <;> rfl

/-- What a load reports, if it reports a header, is what the copy holds. -/
structure Loaded (cfg : Config) (c : Copy) (sc sc' : Scan) (r : Option StoreHdr) : Prop where
  scanned : Scanned sc sc'
  sound : ∀ h, r = some h → copyView cfg sc.flash.mem c = some h
  records : ∀ h, r = some h → ∀ s < h.slots,
    unpackRecord sc'.imgBuf s = copyRecord cfg sc.flash.mem c s
  complete : Flash.CutOnly sc.flash → sc'.flash.powered = true → r = copyView cfg sc.flash.mem c

theorem copyLoad_spec (hv : layoutValid cfg) (c : Copy) (sc : Scan) :
    Triple (copyLoad cfg c) sc (fun r sc' => Loaded cfg c sc sc' r) (fun _ _ => False) := by
  have hwin := hv.copy_in_window c
  have hpage := hv.page_le_registry
  have hpos := cfg.port.page_pos
  have hhdr : hdrSize ≤ cfg.lay.registrySize :=
    (hdrSize_le_imgSize 0).trans (hv.imgSize_le (Nat.zero_le _))
  -- a refusal that no fault explains is one `copyView` makes as well
  have hnone : ∀ sc', Scanned sc sc' →
      (Flash.CutOnly sc.flash → sc'.flash.powered = true → copyView cfg sc.flash.mem c = none) →
      Loaded cfg c sc sc' none := fun sc' hs hc =>
    ⟨hs, fun h hh => by simp at hh, fun h hh => by simp at hh, fun h1 h2 => (hc h1 h2).symm⟩
  have hfail : ∀ sc', Scanned sc sc' → (Flash.CutOnly sc.flash → sc'.flash.powered = false) →
      Loaded cfg c sc sc' none := fun sc' hs hc =>
    hnone sc' hs fun h1 h2 => by simp [hc h1] at h2
  unfold copyLoad
  dsimp only
  refine Triple.attempt_bind (isBlank_scan_spec ⟨by omega, by omega, by omega⟩) ?_
    (fun e sc₁ h => Triple.pure' (hfail sc₁ h.1 h.2))
  rintro b sc₁ ⟨hs₁, hb, -⟩
  cases b with
  | true => exact Triple.pure' (hnone sc₁ hs₁ fun _ _ => by simp [copyView, ← hb])
  | false =>
    dsimp only
    refine Triple.attempt_bind (readImg_spec
      ⟨by decide, by omega, by omega⟩) ?_ (fun e sc₂ h => Triple.pure' ?_)
    · rintro _ sc₂ ⟨hs₂, hi₂⟩
      have hs₂ := IsTrans.trans _ _ _ hs₁ hs₂
      dsimp only
      refine Triple.gets_bind ?_
      rw [hi₂, hs₁.mem]
      generalize hH : StoreHdr.ofBytes (sc.flash.mem.read (cfg.lay.registryOff c) hdrSize) = hdr
      refine Triple.ite (fun hn => Triple.pure' (hnone sc₂ hs₂ fun _ _ => ?_)) (fun ha => ?_)
      · simp [copyView, hH, hn]
      have ha := not_not.mp ha
      have hle := ha.imgSize_le hv
      have hpos' := imgSize_pos hdr.slots
      refine Triple.attempt_bind (readImg_spec
        ⟨by omega, by omega, by omega⟩) ?_
          (fun e sc₃ h => Triple.pure' ?_)
      · rintro _ sc₃ ⟨hs₃, hi₃⟩
        have hs₃ := IsTrans.trans _ _ _ hs₂ hs₃
        rw [hs₂.mem] at hi₃
        dsimp only
        refine Triple.ite (fun hn => Triple.pure' (hnone sc₃ hs₃ fun _ _ => ?_)) (fun hr => ?_)
        · simp [copyView, hH, hn]
        refine Triple.modify_bind (Triple.gets_bind ?_)
        have hlen : imgSize hdr.slots ≤ sc₃.imgBuf.length := by
          have h := congrArg List.length hi₃
          simp only [List.length_take, Mem.length_read] at h
          omega
        rw [take_zeroCrc (hdrSize_le_imgSize hdr.slots) hlen, hi₃]
        refine Triple.ite (fun hn => Triple.pure' (hnone _ ⟨hs₃.mem, hs₃.later⟩ fun _ _ => ?_))
          (fun hcrc => Triple.pure' ?_)
        · simp [copyView, hH, hn]
        have hview : copyView cfg sc.flash.mem c = some hdr.normalize := by
          simp only [copyView, hH]
          exact if_pos ⟨hb.symm, ha, not_not.mp hr, not_not.mp hcrc⟩
        refine ⟨⟨hs₃.mem, hs₃.later⟩, fun h hh => by rw [hview, hh], fun h hh i hi => ?_,
          fun _ _ => hview.symm⟩
        cases hh
        rw [StoreHdr.slots_normalize] at hi
        have hend := record_end_le hi
        have h24 : 24 ≤ imgSize hdr.slots := hdrSize_le_imgSize hdr.slots
        rw [unpackRecord_zeroCrc _ (by omega), unpackRecord, copyRecord, Nat.add_assoc,
          ← slice_read _ _ hend, ← hi₃, slice_take _ hend]
      · exact hfail sc₃ (IsTrans.trans _ _ _ hs₂ h.1) fun hc => h.2 (hc.later hs₂.later)
    · exact hfail sc₂ (IsTrans.trans _ _ _ hs₁ h.1) fun hc => h.2 (hc.later hs₁.later)

-- ---------------------------------------------------------------------------
-- The scan
-- ---------------------------------------------------------------------------

/-- `st` is the state a scan adopts when every read succeeds. -/
structure Adopted (cfg : Config) (m : Mem) (st : St) : Prop where
  reg : st.reg = ((adopt Reg.seqNo (copyReg cfg m)).map Prod.snd).getD Reg.empty
  newest : ∀ c r, adopt Reg.seqNo (copyReg cfg m) = some (c, r) → st.newestCopy = c
  valid : ∀ c, st.copyValid c = (copyReg cfg m c).isSome

/-- Every field of the adopted state but the records comes from a header that
`copyView` accepts, whatever the reads do. -/
def FromHeader (cfg : Config) (m : Mem) (r : Reg) : Prop :=
  r = Reg.empty ∨ ∃ c h rec, copyView cfg m c = some h ∧ r = h.reg rec

/-- The scan over headers and the scan over registries adopt the same copy. -/
theorem adopt_copyReg (cfg : Config) (m : Mem) :
    adopt Reg.seqNo (copyReg cfg m) = (adopt (fun h => h.generation.toNat) (copyView cfg m)).map
      fun x => (x.1, x.2.reg (copyRecord cfg m x.1)) :=
  adopt_map (fun c h => StoreHdr.reg h (copyRecord cfg m c)) fun _ _ => rfl

theorem bootScan_spec (hv : layoutValid cfg) (sc : Scan) :
    Triple (bootScan cfg) sc
      (fun st sc' => Scanned sc sc' ∧ FromHeader cfg sc.flash.mem st.reg ∧
        (Flash.CutOnly sc.flash → sc'.flash.powered = true → Adopted cfg sc.flash.mem st))
      (fun _ _ => False) := by
  unfold bootScan
  refine Triple.bind (copyLoad_spec hv .zero sc) ?_
  intro h0 sc₁ l0
  refine Triple.bind (copyLoad_spec hv .one sc₁) ?_
  intro h1 sc₂ l1
  have hs₂ : Scanned sc sc₂ := IsTrans.trans _ _ _ l0.scanned l1.scanned
  extract_lets hdr wear
  have hzero : hdr .zero = h0 := rfl
  have hone : hdr .one = h1 := rfl
  clear_value hdr
  have hsound : ∀ c h, hdr c = some h → copyView cfg sc.flash.mem c = some h := by
    rw [← l0.scanned.mem]
    intro c h hh
    cases c with
    | zero =>
      rw [hzero] at hh
      rw [l0.scanned.mem]
      exact l0.sound h hh
    | one =>
      rw [hone] at hh
      exact l1.sound h hh
  have hcomplete : Flash.CutOnly sc.flash → sc₂.flash.powered = true →
      hdr = copyView cfg sc.flash.mem := by
    intro hc hp
    funext c
    cases c with
    | zero =>
      rw [hzero]
      exact l0.complete hc (l1.scanned.later.powered hp)
    | one =>
      rw [hone, ← l0.scanned.mem]
      exact l1.complete (hc.later l0.scanned.later) hp
  cases ha : adopt (fun h => h.generation.toNat) hdr with
  | none =>
    refine Triple.pure' ⟨hs₂, .inl rfl, fun hc hp => ?_⟩
    have hnone : adopt Reg.seqNo (copyReg cfg sc.flash.mem) = none := by
      rw [adopt_copyReg, ← hcomplete hc hp, ha]
      rfl
    exact {
      reg := by rw [hnone]; rfl
      newest := fun c r h => by simp [hnone] at h
      valid := fun c => by rw [adopt_none hnone c]; rfl }
  | some x =>
    obtain ⟨newest, h⟩ := x
    have hview := hsound newest h (adopt_some ha).1
    refine Triple.bind (copyLoad_spec hv newest sc₂) ?_
    intro again sc₃ l2
    refine Triple.gets_bind (Triple.pure' ?_)
    have hs₃ : Scanned sc sc₃ := IsTrans.trans _ _ _ hs₂ l2.scanned
    have hagain : again.getD h = h := by
      cases again with
      | none => rfl
      | some h' =>
        have := l2.sound h' rfl
        rw [hs₂.mem, hview] at this
        exact (Option.some.inj this).symm
    refine ⟨hs₃, .inr ⟨newest, h, _, hview, by rw [hagain]⟩, fun hc hp => ?_⟩
    have hh := hcomplete hc (l2.scanned.later.powered hp)
    have hload : again = some h := by
      rw [l2.complete (hc.later hs₂.later) hp, hs₂.mem, hview]
    have hadopt : adopt Reg.seqNo (copyReg cfg sc.flash.mem) =
        some (newest, h.reg (copyRecord cfg sc.flash.mem newest)) := by
      rw [adopt_copyReg, ← hh, ha]
      rfl
    exact {
      reg := by
        rw [hadopt, hagain]
        refine StoreHdr.reg_congr fun i hi => ?_
        rw [l2.records h hload i hi, hs₂.mem]
      newest := fun c r hcr => by
        rw [hadopt] at hcr
        cases hcr
        rfl
      valid := fun c => by rw [hh, copyReg, Option.isSome_map] }

/-- The generations of two valid copies differ. -/
def GensDiffer (cfg : Config) (m : Mem) : Prop :=
  ∀ a b, copyReg cfg m .zero = some a → copyReg cfg m .one = some b → a.seqNo ≠ b.seqNo

theorem GensDiffer.ne (h : GensDiffer cfg m) {a b : Reg} (ha : copyReg cfg m c = some a)
    (hb : copyReg cfg m c.other = some b) : b.seqNo ≠ a.seqNo := by
  cases c with
  | zero => exact fun he => h a b ha hb he.symm
  | one => exact h b a hb ha

theorem Sync.gensDiffer {s : Store} (h : Sync cfg s) : GensDiffer cfg s.flash.mem := by
  intro a b ha hb
  cases ht : s.st.target with
  | zero => exact fun he => h.tracks.gen_ne (x := b) (b := a) (ht ▸ hb) (ht ▸ ha) he.symm
  | one => exact h.tracks.gen_ne (x := a) (b := b) (ht ▸ ha) (ht ▸ hb)

/-- A store that has just adopted the newest registry is in step with it. -/
theorem Adopted.sync {s : Store} (h : Adopted cfg s.flash.mem s.st)
    (hd : GensDiffer cfg s.flash.mem) : Sync cfg s := by
  cases ha : adopt Reg.seqNo (copies cfg s) with
  | none =>
    have hr : s.st.reg = Reg.empty := by rw [h.reg, ha]; rfl
    have hn := adopt_none ha
    have hk : s.st.kept = false := by
      rw [St.kept, h.valid]
      exact Option.isSome_eq_false_iff.mpr (Option.isNone_iff_eq_none.mpr (hn _))
    exact {
      fits := hr ▸ Reg.empty_fits
      tracks := {
        other := by rw [hk, hn]; rfl
        spare := fun b hb => by rw [hn] at hb; cases hb }
      fresh := fun _ => hr }
  | some x =>
    obtain ⟨c, r⟩ := x
    have hr : s.st.reg = r := by rw [h.reg, ha]; rfl
    have hc := (adopt_some ha).1
    have hk : s.st.kept = true := by
      rw [St.kept, h.valid, h.newest c r ha]
      exact Option.isSome_iff_exists.mpr ⟨r, hc⟩
    have ht : s.st.target = c.other := by
      rw [← Copy.other_other s.st.target, St.target_other_of_kept hk, h.newest c r ha]
    exact {
      fits := hr ▸ copyReg_fits hc
      tracks := by
        rw [ht, hk, hr]
        exact Tracks.of_adopt ha fun b hb => hd.ne hc hb
      fresh := fun hk' => by simp [hk] at hk' }

/-- A scan that adopts after any history finds the adopted state again, or the
registry a failed commit left ahead of it. -/
theorem Adopted.cases {s : Store} {st : St} (h : Adopted cfg s.flash.mem st) (hs : Sync cfg s) :
    st.reg = s.st.reg ∨ ∃ r, copies cfg s s.st.target = some r ∧
      r.seqNo = s.st.reg.seqNo + 1 ∧ st.reg = r := by
  rcases hs.tracks.adopt_cases with ha | ⟨r, hr, hg, ha⟩
  · left
    rw [h.reg, ha]
    cases hk : s.st.kept with
    | true => rfl
    | false => exact (hs.fresh hk).symm
  · exact .inr ⟨r, hr, hg, by rw [h.reg, ha]; rfl⟩

/-- What holds of everything a scan might adopt holds of what it adopts. -/
theorem Adopted.guarded {P : Reg → Prop} {s : Store} {st : St} (h : Adopted cfg s.flash.mem st)
    (hs : Sync cfg s) (hg : Guarded cfg P s) : P st.reg := by
  rcases h.cases hs with hr | ⟨r, hr, hn, he⟩
  · exact hr ▸ hg.base
  · exact he ▸ hg.copies _ r hr (by omega)

end SynapticOS
