import SynapticOS.Store.Commit
import SynapticOS.Store.ImageLaws

/-!
# What a commit can do

A commit touches one registry copy. When it succeeds the copy holds the RAM
state under the next generation; when it fails the copy is as it was, blank,
torn, or complete all the same (`Landing`). `commitUpdate_spec` is the law the
operations use: on failure the RAM state is back where it was.
-/

namespace SynapticOS

open Lib

variable {cfg : Config} {c : Copy} {s s' s'' : Store} {r : Reg} {gen : UInt32}

-- ---------------------------------------------------------------------------
-- Steps on the flash and on the state
-- ---------------------------------------------------------------------------

theorem Store.onFlash_spec {x : FlashM α} {Q : α → Flash → Prop} {E : Errno → Flash → Prop}
    (h : Triple x s.flash Q E) :
    Triple (Store.onFlash x) s (fun a s' => Q a s'.flash ∧ s' = { s with flash := s'.flash })
      (fun e s' => E e s'.flash ∧ s' = { s with flash := s'.flash }) :=
  Triple.zoom (h.mono (fun _ _ hq => ⟨hq, rfl⟩) (fun _ _ he => ⟨he, rfl⟩))

-- ---------------------------------------------------------------------------
-- Torn images
-- ---------------------------------------------------------------------------

def erasedMem : Mem := fun _ => erasedByte

theorem copyReg_erased (cfg : Config) (c : Copy) : copyReg cfg erasedMem c = none :=
  copyReg_blank (blank_iff.mpr fun _ _ _ => rfl)

/-- A registry copy after a program that stopped `n` bytes into `img`. -/
def tornMem (cfg : Config) (c : Copy) (img : List UInt8) (n : Nat) : Mem :=
  erasedMem.put (cfg.lay.registryOff c) (img.take n)

/-- The copies of a registry before and after a commit of `r` as `gen`. -/
inductive Landing (cfg : Config) (c : Copy) (r : Reg) (gen : UInt32) (fl fl' : Flash) : Prop
  | same (h : copyReg cfg fl'.mem c = copyReg cfg fl.mem c)
  | blank (h : copyReg cfg fl'.mem c = none)
  | torn (wear : UInt32) (n : Nat) (hn : n < imgSize cfg.lay.slotCount)
      (ht : .program (cfg.lay.registryOff c) (imageBuild cfg r gen wear) n ∈ fl'.trace)
      (h : copyReg cfg fl'.mem c = copyReg cfg (tornMem cfg c (imageBuild cfg r gen wear) n) c)
  | full (h : copyReg cfg fl'.mem c = some { r with generation := gen })

/-- Every registry image that was torn is rejected, unless what landed of it
reads like the whole image. -/
def TornRejected (cfg : Config) (trace : List FlashOp) : Prop :=
  ∀ c img n, .program (cfg.lay.registryOff c) img n ∈ trace → n < imgSize cfg.lay.slotCount →
    copyReg cfg (tornMem cfg c img n) c = none ∨
    (tornMem cfg c img n).read (cfg.lay.registryOff c) (imgSize cfg.lay.slotCount) =
      img.take (imgSize cfg.lay.slotCount)

theorem TornRejected.earlier {t t' : List FlashOp} (h : TornRejected cfg t') (hp : t <+: t') :
    TornRejected cfg t := fun c img n hm hn => h c img n (hp.subset hm) hn

/-- Not a torn registry image. -/
def wholeImage (cfg : Config) : FlashOp → Bool
  | .program off _ n => imgSize cfg.lay.slotCount ≤ n ∨
    off ≠ cfg.lay.registryOff .zero ∧ off ≠ cfg.lay.registryOff .one
  | .erase .. => true

/-- A flash on which no registry image was torn. -/
theorem TornRejected.of_whole {trace : List FlashOp} (h : trace.all (wholeImage cfg) = true) :
    TornRejected cfg trace := by
  intro c img n hm hn
  have hw := List.all_eq_true.mp h _ hm
  simp only [wholeImage, ne_eq, decide_eq_true_eq] at hw
  rcases hw with hle | ⟨h0, h1⟩
  · omega
  · cases c
    · exact absurd rfl h0
    · exact absurd rfl h1

theorem take_imageBuild (cfg : Config) (r : Reg) (gen wear : UInt32) :
    (imageBuild cfg r gen wear).take (imgSize cfg.lay.slotCount) = imageCore cfg r gen wear := by
  rw [imageBuild]
  exact List.take_left' (length_imageCore cfg r gen wear)

/-- Under the assumption on the CRC, a commit leaves the old copy, nothing, or
the new registry. -/
theorem Landing.lands (h : Landing cfg c r gen fl fl') (hv : layoutValid cfg) (hf : r.Fits cfg)
    (ht : TornRejected cfg fl'.trace) :
    copyReg cfg fl'.mem c = copyReg cfg fl.mem c ∨ copyReg cfg fl'.mem c = none ∨
      copyReg cfg fl'.mem c = some { r with generation := gen } := by
  cases h with
  | same h => exact .inl h
  | blank h => exact .inr (.inl h)
  | full h => exact .inr (.inr h)
  | torn wear n hn hmem h =>
    right
    rw [h]
    refine (ht c _ n hmem hn).imp_right fun hread => ?_
    rw [take_imageBuild] at hread
    exact copyReg_of_image hv hf hread

-- ---------------------------------------------------------------------------
-- Writing a copy
-- ---------------------------------------------------------------------------

/-- The other regions, the RAM registry and all of the state but a wear counter
are as before. -/
structure CopyFrame (cfg : Config) (c : Copy) (s s' : Store) : Prop where
  models : s'.models = s.models
  mem : Mem.SameOutside (cfg.lay.registryOff c) (cfg.lay.registryOff c + cfg.lay.registrySize)
    s.flash.mem s'.flash.mem
  later : Flash.Later s.flash s'.flash
  st : ∃ wear, s'.st = { s.st with wear := wear }

theorem CopyFrame.refl (cfg : Config) (c : Copy) (s : Store) : CopyFrame cfg c s s where
  models := rfl
  mem := Mem.SameOutside.rfl
  later := Std.Refl.refl _
  st := ⟨s.st.wear, rfl⟩

theorem CopyFrame.trans (h : CopyFrame cfg c s s') (h' : CopyFrame cfg c s' s'') :
    CopyFrame cfg c s s'' where
  models := h'.models.trans h.models
  mem := h.mem.trans h'.mem
  later := IsTrans.trans _ _ _ h.later h'.later
  st := by
    obtain ⟨w, hw⟩ := h.st
    obtain ⟨w', hw'⟩ := h'.st
    exact ⟨w', by rw [hw', hw]⟩

/-- A step on the flash alone. -/
theorem CopyFrame.flash {fl : Flash} (hl : Flash.Later s.flash fl)
    (hm : Mem.SameOutside (cfg.lay.registryOff c) (cfg.lay.registryOff c + cfg.lay.registrySize)
      s.flash.mem fl.mem) : CopyFrame cfg c s { s with flash := fl } where
  models := rfl
  mem := hm
  later := hl
  st := ⟨s.st.wear, rfl⟩

/-- The read-back of a copy that holds the image fails only at the flash. -/
theorem verify_spec (hv : layoutValid cfg) (img : List UInt8) (c : Copy)
    (hm : s.flash.mem.read (cfg.lay.registryOff c) (imgSize cfg.lay.slotCount) =
      img.take (imgSize cfg.lay.slotCount)) :
    Triple (Act.chunks 64 (imgSize cfg.lay.slotCount)
        (fun pos n (_ : Unit) => verifyRound cfg (cfg.lay.registryOff c) img pos n)
        (imgSize cfg.lay.slotCount) 0 ()) s
      (fun _ s' => CopyFrame cfg c s s' ∧ s'.flash.mem = s.flash.mem ∧
        (s.flash.powered = true → s'.flash.powered = true) ∧ s'.st = s.st)
      (fun _ s' => CopyFrame cfg c s s' ∧ s'.flash.mem = s.flash.mem ∧ s'.st = s.st ∧
        (Flash.CutOnly s.flash → s'.flash.powered = false)) := by
  refine Triple.chunks (fun _ _ s' => CopyFrame cfg c s s' ∧ s'.flash.mem = s.flash.mem ∧
      (s.flash.powered = true → s'.flash.powered = true) ∧ s'.st = s.st) (by decide) ?_ _ _ _ _
    (by omega) (Nat.zero_le _) ⟨CopyFrame.refl cfg c s, rfl, fun h => h, rfl⟩
  intro pos _ t hpos ⟨hframe, hmem, hpow, hst⟩
  have hn : min 64 (imgSize cfg.lay.slotCount - pos) ≤ imgSize cfg.lay.slotCount - pos :=
    Nat.min_le_right _ _
  have hn0 : 0 < min 64 (imgSize cfg.lay.slotCount - pos) := by omega
  generalize min 64 (imgSize cfg.lay.slotCount - pos) = n at hn hn0
  have hrange : Flash.checkRange cfg.port (cfg.lay.registryOff c + pos) n := by
    have h1 := hv.copy_in_window c
    have h2 := hv.imgSize_le (Nat.le_refl cfg.lay.slotCount)
    exact ⟨by omega, by omega, by omega⟩
  have hpage : t.flash.mem.read (cfg.lay.registryOff c + pos) n = slice img pos n := by
    rw [hmem, ← slice_read _ _ (show pos + n ≤ imgSize cfg.lay.slotCount by omega), hm,
      slice_take _ (by omega)]
  refine Triple.bind (Store.onFlash_spec ((Flash.read_spec cfg.port _ n t.flash).and
    (Triple.of_respects (Flash.read_later cfg.port _ n) t.flash)) |>.mono (fun _ _ h => h) ?_) ?_
  · rintro e t' ⟨⟨⟨hm', hcut⟩, hl⟩, ht'⟩
    have hf : CopyFrame cfg c t t' := by
      rw [ht']
      exact CopyFrame.flash hl (hm' ▸ Mem.SameOutside.rfl)
    exact ⟨hframe.trans hf, hm'.trans hmem, by rw [ht', hst],
      fun h => hcut hrange (h.later hframe.later)⟩
  · rintro bs t' ⟨⟨⟨rfl, hm', hp'⟩, hl⟩, ht'⟩
    have hf : CopyFrame cfg c t t' := by
      rw [ht']
      exact CopyFrame.flash hl (hm' ▸ Mem.SameOutside.rfl)
    rw [if_pos hpage]
    exact Triple.pure' ⟨hframe.trans hf, hm'.trans hmem, fun _ => hp', by rw [ht', hst]⟩

/-- An erased copy that was programmed looks like an erased flash that was. -/
theorem sameOn_torn {m m' : Mem} {img : List UInt8} {n : Nat}
    (hm : m' = (m.put (cfg.lay.registryOff c)
      (List.replicate cfg.lay.registrySize erasedByte)).put (cfg.lay.registryOff c) (img.take n)) :
    Mem.SameOn (cfg.lay.registryOff c) (cfg.lay.registryOff c + cfg.lay.registrySize)
      (tornMem cfg c img n) m' := by
  intro a h1 h2
  rw [hm, tornMem]
  obtain ⟨i, rfl⟩ := Nat.exists_eq_add_of_le h1
  by_cases hi : i < (img.take n).length
  · rw [Mem.put_add hi, Mem.put_add hi]
  · have hge := Nat.add_le_add_left (Nat.le_of_not_lt hi) (cfg.lay.registryOff c)
    rw [Mem.put_of_ge hge, Mem.put_of_ge hge, erased_put _ h1 h2]
    rfl

/-- An erased copy that was programmed for `n` bytes is torn or complete. -/
theorem landing_of_program (hv : layoutValid cfg) (hf : r.Fits cfg) {wear : UInt32} {n : Nat}
    {fl fl' : Flash} (hle : n ≤ (imageBuild cfg r gen wear).length)
    (hm : fl'.mem = (fl.mem.put (cfg.lay.registryOff c)
      (List.replicate cfg.lay.registrySize erasedByte)).put (cfg.lay.registryOff c)
        ((imageBuild cfg r gen wear).take n))
    (ht : n = 0 ∨ .program (cfg.lay.registryOff c) (imageBuild cfg r gen wear) n ∈ fl'.trace) :
    Landing cfg c r gen fl fl' := by
  have hsame := sameOn_torn hm
  have hreg := copyReg_congr hv hsame
  by_cases hn : n < imgSize cfg.lay.slotCount
  · rcases ht with rfl | ht
    · refine .blank (copyReg_blank (blank_iff.mpr ?_))
      have hpage := hv.page_le_registry
      intro a h1 h2
      rw [hsame a h1 (by omega)]
      simp [tornMem, erasedMem]
    · exact .torn wear n hn ht hreg
  · suffices h : fl'.mem.read (cfg.lay.registryOff c) (imgSize cfg.lay.slotCount) =
        imageCore cfg r gen wear from .full (copyReg_of_image hv hf h)
    rw [hm, Mem.read_put_take (by simp only [List.length_take]; omega), List.take_take,
      Nat.min_eq_left (by omega), take_imageBuild]

theorem blank_of_erased {m : Mem} {len : Nat} (hlen : cfg.port.sectorSize ≤ len) :
    copyReg cfg (m.put (cfg.lay.registryOff c) (List.replicate len erasedByte)) c = none := by
  have hpage : cfg.port.pageSize ≤ cfg.port.sectorSize :=
    Nat.le_of_dvd cfg.port.sector_pos cfg.port.page_dvd_sector
  exact copyReg_blank (blank_iff.mpr (erased_put.mono (Nat.le_refl _) (by omega)))

theorem copyWrite_spec (hv : layoutValid cfg) (hf : s.st.reg.Fits cfg) (c : Copy) (gen : UInt32) :
    Triple (copyWrite cfg c gen) s
      (fun _ s' => CopyFrame cfg c s s' ∧ s'.flash.powered = true ∧
        copyReg cfg s'.flash.mem c = some { s.st.reg with generation := gen })
      (fun _ s' => CopyFrame cfg c s s' ∧ Landing cfg c s.st.reg gen s.flash s'.flash ∧
        (Flash.CutOnly s.flash → s'.flash.powered = false)) := by
  have hwin := hv.copy_in_window c
  have hfit := hv.image_fits
  have hsec := hv.sector_le_registry
  have hreg : Flash.checkRange cfg.port (cfg.lay.registryOff c) cfg.lay.registrySize :=
    ⟨hv.2.2.1, by omega, by omega⟩
  unfold copyWrite
  refine Triple.get_bind ?_
  dsimp only
  generalize s.st.wear c + 1 = wear
  have hlen := length_imageBuild cfg s.st.reg gen wear
  -- the erase
  refine Triple.bind ((Store.onFlash_spec ((Flash.erase_spec cfg.port (cfg.lay.registryOff c)
    cfg.lay.registrySize s.flash).and (Triple.of_respects (Flash.erase_later _ _ _) _))).mono
      (fun _ _ h => h) ?_) ?_
  · rintro e s₁ ⟨⟨⟨⟨done, hdone, hm, hz⟩, hcut⟩, hl⟩, hs₁⟩
    refine ⟨?_, ?_, hcut hreg (hv.copy_aligned c) hv.registrySize_aligned⟩
    · rw [hs₁]
      refine CopyFrame.flash hl ?_
      rw [hm]
      exact Mem.sameOutside_put (by simp; omega)
    · rcases hz with rfl | hz
      · exact .same (by rw [hm]; simp)
      · exact .blank (by rw [hm]; exact blank_of_erased hz)
  rintro _ s₁ ⟨⟨⟨hm, hp, -⟩, hl⟩, hs₁⟩
  have hframe : CopyFrame cfg c s { s₁ with st := { s₁.st with
      wear := Function.update s₁.st.wear c wear } } := by
    rw [hs₁]
    exact {
      models := rfl
      mem := by rw [hm]; exact Mem.sameOutside_put (by simp)
      later := hl
      st := ⟨_, rfl⟩ }
  refine Triple.modify_bind ?_
  generalize hs₂ : ({ s₁ with st := { s₁.st with
    wear := Function.update s₁.st.wear c wear } } : Store) = s₂ at hframe
  have hfl : s₂.flash = s₁.flash := by rw [← hs₂]
  -- the program
  have hrange : Flash.checkRange cfg.port (cfg.lay.registryOff c)
      (imageBuild cfg s.st.reg gen wear).length := by
    have := hv.page_le_registry
    have h0 := align_le_roundUp (imgSize_pos cfg.lay.slotCount) cfg.port.page_pos
    have h1 := cfg.port.page_pos
    rw [hlen]
    exact ⟨by omega, by omega, by omega⟩
  have herased : Erased s₂.flash.mem (cfg.lay.registryOff c)
      (cfg.lay.registryOff c + (imageBuild cfg s.st.reg gen wear).length) := by
    rw [hfl, hm]
    exact erased_put.mono (Nat.le_refl _) (by omega)
  refine Triple.bind ((Store.onFlash_spec ((Flash.write_spec cfg.port (cfg.lay.registryOff c)
    (imageBuild cfg s.st.reg gen wear) s₂.flash).and
      (Triple.of_respects (Flash.write_later _ _ _) _))).mono (fun _ _ h => h) ?_) ?_
  · rintro e s₃ ⟨⟨⟨n, hn, hm₃, ht, hcut⟩, hl₃⟩, hs₃⟩
    have hf₃ : CopyFrame cfg c s₂ s₃ := by
      rw [hs₃]
      refine CopyFrame.flash hl₃ ?_
      rw [hm₃]
      exact Mem.sameOutside_put (by simp only [List.length_take]; omega)
    refine ⟨hframe.trans hf₃, landing_of_program hv hf hn ?_ ht, fun hc =>
      hcut hrange (hv.copy_page_aligned c) (by rw [hlen]; exact roundUp_mod _ _) herased
        (hc.later hframe.later)⟩
    rw [hm₃, hfl, hm]
  rintro _ s₃ ⟨⟨⟨hm₃, hp₃, -⟩, hl₃⟩, hs₃⟩
  have hf₃ : CopyFrame cfg c s₂ s₃ := by
    rw [hs₃]
    refine CopyFrame.flash hl₃ ?_
    rw [hm₃]
    exact Mem.sameOutside_put (by omega)
  -- the read-back
  have hread : s₃.flash.mem.read (cfg.lay.registryOff c) (imgSize cfg.lay.slotCount) =
      (imageBuild cfg s.st.reg gen wear).take (imgSize cfg.lay.slotCount) := by
    rw [hm₃, Mem.read_put_take]
    rw [hlen]
    exact le_roundUp cfg.port.page_pos
  have hcopy : copyReg cfg s₃.flash.mem c = some { s.st.reg with generation := gen } :=
    copyReg_of_image hv hf (hread.trans (take_imageBuild _ _ _ _))
  refine (verify_spec hv (imageBuild cfg s.st.reg gen wear) c hread).mono ?_ ?_
  · rintro _ s₄ ⟨hf₄, hm₄, hp₄, -⟩
    exact ⟨(hframe.trans hf₃).trans hf₄, hp₄ hp₃, by rw [hm₄]; exact hcopy⟩
  · rintro e s₄ ⟨hf₄, hm₄, -, hcut⟩
    exact ⟨(hframe.trans hf₃).trans hf₄, .full (by rw [hm₄]; exact hcopy),
      fun hc => hcut (hc.later (hframe.trans hf₃).later)⟩

-- ---------------------------------------------------------------------------
-- Commits
-- ---------------------------------------------------------------------------

/-- What a commit leaves alone, whatever it reports. -/
structure CommitFrame (cfg : Config) (s s' : Store) : Prop where
  mem : Mem.SameOutside (cfg.lay.registryOff s.st.target)
    (cfg.lay.registryOff s.st.target + cfg.lay.registrySize) s.flash.mem s'.flash.mem
  later : Flash.Later s.flash s'.flash
  ready : s'.st.ready = s.st.ready

/-- The copy that was the target holds `r` under the next generation. -/
structure Committed (cfg : Config) (r : Reg) (s s' : Store) : Prop
    extends CommitFrame cfg s s' where
  powered : s'.flash.powered = true
  reg : s'.st.reg = { r with generation := s.st.reg.generation + 1 }
  copy : copyReg cfg s'.flash.mem s.st.target = some s'.st.reg
  valid : s'.st.copyValid = Function.update s.st.copyValid s.st.target true
  newest : s'.st.newestCopy = s.st.target

/-- The adopted state is as before; `r` may have landed in the target. -/
structure Aborted (cfg : Config) (r : Reg) (s s' : Store) : Prop
    extends CommitFrame cfg s s' where
  reg : s'.st.reg = s.st.reg
  landing : Landing cfg s.st.target r (s.st.reg.generation + 1) s.flash s'.flash
  valid : s'.st.copyValid = Function.update s.st.copyValid s.st.target false
  newest : s'.st.newestCopy = s.st.newestCopy
  cut : Flash.CutOnly s.flash → s'.flash.powered = false

theorem commit_spec (hv : layoutValid cfg) (hf : s.st.reg.Fits cfg) :
    Triple (commit cfg) s (fun _ s' => Committed cfg s.st.reg s s' ∧ s'.models = s.models)
      (fun _ s' => Aborted cfg s.st.reg s s' ∧ s'.models = s.models) := by
  unfold commit
  refine Triple.gets_bind ?_
  unfold copyCommit
  refine Triple.attempt_bind (copyWrite_spec hv hf s.st.target (s.st.reg.generation + 1)) ?_ ?_
  · rintro _ s₁ ⟨hframe, hp, hc⟩
    obtain ⟨w, hw⟩ := hframe.st
    refine Triple.modify ⟨?_, hframe.models⟩
    exact {
      mem := hframe.mem
      later := hframe.later
      ready := by rw [hw]; rfl
      powered := hp
      reg := by rw [hw]
      copy := by rw [hw]; exact hc
      valid := by rw [hw]; rfl
      newest := rfl }
  · rintro e s₁ ⟨hframe, hl, hcut⟩
    obtain ⟨w, hw⟩ := hframe.st
    refine Triple.modify_bind (Triple.throw ⟨?_, hframe.models⟩)
    exact {
      mem := hframe.mem
      later := hframe.later
      ready := by rw [hw]; rfl
      reg := by rw [hw]; rfl
      landing := hl
      valid := by rw [hw]; rfl
      newest := by rw [hw]; rfl
      cut := hcut }

/-- On a failure the undo puts the adopted state back. -/
theorem commitUpdate_spec (hv : layoutValid cfg) (u : RegUpdate)
    (hf : (u.apply s.st.reg).Fits cfg) :
    Triple (commitUpdate cfg u) s
      (fun _ s' => Committed cfg (u.apply s.st.reg) s s' ∧ s'.models = s.models)
      (fun _ s' => Aborted cfg (u.apply s.st.reg) s s' ∧ s'.models = s.models) := by
  unfold commitUpdate
  refine Triple.gets_bind (Triple.modify_bind ?_)
  have hg := u.generation_apply s.st.reg
  refine Triple.attempt_bind
    (commit_spec hv (s := { s with st := { s.st with reg := u.apply s.st.reg } }) hf) ?_ ?_
  · rintro _ s₁ ⟨h, hm⟩
    refine Triple.pure' ⟨?_, hm⟩
    exact { h with
      reg := by rw [h.reg, hg]
      copy := h.copy }
  · rintro e s₁ ⟨h, hm⟩
    refine Triple.modify_bind (Triple.throw ⟨?_, hm⟩)
    exact { h with
      reg := by
        show u.undo s.st.reg s₁.st.reg = s.st.reg
        rw [h.reg]
        exact u.undo_apply s.st.reg
      landing := hg ▸ h.landing }

/-- Without a fault ahead every commit succeeds. -/
theorem Aborted.not_healthy (h : Aborted cfg r s s') (hh : Flash.Healthy s.flash) : False := by
  have h1 := h.cut hh.cutOnly
  have h2 := (hh.later h.later).1
  simp [h1] at h2

-- ---------------------------------------------------------------------------
-- The adopted state and the copies
-- ---------------------------------------------------------------------------

/-- What the order of registries is decided by. -/
def Reg.seqNo (r : Reg) : Nat := r.generation.toNat

/-- The registries a boot scan would find. -/
abbrev copies (cfg : Config) (s : Store) : Copy → Option Reg := copyReg cfg s.flash.mem

/-- The store has adopted a copy. -/
def St.kept (st : St) : Bool := st.copyValid st.newestCopy

/-- The target of the next commit is the spare copy; the other one holds the
adopted state. A store that adopted nothing is empty. -/
structure Sync (cfg : Config) (s : Store) : Prop where
  fits : s.st.reg.Fits cfg
  tracks : Tracks Reg.seqNo (copies cfg s) s.st.target s.st.kept s.st.reg
  fresh : s.st.kept = false → s.st.reg = Reg.empty

/-- The next generation does not wrap. -/
def Reg.Bounded (r : Reg) : Prop := r.seqNo + 1 < 2 ^ 32

instance (r : Reg) : Decidable r.Bounded := by unfold Reg.Bounded; infer_instance

theorem Reg.Bounded.seqNo_succ (h : r.Bounded) : (r.generation + 1).toNat = r.seqNo + 1 := by
  unfold Reg.Bounded Reg.seqNo at *
  rw [UInt32.toNat_add]
  exact Nat.mod_eq_of_lt h

theorem CommitFrame.copyReg_other (hv : layoutValid cfg) (h : CommitFrame cfg s s') :
    copies cfg s' s.st.target.other = copies cfg s s.st.target.other := by
  refine copyReg_congr hv (h.mem.sameOn ?_)
  rcases hv.copies_apart s.st.target with ha | ha
  · exact .inr ha
  · exact .inl ha

/-- The payload regions are out of reach of a commit. -/
theorem CommitFrame.slot (hv : layoutValid cfg) (h : CommitFrame cfg s s')
    (hs : i < cfg.lay.slotCount) :
    Mem.SameOn (cfg.lay.slotOff i) (cfg.lay.slotOff i + cfg.lay.slotSize)
      s.flash.mem s'.flash.mem := by
  refine h.mem.sameOn ?_
  rcases hv.copy_slot_apart s.st.target hs with ha | ha
  · exact .inr ha
  · exact .inl ha

theorem Reg.Fits.of_generation (h : r.Fits cfg) (g : UInt32) :
    ({ r with generation := g } : Reg).Fits cfg := { h with }

theorem St.target_other_of_kept {st : St} (h : st.kept = true) : st.target.other = st.newestCopy := by
  simp only [St.kept] at h
  simp [St.target, h]

theorem Committed.target (h : Committed cfg r s s') :
    s'.st.target = s.st.target.other ∧ s'.st.kept = true := by
  have hk : s'.st.kept = true := by simp [St.kept, h.valid, h.newest]
  refine ⟨?_, hk⟩
  rw [← Copy.other_other s'.st.target, St.target_other_of_kept hk, h.newest]

theorem Aborted.target (h : Aborted cfg r s s') :
    s'.st.target = s.st.target ∧ s'.st.kept = s.st.kept := by
  have hk : s'.st.kept = s.st.kept := by
    simp only [St.kept, h.valid, h.newest]
    cases hc : s.st.copyValid s.st.newestCopy with
    | true =>
      rw [Function.update_of_ne, hc]
      rw [← St.target_other_of_kept hc]
      exact Copy.other_ne _
    | false =>
      rw [Function.update_apply]
      split
      · rfl
      · exact hc
  refine ⟨?_, hk⟩
  rw [St.target, St.target, h.newest]
  simp only [St.kept, h.newest] at hk
  rw [hk]

theorem Committed.sync (hv : layoutValid cfg) (h : Committed cfg r s s') (hs : Sync cfg s)
    (hf : r.Fits cfg) (hb : s.st.reg.Bounded) : Sync cfg s' where
  fits := h.reg ▸ hf.of_generation _
  tracks := by
    rw [h.target.1, h.target.2]
    exact hs.tracks.commit (by rw [h.reg]; exact hb.seqNo_succ) (h.copyReg_other hv) h.copy
  fresh hk := by simp [h.target.2] at hk

theorem Aborted.lands (hv : layoutValid cfg) (h : Aborted cfg r s s') (hf : r.Fits cfg)
    (ht : TornRejected cfg s'.flash.trace) :
    Lands (copies cfg s) (copies cfg s') s.st.target
      { r with generation := s.st.reg.generation + 1 } where
  other := h.copyReg_other hv
  target := h.landing.lands hv hf ht

theorem Aborted.sync (hv : layoutValid cfg) (h : Aborted cfg r s s') (hs : Sync cfg s)
    (hf : r.Fits cfg) (hb : s.st.reg.Bounded) (ht : TornRejected cfg s'.flash.trace) :
    Sync cfg s' where
  fits := h.reg ▸ hs.fits
  tracks := by
    rw [h.target.1, h.target.2, h.reg]
    exact hs.tracks.abort (h.lands hv hf ht) hb.seqNo_succ
  fresh hk := by
    rw [h.target.2] at hk
    rw [h.reg, hs.fresh hk]

/-- `P` holds of the adopted state and of every copy a scan might prefer to it. -/
abbrev Guarded (cfg : Config) (P : Reg → Prop) (s : Store) : Prop :=
  Guards Reg.seqNo P (copies cfg s) s.st.reg

/-- What moves neither the copies nor the state keeps them in step. -/
theorem Sync.of_same (h : Sync cfg s) (hc : copies cfg s' = copies cfg s) (hst : s'.st = s.st) :
    Sync cfg s' := by
  refine ⟨hst ▸ h.fits, ?_, hst ▸ h.fresh⟩
  rw [hc, hst]
  exact h.tracks

theorem Guarded.of_same {P : Reg → Prop} (h : Guarded cfg P s) (hc : copies cfg s' = copies cfg s)
    (hst : s'.st = s.st) : Guarded cfg P s' := by
  rw [Guarded, hc, hst]
  exact h

theorem Committed.guarded {P : Reg → Prop} (hv : layoutValid cfg) (h : Committed cfg r s s')
    (hs : Sync cfg s) (hb : s.st.reg.Bounded) (hp : P s'.st.reg) : Guarded cfg P s' :=
  Guards.commit hs.tracks (by rw [h.reg]; exact hb.seqNo_succ) (h.copyReg_other hv) h.copy hp

theorem Aborted.guarded {P : Reg → Prop} (hv : layoutValid cfg) (h : Aborted cfg r s s')
    (hf : r.Fits cfg) (ht : TornRejected cfg s'.flash.trace) (hg : Guarded cfg P s)
    (hp : P { r with generation := s.st.reg.generation + 1 }) : Guarded cfg P s' := by
  rw [Guarded, h.reg]
  exact hg.abort (h.lands hv hf ht) hp

end SynapticOS
