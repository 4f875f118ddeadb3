import SynapticOS.Runs.Atomic
import SynapticOS.Runs.Images
import SynapticOS.Store.Faultless

/-!
# Runs without faults

A call whose surroundings are quiet and whose own checks pass succeeds and commits
what it should, so a quiet run can be followed in the registry alone.
-/

namespace SynapticOS

open Lib

variable {cfg : Config} {s s' s₁ : Sys} {env : Env} {r : Reg} {slot : Nat}

/-- No fault ahead, no job suspended, and nobody in the way of a session. -/
structure Env.Quiet (env : Env) : Prop where
  plan : env.plan = []
  idle : ∀ h, env.suspended h = false
  drain : env.dualCore = true → env.drainOk = true

theorem quiet_quiet : Env.Quiet quiet := ⟨rfl, fun _ => rfl, by decide⟩

/-- The device is up and holds the registry `r`. -/
structure Up (cfg : Config) (r : Reg) (s : Sys) : Prop where
  powered : s.store.flash.powered = true
  ready : s.store.st.ready = true
  reg : s.store.st.reg = r
  fits : r.Fits cfg

theorem Up.calm (h : Up cfg r s) (he : env.Quiet) : Calm cfg (s.enter env).store where
  healthy := ⟨h.powered, he.plan⟩
  ready := h.ready
  idle := he.idle
  fits := by
    have := h.fits
    rw [← h.reg] at this
    exact this

/-- A call other than a boot that cannot fail. -/
theorem Up.call {op : Op} {P : Sys → Prop} (h : Up cfg r s) (hb : op ≠ .boot)
    (hx : Triple (exec cfg op) (s.enter env) (fun _ => P) (fun _ _ => False)) :
    SynapticOS.call cfg s (env, op) = (.ok (), sysStep cfg s (env, op)) ∧
      P (sysStep cfg s (env, op)) := by
  have hcall : SynapticOS.call cfg s (env, op) = (exec cfg op).run (s.enter env) := by
    cases op <;> first | exact absurd rfl hb | exact if_pos h.powered
  unfold Triple at hx
  rw [sysStep, hcall]
  split at hx
  next hr => rw [hr]; exact ⟨rfl, hx⟩
  next => exact hx.elim

theorem Up.of_committed {u : RegUpdate} {t : Store} (h : Up cfg r s)
    (hc : Committed cfg (u.apply s.store.st.reg) (s.enter env).store t) (hs : s'.store = t)
    (hf : (u.apply r).Fits cfg) : Up cfg (r.next u) s' := by
  subst hs
  refine ⟨hc.powered, hc.ready.trans h.ready, ?_, hf.of_generation _⟩
  rw [hc.reg, h.reg]
  have hg : (s.enter env).store.st.reg.generation = r.generation := by
    rw [← h.reg]
    rfl
  rw [hg]
  rfl

theorem Up.markStaged (slot : Nat) (hv : layoutValid cfg) (h : Up cfg r s) (he : env.Quiet)
    (hs : slot < cfg.lay.slotCount) (ha : slot ≠ r.activeSlot) (info : ModelInfo) :
    let s' := sysStep cfg s (env, .markStaged slot info)
    Up cfg (r.next (Reg.markStaged slot info)) s' ∧ s'.ota = s.ota := by
  have ha' : slot ≠ (s.enter env).store.st.reg.activeSlot := by
    rw [← h.reg] at ha
    exact ha
  refine (h.call (P := fun s' => Up cfg (r.next (Reg.markStaged slot info)) s' ∧
    s'.ota = s.ota) (by simp) ?_).2
  refine (Sys.onStore_spec (storeMarkStaged_calm hv (h.calm he) hs ha' info)).mono ?_
    (fun _ _ h => h.1)
  rintro _ s' ⟨hc, hs'⟩
  refine ⟨h.of_committed hc.toCommitted rfl (Reg.markStaged_fits hv h.fits hs info), ?_⟩
  rw [hs']
  rfl

theorem Up.activate_call (slot : Nat) (hv : layoutValid cfg) (h : Up cfg r s) (he : env.Quiet)
    (ho : r.occupied slot) (ha : slot ≠ r.activeSlot) :
    let s' := sysStep cfg s (env, .activate slot)
    SynapticOS.call cfg s (env, .activate slot) = (.ok (), s') ∧
      Up cfg (r.next (Reg.activate slot)) s' ∧ s'.ota = s.ota := by
  have hreg : (s.enter env).store.st.reg = r := h.reg
  refine h.call (P := fun s' => Up cfg (r.next (Reg.activate slot)) s' ∧ s'.ota = s.ota)
    (by simp) ?_
  refine (Sys.onStore_spec (storeActivate_calm hv (h.calm he) (by rw [hreg]; exact ho)
    (by rw [hreg]; exact ha))).mono ?_ (fun _ _ h => h.1)
  rintro _ s' ⟨hc, hs'⟩
  refine ⟨h.of_committed hc rfl (Reg.activate_fits h.fits (h.fits.mask slot ho)), ?_⟩
  rw [hs']
  rfl

theorem Up.activate (slot : Nat) (hv : layoutValid cfg) (h : Up cfg r s) (he : env.Quiet)
    (ho : r.occupied slot) (ha : slot ≠ r.activeSlot) :
    let s' := sysStep cfg s (env, .activate slot)
    Up cfg (r.next (Reg.activate slot)) s' ∧ s'.ota = s.ota :=
  (h.activate_call slot hv he ho ha).2

theorem Up.clearStaged (hv : layoutValid cfg) (h : Up cfg r s) (he : env.Quiet)
    (hn : r.stagedSlot ≠ slotNone) :
    Up cfg (r.next Reg.clearStaged) (sysStep cfg s (env, .clearStaged)) := by
  have hreg : (s.enter env).store.st.reg = r := h.reg
  have hc := h.calm he
  refine (h.call (P := fun s' => Up cfg (r.next Reg.clearStaged) s') (by simp) ?_).2
  refine (Sys.onStore_spec (storeClearStaged_spec hv hc.fits)).mono ?_ ?_
  · rintro _ s' ⟨⟨hs, -⟩ | ⟨-, hc⟩, -⟩
    · rw [hreg] at hs
      exact absurd hs hn
    · exact h.of_committed hc.toCommitted rfl (Reg.clearStaged_fits h.fits)
  · rintro _ s' ⟨⟨hr, -⟩ | ⟨-, ha⟩, -⟩
    · exact hr hc.ready
    · exact ha.toAborted.not_healthy hc.healthy

theorem Up.rollback (hv : layoutValid cfg) (h : Up cfg r s) (he : env.Quiet)
    (ht : rollbackTarget cfg r = some slot) :
    SynapticOS.call cfg s (env, .rollback) = (.ok (), sysStep cfg s (env, .rollback)) ∧
      Up cfg (r.next (Reg.rollback slot)) (sysStep cfg s (env, .rollback)) := by
  have hreg : (s.enter env).store.st.reg = r := h.reg
  refine h.call (P := fun s' => Up cfg (r.next (Reg.rollback slot)) s') (by simp) ?_
  refine (Sys.onStore_spec (storeRollback_calm hv (h.calm he)
    (by rw [hreg]; exact ht))).mono ?_ (fun _ _ h => h.1)
  rintro _ s' ⟨hc, -⟩
  exact h.of_committed hc rfl (Reg.rollback_fits h.fits (rollbackTarget_spec h.fits ht).1)

-- ---------------------------------------------------------------------------
-- Power cycles
-- ---------------------------------------------------------------------------

/-- A device without a valid registry copy comes up empty. -/
theorem Up.boot_erased (hv : layoutValid cfg) (he : env.plan = []) :
    let s := sysStep cfg (Sys.cold erasedMem) (env, .boot)
    Up cfg Reg.empty s ∧ s.ota = Ota.zero := by
  have hbooted : ∀ t, Booted cfg ((Sys.cold erasedMem).restart env).store t →
      t.flash.powered = true ∧ t.st.ready = true ∧ t.st.reg = Reg.empty := by
    intro t hb
    have hh : Flash.Healthy ((Sys.cold erasedMem).restart env).store.flash := ⟨rfl, he⟩
    have hon := (hh.later hb.later).1
    have hadopt := (hb.adopted hh.cutOnly hon).reg
    refine ⟨hon, hb.ready, ?_⟩
    have hnone : ∀ c, copyReg cfg ((Sys.cold erasedMem).restart env).store.flash.mem c = none :=
      copyReg_erased cfg
    rw [hadopt, adopt, hnone, hnone]
    rfl
  have hspec := Sys.onStore_spec (s := (Sys.cold erasedMem).restart env) (storeInit_spec hv rfl)
  show Ends (exec cfg .boot) ((Sys.cold erasedMem).restart env) fun s =>
    Up cfg Reg.empty s ∧ s.ota = Ota.zero
  refine Ends.of_triple hspec ?_ ?_
  all_goals
    rintro _ s ⟨hb, hs⟩
    obtain ⟨h1, h2, h3⟩ := hbooted _ hb
    exact ⟨⟨h1, h2, h3, Reg.empty_fits⟩, by rw [hs]; rfl⟩

-- ---------------------------------------------------------------------------
-- Sessions
-- ---------------------------------------------------------------------------

theorem drainServe_calm (h : s.cpu.dualCore = true → s.cpu.drainOk = true) :
    Triple drainServe s (fun _ s' => s'.store = s.store ∧ s'.ota = s.ota) (fun _ _ => False) := by
  unfold drainServe Sys.act
  refine Triple.gets_bind (Triple.ite (fun hd => Triple.modify_bind ?_)
    (fun _ => Triple.pure' ⟨rfl, rfl⟩))
  rw [if_pos (h hd)]
  exact Triple.pure' ⟨rfl, rfl⟩

/-- A begin whose own checks pass opens a session, unless the slot it chose is the
active one. -/
theorem otaBegin_calm (hv : layoutValid cfg) {name : List UInt8} {total : Nat}
    (h : Calm cfg s.store) (hd : s.cpu.dualCore = true → s.cpu.drainOk = true)
    (hname : name.takeWhile (· ≠ 0) ≠ []) (hgt : synmHdrSize < total)
    (hle : total ≤ cfg.lay.slotSize)
    (ha : stagingSlot cfg s.store.st.reg ≠ s.store.st.reg.activeSlot) :
    Triple (otaBegin cfg name total) s
      (fun _ s' => Begins cfg (stagingSlot cfg s.store.st.reg) total s.store s'.store ∧
        SameSession { s.ota.start (stagingSlot cfg s.store.st.reg) name total with
          state := .downloading } s'.ota) (fun _ _ => False) := by
  have hslot := (stagingSlot_spec hv s.store.st.reg).1
  unfold otaBegin
  refine Triple.get_bind ?_
  rw [if_neg (not_or.mpr ⟨hname, by omega⟩), if_neg (by simp [h.ready])]
  refine (otaCall_spec (Q := fun s' => Begins cfg (stagingSlot cfg s.store.st.reg) total s.store
    s'.store ∧ SameSession { s.ota.start (stagingSlot cfg s.store.st.reg) name total with
      state := .downloading } s'.ota) (E := fun _ _ => False) ?_).mono (fun _ _ h => h) ?_
  rotate_left
  · rintro _ _ (h | ⟨-, _, h, -⟩) <;> exact h
  unfold beginLocked beginPrepare
  refine Triple.bind (Q := fun slot s₁ => slot = stagingSlot cfg s.store.st.reg ∧
    Superseded cfg s.store s₁.store ∧ SameSession (s.ota.start slot name total) s₁.ota)
    (Triple.get_bind ?_) ?_
  · dsimp only
    rw [if_neg (by omega)]
    refine Triple.bind (drainServe_calm hd) ?_
    rintro _ s₁ ⟨hst, hota⟩
    refine Triple.bind ((supersede_spec hv (by rw [hst]; exact h.fits)).mono (fun _ _ h => h)
      fun _ _ h => h.elim) ?_
    rintro _ s₂ ⟨hsup, hs₂⟩
    refine Triple.modify_bind ?_
    refine Triple.bind ((cpu1Park_spec _).mono (fun _ _ h => h) fun _ _ h => h.elim) ?_
    rintro _ s₃ ⟨hst₃, hses⟩
    have hota₂ : s₂.ota = s.ota := by rw [hs₂]; exact hota
    exact Triple.pure' ⟨rfl, hst₃ ▸ hst ▸ hsup, hota₂ ▸ hses⟩
  rintro _ s₁ ⟨rfl, hsup, hses⟩
  have hcalm : Calm cfg s₁.store ∧ s₁.store.st.reg.activeSlot = s.store.st.reg.activeSlot := by
    cases hsup with
    | same _ heq => exact ⟨heq ▸ h, by rw [heq]⟩
    | cleared _ hc => exact ⟨⟨h.healthy.later hc.later, hc.ready.trans h.ready,
        fun k => by rw [hc.models]; exact h.idle k, Superseded.fits (.cleared ‹_› hc) h.fits⟩,
        by rw [hc.reg]; rfl⟩
    | kept _ hc => exact (hc.toAborted.not_healthy h.healthy).elim
  obtain ⟨hcalm, hact⟩ := hcalm
  unfold beginErase
  refine Triple.bind (orFail_spec (Sys.onStore_spec (storeBeginStaging_calm hv hcalm hslot
    (by rw [hact]; exact ha))) |>.mono (fun _ _ h => h) ?_) ?_
  · rintro _ _ ⟨_, -, h, -⟩
    exact h
  rintro _ s₂ ⟨hfr, hs₂⟩
  have hround := roundUp_le (Nat.dvd_of_mod_eq_zero hv.slotSize_aligned) hle cfg.port.sector_pos
  have hwin := hv.slot_in_window hslot
  have hge := le_roundUp (v := total) cfg.port.sector_pos
  have hck : Flash.checkRange cfg.port (cfg.lay.slotOff (stagingSlot cfg s.store.st.reg))
      (roundUp total cfg.port.sectorSize) := ⟨by omega, by omega, by omega⟩
  have hers := eraseSectors_faultless (hcalm.healthy.later hfr.later) (hv.slot_aligned hslot)
    ⟨hck, roundUp_mod _ _⟩
  refine Triple.bind (orFail_spec (Sys.onFlash_within cfg (stagingSlot cfg s.store.st.reg)
    (within_eraseSectors cfg.port (Nat.le_refl _) (Nat.add_le_add_left hround _)) hers) |>.mono
      (fun _ _ h => h) ?_) ?_
  · rintro _ _ ⟨_, -, h, -⟩
    exact h
  rintro _ s₃ ⟨⟨-, he, -⟩, hfi, hs₃⟩
  refine Triple.modify ⟨⟨s₁.store, s₂.store, hsup, hfr, hfi, he⟩, ?_⟩
  show SameSession _ { s₃.ota with state := .downloading }
  rw [hs₃, hs₂]
  show SameSession _ { s₁.ota with state := .downloading }
  rw [hses]
  exact rfl

/-- The registry of an open session: the superseded update and the occupant of the
slot are gone. -/
theorem Up.otaBegin (hv : layoutValid cfg) (h : Up cfg r s) (he : env.Quiet) {name : List UInt8}
    {total : Nat} (hname : name.takeWhile (· ≠ 0) ≠ []) (hgt : synmHdrSize < total)
    (hle : total ≤ cfg.lay.slotSize) (ha : stagingSlot cfg r ≠ r.activeSlot) :
    let s' := sysStep cfg s (env, .otaBegin name total)
    SynapticOS.call cfg s (env, .otaBegin name total) = (.ok (), s') ∧
      Up cfg (r.cleared.evicted (stagingSlot cfg r)) s' ∧ s'.ota.slot = stagingSlot cfg r := by
  have hreg : (s.enter env).store.st.reg = r := h.reg
  have hc := h.calm he
  refine h.call (P := fun s' => Up cfg (r.cleared.evicted (stagingSlot cfg r)) s' ∧
    s'.ota.slot = stagingSlot cfg r) (by simp) ?_
  refine (otaBegin_calm hv hc (by exact he.drain) hname hgt hle (by rw [hreg]; exact ha)).mono ?_
    (fun _ _ h => h)
  rintro _ s' ⟨⟨t, t', hsup, hfr, hfi, -⟩, hses⟩
  rw [hreg] at hfr hses
  have hlater : Flash.Later (s.enter env).store.flash s'.store.flash :=
    IsTrans.trans _ _ _ (IsTrans.trans _ _ _ hsup.later hfr.later) hfi.within.later
  refine ⟨⟨(hc.healthy.later hlater).1, ?_, ?_, ?_⟩, ?_⟩
  · rw [hfi.st, hfr.ready, hsup.ready]
    exact h.ready
  · rw [hfi.st, hfr.reg, hsup.reg h.ready hc.healthy.cutOnly
      ((hc.healthy.later hsup.later).1), hreg]
  · have hf := hfr.fits (hsup.fits hc.fits)
    rw [hfr.reg, hsup.reg h.ready hc.healthy.cutOnly ((hc.healthy.later hsup.later).1), hreg] at hf
    exact hf
  · rw [hses]
    rfl

-- ---------------------------------------------------------------------------
-- Three models
-- ---------------------------------------------------------------------------

/-- Three models in use. -/
def threeModels : List (Env × Op) :=
  [(quiet, .boot), (quiet, .markStaged 0 (namedModel 65)), (quiet, .activate 0),
    (quiet, .markStaged 1 (namedModel 66)), (quiet, .activate 1),
    (quiet, .markStaged 2 (namedModel 67)), (quiet, .activate 2)]

/-- The records of the four slots, of which three may be in use. -/
def fourRecords : Nat → ModelInfo :=
  Function.update (Function.update (Function.update default 0 (namedModel 65)) 1 (namedModel 66)) 2
    (namedModel 67)

def threeReg : Reg := ⟨6, 2, 1, slotNone, 7, fourRecords⟩

theorem threeModels_up :
    Up fourSlots threeReg (run (sysStep fourSlots) (Sys.cold erasedMem) threeModels) := by
  have hv := fourSlots_valid
  have hq := quiet_quiet
  have h0 := (Up.boot_erased hv (show quiet.plan = [] from rfl)).1
  have h1 : Up fourSlots ⟨1, slotNone, slotNone, 0, 1, _⟩ _ :=
    (h0.markStaged 0 hv hq (by decide) (by decide) (namedModel 65)).1
  have h2 : Up fourSlots ⟨2, 0, slotNone, slotNone, 1, _⟩ _ :=
    (h1.activate 0 hv hq (by decide) (by decide)).1
  have h3 : Up fourSlots ⟨3, 0, slotNone, 1, 3, _⟩ _ :=
    (h2.markStaged 1 hv hq (by decide) (by decide) (namedModel 66)).1
  have h4 : Up fourSlots ⟨4, 1, 0, slotNone, 3, _⟩ _ :=
    (h3.activate 1 hv hq (by decide) (by decide)).1
  have h5 : Up fourSlots ⟨5, 1, 0, 2, 7, _⟩ _ :=
    (h4.markStaged 2 hv hq (by decide) (by decide) (namedModel 67)).1
  rw [threeModels, run_cons, run_cons, run_cons, run_cons, run_cons, run_cons, run_cons, run_nil]
  exact (h5.activate 2 hv hq (by decide) (by decide)).1

end SynapticOS
