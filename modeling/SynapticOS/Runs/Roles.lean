import SynapticOS.Runs.Calm
import SynapticOS.Store.Roles

/-!
# Slot roles along a run

The roles stay in order in the adopted state and in both registry copies,
whatever fails, as long as nothing is staged over the rollback pivot.
-/

namespace SynapticOS

open Lib

variable {cfg : Config} {s s' : Store} {r : Reg} {slot : Nat}

-- ---------------------------------------------------------------------------
-- The invariant of the store
-- ---------------------------------------------------------------------------

/-- The roles are in order wherever a boot might look for them. -/
structure RolesInv (cfg : Config) (s : Store) : Prop where
  fits : s.st.reg.Fits cfg
  roles : RolesOk cfg s.st.reg
  copies : ∀ c x, copies cfg s c = some x → RolesOk cfg x

namespace RolesInv

theorem sameDisk (h : RolesInv cfg s) (hd : SameDisk s s') : RolesInv cfg s' where
  fits := hd.st ▸ h.fits
  roles := hd.st ▸ h.roles
  copies c x hx := h.copies c x (by rw [SynapticOS.copies, ← hd.flash]; exact hx)

theorem filled (h : RolesInv cfg s) (hv : layoutValid cfg) (hs : slot < cfg.lay.slotCount)
    (hf : Filled cfg slot s s') : RolesInv cfg s' where
  fits := hf.st ▸ h.fits
  roles := hf.st ▸ h.roles
  copies c x hx := h.copies c x (by rw [← hf.copies hv hs]; exact hx)

theorem committed (h : RolesInv cfg s) (hv : layoutValid cfg) (hf : r.Fits cfg)
    (hr : RolesOk cfg r) (hc : Committed cfg r s s') : RolesInv cfg s' where
  fits := hc.reg ▸ hf.of_generation _
  roles := hc.reg ▸ hr.of_generation _
  copies c x hx := by
    rcases Copy.eq_or_other s.st.target c with rfl | rfl
    · rw [SynapticOS.copies, hc.copy, hc.reg] at hx
      cases hx
      exact hr.of_generation _
    · rw [hc.copyReg_other hv] at hx
      exact h.copies _ x hx

theorem aborted (h : RolesInv cfg s) (hv : layoutValid cfg) (hf : r.Fits cfg)
    (hr : RolesOk cfg r) (hc : Aborted cfg r s s') : RolesInv cfg s' where
  fits := hc.reg ▸ h.fits
  roles := hc.reg ▸ h.roles
  copies c x hx := by
    rcases Copy.eq_or_other s.st.target c with rfl | rfl
    · cases hc.landing with
      | same hl => exact h.copies _ x (hl.symm.trans hx)
      | blank hl => rw [SynapticOS.copies, hl] at hx; cases hx
      | torn wear n hn _ hl => exact RolesOk.torn hv hf hr (hl.symm.trans hx)
      | full hl =>
        rw [SynapticOS.copies, hl] at hx
        cases hx
        exact hr.of_generation _
    · rw [hc.copyReg_other hv] at hx
      exact h.copies _ x hx

theorem booted (h : ∀ c x, SynapticOS.copies cfg s c = some x → RolesOk cfg x)
    (hb : Booted cfg s s') : RolesInv cfg s' := by
  have hcopies : ∀ c x, SynapticOS.copies cfg s' c = some x → RolesOk cfg x := by
    intro c x hx
    rw [SynapticOS.copies, hb.mem] at hx
    exact h c x hx
  rcases hb.header with he | ⟨c, hdr, record, hview, hreg⟩
  · exact ⟨he ▸ Reg.empty_fits, he ▸ RolesOk.empty cfg, hcopies⟩
  · have hfits : s'.st.reg.Fits cfg := hreg ▸ copyView_fits hview record
    refine ⟨hfits, ?_, hcopies⟩
    have hx : SynapticOS.copies cfg s c = some (hdr.reg (copyRecord cfg s.flash.mem c)) := by
      rw [SynapticOS.copies, copyReg, hview]
      rfl
    rw [hreg]
    exact (h c _ hx).of_header (hreg ▸ hfits)

end RolesInv

/-- A change is committed when it leaves the roles in order. -/
theorem rolesInv_keeps (hv : layoutValid cfg) : Keeps cfg (fun _ s => RolesInv cfg s)
    (fun _ _ => True) (fun u _ s => RolesOk cfg (u.apply s.st.reg)) where
  fits h := h.fits
  ram h hd := h.sameDisk hd
  fill h hs _ hf := ⟨h.filled hv hs hf, trivial⟩
  commit h hf hu hc := h.committed hv hf hu hc
  abort h hf hu hc := h.aborted hv hf hu hc
  session _ _ := trivial
  close h _ := h
  start h _ := h

-- ---------------------------------------------------------------------------
-- Steps and runs
-- ---------------------------------------------------------------------------

/-- The step does not stage a record over the rollback pivot. -/
def KeepsPivot (cfg : Config) (s : Sys) (x : Env × Op) : Prop :=
  match x.2 with
  | .markStaged slot _ => slot < cfg.lay.slotCount → slot ≠ s.store.st.reg.prevActive
  | .otaFinish => s.ota.state = .downloading → s.ota.received = s.ota.totalSize →
      s.ota.slot ≠ s.store.st.reg.prevActive
  | _ => True

abbrev SysRoles (cfg : Config) (s : Sys) : Prop := Holds cfg (fun _ t => RolesInv cfg t) s

/-- A call that keeps the pivot commits only changes that keep the roles in order. -/
theorem KeepsPivot.permits {s : Sys} {op : Op} (hv : layoutValid cfg) (h : SysRoles cfg s)
    (hk : KeepsPivot cfg s (env, op)) : Permits cfg (fun _ t => RolesInv cfg t) (fun _ _ => True)
      (fun u _ t => RolesOk cfg (u.apply t.st.reg)) s op := by
  have hmark : ∀ t slot info, RolesInv cfg t → slot < cfg.lay.slotCount →
      slot ≠ t.st.reg.activeSlot → slot ≠ t.st.reg.prevActive →
      RolesOk cfg ((Reg.markStaged slot info).apply t.st.reg) := fun t slot info ht hs ha hp =>
    ht.roles.markStaged (Nat.lt_of_lt_of_le hs hv.count_le) hs ha hp info
  have hact : ∀ slot, Keeps.CanActivate slot s.store →
      RolesOk cfg ((Reg.activate slot).apply s.store.st.reg) := fun slot hg =>
    have hlt := h.store.fits.mask slot hg.1
    h.store.roles.activate hlt hg.1 hg.2 (hv.slot_ne_none hlt)
  have hback : ∀ prev, rollbackTarget cfg s.store.st.reg = some prev →
      RolesOk cfg ((Reg.rollback prev).apply s.store.st.reg) := fun prev hp => by
    obtain ⟨hlt, ho, ha⟩ := rollbackTarget_spec h.store.fits hp
    exact h.store.roles.rollback hlt ho ha (rollbackTarget_ne_staged h.store.roles hp)
  cases op with
  | boot => trivial
  | install info data =>
    refine fun _ => ⟨fun he => h.store.roles.evict he.active, fun _ _ _ => trivial, ?_⟩
    intro t t' hp ht' _
    have hs := hp.freed.lt
    refine ht'.roles.install (Nat.lt_of_lt_of_le hs hv.count_le) hs ?_ (hv.slot_ne_none hs) _
    rw [hp.filled.st]
    exact hp.freed.ne_active
  | beginStaging slot => exact fun he => h.store.roles.evict he.active
  | markStaged slot info => exact fun hs ha => hmark s.store slot info h.store hs ha (hk hs)
  | activate slot => exact hact slot
  | rollback => exact hback
  | clearStaged => exact fun _ => h.store.roles.clearStaged
  | otaBegin name total =>
    exact ⟨fun _ => h.store.roles.clearStaged, fun t _ ht he => ht.roles.evict he.active,
      fun _ _ _ _ _ _ => trivial⟩
  | otaWriteChunk data => trivial
  | otaFinish =>
    intro t hf _ ha ht _
    have hst := hf.filled.st
    exact hmark t _ _ ht (h.ota hf.state).slot_lt (hst ▸ ha) (hst ▸ hk hf.state hf.complete)
  | otaActivate => exact fun slot _ => hact slot
  | otaRollback => exact hback

/-- One step keeps the roles in order. -/
theorem rolesInv_step {s : Sys} {x : Env × Op} (h : SysRoles cfg s) (hv : layoutValid cfg)
    (hk : KeepsPivot cfg s x) : SysRoles cfg (sysStep cfg s x) := by
  refine sysStep_ends (fun _ => ?_) (fun hop _ => ?_) (fun _ => h)
  · refine Ends.zoom ((Ends.of_triple (storeInit_spec hv rfl) ?_ ?_).mono
      fun t ht => ⟨ht, OtaOk.zero cfg⟩)
    · exact fun _ _ hb => RolesInv.booted (s := (s.restart x.1).store) h.store.copies hb
    · exact fun _ _ hb => RolesInv.booted (s := (s.restart x.1).store) h.store.copies hb
  · have henter : SysRoles cfg (s.enter x.1) := ⟨⟨h.store.fits, h.store.roles, h.store.copies⟩, h.ota⟩
    exact (rolesInv_keeps hv).exec hv henter hop (KeepsPivot.permits hv henter hk)

/-- From a flash without a registry, every run that keeps the pivot keeps the
roles in order. -/
theorem rolesInv_run {m : Mem} {l : List (Env × Op)} (hv : layoutValid cfg)
    (hm : ∀ c, copyReg cfg m c = none) (hl : Along (sysStep cfg) (KeepsPivot cfg) (Sys.cold m) l) :
    SysRoles cfg (run (sysStep cfg) (Sys.cold m) l) := by
  refine hl.invariant (I := SysRoles cfg) ⟨⟨Reg.empty_fits, RolesOk.empty cfg, ?_⟩, OtaOk.zero cfg⟩
    fun s x hi hc => rolesInv_step hi hv hc
  intro c x hx
  exact absurd ((hm c).symm.trans hx) (by simp)

/-- Three models in use, and an update staged beside the pivot. -/
theorem threeModels_keep : Along (sysStep fourSlots) (KeepsPivot fourSlots) (Sys.cold erasedMem)
    (threeModels ++ [(quiet, .markStaged 3 (namedModel 68))]) := by
  have hv := fourSlots_valid
  have hq := quiet_quiet
  have h0 := (Up.boot_erased hv (show quiet.plan = [] from rfl)).1
  have h1 : Up fourSlots ⟨1, slotNone, slotNone, 0, 1, _⟩ _ :=
    (h0.markStaged 0 hv hq (by decide) (by decide) (namedModel 65)).1
  have h2 : Up fourSlots ⟨2, 0, slotNone, slotNone, 1, _⟩ _ :=
    (h1.activate 0 hv hq (by decide) (by decide)).1
  have h3 : Up fourSlots ⟨3, 0, slotNone, 1, 3, _⟩ _ :=
    (h2.markStaged 1 hv hq (by decide) (by decide) (namedModel 66)).1
  have h4 : Up fourSlots ⟨4, 1, 0, slotNone, 3, _⟩ _ :=
    (h3.activate 1 hv hq (by decide) (by decide)).1
  refine Along.append (.cons trivial (.cons ?_ (.cons trivial (.cons ?_ (.cons trivial (.cons ?_
    (.cons trivial .nil))))))) (.cons ?_ .nil)
  · exact fun _ => by rw [h0.reg]; decide
  · exact fun _ => by rw [h2.reg]; decide
  · exact fun _ => by rw [h4.reg]; decide
  · exact fun _ => by rw [threeModels_up.reg]; decide

/-- A device with two models stages a third one over the first. -/
def stageOverPivot : List (Env × Op) :=
  [(quiet, .boot), (quiet, .install (namedModel 65) [1]), (quiet, .install (namedModel 66) [2]),
    (quiet, .markStaged 0 (namedModel 67))]

end SynapticOS
