import SynapticOS.ModelsLaws
import SynapticOS.Store.BootLaws
import SynapticOS.Store.PayloadLaws

/-!
# What the store's operations do

One law for each locked section: it refuses and touches neither flash nor
state, or it makes one commit of a known change. The RAM registry of each
ending is given by the functions that computed it.
-/

namespace SynapticOS

open Lib

variable {cfg : Config} {s s' : Store} {r : Reg} {slot i : Nat}

-- ---------------------------------------------------------------------------
-- Masks and updates
-- ---------------------------------------------------------------------------

theorem getLsbD_setBit (mask : BitVec 8) (hi : i < 8) :
    (Reg.setBit mask i).getLsbD j = (mask.getLsbD j || decide (i = j)) := by
  rw [Reg.setBit, BitVec.getLsbD_or, BitVec.getLsbD_twoPow]
  simp [hi]

theorem getLsbD_clearBit (mask : BitVec 8) (i j : Nat) :
    (Reg.clearBit mask i).getLsbD j = (mask.getLsbD j && !decide (i = j)) := by
  rw [Reg.clearBit, BitVec.getLsbD_and, BitVec.getLsbD_not, BitVec.getLsbD_twoPow]
  by_cases hj : j < 8
  · by_cases hij : i = j
    · simp [hij, hj]
    · simp [hij, hj]
  · simp [BitVec.getLsbD_of_ge mask j (by omega)]

namespace Reg

/-- The updates of the occupied bits. -/
theorem occupied_evict : ((evict slot).apply r).occupied i ↔ r.occupied i ∧ i ≠ slot := by
  simp only [occupied, evict, getLsbD_clearBit, Bool.and_eq_true, Bool.not_eq_true',
    decide_eq_false_iff_not, ne_eq, and_congr_right_iff]
  exact fun _ => not_congr eq_comm

theorem occupied_clearStaged :
    (clearStaged.apply r).occupied i ↔ r.occupied i ∧ i ≠ r.stagedSlot := by
  simp only [occupied, clearStaged, getLsbD_clearBit, Bool.and_eq_true, Bool.not_eq_true',
    decide_eq_false_iff_not, ne_eq, and_congr_right_iff]
  exact fun _ => not_congr eq_comm

theorem occupied_markStaged (h : slot < 8) :
    ((markStaged slot info).apply r).occupied i ↔ r.occupied i ∨ i = slot := by
  simp only [occupied, markStaged, getLsbD_setBit _ h, Bool.or_eq_true, decide_eq_true_eq]
  exact or_congr_right eq_comm

theorem occupied_install (h : slot < 8) :
    ((install slot info).apply r).occupied i ↔ r.occupied i ∨ i = slot := by
  simp only [occupied, install, setRecord, getLsbD_setBit _ h, Bool.or_eq_true, decide_eq_true_eq]
  exact or_congr_right eq_comm

theorem dropSlot_fits (h : SlotFits cfg v) (slot : Nat) : SlotFits cfg (dropSlot slot v) := by
  unfold dropSlot
  split
  · exact .inl rfl
  · exact h

theorem setRecord_record (h : r.Fits cfg) (hs : slot < cfg.lay.slotCount) (info : ModelInfo)
    (hi : cfg.lay.slotCount ≤ i) : (setRecord slot info r).record i = default := by
  show Function.update r.record slot info i = default
  rw [Function.update_of_ne (by omega)]
  exact h.record i hi

/-- Every update keeps the registry inside the layout. -/
theorem evict_fits (h : r.Fits cfg) (slot : Nat) : ((evict slot).apply r).Fits cfg where
  active := h.active
  prev := dropSlot_fits h.prev slot
  staged := dropSlot_fits h.staged slot
  mask i hi := h.mask i (occupied_evict.mp hi).1
  record := h.record

theorem clearStaged_fits (h : r.Fits cfg) : (clearStaged.apply r).Fits cfg where
  active := h.active
  prev := h.prev
  staged := .inl rfl
  mask i hi := h.mask i (occupied_clearStaged.mp hi).1
  record := h.record

theorem markStaged_fits (hv : layoutValid cfg) (h : r.Fits cfg) (hs : slot < cfg.lay.slotCount)
    (info : ModelInfo) : ((markStaged slot info).apply r).Fits cfg where
  active := h.active
  prev := h.prev
  staged := .inr hs
  mask i hi := by
    have h8 := hv.count_le
    rcases (occupied_markStaged (by omega)).mp hi with hi | rfl
    · exact h.mask i hi
    · exact hs
  record _ hi := setRecord_record h hs info hi

theorem activate_fits (h : r.Fits cfg) (hs : slot < cfg.lay.slotCount) :
    ((activate slot).apply r).Fits cfg where
  active := .inr hs
  prev := h.active
  staged := dropSlot_fits h.staged slot
  mask := h.mask
  record := h.record

theorem rollback_fits (h : r.Fits cfg) (hs : slot < cfg.lay.slotCount) :
    ((rollback slot).apply r).Fits cfg where
  active := .inr hs
  prev := h.active
  staged := h.staged
  mask := h.mask
  record := h.record

theorem install_fits (hv : layoutValid cfg) (h : r.Fits cfg) (hs : slot < cfg.lay.slotCount)
    (info : ModelInfo) : ((install slot info).apply r).Fits cfg where
  active := .inr hs
  prev := by
    show SlotFits cfg (if r.activeSlot = slot then r.prevActive else r.activeSlot)
    split
    · exact h.prev
    · exact h.active
  staged := dropSlot_fits h.staged slot
  mask i hi := by
    have h8 := hv.count_le
    rcases (occupied_install (by omega)).mp hi with hi | rfl
    · exact h.mask i hi
    · exact hs
  record _ hi := setRecord_record h hs info hi

end Reg

-- ---------------------------------------------------------------------------
-- Choices
-- ---------------------------------------------------------------------------

/-- The chosen slot exists; it is free, or occupied and not active. -/
theorem stagingSlot_spec (hv : layoutValid cfg) (r : Reg) :
    stagingSlot cfg r < cfg.lay.slotCount ∧
      (r.occupied (stagingSlot cfg r) → stagingSlot cfg r ≠ r.activeSlot) := by
  have hc := hv.count_ge
  unfold stagingSlot
  dsimp only
  cases h1 : (List.range cfg.lay.slotCount).find? fun s => ¬r.occupied s with
  | some a =>
    have ha := List.find?_some h1
    have hm := List.mem_of_find?_eq_some h1
    simp only [decide_eq_true_eq] at ha
    exact ⟨List.mem_range.mp hm, fun ho => absurd ho ha⟩
  | none =>
    cases h2 : (List.range cfg.lay.slotCount).find? fun s => s ≠ r.activeSlot ∧ s ≠ r.prevActive with
    | some a =>
      have ha := List.find?_some h2
      have hm := List.mem_of_find?_eq_some h2
      simp only [decide_eq_true_eq] at ha
      exact ⟨List.mem_range.mp hm, fun _ => ha.1⟩
    | none =>
      cases h3 : (List.range cfg.lay.slotCount).find? fun s => s ≠ r.activeSlot with
      | some a =>
        have ha := List.find?_some h3
        have hm := List.mem_of_find?_eq_some h3
        simp only [decide_eq_true_eq] at ha
        exact ⟨List.mem_range.mp hm, fun _ => ha⟩
      | none =>
        -- with two slots at least, one is not active
        have h0 := List.find?_eq_none.mp h3 0 (List.mem_range.mpr (by omega))
        have h1 := List.find?_eq_none.mp h3 1 (List.mem_range.mpr (by omega))
        simp only [ne_eq, decide_not, Bool.not_eq_true', decide_eq_false_iff_not, not_not] at h0 h1
        omega

/-- A free slot is preferred. -/
theorem stagingSlot_occupied (h : r.occupied (stagingSlot cfg r)) :
    ∀ i < cfg.lay.slotCount, r.occupied i := by
  intro i hi
  by_contra hn
  have hsome : ((List.range cfg.lay.slotCount).find? fun s => ¬r.occupied s).isSome = true := by
    rw [List.find?_isSome]
    exact ⟨i, List.mem_range.mpr hi, by simpa using hn⟩
  obtain ⟨a, ha⟩ := Option.isSome_iff_exists.mp hsome
  have hfree := List.find?_some ha
  have hst : stagingSlot cfg r = a := by
    unfold stagingSlot
    dsimp only
    rw [ha]
    rfl
  rw [hst] at h
  simp [h] at hfree

theorem rollbackTarget_spec (hf : r.Fits cfg) (h : rollbackTarget cfg r = some i) :
    i < cfg.lay.slotCount ∧ r.occupied i ∧ i ≠ r.activeSlot := by
  unfold rollbackTarget at h
  split at h
  · rename_i hp
    cases h
    exact ⟨hf.mask _ hp.2.2, hp.2.2, hp.2.1⟩
  · have hm := List.mem_of_getLast? h
    simp only [List.mem_filter, List.mem_range, decide_eq_true_eq] at hm
    exact ⟨hm.1, hm.2.1, hm.2.2.1⟩

-- ---------------------------------------------------------------------------
-- Steps on the RAM registry
-- ---------------------------------------------------------------------------

/-- Neither the flash nor the state of the store moved. -/
structure SameDisk (s s' : Store) : Prop where
  flash : s'.flash = s.flash
  st : s'.st = s.st

instance : IsPreorder Store SameDisk where
  refl _ := ⟨rfl, rfl⟩
  trans _ _ _ h h' := ⟨h'.flash.trans h.flash, h'.st.trans h.st⟩

theorem Store.onModels_spec (x : ModelsM α) (s : Store) :
    Triple (Store.onModels x) s
      (fun a s' => x.run s.models = (.ok a, s'.models) ∧ SameDisk s s')
      (fun e s' => x.run s.models = (.error e, s'.models) ∧ SameDisk s s') := by
  refine Triple.zoom ?_
  unfold Triple
  split <;> rename_i hr <;> exact ⟨hr, rfl, rfl⟩

theorem Committed.of_sameDisk (h : Committed cfg r s s') (hd : SameDisk t s) :
    Committed cfg r t s' := by
  obtain ⟨fl, st, m⟩ := t
  obtain ⟨rfl, rfl⟩ := hd
  exact { h with }

theorem Aborted.of_sameDisk (h : Aborted cfg r s s') (hd : SameDisk t s) : Aborted cfg r t s' := by
  obtain ⟨fl, st, m⟩ := t
  obtain ⟨rfl, rfl⟩ := hd
  exact { h with }

theorem Committed.then_sameDisk (h : Committed cfg r s s') (hd : SameDisk s' t) :
    Committed cfg r s t := by
  obtain ⟨fl, st, m⟩ := t
  obtain ⟨rfl, rfl⟩ := hd
  exact { h with }

theorem Aborted.then_sameDisk (h : Aborted cfg r s s') (hd : SameDisk s' t) : Aborted cfg r s t := by
  obtain ⟨fl, st, m⟩ := t
  obtain ⟨rfl, rfl⟩ := hd
  exact { h with }

-- ---------------------------------------------------------------------------
-- Staging
-- ---------------------------------------------------------------------------

/-- How `ram_unregister` on a slot ends, and with which RAM registry. -/
def Unregisters (cfg : Config) (slot : Nat) (s : Store) (r : Except Errno Unit) (m : Models) : Prop :=
  (ramUnregister cfg.maxModels (s.st.reg.record slot)).run s.models = (r, m)

theorem evictLocked_spec (hv : layoutValid cfg) (hf : s.st.reg.Fits cfg) (slot : Nat) :
    Triple (evictLocked cfg slot) s
      (fun _ s' => Unregisters cfg slot s (.ok ()) s'.models ∧
        Committed cfg ((Reg.evict slot).apply s.st.reg) s s')
      (fun e s' => Unregisters cfg slot s (.error e) s'.models ∧ SameDisk s s' ∨
        Unregisters cfg slot s (.ok ()) s'.models ∧
          Aborted cfg ((Reg.evict slot).apply s.st.reg) s s') := by
  unfold evictLocked unregisterSlot
  refine Triple.bind (Triple.gets_bind (Store.onModels_spec _ s) |>.mono (fun _ _ h => h)
    fun _ _ h => .inl h) ?_
  rintro _ s₁ ⟨hu, hd⟩
  have hu : Unregisters cfg slot s (.ok ()) s₁.models := hu
  refine (commitUpdate_spec hv (Reg.evict slot) (hd.st ▸ Reg.evict_fits hf slot)).mono ?_ ?_
  · rintro _ s₂ ⟨h, hm⟩
    rw [hd.st] at h
    exact ⟨hm ▸ hu, h.of_sameDisk hd⟩
  · rintro _ s₂ ⟨h, hm⟩
    rw [hd.st] at h
    exact .inr ⟨hm ▸ hu, h.of_sameDisk hd⟩

/-- The store may evict this slot. -/
structure Evictable (cfg : Config) (slot : Nat) (s : Store) : Prop where
  lt : slot < cfg.lay.slotCount
  active : slot ≠ s.st.reg.activeSlot
  occupied : s.st.reg.occupied slot

/-- The slot is free and not active: it was so, or its occupant was evicted. -/
def Freed (cfg : Config) (slot : Nat) (s s' : Store) : Prop :=
  (¬s.st.reg.occupied slot ∧ slot ≠ s.st.reg.activeSlot ∧ slot < cfg.lay.slotCount ∧ s' = s) ∨
  Evictable cfg slot s ∧ Unregisters cfg slot s (.ok ()) s'.models ∧
    Committed cfg ((Reg.evict slot).apply s.st.reg) s s'

/-- The eviction did not happen. -/
def NotFreed (cfg : Config) (slot : Nat) (s s' : Store) : Prop :=
  s' = s ∨
  Evictable cfg slot s ∧ ((SameDisk s s' ∧ ∃ e, Unregisters cfg slot s (.error e) s'.models) ∨
    Unregisters cfg slot s (.ok ()) s'.models ∧
      Aborted cfg ((Reg.evict slot).apply s.st.reg) s s')

theorem storeBeginStaging_spec (hv : layoutValid cfg) (hf : s.st.reg.Fits cfg) (slot : Nat) :
    Triple (storeBeginStaging cfg slot) s (fun _ s' => Freed cfg slot s s')
      (fun _ s' => NotFreed cfg slot s s') := by
  unfold storeBeginStaging
  refine Triple.gets_bind ?_
  refine Triple.ite (fun _ => Triple.throw (.inl rfl)) (fun hr => ?_)
  refine Triple.ite (fun _ => Triple.throw (.inl rfl)) (fun ha => ?_)
  have hlt : slot < cfg.lay.slotCount := by omega
  refine Triple.ite (fun ho => Triple.pure' (.inl ⟨ho, ha, hlt, rfl⟩)) (fun ho => ?_)
  have he : Evictable cfg slot s := ⟨hlt, ha, not_not.mp ho⟩
  refine (evictLocked_spec hv hf slot).mono (fun _ s' h => .inr ⟨he, h⟩) ?_
  rintro e s' (⟨hu, hd⟩ | h)
  · exact .inr ⟨he, .inl ⟨hd, e, hu⟩⟩
  · exact .inr ⟨he, .inr h⟩

/-- One commit of `u`, with the RAM registry as it was. -/
structure CommitsTo (cfg : Config) (u : RegUpdate) (s s' : Store) : Prop
    extends Committed cfg (u.apply s.st.reg) s s' where
  models : s'.models = s.models

structure AbortsTo (cfg : Config) (u : RegUpdate) (s s' : Store) : Prop
    extends Aborted cfg (u.apply s.st.reg) s s' where
  models : s'.models = s.models

theorem commitUpdate_spec' (hv : layoutValid cfg) (u : RegUpdate)
    (hf : (u.apply s.st.reg).Fits cfg) :
    Triple (commitUpdate cfg u) s (fun _ s' => CommitsTo cfg u s s')
      (fun _ s' => AbortsTo cfg u s s') :=
  (commitUpdate_spec hv u hf).mono (fun _ _ h => ⟨h.1, h.2⟩) (fun _ _ h => ⟨h.1, h.2⟩)

theorem storeMarkStaged_spec (hv : layoutValid cfg) (hf : s.st.reg.Fits cfg) (slot : Nat)
    (info : ModelInfo) :
    Triple (storeMarkStaged cfg slot info) s
      (fun _ s' => (slot < cfg.lay.slotCount ∧ slot ≠ s.st.reg.activeSlot) ∧
        CommitsTo cfg (Reg.markStaged slot info) s s')
      (fun _ s' => (s.st.ready = true → slot < cfg.lay.slotCount → slot = s.st.reg.activeSlot) ∧
          s' = s ∨ (slot < cfg.lay.slotCount ∧ slot ≠ s.st.reg.activeSlot) ∧
        AbortsTo cfg (Reg.markStaged slot info) s s') := by
  unfold storeMarkStaged
  refine Triple.gets_bind ?_
  refine Triple.ite (fun hr => Triple.throw (.inl ⟨fun h1 h2 => ?_, rfl⟩)) (fun hr => ?_)
  · rcases hr with hr | hr
    · exact absurd h1 hr
    · omega
  refine Triple.ite (fun ha => Triple.throw (.inl ⟨fun _ _ => ha, rfl⟩)) (fun ha => ?_)
  have hlt : slot < cfg.lay.slotCount := by omega
  exact (commitUpdate_spec' hv _ (Reg.markStaged_fits hv hf hlt info)).mono
    (fun _ _ h => ⟨⟨hlt, ha⟩, h⟩) (fun _ _ h => .inr ⟨⟨hlt, ha⟩, h⟩)

theorem storeClearStaged_spec (hv : layoutValid cfg) (hf : s.st.reg.Fits cfg) :
    Triple (storeClearStaged cfg) s
      (fun _ s' => s.st.reg.stagedSlot = slotNone ∧ s' = s ∨
        s.st.reg.stagedSlot ≠ slotNone ∧ CommitsTo cfg Reg.clearStaged s s')
      (fun _ s' => s.st.ready ≠ true ∧ s' = s ∨
        s.st.reg.stagedSlot ≠ slotNone ∧ AbortsTo cfg Reg.clearStaged s s') := by
  unfold storeClearStaged
  refine Triple.gets_bind ?_
  refine Triple.ite (fun hr => Triple.throw (.inl ⟨hr, rfl⟩)) (fun _ => ?_)
  refine Triple.ite (fun hn => Triple.pure' (.inl ⟨hn, rfl⟩)) (fun hn => ?_)
  exact (commitUpdate_spec' hv _ (Reg.clearStaged_fits hf)).mono
    (fun _ _ h => .inr ⟨hn, h⟩) (fun _ _ h => .inr ⟨hn, h⟩)

-- ---------------------------------------------------------------------------
-- Activation
-- ---------------------------------------------------------------------------

theorem sameCat_releaseNpu (n : Nat) (info : ModelInfo) :
    Respects Models.SameCat (releaseNpu n info) := by
  unfold releaseNpu
  refine Respects.bind Respects.get fun m => ?_
  split
  · exact Respects.pure' _
  · refine Respects.ite ?_ (Respects.pure' _)
    refine Respects.bind (Respects.attempt (Models.sameCat_unload _ _)) fun r => ?_
    split
    · exact Respects.throw _
    · exact Respects.pure' _

theorem reload_spec (cfg : Config) (held : Option Nat) (s : Store) :
    Triple (reload cfg held) s
      (fun _ s' => SameDisk s s' ∧ Models.SameCat s.models s'.models) (fun _ _ => False) := by
  unfold reload
  refine Triple.gets_bind ?_
  cases held with
  | none => exact Triple.pure' ⟨Std.Refl.refl _, Std.Refl.refl _⟩
  | some h =>
    have hcat := Models.sameCat_load cfg.maxModels s.flash.mem h s.models
    refine Triple.attempt_bind (Store.onModels_spec _ s) ?_ ?_
    · rintro _ s₁ ⟨hr, hd⟩
      rw [hr] at hcat
      exact Triple.pure' ⟨hd, hcat⟩
    · rintro _ s₁ ⟨hr, hd⟩
      rw [hr] at hcat
      exact Triple.pure' ⟨hd, hcat⟩

/-- How `ram_register` on a slot ends, and with which RAM registry. -/
def Registers (cfg : Config) (slot : Nat) (reg : Reg) (m : Models) (r : Except Errno Nat)
    (m' : Models) : Prop :=
  (ramRegisterSlot cfg reg slot).run m = (r, m')

theorem registerSlot_spec (cfg : Config) (slot : Nat) (s : Store) :
    Triple (registerSlot cfg slot) s
      (fun h s' => SameDisk s s' ∧ Registers cfg slot s.st.reg s.models (.ok h) s'.models)
      (fun e s' => SameDisk s s' ∧ Registers cfg slot s.st.reg s.models (.error e) s'.models) := by
  unfold registerSlot
  refine Triple.gets_bind ?_
  exact (Store.onModels_spec _ s).mono (fun _ _ h => ⟨h.2, h.1⟩) (fun _ _ h => ⟨h.2, h.1⟩)

/-- The next active slot registers, between changes of the NPU's flags. -/
def Switches (cfg : Config) (next : Nat) (s s' : Store) : Prop :=
  ∃ m r m', Models.SameCat s.models m ∧ Registers cfg next s'.st.reg m r m' ∧
    Models.SameCat m' s'.models

theorem switchActive_spec (hv : layoutValid cfg) (cur next : Nat) (u : RegUpdate)
    (hf : (u.apply s.st.reg).Fits cfg) :
    Triple (switchActive cfg cur next u) s
      (fun _ s' => Committed cfg (u.apply s.st.reg) s s' ∧ Switches cfg next s s')
      (fun _ s' => (SameDisk s s' ∨ Aborted cfg (u.apply s.st.reg) s s') ∧
        Models.SameCat s.models s'.models) := by
  unfold switchActive
  refine Triple.gets_bind ?_
  have hrel : Respects Models.SameCat (if cur = slotNone then pure none
      else releaseNpu cfg.maxModels (s.st.reg.record cur)) :=
    Respects.ite (Respects.pure' _) (sameCat_releaseNpu _ _)
  generalize (if cur = slotNone then pure none
    else releaseNpu cfg.maxModels (s.st.reg.record cur) : ModelsM (Option Nat)) = release at hrel
  have hcat := hrel s.models
  refine Triple.bind ((Store.onModels_spec release s).mono (fun _ _ h => h) ?_) ?_
  · rintro e s₁ ⟨hr, hd⟩
    rw [hr] at hcat
    exact ⟨.inl hd, hcat⟩
  rintro held s₁ ⟨hr, hd⟩
  rw [hr] at hcat
  refine Triple.attempt_bind (commitUpdate_spec hv u (hd.st ▸ hf)) ?_ ?_
  · rintro _ s₂ ⟨h, hm⟩
    rw [hd.st] at h
    have hc := h.of_sameDisk hd
    have hcat₂ : Models.SameCat s.models s₂.models := hm ▸ hcat
    dsimp only
    refine Triple.attempt_bind (registerSlot_spec cfg next s₂) ?_ ?_
    all_goals
      rintro r s₃ ⟨hd₃, hreg⟩
      refine (reload_spec cfg _ s₃).mono ?_ (fun _ _ h => h.elim)
      rintro _ s₄ ⟨hd₄, hcat₄⟩
      have hst : s₄.st = s₂.st := hd₄.st.trans hd₃.st
      exact ⟨(hc.then_sameDisk hd₃).then_sameDisk hd₄, _, _, _, hcat₂, hst ▸ hreg, hcat₄⟩
  · rintro e s₂ ⟨h, hm⟩
    rw [hd.st] at h
    have hc := h.of_sameDisk hd
    have hcat₂ : Models.SameCat s.models s₂.models := hm ▸ hcat
    refine Triple.bind (reload_spec cfg held s₂ |>.mono (fun _ _ h => h) (fun _ _ h => h.elim)) ?_
    rintro _ s₃ ⟨hd₃, hcat₃⟩
    exact Triple.throw ⟨.inr (hc.then_sameDisk hd₃), IsTrans.trans _ _ _ hcat₂ hcat₃⟩

theorem storeActivate_spec (hv : layoutValid cfg) (hf : s.st.reg.Fits cfg) (slot : Nat) :
    Triple (storeActivate cfg slot) s
      (fun _ s' => (s.st.reg.occupied slot ∧ slot ≠ s.st.reg.activeSlot) ∧
        Committed cfg ((Reg.activate slot).apply s.st.reg) s s' ∧ Switches cfg slot s s')
      (fun _ s' => (SameDisk s s' ∨ (s.st.reg.occupied slot ∧ slot ≠ s.st.reg.activeSlot) ∧
          Aborted cfg ((Reg.activate slot).apply s.st.reg) s s') ∧
        Models.SameCat s.models s'.models) := by
  have hrefuse : (SameDisk s s ∨ (s.st.reg.occupied slot ∧ slot ≠ s.st.reg.activeSlot) ∧
      Aborted cfg ((Reg.activate slot).apply s.st.reg) s s) ∧ Models.SameCat s.models s.models :=
    ⟨.inl (Std.Refl.refl s), Std.Refl.refl _⟩
  unfold storeActivate
  refine Triple.gets_bind ?_
  refine Triple.ite (fun _ => Triple.throw hrefuse) (fun hr => ?_)
  refine Triple.ite (fun _ => Triple.throw hrefuse) (fun ho => ?_)
  refine Triple.ite (fun _ => Triple.throw hrefuse) (fun ha => ?_)
  have hlt : slot < cfg.lay.slotCount := by omega
  have hg := And.intro (not_not.mp ho) ha
  unfold activateLocked
  refine Triple.gets_bind ?_
  refine (switchActive_spec hv _ slot _ (Reg.activate_fits hf hlt)).mono (fun _ _ h => ⟨hg, h⟩) ?_
  rintro _ s' ⟨hd | hc, hcat⟩
  · exact ⟨.inl hd, hcat⟩
  · exact ⟨.inr ⟨hg, hc⟩, hcat⟩

theorem storeRollback_spec (hv : layoutValid cfg) (hf : s.st.reg.Fits cfg) :
    Triple (storeRollback cfg) s
      (fun _ s' => ∃ prev, rollbackTarget cfg s.st.reg = some prev ∧
        Committed cfg ((Reg.rollback prev).apply s.st.reg) s s' ∧ Switches cfg prev s s')
      (fun _ s' => (SameDisk s s' ∨ ∃ prev, rollbackTarget cfg s.st.reg = some prev ∧
          Aborted cfg ((Reg.rollback prev).apply s.st.reg) s s') ∧
        Models.SameCat s.models s'.models) := by
  have hrefuse : (SameDisk s s ∨ ∃ prev, rollbackTarget cfg s.st.reg = some prev ∧
      Aborted cfg ((Reg.rollback prev).apply s.st.reg) s s) ∧ Models.SameCat s.models s.models :=
    ⟨.inl (Std.Refl.refl s), Std.Refl.refl _⟩
  unfold storeRollback rollbackLocked
  refine Triple.gets_bind ?_
  refine Triple.ite (fun _ => Triple.throw hrefuse) (fun hr => ?_)
  refine Triple.gets_bind ?_
  split
  · exact Triple.throw hrefuse
  · rename_i prev hp
    have hlt := (rollbackTarget_spec hf hp).1
    refine (switchActive_spec hv _ prev _ (Reg.rollback_fits hf hlt)).mono
      (fun _ _ h => ⟨prev, hp, h⟩) ?_
    rintro _ s' ⟨hd | hc, hcat⟩
    · exact ⟨.inl hd, hcat⟩
    · exact ⟨.inr ⟨prev, hp, hc⟩, hcat⟩

-- ---------------------------------------------------------------------------
-- Installation
-- ---------------------------------------------------------------------------

/-- Only the bytes of a slot changed. -/
structure Filled (cfg : Config) (slot : Nat) (s s' : Store) : Prop where
  within : Within (cfg.lay.slotOff slot) (cfg.lay.slotOff slot + cfg.lay.slotSize) s.flash s'.flash
  st : s'.st = s.st
  models : s'.models = s.models

instance : IsPreorder Store (Filled cfg slot) where
  refl _ := ⟨Std.Refl.refl _, rfl, rfl⟩
  trans _ _ _ h h' := ⟨IsTrans.trans _ _ _ h.within h'.within, h'.st.trans h.st,
    h'.models.trans h.models⟩

/-- The registry copies are out of reach of a slot. -/
theorem Filled.copies (hv : layoutValid cfg) (hs : slot < cfg.lay.slotCount)
    (h : Filled cfg slot s s') : SynapticOS.copies cfg s' = SynapticOS.copies cfg s := by
  funext c
  refine copyReg_congr hv (h.within.mem.sameOn ?_)
  exact hv.copy_slot_apart c hs

/-- So are the other slots. -/
theorem Filled.otherSlot (hv : layoutValid cfg) (hs : slot < cfg.lay.slotCount)
    (hi : i < cfg.lay.slotCount) (hne : i ≠ slot) (h : Filled cfg slot s s') :
    Mem.SameOn (cfg.lay.slotOff i) (cfg.lay.slotOff i + cfg.lay.slotSize)
      s.flash.mem s'.flash.mem :=
  h.within.mem.sameOn (hv.slots_apart hi hs hne)

/-- A slot holds `size` payload bytes with this CRC. -/
def PayloadCrc (cfg : Config) (m : Mem) (slot size : Nat) (crc : UInt32) : Prop :=
  crc32Ieee (m.read (payloadOff cfg slot) size) = crc

/-- The arguments `syn_store_install` goes on with. -/
structure Installable (cfg : Config) (info : ModelInfo) (data : List UInt8) : Prop where
  nonempty : data.length ≠ 0
  named : info.cname ≠ []
  fits : synmHdrSize + data.length ≤ cfg.lay.slotSize
  crc : info.crc32 = 0 ∨ info.crc32 = crc32Ieee data

theorem installChecks_ok {st : St} (h : installChecks cfg st info data = .ok slot) :
    Installable cfg info data ∧ slot = stagingSlot cfg st.reg := by
  unfold installChecks at h
  split at h
  · cases h
  · split at h
    · cases h
    · split at h
      · cases h
      · cases h
        refine ⟨⟨?_, ?_, by omega, ?_⟩, rfl⟩
        · rename_i h1 _ _; exact fun h => h1 (.inr (.inl h))
        · rename_i h1 _ _; exact fun h => h1 (.inr (.inr h))
        · rename_i h3
          by_contra hn
          exact h3 (not_or.mp hn)

/-- An installation up to its commit: evict, program, check. -/
structure Programmed (cfg : Config) (slot : Nat) (data : List UInt8) (s s₁ s₂ : Store) : Prop where
  freed : Freed cfg slot s s₁
  filled : Filled cfg slot s₁ s₂
  crc : PayloadCrc cfg s₂.flash.mem slot data.length (crc32Ieee data)

/-- How an installation of `rec` ends once the payload is in place. -/
def InstallEnds (cfg : Config) (slot : Nat) (rec : ModelInfo) (s s' : Store)
    (r : Except Errno Nat) : Prop :=
  ∃ s₁, CommitsTo cfg (Reg.install slot rec) s s₁ ∧ SameDisk s₁ s' ∧
    Registers cfg slot s₁.st.reg s₁.models r s'.models

theorem Freed.lt (h : Freed cfg slot s s') : slot < cfg.lay.slotCount := by
  rcases h with h | h
  · exact h.2.2.1
  · exact h.1.lt

theorem Freed.later (h : Freed cfg slot s s') : Flash.Later s.flash s'.flash := by
  rcases h with ⟨-, -, -, rfl⟩ | ⟨-, -, hc⟩
  · exact Std.Refl.refl _
  · exact hc.later

theorem Freed.ne_active (h : Freed cfg slot s s') : slot ≠ s'.st.reg.activeSlot := by
  rcases h with ⟨-, ha, -, rfl⟩ | ⟨he, -, hc⟩
  · exact ha
  · rw [hc.reg]
    exact he.active

theorem Freed.fits (h : Freed cfg slot s s') (hf : s.st.reg.Fits cfg) : s'.st.reg.Fits cfg := by
  rcases h with ⟨-, -, -, rfl⟩ | ⟨-, -, h⟩
  · exact hf
  · rw [h.reg]
    exact (Reg.evict_fits hf slot).of_generation _

theorem storeInstall_spec (hv : layoutValid cfg) (hf : s.st.reg.Fits cfg) (info : ModelInfo)
    (data : List UInt8) :
    let slot := stagingSlot cfg s.st.reg
    let record := installRecord cfg slot info data
    Triple (storeInstall cfg info data) s
      (fun h s' => Installable cfg info data ∧
        ∃ s₁ s₂, Programmed cfg slot data s s₁ s₂ ∧ InstallEnds cfg slot record s₂ s' (.ok h))
      (fun e s' => s' = s ∨ Installable cfg info data ∧
        (NotFreed cfg slot s s' ∨ (∃ s₁, Freed cfg slot s s₁ ∧ Filled cfg slot s₁ s') ∨
          ∃ s₁ s₂, Programmed cfg slot data s s₁ s₂ ∧
            (AbortsTo cfg (Reg.install slot record) s₂ s' ∨ InstallEnds cfg slot record s₂ s' (.error e)))) := by
  dsimp only
  unfold storeInstall
  refine Triple.gets_bind ?_
  split
  · exact Triple.throw (.inl rfl)
  rename_i slot hc
  obtain ⟨hi, rfl⟩ := installChecks_ok hc
  generalize stagingSlot cfg s.st.reg = slot
  refine Triple.bind ((storeBeginStaging_spec hv hf slot).mono (fun _ _ h => h)
    fun _ _ h => .inr ⟨hi, .inl h⟩) ?_
  intro _ s₁ h₁
  unfold installLocked
  refine Triple.bind ((Store.onFlash_spec (installPayload_spec hv h₁.lt info hi.fits s₁.flash)).mono
    (fun _ _ h => h) ?_) ?_
  · rintro e s₂ ⟨hw, hs₂⟩
    exact .inr ⟨hi, .inr (.inl ⟨s₁, h₁, hw, by rw [hs₂], by rw [hs₂]⟩)⟩
  rintro _ s₂ ⟨⟨hw, hcrc⟩, hs₂⟩
  have hp : Programmed cfg slot data s s₁ s₂ := ⟨h₁, ⟨hw, by rw [hs₂], by rw [hs₂]⟩, hcrc⟩
  have hf₂ : s₂.st.reg.Fits cfg := hp.filled.st ▸ h₁.fits hf
  refine Triple.bind ((commitUpdate_spec' hv _ (Reg.install_fits hv hf₂ h₁.lt
    (installRecord cfg slot info data))).mono (fun _ _ h => h)
      fun _ _ h => .inr ⟨hi, .inr (.inr ⟨s₁, s₂, hp, .inl h⟩)⟩) ?_
  intro _ s₃ h₃
  exact (registerSlot_spec cfg slot s₃).mono (fun _ _ h => ⟨hi, s₁, s₂, hp, s₃, h₃, h.1, h.2⟩)
    (fun _ _ h => .inr ⟨hi, .inr (.inr ⟨s₁, s₂, hp, .inr ⟨s₃, h₃, h.1, h.2⟩⟩)⟩)

-- ---------------------------------------------------------------------------
-- Initialization
-- ---------------------------------------------------------------------------

/-- A store that has just come up: the scan only read, and the RAM registry is
rebuilt from what was adopted. -/
structure Booted (cfg : Config) (s s' : Store) : Prop where
  mem : s'.flash.mem = s.flash.mem
  later : Flash.Later s.flash s'.flash
  ready : s'.st.ready = true
  header : FromHeader cfg s.flash.mem s'.st.reg
  adopted : Flash.CutOnly s.flash → s'.flash.powered = true → Adopted cfg s.flash.mem s'.st
  models : s'.models = ((registerResidents cfg s'.st.reg).run s.models).2

/-- `syn_store_init` on a valid layout comes up, whatever it reads. -/
theorem storeInit_spec (hv : layoutValid cfg) (hr : s.st.ready = false) :
    Triple (storeInit cfg) s (fun _ s' => Booted cfg s s') (fun _ s' => Booted cfg s s') := by
  unfold storeInit
  refine Triple.gets_bind ?_
  rw [hr]
  refine Triple.ite (fun h => by cases h) (fun _ => ?_)
  refine Triple.ite (fun h => absurd hv h) (fun _ => ?_)
  refine Triple.bind (Triple.zoom (Q := fun st s₁ => Scanned ⟨s.flash, []⟩ ⟨s₁.flash, []⟩ ∧
      FromHeader cfg s.flash.mem st.reg ∧ s₁.models = s.models ∧
      (Flash.CutOnly s.flash → s₁.flash.powered = true → Adopted cfg s.flash.mem st))
    ((bootScan_spec hv _).mono (fun _ _ h => ⟨⟨h.1.mem, h.1.later⟩, h.2.1, rfl, h.2.2⟩)
      fun _ _ h => h.elim)) ?_
  rintro st s₁ ⟨hs, hh, hm, ha⟩
  refine Triple.modify_bind ?_
  have hb : ∀ s₂, SameDisk { s₁ with st := { st with ready := true } } s₂ →
      s₂.models = ((registerResidents cfg st.reg).run s₁.models).2 → Booted cfg s s₂ := by
    intro s₂ hd hm₂
    have hst : s₂.st = { st with ready := true } := hd.st
    have hfl : s₂.flash = s₁.flash := hd.flash
    exact {
      mem := by rw [hfl]; exact hs.mem
      later := by rw [hfl]; exact hs.later
      ready := by rw [hst]
      header := by rw [hst]; exact hh
      adopted := fun hc hp => by
        have h := ha hc (hfl ▸ hp)
        rw [hst]
        exact ⟨h.reg, h.newest, h.valid⟩
      models := by rw [hm₂, hm, hst] }
  refine (Store.onModels_spec _ _).mono ?_ ?_
  · rintro _ s₂ ⟨hrun, hd⟩
    exact hb s₂ hd (by rw [hrun])
  · rintro _ s₂ ⟨hrun, hd⟩
    exact hb s₂ hd (by rw [hrun])

end SynapticOS
