import SynapticOS.Runs.Calm

/-!
# What a new update evicts

`syn_ota_begin` chooses its slot, drops a staged predecessor and then evicts the
occupant of the slot it chose. The slot that the predecessor leaves free comes too
late for the choice.
-/

namespace SynapticOS

open Lib

variable {cfg : Config} {s s' : Sys} {t t' : Store} {r r' : Reg} {slot i j : Nat}

-- ---------------------------------------------------------------------------
-- Lost models
-- ---------------------------------------------------------------------------

/-- The model of a slot was there, as more than the staged update, and is gone. -/
structure Lost (r r' : Reg) (i : Nat) : Prop where
  occupied : r.occupied i
  unstaged : i ≠ r.stagedSlot
  gone : ¬r'.occupied i

/-- As little as possible is evicted between two states of the store. -/
structure EvictsLittle (cfg : Config) (t t' : Store) : Prop where
  once : ∀ i j, Lost t.st.reg t'.st.reg i → Lost t.st.reg t'.st.reg j → i = j
  active : t.st.reg.occupied t.st.reg.activeSlot → t'.st.reg.occupied t.st.reg.activeSlot
  pivot : t.st.reg.occupied t.st.reg.prevActive → ¬t'.st.reg.occupied t.st.reg.prevActive →
    ∀ i < cfg.lay.slotCount, i ≠ t.st.reg.activeSlot → i = t.st.reg.prevActive
  spare : (∃ i < cfg.lay.slotCount, ¬t.st.reg.occupied i) ∨
      t.st.reg.stagedSlot ≠ slotNone ∧ ¬t'.st.reg.occupied t.st.reg.stagedSlot →
    ∀ i, ¬Lost t.st.reg t'.st.reg i
  residents : t'.models = t.models ∨ ∃ i h, t.st.reg.occupied i ∧ ¬t'.st.reg.occupied i ∧
    slotHandle cfg.maxModels (t.st.reg.record i) t.models = some h ∧
    Models.Replaced h none t.models t'.models

/-- The staged update, if there is one, leaves its slot to its successor, and its
slot has no other role. -/
structure Frugal (cfg : Config) (r : Reg) : Prop where
  choice : r.stagedSlot ≠ slotNone → r.occupied (stagingSlot cfg r) →
    stagingSlot cfg r = r.stagedSlot
  active : r.stagedSlot ≠ slotNone → r.stagedSlot = r.activeSlot → ¬r.occupied r.activeSlot
  pivot : r.stagedSlot ≠ slotNone → r.stagedSlot = r.prevActive → r.occupied r.prevActive →
    ∀ i < cfg.lay.slotCount, i ≠ r.activeSlot → i = r.prevActive

/-- The pivot is chosen only when there is no other slot beside the active one. -/
theorem stagingSlot_pivot (ho : r.occupied (stagingSlot cfg r))
    (hp : stagingSlot cfg r = r.prevActive) (hi : i < cfg.lay.slotCount) (ha : i ≠ r.activeSlot) :
    i = r.prevActive := by
  by_contra hn
  have hsome : ((List.range cfg.lay.slotCount).find? fun s =>
      s ≠ r.activeSlot ∧ s ≠ r.prevActive).isSome = true := by
    rw [List.find?_isSome]
    exact ⟨i, List.mem_range.mpr hi, by simpa using ⟨ha, hn⟩⟩
  obtain ⟨a, h2⟩ := Option.isSome_iff_exists.mp hsome
  have h1 : (List.range cfg.lay.slotCount).find? (fun s => ¬r.occupied s) = none := by
    rw [List.find?_eq_none]
    intro x hx
    simpa using stagingSlot_occupied ho x (List.mem_range.mp hx)
  have hst : stagingSlot cfg r = a := by
    unfold stagingSlot
    dsimp only
    rw [h1, h2]
    rfl
  have hne := List.find?_some h2
  simp only [decide_eq_true_eq] at hne
  exact hne.2 (hst ▸ hp)

/-- The occupied slots after a begin: those from before, less the superseded update
and the slot that was chosen. -/
structure Emptied (cfg : Config) (cleared : Bool) (slot : Nat) (t t' : Store) : Prop where
  occupied : ∀ i, t'.st.reg.occupied i ↔
    t.st.reg.occupied i ∧ i ≠ slot ∧ (cleared = true → i ≠ t.st.reg.stagedSlot)
  staged : cleared = true → t.st.reg.stagedSlot ≠ slotNone
  active : slot ≠ t.st.reg.activeSlot
  residents : t'.models = t.models ∨ ∃ h, t.st.reg.occupied slot ∧
    (cleared = true → slot ≠ t.st.reg.stagedSlot) ∧
    slotHandle cfg.maxModels (t.st.reg.record slot) t.models = some h ∧
    Models.Replaced h none t.models t'.models

/-- What `ram_unregister` may take from the RAM registry: the model that is
registered for this record. -/
theorem ramUnregister_ok {n : Nat} {info : ModelInfo} {m m' : Models}
    (h : (ramUnregister n info).run m = (.ok (), m')) :
    m' = m ∨ ∃ hd, slotHandle n info m = some hd ∧ Models.Replaced hd none m m' := by
  have hrun := ramUnregister_run n info m
  split at hrun
  next =>
    rw [hrun] at h
    cases h
    exact .inl rfl
  next hd hs =>
    split at hrun
    next =>
      rw [hrun] at h
      cases h
    next =>
      obtain ⟨m₁, hr, hm⟩ := hrun
      rw [hr] at h
      cases h
      exact .inr ⟨hd, hs, hm⟩

theorem Freed.emptied (h : Freed cfg slot t t') : Emptied cfg false slot t t' := by
  rcases h with ⟨hn, ha, -, rfl⟩ | ⟨he, hu, hc⟩
  · refine ⟨fun i => ⟨fun hi => ⟨hi, ?_, fun h => by cases h⟩, fun hi => hi.1⟩,
      fun h => (nomatch h), ha, .inl rfl⟩
    rintro rfl
    exact hn hi
  · refine ⟨fun i => ?_, fun h => (nomatch h), he.active, ?_⟩
    · rw [hc.reg]
      exact Reg.occupied_evict.trans (by simp)
    · rcases ramUnregister_ok hu with hm | ⟨hd, hs, hm⟩
      · exact .inl hm
      · exact .inr ⟨hd, he.occupied, fun h => (nomatch h), hs, hm⟩

/-- The store once the staged predecessor is dropped, as far as that succeeds. -/
def superseded (cfg : Config) (t : Store) : Store :=
  if t.st.ready = true ∧ t.st.reg.stagedSlot ≠ slotNone then ((storeClearStaged cfg).run t).2 else t

theorem supersede_run (cfg : Config) (s : Sys) :
    (supersede cfg : Act Sys ε Unit).run s =
        (.ok (), { s with store := superseded cfg s.store }) := by
  unfold supersede superseded
  rw [Act.run_bind, Act.run_gets]
  dsimp only
  by_cases h : s.store.st.ready = true ∧ s.store.st.reg.stagedSlot ≠ slotNone
  · rw [if_pos h, if_pos h]
    rfl
  · rw [if_neg h, if_neg h]
    rfl

/-- A begin that succeeds freed its slot after it had dropped the predecessor. -/
theorem otaBegin_freed (hv : layoutValid cfg) (hf : s.store.st.reg.Fits cfg) {name : List UInt8}
    {total : Nat} (h : (otaBegin cfg name total).run s = (.ok (), s')) :
    s.store.st.ready = true ∧ ∃ t, Freed cfg (stagingSlot cfg s.store.st.reg)
        (superseded cfg s.store) t ∧
      Filled cfg (stagingSlot cfg s.store.st.reg) t s'.store := by
  have hprep : Triple (beginPrepare cfg name total) s
      (fun slot s' => slot = stagingSlot cfg s.store.st.reg ∧ total ≤ cfg.lay.slotSize ∧
        s'.store = superseded cfg s.store) (fun _ _ => True) := by
    unfold beginPrepare
    refine Triple.get_bind ?_
    dsimp only
    refine Triple.ite (fun _ => Triple.throw trivial) (fun hle => ?_)
    refine Triple.bind ((drainServe_spec s).mono (fun _ _ h => h) fun _ _ _ => trivial) ?_
    rintro _ s₁ ⟨hst, -⟩
    refine Triple.bind (Triple.of_run (Q := fun _ s' => s'.store = superseded cfg s₁.store)
      (supersede_run cfg s₁) rfl) ?_
    intro _ s₂ hs₂
    refine Triple.modify_bind ?_
    refine Triple.bind ((cpu1Park_spec _).mono (fun _ _ h => h) fun _ _ h => h.elim) ?_
    rintro _ s₃ ⟨hst₃, -⟩
    exact Triple.pure' ⟨rfl, by omega, hst₃.trans (hs₂.trans (by rw [hst]))⟩
  have hfits : (superseded cfg s.store).st.reg.Fits cfg := by
    unfold superseded
    split
    · have hc := storeClearStaged_spec hv hf
      unfold Triple at hc
      split at hc
      next hr =>
        rw [hr]
        rcases hc with ⟨-, rfl⟩ | ⟨-, hc⟩
        · exact hf
        · exact (Superseded.cleared (t := s.store) ‹_ ∧ _›.2 hc).fits hf
      next hr =>
        rw [hr]
        rcases hc with ⟨-, rfl⟩ | ⟨-, hc⟩
        · exact hf
        · exact (Superseded.kept (t := s.store) ‹_ ∧ _›.2 hc).fits hf
    · exact hf
  have hlocked : Triple (beginLocked cfg name total) s
      (fun _ s' => ∃ t, Freed cfg (stagingSlot cfg s.store.st.reg) (superseded cfg s.store) t ∧
        Filled cfg (stagingSlot cfg s.store.st.reg) t s'.store) (fun _ _ => True) := by
    unfold beginLocked
    refine Triple.bind hprep ?_
    rintro _ s₁ ⟨rfl, hle, hst⟩
    refine (beginErase_spec hv (by rw [hst]; exact hfits) _ hle).mono ?_ (fun _ _ _ => trivial)
    rintro _ s₂ ⟨t, hfr, hfi, -⟩
    exact ⟨t, hst ▸ hfr, hfi⟩
  have hall : Triple (otaBegin cfg name total) s (fun _ s' => s.store.st.ready = true ∧
      ∃ t, Freed cfg (stagingSlot cfg s.store.st.reg) (superseded cfg s.store) t ∧
        Filled cfg (stagingSlot cfg s.store.st.reg) t s'.store) (fun _ _ => True) := by
    unfold otaBegin
    refine Triple.get_bind ?_
    refine Triple.ite (fun _ => Triple.throw trivial) (fun _ => ?_)
    refine Triple.ite (fun _ => Triple.throw trivial) (fun hr => ?_)
    exact (otaCall_spec hlocked).mono (fun _ _ h => ⟨not_not.mp hr, h⟩) fun _ _ _ => trivial
  exact hall.ok h

/-- The commit that would drop the staged predecessor fails. -/
def ClearFails (cfg : Config) (t : Store) : Prop :=
  ∃ e t', (storeClearStaged cfg).run t = (.error e, t')

/-- A begin clears the staged slot, unless the commit of that fails, and empties the
slot that it chose. -/
theorem Freed.superseded (hv : layoutValid cfg) (hr : t.st.ready = true) (hf : t.st.reg.Fits cfg)
    {t₂ : Store} (h : Freed cfg slot (superseded cfg t) t₂) (hfi : Filled cfg slot t₂ t') :
    ∃ cleared, Emptied cfg cleared slot t t' ∧ (cleared = false → t.st.reg.stagedSlot = slotNone ∨
      ClearFails cfg t) ∧ (ClearFails cfg t → cleared = false) := by
  have hem := h.emptied
  have hrun := storeClearStaged_spec hv hf
  unfold Triple at hrun
  unfold SynapticOS.superseded at hem
  by_cases hn : t.st.reg.stagedSlot = slotNone
  · rw [if_neg (by simp [hn])] at hem
    refine ⟨false, ?_, fun _ => .inl hn, fun _ => rfl⟩
    exact ⟨hfi.st ▸ hem.occupied, fun h =>
        (nomatch h), hem.active, by rw [hfi.models]; exact hem.residents⟩
  rw [if_pos ⟨hr, hn⟩] at hem
  split at hrun
  next t₁ hr₁ =>
    rw [hr₁] at hem
    have hc := (hrun.resolve_left fun h => hn h.1).2
    refine ⟨true, ⟨fun i => ?_, fun _ => hn, ?_, ?_⟩, fun h => (nomatch h), ?_⟩
    · have ho : t₁.st.reg.occupied i ↔ t.st.reg.occupied i ∧ i ≠ t.st.reg.stagedSlot := by
        rw [hc.reg]
        exact Reg.occupied_clearStaged
      rw [hfi.st, hem.occupied, ho]
      tauto
    · have ha := hem.active
      rw [hc.reg] at ha
      exact ha
    · rw [hfi.models]
      rcases hem.residents with hm | ⟨hd, ho, -, hs, hm⟩
      · exact .inl (hm.trans hc.models)
      · rw [hc.reg] at ho hs
        have ho := Reg.occupied_clearStaged.mp ho
        rw [hc.models] at hs hm
        exact .inr ⟨hd, ho.1, fun _ => ho.2, hs, hm⟩
    · rintro ⟨e, t'', he⟩
      rw [hr₁] at he
      cases he
  next e t₁ hr₁ =>
    rw [hr₁] at hem
    have hc := (hrun.resolve_left fun h => h.1 hr).2
    refine ⟨false, ⟨fun i => ?_, fun h => (nomatch h), hc.reg ▸ hem.active, ?_⟩,
      fun _ => .inr ⟨e, t₁, hr₁⟩, fun _ => rfl⟩
    · rw [hfi.st, hem.occupied, hc.reg]
    · rw [hfi.models]
      rcases hem.residents with hm | ⟨hd, ho, -, hs, hm⟩
      · exact .inl (hm.trans hc.models)
      · rw [hc.models] at hs hm
        exact .inr ⟨hd, hc.reg ▸ ho, fun h => (nomatch h), hc.reg ▸ hs, hm⟩

theorem Emptied.lost {cleared : Bool} (h : Emptied cfg cleared slot t t')
    (hl : Lost t.st.reg t'.st.reg i) : i = slot := by
  by_contra hn
  exact hl.gone ((h.occupied i).mpr ⟨hl.occupied, hn, fun _ => hl.unstaged⟩)

/-- A frugal state loses nothing beside the slot that has to go. -/
theorem Emptied.evictsLittle {cleared : Bool}
    (h : Emptied cfg cleared (stagingSlot cfg t.st.reg) t t') (hf : Frugal cfg t.st.reg) :
    EvictsLittle cfg t t' where
  once i j hi hj := (h.lost hi).trans (h.lost hj).symm
  active ho := by
    refine (h.occupied _).mpr ⟨ho, h.active.symm, fun hc he => ?_⟩
    exact hf.active (h.staged hc) he.symm ho
  pivot ho hn i hi ha := by
    by_cases hs : stagingSlot cfg t.st.reg = t.st.reg.prevActive
    · exact stagingSlot_pivot (hs ▸ ho) hs hi ha
    · have hc : cleared = true ∧ t.st.reg.stagedSlot = t.st.reg.prevActive := by
        by_contra hc
        exact hn ((h.occupied _).mpr ⟨ho, fun he => hs he.symm, fun h1 h2 => hc ⟨h1, h2.symm⟩⟩)
      exact hf.pivot (h.staged hc.1) hc.2 ho i hi ha
  spare hs i hl := by
    have he := h.lost hl
    subst he
    rcases hs with ⟨k, hk, hn⟩ | ⟨hn, hgone⟩
    · exact hn (stagingSlot_occupied hl.occupied k hk)
    · exact hl.unstaged (hf.choice hn hl.occupied)
  residents := by
    rcases h.residents with hm | ⟨hd, ho, -, hs, hm⟩
    · exact .inl hm
    · exact .inr ⟨_, hd, ho, fun h' => ((h.occupied _).mp h').2.1 rfl, hs, hm⟩

/-- Where the staged update is dropped, only a frugal state loses as little. -/
theorem Emptied.frugal {cleared : Bool}
    (h : Emptied cfg cleared (stagingSlot cfg t.st.reg) t t')
    (hc : t.st.reg.stagedSlot ≠ slotNone → cleared = true) (he : EvictsLittle cfg t t') :
    Frugal cfg t.st.reg where
  choice hs ho := by
    by_contra hne
    refine he.spare (.inr ⟨hs, fun h' => ((h.occupied _).mp h').2.2 (hc hs) rfl⟩) _ ⟨ho, hne, ?_⟩
    exact fun h' => ((h.occupied _).mp h').2.1 rfl
  active hs heq ho := ((h.occupied _).mp (he.active ho)).2.2 (hc hs) heq.symm
  pivot hs heq ho i hi ha :=
    he.pivot ho (fun h' => ((h.occupied _).mp h').2.2 (hc hs) heq.symm) i hi ha

/-- A predecessor that could not be dropped leaves the choice as good as it was. -/
theorem Emptied.evictsLittle_kept (h : Emptied cfg false (stagingSlot cfg t.st.reg) t t')
    (hf : t.st.reg.Fits cfg) :
    EvictsLittle cfg t t' where
  once i j hi hj := (h.lost hi).trans (h.lost hj).symm
  active ho := (h.occupied _).mpr ⟨ho, h.active.symm, fun hc => (nomatch hc)⟩
  pivot ho hn i hi ha := by
    have hs : stagingSlot cfg t.st.reg = t.st.reg.prevActive := by
      by_contra hs
      exact hn ((h.occupied _).mpr ⟨ho, fun he => hs he.symm, fun hc => (nomatch hc)⟩)
    exact stagingSlot_pivot (hs ▸ ho) hs hi ha
  spare hs i hl := by
    have he := h.lost hl
    subst he
    rcases hs with ⟨k, hk, hn⟩ | ⟨hn, hgone⟩
    · exact hn (stagingSlot_occupied hl.occupied k hk)
    · -- the staged slot is in its place, unless it was free before
      have hfree : ¬t.st.reg.occupied t.st.reg.stagedSlot := fun ho =>
        hgone ((h.occupied _).mpr ⟨ho, fun he => hl.unstaged he.symm, fun hc => (nomatch hc)⟩)
      exact hfree (stagingSlot_occupied hl.occupied _ (hf.staged.resolve_left hn))
  residents := by
    rcases h.residents with hm | ⟨hd, ho, -, hs, hm⟩
    · exact .inl hm
    · exact .inr ⟨_, hd, ho, fun h' => ((h.occupied _).mp h').2.1 rfl, hs, hm⟩

/-- In every state of every run: a begin that succeeds evicts as little as possible
just from the frugal states, or when the predecessor could not be dropped. -/
theorem begin_evicts_iff {name : List UInt8} {total : Nat} (hv : layoutValid cfg) (m : Mem)
    (past : List (Env × Op)) {env : Env}
    (hb : call cfg (run (sysStep cfg) (Sys.cold m) past) (env, .otaBegin name total) =
        (.ok (), s')) :
    let s := run (sysStep cfg) (Sys.cold m) past
    EvictsLittle cfg (s.enter env).store s'.store ↔
      Frugal cfg s.store.st.reg ∨ ClearFails cfg (s.enter env).store := by
  dsimp only
  have hfit := fitting_run hv m past
  generalize run (sysStep cfg) (Sys.cold m) past = s at hb hfit
  unfold call at hb
  dsimp only at hb
  split at hb
  next hp =>
    obtain ⟨hr, t, hfr, hfi⟩ := otaBegin_freed hv (s := s.enter env) hfit.store hb
    obtain ⟨cleared, hem, hcl, hnc⟩ := hfr.superseded hv hr hfit.store hfi
    constructor
    · intro he
      by_cases hcf : ClearFails cfg (s.enter env).store
      · exact .inr hcf
      · refine .inl (hem.frugal (t := (s.enter env).store) (fun hs => ?_) he)
        by_contra hn
        exact (hcl (by simpa using hn)).elim hs hcf
    · rintro (hf | hcf)
      · exact hem.evictsLittle hf
      · rw [hnc hcf] at hem
        exact hem.evictsLittle_kept hfit.store
  next => cases hb

-- ---------------------------------------------------------------------------
-- A full store
-- ---------------------------------------------------------------------------

/-- A full store: slot 2 is active, slot 1 its pivot, and an update waits in slot 0. -/
def stagedFirst : List (Env × Op) :=
  [(quiet, .boot), (quiet, .markStaged 3 (namedModel 65)), (quiet, .activate 3),
    (quiet, .markStaged 1 (namedModel 66)), (quiet, .activate 1),
    (quiet, .markStaged 2 (namedModel 67)), (quiet, .activate 2),
    (quiet, .markStaged 0 (namedModel 68))]

def stagedReg : Reg :=
  ⟨7, 2, 1, 0, 15, Function.update (Function.update (Function.update (Function.update default 3
    (namedModel 65)) 1 (namedModel 66)) 2 (namedModel 67)) 0 (namedModel 68)⟩

theorem stagedFirst_up :
    Up fourSlots stagedReg (run (sysStep fourSlots) (Sys.cold erasedMem) stagedFirst) := by
  have hv := fourSlots_valid
  have hq := quiet_quiet
  have h0 := (Up.boot_erased hv (show quiet.plan = [] from rfl)).1
  have h1 : Up fourSlots ⟨1, slotNone, slotNone, 3, 8, _⟩ _ :=
    (h0.markStaged 3 hv hq (by decide) (by decide) (namedModel 65)).1
  have h2 : Up fourSlots ⟨2, 3, slotNone, slotNone, 8, _⟩ _ :=
    (h1.activate 3 hv hq (by decide) (by decide)).1
  have h3 : Up fourSlots ⟨3, 3, slotNone, 1, 10, _⟩ _ :=
    (h2.markStaged 1 hv hq (by decide) (by decide) (namedModel 66)).1
  have h4 : Up fourSlots ⟨4, 1, 3, slotNone, 10, _⟩ _ :=
    (h3.activate 1 hv hq (by decide) (by decide)).1
  have h5 : Up fourSlots ⟨5, 1, 3, 2, 14, _⟩ _ :=
    (h4.markStaged 2 hv hq (by decide) (by decide) (namedModel 67)).1
  have h6 : Up fourSlots ⟨6, 2, 1, slotNone, 14, _⟩ _ :=
    (h5.activate 2 hv hq (by decide) (by decide)).1
  rw [stagedFirst, run_cons, run_cons, run_cons, run_cons, run_cons, run_cons, run_cons, run_cons,
    run_nil]
  exact (h6.markStaged 0 hv hq (by decide) (by decide) (namedModel 68)).1

/-- The session takes the slot of the update it replaces. -/
theorem begin_evicts_staged :
    let s := run (sysStep fourSlots) (Sys.cold erasedMem) stagedFirst
    s.store.st.reg.stagedSlot = 0 ∧ EvictsLittle fourSlots (s.enter quiet).store
      (sysStep fourSlots s (quiet, .otaBegin [69] 65)).store := by
  have h := @Up.otaBegin _ _ _ _ fourSlots_valid stagedFirst_up quiet_quiet [69] 65 (by decide)
    (by decide) (by decide) (by decide)
  have hl := begin_evicts_iff fourSlots_valid erasedMem stagedFirst h.1
  dsimp only at hl ⊢
  rw [stagedFirst_up.reg] at hl ⊢
  exact ⟨rfl, hl.mpr (.inl ⟨by decide, by decide, by decide⟩)⟩

/-- Three models in use and a staged update in the last slot. -/
def fullReg : Reg := ⟨7, 2, 1, 3, 15, Function.update fourRecords 3 (namedModel 68)⟩

/-- The session that replaces the update takes slot 0. -/
theorem fullReg_loses (h : Up fourSlots fullReg s)
    (h' : Up fourSlots (fullReg.cleared.evicted (stagingSlot fourSlots fullReg)) s') :
    ¬EvictsLittle fourSlots (s.enter quiet).store s'.store := by
  intro hl
  have hreg : (s.enter quiet).store.st.reg = fullReg := h.reg
  have hspare := hl.spare
  rw [hreg, h'.reg] at hspare
  exact hspare (.inr ⟨by decide, by decide⟩) 0 ⟨by decide, by decide, by decide⟩

theorem begin_evicts_model : ¬∀ (cfg : Config) (m : Mem) (past : List (Env × Op)) (env : Env)
    (name : List UInt8) (total : Nat) (s' : Sys), layoutValid cfg →
    call cfg (run (sysStep cfg) (Sys.cold m) past) (env, .otaBegin name total) = (.ok (), s') →
    EvictsLittle cfg ((run (sysStep cfg) (Sys.cold m) past).enter env).store s'.store := by
  intro hall
  have hfull : Up fourSlots fullReg (run (sysStep fourSlots) (Sys.cold erasedMem)
      (threeModels ++ [(quiet, .markStaged 3 (namedModel 68))])) := by
    rw [run_append, run_cons, run_nil]
    exact (threeModels_up.markStaged 3 fourSlots_valid quiet_quiet (by decide) (by decide) _).1
  have hb := @Up.otaBegin _ _ _ _ fourSlots_valid hfull quiet_quiet [69] 65 (by decide) (by decide)
    (by decide) (by decide)
  exact fullReg_loses hfull hb.2.1 (hall _ _ _ _ _ _ _ fourSlots_valid hb.1)

end SynapticOS
