import SynapticOS.Runs.Undisturbed
import SynapticOS.Store.Registration

/-!
# What a successful activation makes runnable

The commit of an activation comes first; the registration of the model in RAM comes
after it, may fail, and is not reported. `Registrable` is when it does not.
-/

namespace SynapticOS

open Lib

-- ---------------------------------------------------------------------------
-- Names stay distinct
-- ---------------------------------------------------------------------------

section
variable {cfg : Config} {t t' : Store} {slot : Nat}

/-- The names of a store's RAM registry. -/
abbrev Named (cfg : Config) (t : Store) : Prop := Models.Distinct cfg.maxModels t.models

theorem Unregisters.named {r : Except Errno Unit} (h : Unregisters cfg slot t r t'.models)
    (hd : Named cfg t) : Named cfg t' := by
  have he := distinct_ramUnregister hd (t.st.reg.record slot)
  unfold Unregisters at h
  unfold Ends at he
  rwa [h] at he

theorem Freed.named (h : Freed cfg slot t t') (hd : Named cfg t) : Named cfg t' := by
  rcases h with ⟨-, -, -, rfl⟩ | ⟨-, hu, -⟩
  · exact hd
  · exact hu.named hd

theorem NotFreed.named (h : NotFreed cfg slot t t') (hd : Named cfg t) : Named cfg t' := by
  rcases h with rfl | ⟨-, ⟨-, e, hu⟩ | ⟨hu, -⟩⟩
  · exact hd
  · exact hu.named hd
  · exact hu.named hd

theorem Superseded.named (h : Superseded cfg t t') (hd : Named cfg t) : Named cfg t' := by
  cases h with
  | same _ h => exact h ▸ hd
  | cleared _ h => rw [Named, h.models]; exact hd
  | kept _ h => rw [Named, h.models]; exact hd

theorem Filled.named (h : Filled cfg slot t t') (hd : Named cfg t) : Named cfg t' := by
  rw [Named, h.models]
  exact hd

theorem Switches.named (h : Switches cfg slot t t') (hd : Named cfg t) : Named cfg t' := by
  obtain ⟨m, r, m', h1, h2, h3⟩ := h
  have he := distinct_ramRegister (Models.Distinct.sameCat hd h1) (slotPayloadPtr cfg slot)
    (t'.st.reg.record slot)
  unfold Ends at he
  unfold Registers ramRegisterSlot at h2
  rw [h2] at he
  exact Models.Distinct.sameCat he h3

theorem InstallEnds.named {record : ModelInfo} {r : Except Errno Nat}
    (h : InstallEnds cfg slot record t t' r) (hd : Named cfg t) : Named cfg t' := by
  obtain ⟨t₁, hc, -, hreg⟩ := h
  have hd₁ : Models.Distinct cfg.maxModels t₁.models := by
    rw [hc.models]
    exact hd
  have he := distinct_ramRegister hd₁ (slotPayloadPtr cfg slot) (t₁.st.reg.record slot)
  unfold Ends at he
  unfold Registers ramRegisterSlot at hreg
  rwa [hreg] at he

theorem CommitsTo.named {u : RegUpdate} (h : CommitsTo cfg u t t') (hd : Named cfg t) :
    Named cfg t' := by
  rw [Named, h.models]
  exact hd

theorem AbortsTo.named {u : RegUpdate} (h : AbortsTo cfg u t t') (hd : Named cfg t) :
    Named cfg t' := by
  rw [Named, h.models]
  exact hd

end

-- ---------------------------------------------------------------------------
-- Activations
-- ---------------------------------------------------------------------------

section
variable {cfg : Config} {t t' : Store} {s s' : Sys} {slot : Nat}

/-- Where the payload of a slot is mapped. -/
def slotData (cfg : Config) (slot : Nat) : DataPtr := .window (payloadOff cfg slot)

/-- The new active model is registered with its payload, and the NPU holds it when it
held the outgoing one and takes the new one. -/
structure RunsActive (cfg : Config) (t t' : Store) : Prop where
  attached : Attached cfg.maxModels (t'.st.reg.record t'.st.reg.activeSlot)
    (slotData cfg t'.st.reg.activeSlot) t'.models
  loaded : ∀ h e, outgoing cfg t.st.reg.activeSlot t ≠ none →
    slotHandle cfg.maxModels (t'.st.reg.record t'.st.reg.activeSlot) t'.models = some h →
    t'.models.entry cfg.maxModels h = some (h - 1, e) →
    Models.NpuTakes t'.flash.mem e t.models → e.loaded = true

/-- The registration of a slot's record would succeed. -/
def CanRegister (cfg : Config) (slot : Nat) (t : Store) : Prop :=
  Registrable cfg.maxModels (t.st.reg.record slot) (slotData cfg slot) t.models

theorem slotPayloadPtr_mapped (hv : layoutValid cfg) (hmap : cfg.port.mapped = true)
    (hs : slot < cfg.lay.slotCount) : slotPayloadPtr cfg slot = some (slotData cfg slot) := by
  have hwin := hv.slot_in_window hs
  have hgt := hv.slot_gt_hdr
  have hoff : payloadOff cfg slot < cfg.port.size := by
    rw [payloadOff]
    omega
  rw [slotPayloadPtr, Flash.mmap, if_pos ⟨hoff, hmap⟩]
  rfl

/-- The model of the next active slot after the move. -/
theorem switchActive_runs (hv : layoutValid cfg) (hmap : cfg.port.mapped = true)
    (hd : Named cfg t) {next : Nat} (hs : next < cfg.lay.slotCount) (u : RegUpdate)
    (hf : (u.apply t.st.reg).Fits cfg) (hact : (u.apply t.st.reg).activeSlot = next)
    (hrec : (u.apply t.st.reg).record = t.st.reg.record) :
    Triple (switchActive cfg t.st.reg.activeSlot next u) t
      (fun _ t' => t'.st.reg.activeSlot = next ∧ (RunsActive cfg t t' ↔ CanRegister cfg next t))
      (fun _ _ => True) := by
  refine (switchActive_exact hv _ next u hf).mono ?_ (fun _ _ _ => trivial)
  rintro _ t' ⟨-, hc, m, r, m', hrel, hreg, hm⟩
  have hact' : t'.st.reg.activeSlot = next := by rw [hc.reg]; exact hact
  have hrec' : t'.st.reg.record = t.st.reg.record := by rw [hc.reg]; exact hrec
  refine ⟨hact', ?_⟩
  have hspec := ramRegister_spec (hd.sameCat hrel.sameCat) (t.st.reg.record next)
      (slotData cfg next)
  have hcan : Registrable cfg.maxModels (t.st.reg.record next) (slotData cfg next) m ↔
      CanRegister cfg next t := hrel.sameCat.registrable
  unfold Registers ramRegisterSlot at hreg
  rw [slotPayloadPtr_mapped hv hmap hs, hrec'] at hreg
  have hcat := reloaded_sameCat cfg.maxModels t'.flash.mem
    (if (outgoing cfg t.st.reg.activeSlot t).isSome then r.toOption else none) m'
  rw [← hm] at hcat
  have hatt : ∀ (hr : Attached cfg.maxModels (t.st.reg.record next) (slotData cfg next) m' ↔
      Registrable cfg.maxModels (t.st.reg.record next) (slotData cfg next) m),
      Attached cfg.maxModels (t'.st.reg.record t'.st.reg.activeSlot)
        (slotData cfg t'.st.reg.activeSlot) t'.models ↔ CanRegister cfg next t := by
    intro hr
    rw [hact', hrec', ← hcan, ← hr]
    exact ⟨hcat.symm.attached, hcat.attached⟩
  cases r with
  | error e =>
    obtain ⟨h1, h2⟩ := hspec.error hreg
    exact ⟨fun h => (hatt (iff_of_false h1 h2)).mp h.attached,
      fun h => absurd (hcan.mpr h) h2⟩
  | ok h =>
    obtain ⟨hh, hiff, hhal, happ⟩ := hspec.ok hreg
    refine ⟨fun hx => (hatt hiff).mp hx.attached, fun hx => ⟨(hatt hiff).mpr hx, ?_⟩⟩
    intro h' e hout hh' he htake
    rw [hact', hrec', hcat.slotHandle, hh] at hh'
    cases hh'
    rw [if_pos (Option.isSome_iff_ne_none.mpr hout)] at hm
    rw [hm] at he
    refine reloaded_loaded he fun e₀ he₀ => ?_
    obtain ⟨h1, h2⟩ := hrel.halApp
    exact NpuTakes.congr (hhal.trans h1) (happ.trans h2) he₀ (fun _ _ => rfl) htake

theorem storeActivate_runs (hv : layoutValid cfg) (hmap : cfg.port.mapped = true)
    (hf : t.st.reg.Fits cfg) (hd : Named cfg t) (slot : Nat) :
    Triple (storeActivate cfg slot) t (fun _ t' => t'.st.reg.activeSlot = slot ∧
      (RunsActive cfg t t' ↔ CanRegister cfg slot t)) (fun _ _ => True) := by
  unfold storeActivate activateLocked
  refine Triple.gets_bind ?_
  refine Triple.ite (fun _ => Triple.throw trivial) (fun hr => ?_)
  refine Triple.ite (fun _ => Triple.throw trivial) (fun _ => ?_)
  refine Triple.ite (fun _ => Triple.throw trivial) (fun _ => ?_)
  have hs : slot < cfg.lay.slotCount := by omega
  exact Triple.gets_bind (switchActive_runs hv hmap hd hs _ (Reg.activate_fits hf hs) rfl rfl)

theorem storeRollback_runs (hv : layoutValid cfg) (hmap : cfg.port.mapped = true)
    (hf : t.st.reg.Fits cfg) (hd : Named cfg t) :
    Triple (storeRollback cfg) t (fun _ t' => ∃ prev, rollbackTarget cfg t.st.reg = some prev ∧
      t'.st.reg.activeSlot = prev ∧ (RunsActive cfg t t' ↔ CanRegister cfg prev t))
      (fun _ _ => True) := by
  unfold storeRollback rollbackLocked
  refine Triple.gets_bind ?_
  refine Triple.ite (fun _ => Triple.throw trivial) (fun _ => Triple.gets_bind ?_)
  cases hp : rollbackTarget cfg t.st.reg with
  | none => exact Triple.throw trivial
  | some prev =>
    have hs := (rollbackTarget_spec hf hp).1
    exact (switchActive_runs hv hmap hd hs _ (Reg.rollback_fits hf hs) rfl rfl).mono
      (fun _ _ h => ⟨prev, rfl, h⟩) fun _ _ h => h

theorem otaActivate_runs (hv : layoutValid cfg) (hmap : cfg.port.mapped = true)
    (hf : s.store.st.reg.Fits cfg) (hd : Named cfg s.store) :
    Triple (otaActivate cfg) s (fun _ s' => ∃ slot, activateTarget s = some slot ∧
      s'.store.st.reg.activeSlot = slot ∧
        (RunsActive cfg s.store s'.store ↔ CanRegister cfg slot s.store)) (fun _ _ => True) := by
  refine (otaCall_spec (E := fun _ _ => True) ?_).mono (fun _ _ h => h) fun _ _ _ => trivial
  unfold otaActivateLocked
  refine Triple.get_bind ?_
  cases hs : activateTarget s with
  | none => exact Triple.throw trivial
  | some slot =>
    refine Triple.bind (orFail_spec
        (Sys.onStore_spec (storeActivate_runs hv hmap hf hd slot)) |>.mono
      (fun _ _ h => h) fun _ _ _ => trivial) ?_
    rintro _ s₁ ⟨h, -⟩
    refine Triple.modify_bind ?_
    refine (cpu1Unpark_spec _).mono ?_ (fun _ _ h => h.elim)
    rintro _ s₂ ⟨hst, -⟩
    exact ⟨slot, rfl, by rw [hst]; exact h⟩

end

-- ---------------------------------------------------------------------------
-- Runs with applications
-- ---------------------------------------------------------------------------

section
variable {cfg : Config} {t t' : Store} {s s' : Sys} {slot : Nat}

/-- No call of the system makes two models share a name. -/
theorem exec_named (hv : layoutValid cfg) (h : Fitting cfg s) (hd : Named cfg s.store) {op : Op}
    (hop : op ≠ .boot) : Ends (exec cfg op) s fun s' => Named cfg s'.store := by
  have hf : s.store.st.reg.Fits cfg := h.store
  have hstore : ∀ {α : Type} {x : StoreM α}, Ends x s.store (Named cfg) →
      Ends (Sys.onStore x) s fun s' => Named cfg s'.store := fun hx => Ends.zoom hx
  cases op with
  | boot => exact absurd rfl hop
  | install info data =>
    refine Ends.bind (hstore (Ends.of_triple (storeInstall_spec hv hf info data) ?_ ?_))
      fun _ _ h => Ends.pure' h
    · rintro _ t ⟨-, t₁, t₂, hp, hends⟩
      exact hends.named (hp.filled.named (hp.freed.named hd))
    · rintro _ t (rfl | ⟨-, hn | ⟨t₁, hfr, hfi⟩ | ⟨t₁, t₂, hp, ha | hends⟩⟩)
      · exact hd
      · exact hn.named hd
      · exact hfi.named (hfr.named hd)
      · exact ha.named (hp.filled.named (hp.freed.named hd))
      · exact hends.named (hp.filled.named (hp.freed.named hd))
  | beginStaging slot =>
    exact hstore (Ends.of_triple (storeBeginStaging_spec hv hf slot) (fun _ _ h => h.named hd)
      fun _ _ h => h.named hd)
  | markStaged slot info =>
    refine hstore (Ends.of_triple (storeMarkStaged_spec hv hf slot info)
        (fun _ _ h => h.2.named hd) ?_)
    rintro _ t (⟨-, rfl⟩ | ⟨-, h⟩)
    · exact hd
    · exact h.named hd
  | activate slot =>
    exact hstore (Ends.of_triple (storeActivate_spec hv hf slot) (fun _ _ h => h.2.2.named hd)
      fun _ _ h => hd.sameCat h.2)
  | rollback =>
    refine hstore (Ends.of_triple (storeRollback_spec hv hf) ?_ fun _ _ h => hd.sameCat h.2)
    rintro _ t ⟨prev, -, -, h⟩
    exact h.named hd
  | clearStaged =>
    refine hstore (Ends.of_triple (storeClearStaged_spec hv hf) ?_ ?_)
    · rintro _ t (⟨-, rfl⟩ | ⟨-, h⟩)
      · exact hd
      · exact h.named hd
    · rintro _ t (⟨-, rfl⟩ | ⟨-, h⟩)
      · exact hd
      · exact h.named hd
  | otaBegin name total =>
    refine Ends.of_triple (otaBegin_spec hv hf name total) ?_ ?_
    · rintro _ s' ⟨-, ⟨t₁, t₂, hsup, hfr, hfi, -⟩, -⟩
      exact hfi.named (hfr.named (hsup.named hd))
    · rintro _ s' (⟨hst, -⟩ | ⟨-, t₁, hsup, hn | ⟨t₂, hfr, hfi⟩⟩)
      · rw [hst]
        exact hd
      · exact hn.named (hsup.named hd)
      · exact hfi.named (hfr.named (hsup.named hd))
  | otaWriteChunk data =>
    refine Ends.of_triple (otaWriteChunk_spec hv h.ota data) ?_ ?_
    · rintro _ s' ⟨k, hw⟩
      exact hw.filled.named hd
    · rintro _ s' (⟨-, rfl⟩ | ⟨-, -, hw⟩)
      · exact hd
      · exact hw.filled.named hd
  | otaFinish =>
    refine Ends.of_triple (otaFinish_spec hv h.ota hf) ?_ ?_
    · rintro _ s' ⟨t, hfin⟩
      exact hfin.commits.named (hfin.flushed.filled.named hd)
    · rintro _ s' (⟨-, rfl⟩ | ⟨-, -, hfail⟩)
      · exact hd
      · cases hfail with
        | short _ ht => rw [ht]; exact hd
        | flash ht _ => exact ht.named hd
        | crc ht _ => exact ht.filled.named hd
        | refused ht _ _ => exact ht.filled.named hd
        | commit t₁ ht _ _ ha => exact ha.named (ht.filled.named hd)
  | otaActivate =>
    refine Ends.of_triple (otaActivate_spec hv hf) ?_ ?_
    · rintro _ s' ⟨slot, -, ⟨-, -, hsw⟩, -⟩
      exact hsw.named hd
    · rintro _ s' (⟨-, rfl⟩ | ⟨-, slot, -, -, hcat⟩)
      · exact hd
      · exact hd.sameCat hcat
  | otaRollback =>
    refine Ends.of_triple (otaRollback_spec hv hf) ?_ ?_
    · rintro _ s' ⟨-, ⟨prev, -, -, hsw⟩, -⟩
      exact hsw.named hd
    · rintro _ s' ⟨-, -, hcat⟩
      exact hd.sameCat hcat

/-- What an application does to the RAM registry. -/
inductive AppCall
  | register (info : ModelInfo)
  | unregister (h : Nat)
  | setData (h : Nat) (data : Option DataPtr) (size : Nat)
  | load (h : Nat)
  | unload (h : Nat)

def appExec (cfg : Config) (mem : Mem) : AppCall → ModelsM Unit
  | .register info => do
    let _ ← Models.register cfg.maxModels info
    pure ()
  | .unregister h => Models.unregister cfg.maxModels h
  | .setData h data size => Models.setData cfg.maxModels h data size
  | .load h => Models.load cfg.maxModels mem h
  | .unload h => Models.unload cfg.maxModels h

/-- A call of the system, or one of an application to the RAM registry. -/
inductive Move
  | sys (x : Env × Op)
  | app (env : Env) (c : AppCall)

def moveStep (cfg : Config) (s : Sys) : Move → Sys
  | .sys x => sysStep cfg s x
  | .app env c =>
    let t := (s.enter env).store
    if s.store.flash.powered then
      { s.enter env with store := { t with models := ((appExec cfg t.flash.mem c).run t.models).2 }
          }
    else s

theorem appExec_distinct {m : Models} (hd : Models.Distinct cfg.maxModels m) (mem : Mem)
    (c : AppCall) : Ends (appExec cfg mem c) m (Models.Distinct cfg.maxModels) := by
  cases c with
  | register info => exact Ends.bind (Models.distinct_register hd info) fun _ _ h => Ends.pure' h
  | unregister h => exact Models.distinct_unregister hd h
  | setData h data size => exact Models.distinct_setData hd h data size
  | load h => exact hd.sameCat (Models.sameCat_load _ _ h m)
  | unload h => exact hd.sameCat (Models.sameCat_unload _ h m)

/-- The registry fits its layout, and the models in RAM have names of their own. -/
structure Orderable (cfg : Config) (s : Sys) : Prop where
  fitting : Fitting cfg s
  named : Named cfg s.store

theorem orderable_step (hv : layoutValid cfg) (h : Orderable cfg s) (x : Move) :
    Orderable cfg (moveStep cfg s x) := by
  cases x with
  | app env c =>
    show Orderable cfg (if s.store.flash.powered then _ else s)
    split
    · exact ⟨⟨h.fitting.store, h.fitting.ota⟩, appExec_distinct (m := (s.enter env).store.models)
        h.named _ c⟩
    · exact h
  | sys x =>
    refine ⟨fitting_step hv h.fitting, ?_⟩
    refine sysStep_ends (I := fun s => Named cfg s.store) (fun _ => ?_) (fun hop _ => ?_) fun _ =>
        h.named
    · have hzero : Models.Distinct cfg.maxModels (s.restart x.1).store.models := by
        intro i _ j _ a b ha
        cases ha
      have hres := fun reg => distinct_registerResidents cfg reg hzero
      have hinit : Ends (storeInit cfg) (s.restart x.1).store (Named cfg) := by
        refine Ends.of_triple (storeInit_spec hv rfl) ?_ ?_
        all_goals
          rintro _ t hb
          rw [Named, hb.models]
          exact hres _
      exact Ends.zoom (I := fun s : Sys => Named cfg s.store) hinit
    · exact exec_named hv (s := s.enter x.1) ⟨h.fitting.store, h.fitting.ota⟩ h.named hop

theorem orderable_run (hv : layoutValid cfg) (m : Mem) (l : List Move) :
    Orderable cfg (run (moveStep cfg) (Sys.cold m) l) :=
  run_invariant l ⟨⟨Reg.empty_fits, OtaOk.zero cfg⟩, fun _ _ _ _ _ _ ha => (nomatch ha)⟩
    fun _ x h => orderable_step hv h x

/-- The slot that the call would make active. -/
def nextActive (cfg : Config) (s : Sys) : Op → Option Nat
  | .activate slot => some slot
  | .rollback => rollbackTarget cfg s.store.st.reg
  | .otaActivate => activateTarget s
  | _ => none

def Op.activates : Op → Bool
  | .activate _ | .rollback | .otaActivate => true
  | _ => false

/-- In every state of every run, with applications that register, replace and load
models of their own: after an activation or a rollback that returned 0 the new active
model is runnable just when its registration could succeed. -/
theorem activation_runs_iff {op : Op} {env : Env} (hv : layoutValid cfg)
    (hmap : cfg.port.mapped = true) (m : Mem) (past : List Move) (hop : op.activates = true)
    (hc : call cfg (run (moveStep cfg) (Sys.cold m) past) (env, op) = (.ok (), s')) :
    let s := (run (moveStep cfg) (Sys.cold m) past).enter env
    ∃ slot, nextActive cfg s op = some slot ∧ s'.store.st.reg.activeSlot = slot ∧
      (RunsActive cfg s.store s'.store ↔ CanRegister cfg slot s.store) := by
  dsimp only
  have hord := orderable_run hv m past
  generalize run (moveStep cfg) (Sys.cold m) past = s at hc hord
  have hf : (s.enter env).store.st.reg.Fits cfg := hord.fitting.store
  have hd : Named cfg (s.enter env).store := hord.named
  have hexec : (exec cfg op).run (s.enter env) = (.ok (), s') := by
    have hcall : call cfg s (env, op) =
        if s.store.flash.powered then (exec cfg op).run (s.enter env)
        else (.error .eio, s) := by
      cases op <;> first | rfl | cases hop
    rw [hcall] at hc
    split at hc
    · exact hc
    · cases hc
  cases op with
  | activate slot =>
    exact ⟨slot, rfl, ((Sys.onStore_spec (storeActivate_runs hv hmap hf hd slot)).ok hexec).1⟩
  | rollback =>
    obtain ⟨prev, hp, h⟩ := ((Sys.onStore_spec (storeRollback_runs hv hmap hf hd)).ok hexec).1
    exact ⟨prev, hp, h⟩
  | otaActivate =>
    obtain ⟨slot, hs, h⟩ := (otaActivate_runs hv hmap hf hd).ok hexec
    exact ⟨slot, hs, h⟩
  | _ => cases hop

end

-- ---------------------------------------------------------------------------
-- A full table
-- ---------------------------------------------------------------------------

/-- A build whose RAM registry has one entry. -/
def oneModel : Config := { smallDevice with maxModels := 1 }

theorem oneModel_valid : layoutValid oneModel := by decide

/-- An application takes the entry before an update is staged. -/
def takenEntry : List Move :=
  [.sys (quiet, .boot), .app quiet (.register (namedModel 88)),
    .sys (quiet, .markStaged 0 { namedModel 65 with flashSize := 1 })]

def takenActivate : Except Errno Unit × Sys :=
  call oneModel (run (moveStep oneModel) (Sys.cold erasedMem) takenEntry) (quiet, .activate 0)

theorem takenActivate_ends : takenActivate.1 = .ok () ∧ slotHandle oneModel.maxModels
    (takenActivate.2.store.st.reg.record takenActivate.2.store.st.reg.activeSlot)
      takenActivate.2.store.models = none := by
  decide +kernel

theorem takenActivate_eq : call oneModel (run (moveStep oneModel) (Sys.cold erasedMem) takenEntry)
    (quiet, .activate 0) = (.ok (), takenActivate.2) := by
  rw [← takenActivate_ends.1]
  exact (Prod.mk.eta (p := takenActivate)).symm

theorem activation_runs_taken :
    let s := (run (moveStep oneModel) (Sys.cold erasedMem) takenEntry).enter quiet
    ∃ slot, nextActive oneModel s (.activate 0) = some slot ∧
      takenActivate.2.store.st.reg.activeSlot = slot ∧
        (RunsActive oneModel s.store takenActivate.2.store ↔ CanRegister oneModel slot s.store) :=
  activation_runs_iff oneModel_valid rfl erasedMem takenEntry rfl takenActivate_eq

theorem activation_unregistered : ¬∀ (cfg : Config) (m : Mem) (past : List Move) (op : Op)
    (env : Env)
    (s' : Sys), layoutValid cfg → cfg.port.mapped = true → op.activates = true →
    call cfg (run (moveStep cfg) (Sys.cold m) past) (env, op) = (.ok (), s') →
    RunsActive cfg ((run (moveStep cfg) (Sys.cold m) past).enter env).store s'.store := by
  intro h
  obtain ⟨hd, e, hh, -⟩ := (h oneModel erasedMem takenEntry (.activate 0) quiet takenActivate.2
    oneModel_valid rfl rfl takenActivate_eq).attached
  rw [takenActivate_ends.2] at hh
  cases hh

end SynapticOS
