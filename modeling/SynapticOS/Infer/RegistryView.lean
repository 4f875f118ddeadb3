import SynapticOS.Infer.Registry
import SynapticOS.Lib.Run
import SynapticOS.Registry

/-!
# The registry under the scheduler

`Sched` as a registry of models (`Sched.view`). An unload is two operations here, its
checks and the release behind the gate, and an unregistration ends with a third; the
operations of the other files leave the view alone, but for the swap on demand at the
start of a job.
-/

namespace SynapticOS.Infer

open Lib

variable {cfg : Cfg} {s s' : Sched cfg} {h : Handle} {m : Model}

def Model.row (m : Model) : Row Nat Nat := ⟨m.name, m.loaded, m.data⟩

def Sched.view (s : Sched cfg) : Registry Nat Nat := ⟨fun h => (s.info h).map Model.row, s.resident⟩

/-- What is not registered has no payload. -/
def Blank (s : Sched cfg) : Prop := ∀ h, s.info h = none → (s.models h).data = none

-- ---------------------------------------------------------------------------
-- Rows
-- ---------------------------------------------------------------------------

theorem view_rows (hi : s.info h = some m) : s.view.rows h = some m.row := congrArg (Option.map _) hi

theorem view_rows_none (hi : s.info h = none) : s.view.rows h = none := congrArg (Option.map _) hi

theorem view_payload (hb : Blank s) (h : Handle) : s.view.payload h = (s.models h).data := by
  unfold Registry.payload
  cases hi : s.info h with
  | none => rw [view_rows_none hi, hb h hi]; rfl
  | some m =>
    rw [view_rows hi, ← (info_active hi).2]
    rfl

theorem view_of_models (hm : s'.models = s.models) (hr : s'.resident = s.resident) :
    s'.view = s.view := by
  unfold Sched.view Sched.info
  rw [hm, hr]

theorem info_setModel (s : Sched cfg) (h : Handle) (f : Model → Model) (i : Handle) :
    (s.setModel h f).info i =
      if i = h then
        if 0 < h ∧ h ≤ cfg.models ∧ (f (s.models h)).active then some (f (s.models h)) else none
      else s.info i := by
  show (if 0 < i ∧ i ≤ cfg.models ∧ (Function.update s.models h (f (s.models h)) i).active then
    some (Function.update s.models h (f (s.models h)) i) else none) = _
  rw [Function.update_apply]
  split
  · rename_i he
    rw [he]
  · rfl

/-- A change that leaves a handle registered is one of its row. -/
theorem view_setModel (s : Sched cfg) (h : Handle) {f : Model → Model}
    {g : Row Nat Nat → Row Nat Nat} (ha : ∀ m, (f m).active = m.active)
    (hg : ∀ m, (f m).row = g m.row) :
    (s.setModel h f).view = s.view.edit h g := by
  refine Registry.ext (funext fun i => ?_) rfl
  show ((s.setModel h f).info i).map Model.row = Function.update s.view.rows h _ i
  rw [info_setModel, Function.update_apply]
  split
  · show _ = ((s.info h).map Model.row).map g
    unfold Sched.info
    rw [ha]
    split
    · exact congrArg some (hg _)
    · rfl
  · rfl

theorem view_setLoaded (s : Sched cfg) (h : Handle) (b : Bool) :
    (s.setModel h fun m => { m with loaded := b }).view = s.view.setLoaded h b :=
  view_setModel s h (g := fun x => { x with loaded := b }) (fun _ => rfl) fun _ => rfl

-- ---------------------------------------------------------------------------
-- The calls
-- ---------------------------------------------------------------------------

theorem info_of_range (i : Nat) (hi : i < cfg.models) (s : Sched cfg) :
    s.info (i + 1) = if (s.models (i + 1)).active then some (s.models (i + 1)) else none := by
  unfold Sched.info
  exact if_congr ⟨fun hc => hc.2.2, fun ha => ⟨Nat.succ_pos i, hi, ha⟩⟩ rfl rfl

theorem view_find (name : Nat) (s : Sched cfg) : s.view.find cfg.models name = getByName name s := by
  refine List.find?_congr fun h hh => ?_
  obtain ⟨i, hi, rfl⟩ := List.mem_map.mp hh
  show ((s.info (i + 1)).map Model.row).any _ = _
  rw [info_of_range i (List.mem_range.mp hi)]
  cases (s.models (i + 1)).active <;> rfl

theorem view_free (s : Sched cfg) : s.view.free cfg.models =
    ((List.range cfg.models).map (· + 1)).find? fun h => !(s.models h).active := by
  refine List.find?_congr fun h hh => ?_
  obtain ⟨i, hi, rfl⟩ := List.mem_map.mp hh
  show ((s.info (i + 1)).map Model.row).isNone = _
  rw [info_of_range i (List.mem_range.mp hi)]
  cases (s.models (i + 1)).active <;> rfl

theorem nextHandle_eq (name : Nat) (s : Sched cfg) : nextHandle name s =
    if (s.view.find cfg.models name).isSome then none else s.view.free cfg.models := by
  unfold nextHandle
  dsimp only
  rw [view_find, view_free, getByName]
  exact if_congr (List.any_eq_true.trans List.find?_isSome.symm) rfl rfl

theorem view_register (name : Nat) (s : Sched cfg) :
    (register name s).view = s.view.register cfg.models name := by
  have hn := nextHandle_eq name s
  rw [register_eq]
  unfold Registry.register
  cases hf : s.view.find cfg.models name with
  | some h =>
    rw [hf] at hn
    rw [hn]
    rfl
  | none =>
    rw [hf] at hn
    rw [hn]
    cases hh : s.view.free cfg.models with
    | none => rfl
    | some h =>
      refine Registry.ext (funext fun i => ?_) rfl
      show ((s.setModel h _).info i).map Model.row = Function.update s.view.rows h _ i
      have hr := List.mem_of_find?_eq_some hh
      obtain ⟨k, hk, rfl⟩ := List.mem_map.mp hr
      rw [info_setModel, Function.update_apply]
      split
      · rw [if_pos ⟨Nat.succ_pos k, List.mem_range.mp hk, rfl⟩]
        rfl
      · rfl

theorem view_setData (h : Handle) (data : Option Nat) (s : Sched cfg) :
    (setData h data s).view = s.view.setData h data := by
  unfold setData
  split
  · rename_i hi
    exact (Registry.edit_of_none (view_rows_none hi) _).symm
  · exact view_setModel s h (g := fun x => { x with data := data }) (fun _ => rfl) fun _ => rfl

/-- The checks of an unload take the flag, and go to the gate if the NPU is to be freed. -/
theorem view_unloadChecks (t : Fin cfg.threads) (h : Handle) (last : Bool) (next : Thread cfg)
    (s : Sched cfg) :
    (unloadChecks t h last next s).view = s.view.unflag h (s.modelSuspended h) ∧
      (unloadChecks t h last next s).threads t =
        if s.view.Frees h (s.modelSuspended h) then .atGate (.unload h last) else next := by
  have hself : ∀ s : Sched cfg, ∀ x, (s.setThread t x).threads t = x := fun s x =>
    show Function.update s.threads t x t = x from Function.update_self ..
  unfold unloadChecks
  cases hi : s.info h with
  | none =>
    have hany : (s.view.rows h).any Row.loaded = false := by rw [view_rows_none hi]; rfl
    have hf : ¬s.view.Frees h (s.modelSuspended h) := fun hf => by
      have hl := hf.1
      rw [hany] at hl
      cases hl
    refine ⟨?_, by rw [if_neg hf]; exact hself s next⟩
    unfold Registry.unflag
    rw [hany]
    rfl
  | some m =>
    have hany : (s.view.rows h).any Row.loaded = m.loaded := by rw [view_rows hi]; rfl
    have hpay : s.view.payload h = m.data := by
      unfold Registry.payload
      rw [view_rows hi]
      rfl
    have hres : s.view.resident = s.resident := rfl
    have hfrees : s.view.Frees h (s.modelSuspended h) ↔ m.loaded = true ∧
        s.modelSuspended h = false ∧ m.data ≠ none ∧ m.data = s.resident := by
      unfold Registry.Frees
      rw [hany, hpay, hres]
    unfold Registry.unflag
    rw [hany]
    dsimp only
    by_cases hc : m.loaded = false ∨ s.modelSuspended h = true
    · have hn : ¬s.view.Frees h (s.modelSuspended h) := by
        rw [hfrees]
        rintro ⟨hl, hs, -, -⟩
        rcases hc with hc | hc
        · exact absurd hl (by simp [hc])
        · exact absurd hs (by simp [hc])
      rw [if_pos hc, if_neg hn, if_pos (by rcases hc with hc | hc <;> simp [hc])]
      exact ⟨rfl, hself s next⟩
    · have hg : (!m.loaded || s.modelSuspended h) = false := by
        rw [not_or, Bool.not_eq_false, Bool.not_eq_true] at hc
        rw [hc.1, hc.2]
        rfl
      have hset := view_setLoaded s h false
      rw [if_neg hc, if_neg (Bool.eq_false_iff.mp hg), ← hset]
      rw [not_or, Bool.not_eq_false, Bool.not_eq_true] at hc
      by_cases hd : m.data ≠ none ∧ m.data = s.resident
      · rw [if_pos (hfrees.mpr ⟨hc.1, hc.2, hd⟩)]
        have hd' : m.data ≠ none ∧ m.data = (s.setModel h fun m =>
          { m with loaded := false }).resident := hd
        rw [if_pos hd']
        exact ⟨rfl, hself _ _⟩
      · rw [if_neg fun hf => hd (hfrees.mp hf).2.2]
        have hd' : ¬(m.data ≠ none ∧ m.data = (s.setModel h fun m =>
          { m with loaded := false }).resident) := hd
        rw [if_neg hd']
        exact ⟨rfl, hself _ _⟩

theorem view_drop (s : Sched cfg) (h : Handle) :
    (s.setModel h fun m => { m with active := false, loaded := false, data := none }).view =
      s.view.put h none := by
  refine Registry.ext (funext fun i => ?_) rfl
  show ((s.setModel h _).info i).map Model.row = Function.update s.view.rows h none i
  rw [info_setModel, Function.update_apply]
  split
  · rw [if_neg fun hc => nomatch hc.2.2]
    rfl
  · rfl

theorem view_doLoad (hb : Blank s) (h : Handle) (res : Ret) :
    (doLoad h res s).view = s.view.bring h (res = 0) := by
  have hset := view_setLoaded s h true
  unfold doLoad Registry.bring
  rw [view_payload hb]
  cases (s.models h).data with
  | none => exact hset
  | some d =>
    dsimp only
    by_cases hr : res = 0
    · rw [if_neg (not_not.mpr hr), if_pos (decide_eq_true hr), ← hset]
      rfl
    · rw [if_pos hr, if_neg (by simpa using hr)]

theorem Blank.setModel (hb : Blank s) (h : Handle) {f : Model → Model}
    (hx : (s.setModel h f).info h = none → (f (s.models h)).data = none) :
    Blank (s.setModel h f) := by
  intro i hi
  show (Function.update s.models h (f (s.models h)) i).data = none
  rw [Function.update_apply]
  split
  · rename_i he
    exact hx (he ▸ hi)
  · rename_i he
    rw [info_setModel, if_neg he] at hi
    exact hb i hi

theorem Blank.setLoaded (hb : Blank s) (h : Handle) (b : Bool) :
    Blank (s.setModel h fun m => { m with loaded := b }) := by
  refine hb.setModel h fun hi => hb h ?_
  rw [info_setModel, if_pos rfl] at hi
  unfold Sched.info
  split at hi
  · cases hi
  · rename_i hc
    exact if_neg hc

theorem view_load (hb : Blank s) (h : Handle) (res : Ret) :
    (if (s.models h).loaded then s else doLoad h res s).view = s.view.load h (res = 0) := by
  have hbring := view_doLoad hb h res
  unfold Registry.load
  cases hi : s.info h with
  | some m =>
    rw [view_rows hi, (info_active hi).2]
    split
    · rename_i hl
      exact (if_pos hl).symm
    · rename_i hl
      exact hbring.trans (if_neg hl).symm
  | none =>
    have hstays : s.view.bring h (res = 0) = s.view := by
      unfold Registry.bring
      rw [view_payload hb, hb h hi]
      exact Registry.edit_of_none (view_rows_none hi) _
    rw [view_rows_none hi]
    split
    · exact hstays.symm
    · exact hbring

theorem view_swap (hb : Blank s) (old new : Handle) (res : Ret) :
    ((Change.swap old new).apply res s).view = s.view.exchange old new (res = 0) := by
  unfold Registry.exchange
  rw [← view_setLoaded]
  exact view_load (hb.setLoaded old false) new res

theorem view_enterPipeline (s : Sched cfg) (j : Fin cfg.jobs) (res : Ret)
    (hr : (s.jobs j).resuming = false) :
    (enterPipeline s j res).view =
      s.view.ensureResident (s.pipes (s.jobs j).pipe).model (res = 0) := by
  unfold enterPipeline Registry.ensureResident
  dsimp only
  cases hi : s.info (s.pipes (s.jobs j).pipe).model with
  | none =>
    rw [view_rows_none hi]
    rfl
  | some m =>
    rw [view_rows hi]
    dsimp only
    rw [hr, if_neg Bool.false_ne_true]
    unfold Model.row
    split
    · rename_i hl
      exact (if_pos (.inl hl)).symm
    · rename_i hl
      by_cases hd : m.data = none
      · rw [if_pos (.inl hd), if_pos (.inr (.inl hd))]
        rfl
      · by_cases hres : m.data = s.resident
        · rw [if_pos (.inr hres), hres]
          exact (ite_self _).symm
        · rw [if_neg (not_or.mpr ⟨hd, hres⟩)]
          by_cases h0 : res = 0
          · rw [if_neg (not_not.mpr h0), if_neg (by simp [hl, hd, h0])]
            rfl
          · rw [if_pos h0, if_pos (by simp [h0])]
            rfl

-- ---------------------------------------------------------------------------
-- Runs
-- ---------------------------------------------------------------------------

theorem Blank.of_models (hb : Blank s) (hm : s'.models = s.models) : Blank s' := by
  intro h hi
  unfold Sched.info at hi
  rw [hm] at hi ⊢
  exact hb h hi

theorem Blank.doLoad (hb : Blank s) (h : Handle) (res : Ret) : Blank (doLoad h res s) := by
  have hset := hb.setLoaded h true
  unfold Infer.doLoad
  split
  · exact hset
  · split
    · exact hb
    · exact hset.of_models rfl

theorem Blank.apply (hb : Blank s) (c : Change) (res : Ret) : Blank (c.apply res s) := by
  cases c with
  | load h => exact hb.doLoad h res
  | unload h last => exact hb.of_models rfl
  | swap old new =>
    have hset := hb.setLoaded old false
    unfold Change.apply
    dsimp only
    split
    · exact hset
    · exact hset.doLoad new res

theorem blank_unloadChecks (hb : Blank s) (t : Fin cfg.threads) (h : Handle) (last : Bool)
    (next : Thread cfg) : Blank (unloadChecks t h last next s) := by
  have hset := hb.setLoaded h false
  unfold unloadChecks
  split
  · exact hb.of_models rfl
  · split
    · exact hb.of_models rfl
    · dsimp only
      split
      · exact hset.of_models rfl
      · exact hset.of_models rfl

/-- The operations that can call the registry. -/
def Op.callsRegistry : Op cfg → Bool
  | .register _ | .setData _ _ | .unloadEnter _ _ | .unregisterUnload _ | .unregisterRemove _
  | .change _ _ | .schedule _ _ => true
  | _ => false

theorem resident_schedule (hp : ∀ j, s.pc ≠ .start j) (res : Ret) (layers : Option Nat) :
    (schedule res layers s).resident = s.resident := by
  unfold schedule
  split
  · rfl
  · rename_i j hj
    exact absurd hj (hp j)
  · unfold runStage resume endModel
    dsimp only
    repeat' split
    all_goals rfl
  · unfold runLayer endModel
    dsimp only
    repeat' split
    all_goals rfl
  · rfl
  · unfold settle
    split <;> rfl
  · rfl
  · rfl
  · rfl

theorem registry_step (s : Sched cfg) (o : Op cfg) (ho : o.callsRegistry = false) :
    (step s o).models = s.models ∧ (step s o).resident = s.resident := by
  cases o with
  | register | setData | unloadEnter | unregisterUnload | unregisterRemove | change | schedule =>
    cases ho
  | _ =>
    simp only [step, loadEnter, swapEnter, unregisterEnter, quiesce, drained, create, addEnter,
      addWrite, buildEnter, buildWrite, destroyEnter, destroyLock, submitEnter, submitLock, cancel, getResult,
      setMaxConcurrent, waitEnter, waitStep, waitTimeout, dispatch]
    repeat' split
    all_goals exact ⟨rfl, rfl⟩

theorem blank_step (hb : Blank s) (o : Op cfg) : Blank (step s o) := by
  cases o with
  | register name =>
    show Blank (register name s)
    rw [register_eq]
    split
    · exact hb
    · exact hb.setModel _ fun _ => rfl
  | setData h data =>
    show Blank (setData h data s)
    unfold setData
    split
    · exact hb
    · rename_i m hi
      refine hb.setModel h fun hn => ?_
      obtain ⟨hc, -⟩ := info_active hi
      rw [info_setModel, if_pos rfl, if_pos hc] at hn
      cases hn
  | unloadEnter t h =>
    unfold step unloadEnter
    dsimp only
    split
    · exact blank_unloadChecks hb t _ _ _
    · exact hb
  | unregisterUnload t =>
    unfold step unregisterUnload
    dsimp only
    split
    · split
      · exact blank_unloadChecks hb t _ _ _
      · exact hb.of_models rfl
    · exact hb
  | unregisterRemove t =>
    unfold step unregisterRemove
    dsimp only
    split
    · rename_i h _
      have hx : Blank (s.setModel h fun m =>
        { m with active := false, loaded := false, data := none }) := hb.setModel h fun _ => rfl
      exact hx.of_models rfl
    · exact hb
  | change t res =>
    unfold step change
    dsimp only
    split
    · exact (hb.apply _ res).of_models rfl
    · exact hb
  | schedule res layers => exact hb.of_models (aside_schedule s res layers).models
  | _ => exact hb.of_models (registry_step s _ rfl).1

def Change.call (res : Ret) : Change → Registry.Call Nat Nat
  | .load h => .bring h (res = 0)
  | .swap old new => .exchange old new (res = 0)
  | .unload _ _ => .release

/-- The call that an operation makes on the registry, if it makes one. -/
def Sched.calls (s : Sched cfg) : Op cfg → List (Registry.Call Nat Nat)
  | .register name => [.register name]
  | .setData h data => [.setData h data]
  | .unloadEnter t h =>
    match s.threads t with
    | .idle => [.unflag h (s.modelSuspended h)]
    | _ => []
  | .unregisterUnload t =>
    match s.threads t with
    | .unregistering h => if (s.models h).loaded then [.unflag h (s.modelSuspended h)] else []
    | _ => []
  | .unregisterRemove t =>
    match s.threads t with
    | .removing h => [.drop h]
    | _ => []
  | .change t res =>
    match s.threads t with
    | .quiesced c => [c.call res]
    | _ => []
  | .schedule res _ =>
    match s.pc with
    | .start j =>
      if (s.jobs j).resuming then [] else [.ensureResident (s.pipes (s.jobs j).pipe).model (res = 0)]
    | _ => []
  | _ => []

/-- The calls of a run. -/
def callsOf : Sched cfg → List (Op cfg) → List (Registry.Call Nat Nat)
  | _, [] => []
  | s, o :: rest => s.calls o ++ callsOf (step s o) rest

theorem view_apply (hb : Blank s) (c : Change) (res : Ret) :
    (c.apply res s).view = s.view.step cfg.models (c.call res) := by
  cases c with
  | load h => exact view_doLoad hb h res
  | swap old new => exact view_swap hb old new res
  | unload h last => rfl

theorem view_step (hb : Blank s) (o : Op cfg) :
    (step s o).view = run (Registry.step cfg.models) s.view (s.calls o) := by
  cases o with
  | register name => exact view_register name s
  | setData h data => exact view_setData h data s
  | unloadEnter t h =>
    unfold step unloadEnter Sched.calls
    dsimp only
    cases s.threads t with
    | idle => exact (view_unloadChecks t h false .idle s).1
    | _ => rfl
  | unregisterUnload t =>
    unfold step unregisterUnload Sched.calls
    dsimp only
    cases s.threads t with
    | unregistering h =>
      dsimp only
      split
      · exact (view_unloadChecks t h true _ s).1
      · rfl
    | _ => rfl
  | unregisterRemove t =>
    unfold step unregisterRemove Sched.calls
    dsimp only
    cases s.threads t with
    | removing h => exact (view_of_models rfl rfl).trans (view_drop s h)
    | _ => rfl
  | change t res =>
    unfold step change Sched.calls
    dsimp only
    cases s.threads t with
    | quiesced c => exact (view_of_models rfl rfl).trans (view_apply hb c res)
    | _ => rfl
  | schedule res layers =>
    have hm := (aside_schedule s res layers).models
    unfold Sched.calls
    dsimp only
    cases hp : s.pc with
    | start j =>
      have hs : schedule res layers s = enterPipeline s j res := by
        unfold schedule
        rw [hp]
      dsimp only
      split
      · rename_i hr
        refine view_of_models hm ?_
        show (schedule res layers s).resident = s.resident
        rw [hs]
        unfold enterPipeline
        dsimp only
        split
        · rfl
        · rw [if_pos hr]
      · rename_i hr
        exact (congrArg Sched.view hs).trans (view_enterPipeline s j res (Bool.not_eq_true _ ▸ hr))
    | _ =>
      refine view_of_models hm (resident_schedule (fun j hj => ?_) res layers)
      rw [hp] at hj
      cases hj
  | _ => exact view_of_models (registry_step s _ rfl).1 (registry_step s _ rfl).2

theorem view_run_of_blank (hb : Blank s) (l : List (Op cfg)) :
    (run step s l).view = run (Registry.step cfg.models) s.view (callsOf s l) := by
  induction l generalizing s with
  | nil => rfl
  | cons o l ih =>
    rw [run_cons, ih (blank_step hb o), view_step hb o]
    exact run_append.symm

/-- Over every run, the registry under the scheduler goes through the calls of the run. -/
theorem view_run (cfg : Cfg) (l : List (Op cfg)) :
    (run step (Sched.init cfg) l).view =
      run (Registry.step cfg.models) (Sched.init cfg).view (callsOf (Sched.init cfg) l) :=
  view_run_of_blank (fun _ _ => rfl) l

end SynapticOS.Infer
