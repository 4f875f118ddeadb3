import SynapticOS.Infer.SchedLaws

/-!
# What the operations keep of the registry and of the pipelines

A handle begins to stand for a model at a registration and ceases to at the end of
an unregistration; every other operation keeps what is registered and under which
name (`Keeps`). Four operations write a pipeline.
-/

namespace SynapticOS.Infer

variable {cfg : Cfg} {s s' s'' : Sched cfg}

-- ---------------------------------------------------------------------------
-- Registered models
-- ---------------------------------------------------------------------------

/-- The same handles are registered, under the same names. -/
structure Keeps (s s' : Sched cfg) : Prop where
  active : ∀ h, (s'.models h).active = (s.models h).active
  name : ∀ h, (s'.models h).name = (s.models h).name

theorem Keeps.of_models (h : s'.models = s.models) : Keeps s s' :=
  ⟨fun _ => by rw [h], fun _ => by rw [h]⟩

theorem Keeps.trans (h : Keeps s s') (h' : Keeps s' s'') : Keeps s s'' :=
  ⟨fun i => (h'.active i).trans (h.active i), fun i => (h'.name i).trans (h.name i)⟩

theorem Keeps.setModel (s : Sched cfg) (h : Handle) (f : Model → Model)
    (ha : (f (s.models h)).active = (s.models h).active)
    (hn : (f (s.models h)).name = (s.models h).name) : Keeps s (s.setModel h f) := by
  refine ⟨fun i => ?_, fun i => ?_⟩
  · show (Function.update s.models h (f (s.models h)) i).active = _
    rw [Function.update_apply]
    split
    · rename_i he
      rw [ha, he]
    · rfl
  · show (Function.update s.models h (f (s.models h)) i).name = _
    rw [Function.update_apply]
    split
    · rename_i he
      rw [hn, he]
    · rfl

/-- What is registered afterwards was registered under the same name. -/
theorem Keeps.info (h : Keeps s s') (hi : s'.info n = some m') :
    ∃ m, s.info n = some m ∧ m.name = m'.name := by
  unfold Sched.info at hi ⊢
  split at hi
  · rename_i hc
    cases hi
    refine ⟨s.models n, if_pos ⟨hc.1, hc.2.1, ?_⟩, (h.name n).symm⟩
    rw [← h.active n]
    exact hc.2.2
  · cases hi

theorem Keeps.isSome (h : Keeps s s') (n : Handle) : (s'.info n).isSome = (s.info n).isSome := by
  unfold Sched.info
  rw [h.active n]
  split <;> rfl

theorem keeps_unloadChecks (t : Fin cfg.threads) (h : Handle) (last : Bool) (next : Thread cfg)
    (s : Sched cfg) : Keeps s (unloadChecks t h last next s) := by
  have hset := Keeps.setModel s h (fun m => { m with loaded := false }) rfl rfl
  unfold unloadChecks
  split
  · exact .of_models rfl
  · split
    · exact .of_models rfl
    · dsimp only
      split
      · exact hset.trans (.of_models rfl)
      · exact hset.trans (.of_models rfl)

theorem keeps_doLoad (h : Handle) (res : Ret) (s : Sched cfg) : Keeps s (doLoad h res s) := by
  have hset := Keeps.setModel s h (fun m => { m with loaded := true }) rfl rfl
  unfold doLoad
  split
  · exact hset
  · split
    · exact .of_models rfl
    · exact hset.trans (.of_models rfl)

theorem keeps_apply (c : Change) (res : Ret) (s : Sched cfg) : Keeps s (c.apply res s) := by
  cases c with
  | load h => exact keeps_doLoad h res s
  | unload h last => exact .of_models rfl
  | swap old new =>
    have hset := Keeps.setModel s old (fun m => { m with loaded := false }) rfl rfl
    unfold Change.apply
    dsimp only
    split
    · exact hset
    · exact hset.trans (keeps_doLoad new res _)

-- ---------------------------------------------------------------------------
-- The scheduler
-- ---------------------------------------------------------------------------

/-- The models and the pipelines are as they were, and every thread is where it was. -/
structure Aside (s s' : Sched cfg) : Prop where
  models : s'.models = s.models
  pipes : s'.pipes = s.pipes
  threads : s'.threads = s.threads

theorem Aside.refl (s : Sched cfg) : Aside s s := ⟨rfl, rfl, rfl⟩

theorem Aside.trans (h : Aside s s') (h' : Aside s' s'') : Aside s s'' :=
  ⟨h'.models.trans h.models, h'.pipes.trans h.pipes, h'.threads.trans h.threads⟩

theorem aside_enterPipeline (s : Sched cfg) (j : Fin cfg.jobs) (res : Ret) :
    Aside s (enterPipeline s j res) := by
  unfold enterPipeline
  dsimp only
  repeat' split
  all_goals exact ⟨rfl, rfl, rfl⟩

theorem aside_endModel (s : Sched cfg) (j : Fin cfg.jobs) (i : Nat) (res : Ret) :
    Aside s (endModel s j i res) := by
  unfold endModel
  repeat' split
  all_goals exact ⟨rfl, rfl, rfl⟩

theorem aside_resume (s : Sched cfg) (j : Fin cfg.jobs) (i : Nat) :
    Aside s (resume s j i) := by
  unfold resume
  dsimp only
  repeat' split
  all_goals exact ⟨rfl, rfl, rfl⟩

theorem aside_runStage (s : Sched cfg) (j : Fin cfg.jobs) (i : Nat) (res : Ret)
    (layers : Option Nat) : Aside s (runStage s j i res layers) := by
  unfold runStage
  dsimp only
  split
  · exact ⟨rfl, rfl, rfl⟩
  · split
    · exact aside_resume s j i
    · split
      · exact aside_endModel s j i _
      · exact aside_endModel s j i _
      · exact ⟨rfl, rfl, rfl⟩
  · split <;> exact ⟨rfl, rfl, rfl⟩

theorem aside_runLayer (s : Sched cfg) (j : Fin cfg.jobs) (i : Nat) (res : Ret) :
    Aside s (runLayer s j i res) := by
  unfold runLayer
  split
  · exact aside_endModel s j i _
  · have hlive : Aside s { s with live := if res = 0 then none else s.live } := ⟨rfl, rfl, rfl⟩
    exact hlive.trans (aside_endModel _ j i res)
  · repeat' split
    all_goals exact ⟨rfl, rfl, rfl⟩

theorem aside_settle (s : Sched cfg) (j : Fin cfg.jobs) (ret : Ret) :
    Aside s (settle s j ret) := by
  unfold settle
  split <;> exact ⟨rfl, rfl, rfl⟩

theorem aside_schedule (s : Sched cfg) (res : Ret) (layers : Option Nat) :
    Aside s (schedule res layers s) := by
  unfold schedule
  split
  · exact .refl s
  · exact aside_enterPipeline s _ res
  · exact aside_runStage s _ _ res layers
  · exact aside_runLayer s _ _ res
  · exact ⟨rfl, rfl, rfl⟩
  · exact aside_settle s _ _
  · exact ⟨rfl, rfl, rfl⟩
  · exact ⟨rfl, rfl, rfl⟩
  · exact ⟨rfl, rfl, rfl⟩

theorem aside_dispatch (s : Sched cfg) : Aside s (dispatch s) := by
  unfold dispatch
  dsimp only
  repeat' split
  all_goals exact ⟨rfl, rfl, rfl⟩

/-- The models and the pipelines are as they were. -/
structure SameTables (s s' : Sched cfg) : Prop where
  models : s'.models = s.models
  pipes : s'.pipes = s.pipes

/-- The operations on jobs and of the scheduler. -/
def Op.ofJobs : Op cfg → Bool
  | .submitLock _ _ | .cancel _ | .getResult _ | .waitStep _ | .dispatch | .schedule _ _
  | .addEnter _ _ _ _ | .buildEnter _ _ | .destroyEnter _ _ | .submitEnter _ _ _
  | .setMaxConcurrent _ | .waitEnter _ _ | .waitTimeout _ => true
  | _ => false

theorem sameTables_of_jobs (s : Sched cfg) (o : Op cfg) (h : o.ofJobs = true) :
    SameTables s (step s o) := by
  cases o with
  | schedule res layers => exact ⟨(aside_schedule s res layers).models, (aside_schedule s res layers).pipes⟩
  | dispatch => exact ⟨(aside_dispatch s).models, (aside_dispatch s).pipes⟩
  | submitLock t now =>
    unfold step submitLock
    dsimp only
    repeat' split
    all_goals exact ⟨rfl, rfl⟩
  | cancel n =>
    unfold step cancel
    dsimp only
    repeat' split
    all_goals exact ⟨rfl, rfl⟩
  | getResult n =>
    unfold step getResult
    dsimp only
    repeat' split
    all_goals exact ⟨rfl, rfl⟩
  | waitStep t =>
    unfold step waitStep
    dsimp only
    repeat' split
    all_goals exact ⟨rfl, rfl⟩
  | addEnter t p st hd =>
    unfold step addEnter
    dsimp only
    repeat' split
    all_goals exact ⟨rfl, rfl⟩
  | buildEnter t p =>
    unfold step buildEnter
    dsimp only
    repeat' split
    all_goals exact ⟨rfl, rfl⟩
  | destroyEnter t p =>
    unfold step destroyEnter
    dsimp only
    repeat' split
    all_goals exact ⟨rfl, rfl⟩
  | submitEnter t p params =>
    unfold step submitEnter
    dsimp only
    repeat' split
    all_goals exact ⟨rfl, rfl⟩
  | setMaxConcurrent n =>
    unfold step setMaxConcurrent
    dsimp only
    split <;> exact ⟨rfl, rfl⟩
  | waitEnter t n =>
    unfold step waitEnter
    dsimp only
    repeat' split
    all_goals exact ⟨rfl, rfl⟩
  | waitTimeout t =>
    unfold step waitTimeout
    dsimp only
    split <;> exact ⟨rfl, rfl⟩
  | _ => cases h

-- ---------------------------------------------------------------------------
-- Steps
-- ---------------------------------------------------------------------------

/-- The operations after which a handle can stand for another model, or for none. -/
def Op.changesHandles : Op cfg → Bool
  | .register _ | .unregisterRemove _ => true
  | _ => false

theorem keeps_step (s : Sched cfg) (o : Op cfg) (ho : o.changesHandles = false) :
    Keeps s (step s o) := by
  cases o with
  | register | unregisterRemove => cases ho
  | setData hd d =>
    unfold step setData
    dsimp only
    split
    · exact .of_models rfl
    · exact .setModel s hd _ rfl rfl
  | loadEnter t hd =>
    unfold step loadEnter
    dsimp only
    repeat' split
    all_goals exact .of_models rfl
  | swapEnter t old new =>
    unfold step swapEnter
    dsimp only
    repeat' split
    all_goals exact .of_models rfl
  | unloadEnter t hd =>
    unfold step unloadEnter
    dsimp only
    split
    · exact keeps_unloadChecks ..
    · exact .of_models rfl
  | unregisterEnter t hd =>
    unfold step unregisterEnter
    dsimp only
    repeat' split
    all_goals exact .of_models rfl
  | unregisterUnload t =>
    unfold step unregisterUnload
    dsimp only
    split
    · split
      · exact keeps_unloadChecks ..
      · exact .of_models rfl
    · exact .of_models rfl
  | quiesce t =>
    unfold step quiesce
    dsimp only
    repeat' split
    all_goals exact .of_models rfl
  | drained t =>
    unfold step drained
    dsimp only
    repeat' split
    all_goals exact .of_models rfl
  | change t res =>
    unfold step change
    dsimp only
    split
    · rename_i c _
      exact (keeps_apply c res s).trans (.of_models rfl)
    · exact .of_models rfl
  | create =>
    unfold step create
    dsimp only
    split <;> exact .of_models rfl
  | addWrite t =>
    unfold step addWrite
    dsimp only
    split <;> exact .of_models rfl
  | buildWrite t =>
    unfold step buildWrite
    dsimp only
    split <;> exact .of_models rfl
  | destroyLock t =>
    unfold step destroyLock
    dsimp only
    split <;> exact .of_models rfl
  | _ => exact .of_models (sameTables_of_jobs s _ rfl).models

/-- The operations that write a pipeline. -/
def Op.writesPipe : Op cfg → Bool
  | .create | .addWrite _ | .buildWrite _ | .destroyLock _ => true
  | _ => false

theorem pipes_step (s : Sched cfg) (o : Op cfg) (ho : o.writesPipe = false) :
    (step s o).pipes = s.pipes := by
  cases o with
  | create | addWrite | buildWrite | destroyLock => cases ho
  | register | setData | loadEnter | swapEnter | unloadEnter | unregisterEnter | unregisterUnload
  | unregisterRemove | quiesce | drained | change => exact pipes_of_registry s _ rfl
  | _ => exact (sameTables_of_jobs s _ rfl).pipes

-- ---------------------------------------------------------------------------
-- Registration
-- ---------------------------------------------------------------------------

def getByName (name : Nat) (s : Sched cfg) : Option Handle :=
  ((List.range cfg.models).map (· + 1)).find? fun h =>
    (s.models h).active && decide ((s.models h).name = name)

theorem getByName_some (h : getByName name s = some hd) :
    ∃ m, s.info hd = some m ∧ m.name = name := by
  have hf := List.find?_some h
  have hm := List.mem_of_find?_eq_some h
  rw [Bool.and_eq_true_iff] at hf
  obtain ⟨i, hi, rfl⟩ := List.mem_map.mp hm
  refine ⟨s.models (i + 1), ?_, by simpa using hf.2⟩
  unfold Sched.info
  exact if_pos ⟨Nat.succ_pos i, List.mem_range.mp hi, hf.1⟩

theorem getByName_name (h : getByName name s = some hd) (m : Model) (hi : s.info hd = some m) :
    m.name = name := by
  obtain ⟨m', hm', hn⟩ := getByName_some h
  rw [hi] at hm'
  cases hm'
  exact hn

theorem info_active (h : s.info n = some m) :
    (0 < n ∧ n ≤ cfg.models ∧ (s.models n).active = true) ∧ s.models n = m := by
  unfold Sched.info at h
  split at h
  · rename_i hc
    cases h
    exact ⟨hc, rfl⟩
  · cases h

theorem mem_handles (h0 : 0 < n) (hn : n ≤ cfg.models) :
    n ∈ (List.range cfg.models).map (· + 1) :=
  List.mem_map.mpr ⟨n - 1, List.mem_range.mpr (by omega), by omega⟩

/-- A registered name is found. -/
theorem getByName_isSome (h : s.info n = some m) : (getByName m.name s).isSome = true := by
  obtain ⟨⟨h0, hn, ha⟩, rfl⟩ := info_active h
  refine List.find?_isSome.mpr ⟨n, mem_handles h0 hn, ?_⟩
  simp [ha]

/-- No two handles are registered under one name. -/
def OneName (s : Sched cfg) : Prop :=
  ∀ n n' m m', s.info n = some m → s.info n' = some m' → m.name = m'.name → n = n'

/-- The handle that a registration hands out. -/
def nextHandle (name : Nat) (s : Sched cfg) : Option Handle :=
  let handles := (List.range cfg.models).map (· + 1)
  if handles.any fun h => (s.models h).active && decide ((s.models h).name = name) then none
  else handles.find? fun h => !(s.models h).active

theorem register_eq (name : Nat) (s : Sched cfg) : register name s =
    match nextHandle name s with
    | none => s
    | some h => s.setModel h fun _ => ⟨true, false, name, none⟩ := by
  unfold register nextHandle
  dsimp only
  split
  · rfl
  · rfl

/-- After a registration the handle that was handed out stands for the name, and the
others for what they stood for. -/
theorem info_register (hi : (register name s).info n = some m') :
    (nextHandle name s = some n ∧ m'.name = name) ∨ ∃ m, s.info n = some m ∧ m.name = m'.name := by
  rw [register_eq] at hi
  cases hn : nextHandle name s with
  | none =>
    rw [hn] at hi
    exact .inr ⟨m', hi, rfl⟩
  | some h =>
    rw [hn] at hi
    dsimp only at hi
    unfold Sched.info at hi
    split at hi
    · rename_i hc
      cases hi
      change 0 < n ∧ n ≤ cfg.models ∧ (Function.update s.models h _ n).active = true at hc
      show (some h = some n ∧ (Function.update s.models h _ n).name = name) ∨
        ∃ m, s.info n = some m ∧ m.name = (Function.update s.models h _ n).name
      rw [Function.update_apply] at hc ⊢
      by_cases he : n = h
      · rw [if_pos he]
        exact .inl ⟨by rw [he], rfl⟩
      · rw [if_neg he] at hc ⊢
        refine .inr ⟨s.models n, ?_, rfl⟩
        unfold Sched.info
        exact if_pos hc
    · cases hi

/-- The end of an unregistration: its handle stands for nothing any more. -/
theorem info_unregisterRemove (hi : (unregisterRemove t s).info n = some m') :
    ∃ m, s.info n = some m ∧ m.name = m'.name := by
  unfold unregisterRemove at hi
  split at hi
  · rename_i h _
    unfold Sched.info at hi
    split at hi
    · rename_i hc
      cases hi
      change 0 < n ∧ n ≤ cfg.models ∧ (Function.update s.models h _ n).active = true at hc
      show ∃ m, s.info n = some m ∧ m.name = (Function.update s.models h _ n).name
      rw [Function.update_apply] at hc ⊢
      by_cases he : n = h
      · rw [if_pos he] at hc
        exact absurd hc.2.2 (fun hf => nomatch hf)
      · rw [if_neg he] at hc ⊢
        refine ⟨s.models n, ?_, rfl⟩
        unfold Sched.info
        exact if_pos hc
    · cases hi
  · exact ⟨m', hi, rfl⟩

/-- A registration is of a new name. -/
theorem nextHandle_fresh (h : nextHandle name s = some hd) (hi : s.info n = some m) :
    m.name ≠ name := by
  unfold nextHandle at h
  dsimp only at h
  split at h
  · cases h
  · rename_i hany
    obtain ⟨⟨h0, hn, ha⟩, rfl⟩ := info_active hi
    intro he
    refine hany (List.any_eq_true.mpr ⟨n, mem_handles h0 hn, ?_⟩)
    simp [ha, he]

/-- And gets a free handle. -/
theorem nextHandle_free (h : nextHandle name s = some hd) : s.info hd = none := by
  unfold nextHandle at h
  dsimp only at h
  split at h
  · cases h
  · have hf := List.find?_some h
    unfold Sched.info
    rw [if_neg]
    rintro ⟨-, -, ha⟩
    simp [ha] at hf

/-- Only a registration gives a handle another name. -/
theorem info_step (s : Sched cfg) (o : Op cfg) (hi : (step s o).info n = some m') :
    (∃ name, o = .register name ∧ nextHandle name s = some n ∧ m'.name = name) ∨
      ∃ m, s.info n = some m ∧ m.name = m'.name := by
  cases o with
  | register name =>
    rcases info_register hi with ⟨hn, hm⟩ | h
    · exact .inl ⟨name, rfl, hn, hm⟩
    · exact .inr h
  | unregisterRemove t => exact .inr (info_unregisterRemove hi)
  | _ => exact .inr ((keeps_step s _ rfl).info hi)

theorem oneName_step (h : OneName s) (o : Op cfg) : OneName (step s o) := by
  intro n n' m m' hn hn' he
  rcases info_step s o hn with ⟨name, rfl, hh, hm⟩ | ⟨m₀, hi, hm⟩
  · rcases info_step s _ hn' with ⟨name', hne, hh', -⟩ | ⟨m₀', hi', hm'⟩
    · cases hne
      rw [hh] at hh'
      exact Option.some.inj hh'
    · exact absurd (hm'.trans (he.symm.trans hm)) (nextHandle_fresh hh hi')
  · rcases info_step s o hn' with ⟨name, rfl, hh, hm'⟩ | ⟨m₀', hi', hm'⟩
    · exact absurd (hm.trans (he.trans hm')) (nextHandle_fresh hh hi)
    · exact h n n' m₀ m₀' hi hi' (hm.trans (he.trans hm'.symm))

end SynapticOS.Infer
