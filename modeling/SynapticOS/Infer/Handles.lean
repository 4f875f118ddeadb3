import SynapticOS.Infer.Registry
import SynapticOS.Lib.Run

/-!
# What a handle stands for

A handle is a table index: a pipeline keeps it from its build on, CPU1 from its
lookup on, and the registry hands it out again. Beside the scheduler's state stand
the names that were meant: by a pipeline when it was built, by a CPU1 request for
which a pipeline was made. The store registers and unregisters through the same
calls as every other thread.
-/

namespace SynapticOS.Infer

open Lib

variable {cfg : Cfg} {s s' : Sched cfg}

/-- A job that got past the checks of `execute_pipeline`: the name its pipeline was
built for, the name of the CPU1 request it serves, and the name of its model. -/
structure Ran where
  built : Option Nat
  asked : Option Nat
  model : Nat
  deriving DecidableEq, Repr

structure Named (cfg : Cfg) where
  sched : Sched cfg
  /-- What the handle of a pipeline stood for when `syn_pipeline_build` looked. -/
  built : Fin maxPipelines → Option Nat
  /-- What the CPU1 request looked up for which the pipeline was made. -/
  asked : Fin maxPipelines → Option Nat
  /-- The answers to CPU1's lookups. -/
  looked : List (Handle × Nat)
  /-- The CPU1 request that a thread serves. -/
  serving : Fin cfg.threads → Option (Handle × Nat)
  ran : List Ran

def Named.init (cfg : Cfg) : Named cfg :=
  ⟨Sched.init cfg, fun _ => none, fun _ => none, [], fun _ => none, []⟩

inductive Call (cfg : Cfg)
  | api (o : Op cfg)
  /-- `syn_remote_model_lookup`. -/
  | lookup (name : Nat)
  /-- The handler of a request with a handle that was looked up as `name`. -/
  | serve (t : Fin cfg.threads) (h : Handle) (name : Nat)
  | served (t : Fin cfg.threads)
  deriving DecidableEq, Repr

-- ---------------------------------------------------------------------------
-- The names that are meant
-- ---------------------------------------------------------------------------

/-- The pipeline that an operation takes apart or makes anew. -/
def resetPipe (s : Sched cfg) : Op cfg → Option (Fin maxPipelines)
  | .create => (List.finRange maxPipelines).find? fun p => !(s.pipes p).inUse
  | .destroyLock t =>
    match s.threads t with
    | .destroying p => some p
    | _ => none
  | _ => none

/-- The pipeline whose build has just passed its checks. -/
def checkedPipe (s : Sched cfg) : Op cfg → Option (Fin maxPipelines)
  | .buildEnter t p =>
    match s.threads t, (buildEnter t p s).threads t with
    | .idle, .building _ => some p
    | _, _ => none
  | _ => none

/-- The pipeline that gets its model stage. -/
def modelPipe (s : Sched cfg) : Op cfg → Option (Fin maxPipelines × Handle × Fin cfg.threads)
  | .addWrite t =>
    match s.threads t with
    | .adding p .model h => some (p, h, t)
    | _ => none
  | _ => none

/-- The pipeline whose job goes on to its stages, and the model. -/
def enteredPipe (s : Sched cfg) : Op cfg → Option (Fin maxPipelines × Model)
  | .schedule res _ =>
    match s.pc with
    | .start j =>
      match (enterPipeline s j res).pc, s.info (s.pipes (s.jobs j).pipe).model with
      | .stage _ _, some m => some ((s.jobs j).pipe, m)
      | _, _ => none
    | _ => none
  | _ => none

namespace Named

def nameOf (n : Named cfg) (h : Handle) : Option Nat := (n.sched.info h).map Model.name

def builtAfter (n : Named cfg) (o : Op cfg) (p : Fin maxPipelines) : Option Nat :=
  if resetPipe n.sched o = some p then none
  else if checkedPipe n.sched o = some p then n.nameOf (n.sched.pipes p).model
  else n.built p

/-- The name that a thread asks for when it adds the model of its request. -/
def askedBy (n : Named cfg) (t : Fin cfg.threads) (h : Handle) : Option Nat :=
  match n.serving t with
  | some (h', name) => if h' = h then some name else none
  | none => none

def askedAfter (n : Named cfg) (o : Op cfg) (p : Fin maxPipelines) : Option Nat :=
  if resetPipe n.sched o = some p then none
  else
    match modelPipe n.sched o with
    | some (q, h, t) => if q = p then n.askedBy t h else n.asked p
    | none => n.asked p

def ranAfter (n : Named cfg) (o : Op cfg) : List Ran :=
  match enteredPipe n.sched o with
  | some (p, m) => n.ran ++ [⟨n.built p, n.asked p, m.name⟩]
  | none => n.ran

def step (n : Named cfg) : Call cfg → Named cfg
  | .api o =>
    { n with
      sched := Infer.step n.sched o, built := n.builtAfter o, asked := n.askedAfter o
      ran := n.ranAfter o }
  | .lookup name =>
    match getByName name n.sched with
    | none => n
    | some h => { n with looked := n.looked ++ [(h, name)] }
  | .serve t h name =>
    if (h, name) ∈ n.looked ∧ (n.sched.info h).isSome then
      { n with serving := Function.update n.serving t (some (h, name)) }
    else n
  | .served t => { n with serving := Function.update n.serving t none }

end Named

/-- A job runs the model that its pipeline was built for, and the one that the
CPU1 request asked for. -/
def KeepsNames (n : Named cfg) : Prop :=
  ∀ r ∈ n.ran, (∀ name, r.built = some name → r.model = name) ∧
    ∀ name, r.asked = some name → r.model = name

/-- A registration does not hand out a handle that a built pipeline or CPU1 has
from a model with another name; a model stage is added to a pipeline that has none
and that no build has checked. -/
def NameSafe (n : Named cfg) : Call cfg → Prop
  | .api (.register name) => ∀ h, nextHandle name n.sched = some h →
    (∀ p, (n.sched.pipes p).model = h → n.built p = none ∨ n.built p = some name) ∧
      ∀ b ∈ n.looked, b.1 = h → b.2 = name
  | .api (.addWrite t) => ∀ b, modelPipe n.sched (.addWrite t) = some b →
    n.built b.1 = none ∧ (n.sched.pipes b.1).model = 0
  | _ => True

instance (n : Named cfg) (c : Call cfg) : Decidable (NameSafe n c) := by
  unfold NameSafe
  split
  · infer_instance
  · infer_instance
  · infer_instance

-- ---------------------------------------------------------------------------
-- Pipelines
-- ---------------------------------------------------------------------------

theorem modelPipe_eq (h : modelPipe s o = some (p, hd, t)) :
    o = .addWrite t ∧ s.threads t = .adding p .model hd := by
  unfold modelPipe at h
  split at h
  · split at h
    · rename_i ht
      cases h
      exact ⟨rfl, ht⟩
    · cases h
  · cases h

/-- Adding a model stage points the pipeline at the model. -/
theorem model_addWrite (h : modelPipe s o = some (p, hd, t)) :
    ((step s o).pipes p).model = hd := by
  obtain ⟨rfl, ht⟩ := modelPipe_eq h
  unfold step addWrite
  dsimp only
  rw [ht]
  show (Function.update s.pipes p _ p).model = hd
  rw [Function.update_self]
  dsimp only
  rw [if_pos rfl]

/-- No other operation points a pipeline at a model. -/
theorem model_step (s : Sched cfg) (o : Op cfg) (hr : resetPipe s o ≠ some p)
    (hm : ∀ b, modelPipe s o = some b → b.1 ≠ p) :
    ((step s o).pipes p).model = (s.pipes p).model := by
  cases o with
  | create =>
    unfold step create
    unfold resetPipe at hr
    dsimp only at hr ⊢
    split
    · rfl
    · rename_i q hf
      rw [hf] at hr
      exact congrArg Pipe.model (Function.update_of_ne (fun he => hr (by rw [he])) _ _)
  | destroyLock t =>
    unfold step destroyLock
    unfold resetPipe at hr
    dsimp only at hr ⊢
    split
    · rename_i q ht
      rw [ht] at hr
      exact congrArg Pipe.model (Function.update_of_ne (fun he => hr (by rw [he])) _ _)
    · rfl
  | addWrite t =>
    unfold step addWrite
    dsimp only
    split
    · rename_i q st hd ht
      show (Function.update s.pipes q _ p).model = _
      rw [Function.update_apply]
      split
      · rename_i he
        subst he
        by_cases hst : st = .model
        · subst hst
          exact absurd rfl (hm (p, hd, t) (by unfold modelPipe; dsimp only; rw [ht]))
        · exact if_neg hst
      · rfl
    · rfl
  | buildWrite t =>
    unfold step buildWrite
    dsimp only
    split
    · rename_i q _
      show (Function.update s.pipes q _ p).model = _
      rw [Function.update_apply]
      split
      · rename_i he
        rw [he]
      · rfl
    · rfl
  | _ => rw [pipes_step s _ rfl]

theorem enteredPipe_info (h : enteredPipe s o = some (p, m)) : s.info (s.pipes p).model = some m := by
  unfold enteredPipe at h
  split at h
  · split at h
    · split at h
      · rename_i hi
        cases h
        exact hi
      · cases h
    · cases h
  · cases h

-- ---------------------------------------------------------------------------
-- Runs
-- ---------------------------------------------------------------------------

/-- Whatever a pipeline or CPU1 means by a handle is registered under that name, as
long as anything is registered there. -/
structure NamesOk (n : Named cfg) : Prop where
  built : ∀ p name, n.built p = some name →
    ∀ m, n.sched.info (n.sched.pipes p).model = some m → m.name = name
  asked : ∀ p name, n.asked p = some name → ((n.sched.pipes p).model, name) ∈ n.looked
  looked : ∀ b ∈ n.looked, ∀ m, n.sched.info b.1 = some m → m.name = b.2
  serving : ∀ t b, n.serving t = some b → b ∈ n.looked
  keeps : KeepsNames n

variable {n : Named cfg}

theorem built_api (h : NamesOk n) (o : Op cfg) (hs : NameSafe n (.api o)) {p : Fin maxPipelines}
    (hb : n.builtAfter o p = some name)
    (hi : (step n.sched o).info ((step n.sched o).pipes p).model = some m) : m.name = name := by
  unfold Named.builtAfter at hb
  split at hb
  · cases hb
  · rename_i hr
    split at hb
    · rename_i hc
      -- the build looks the name up itself
      unfold checkedPipe at hc
      split at hc
      · rename_i t q
        split at hc
        · cases hc
          have hsame := sameTables_of_jobs n.sched (.buildEnter t p) rfl
          unfold Named.nameOf Sched.info at hb
          unfold Sched.info at hi
          rw [hsame.models, hsame.pipes] at hi
          rw [hi] at hb
          exact Option.some.inj hb
        · cases hc
      · cases hc
    · have hm : ((step n.sched o).pipes p).model = (n.sched.pipes p).model := by
        refine model_step n.sched o hr fun b hp he => ?_
        obtain ⟨rfl, -⟩ := modelPipe_eq (show modelPipe n.sched o = some (b.1, b.2.1, b.2.2) from hp)
        rw [← he, (hs b hp).1] at hb
        cases hb
      rw [hm] at hi
      rcases info_step n.sched o hi with ⟨new, rfl, hn, hnew⟩ | ⟨m', hi', hm'⟩
      · rcases (hs _ hn).1 p rfl with h0 | h1
        · rw [h0] at hb
          cases hb
        · rw [h1] at hb
          exact hnew.trans (Option.some.inj hb)
      · exact hm'.symm.trans (h.built p name hb m' hi')

theorem asked_api (h : NamesOk n) (o : Op cfg) {p : Fin maxPipelines}
    (ha : n.askedAfter o p = some name) : (((step n.sched o).pipes p).model, name) ∈ n.looked := by
  unfold Named.askedAfter at ha
  split at ha
  · cases ha
  · rename_i hr
    cases hmp : modelPipe n.sched o with
    | none =>
      rw [hmp] at ha
      rw [model_step n.sched o hr fun b hp => by rw [hmp] at hp; cases hp]
      exact h.asked p name ha
    | some b =>
      obtain ⟨q, hd, t⟩ := b
      rw [hmp] at ha
      dsimp only at ha
      split at ha
      · rename_i hq
        subst hq
        rw [model_addWrite hmp]
        unfold Named.askedBy at ha
        split at ha
        · rename_i h' name' hsv
          split at ha
          · rename_i he
            cases ha
            rw [← he]
            exact h.serving t _ hsv
          · cases ha
        · cases ha
      · rename_i hq
        rw [model_step n.sched o hr fun b hp => by rw [hmp] at hp; cases hp; exact hq]
        exact h.asked p name ha

theorem looked_api (h : NamesOk n) (o : Op cfg) (hs : NameSafe n (.api o)) {b : Handle × Nat}
    (hb : b ∈ n.looked) (hi : (step n.sched o).info b.1 = some m) : m.name = b.2 := by
  rcases info_step n.sched o hi with ⟨new, rfl, hn, hnew⟩ | ⟨m', hi', hm'⟩
  · exact hnew.trans ((hs _ hn).2 b hb rfl).symm
  · exact hm'.symm.trans (h.looked b hb m' hi')

/-- A job that goes on to its stages has the model that was meant. -/
theorem keeps_api (h : NamesOk n) (o : Op cfg) : ∀ r ∈ n.ranAfter o,
    (∀ name, r.built = some name → r.model = name) ∧ ∀ name, r.asked = some name → r.model = name := by
  intro r hr
  unfold Named.ranAfter at hr
  split at hr
  · rename_i p m he
    have hi := enteredPipe_info he
    rcases List.mem_append.mp hr with hr | hr
    · exact h.keeps r hr
    · rw [List.mem_singleton.mp hr]
      refine ⟨fun name hb => h.built p name hb m hi, fun name ha => ?_⟩
      exact h.looked _ (h.asked p name ha) m hi
  · exact h.keeps r hr

theorem namesOk_step (h : NamesOk n) (c : Call cfg) (hs : NameSafe n c) : NamesOk (n.step c) := by
  cases c with
  | api o =>
    refine ⟨fun p name hb m hi => ?_, fun p name ha => ?_, fun b hb m hi => ?_, h.serving, ?_⟩
    · exact built_api h o hs hb hi
    · exact asked_api h o ha
    · exact looked_api h o hs hb hi
    · exact keeps_api h o
  | lookup name =>
    unfold Named.step
    dsimp only
    cases hg : getByName name n.sched with
    | none => exact h
    | some hd =>
      refine ⟨h.built, fun p x ha => ?_, fun b hb m hi => ?_, fun t b hb => ?_, h.keeps⟩
      · exact List.mem_append_left _ (h.asked p x ha)
      · rcases List.mem_append.mp hb with hb | hb
        · exact h.looked b hb m hi
        · rw [List.mem_singleton.mp hb] at hi ⊢
          exact getByName_name hg m hi
      · exact List.mem_append_left _ (h.serving t b hb)
  | serve t hd name =>
    unfold Named.step
    dsimp only
    split
    · rename_i hc
      refine ⟨h.built, h.asked, h.looked, fun t' b hb => ?_, h.keeps⟩
      change Function.update n.serving t _ t' = some b at hb
      rw [Function.update_apply] at hb
      split at hb
      · cases hb
        exact hc.1
      · exact h.serving t' b hb
    · exact h
  | served t =>
    refine ⟨h.built, h.asked, h.looked, fun t' b hb => ?_, h.keeps⟩
    change Function.update n.serving t _ t' = some b at hb
    rw [Function.update_apply] at hb
    split at hb
    · cases hb
    · exact h.serving t' b hb

theorem NamesOk.init : NamesOk (Named.init cfg) :=
  ⟨fun _ _ h => (nomatch h), fun _ _ h => (nomatch h), fun _ h => (nomatch h),
    fun _ _ h => (nomatch h), fun _ h => (nomatch h)⟩

/-- A handle does not change its meaning. -/
theorem handles_keep_names (calls : List (Call cfg))
    (h : Along Named.step NameSafe (Named.init cfg) calls) :
    KeepsNames (run Named.step (Named.init cfg) calls) :=
  (h.invariant NamesOk.init fun _ c hi hs => namesOk_step hi c hs).keeps

def apiCalls (ops : List (Op twoJobs)) : List (Call twoJobs) := ops.map .api

def unregisterOps (h : Handle) : List (Op twoJobs) :=
  [.unregisterEnter 0 h, .unregisterUnload 0, .unregisterRemove 0]

/-- A job of pipeline 0 runs to its end. -/
def runOps : List (Op twoJobs) := submitOps 0 ⟨0, 0, false⟩ ++ .dispatch :: scheduleOps 4 0

/-- The model comes back under its name; a request that CPU1 looked up before is
served by it. -/
theorem handles_keep_names_return : KeepsNames (run Named.step (Named.init twoJobs)
    (apiCalls [.register 7] ++ [.lookup 7, .serve 0 1 7] ++ apiCalls (pipeOps 0 1) ++
      apiCalls (unregisterOps 1 ++ modelOps 7 1 ++ runOps))) :=
  handles_keep_names _ (by decide +kernel)

/-- A model is replaced after a pipeline was built for it. -/
def reuseCalls : List (Call twoJobs) :=
  apiCalls (.register 7 :: pipeOps 0 1 ++ unregisterOps 1 ++ modelOps 8 1 ++ runOps)

/-- The handle is given to another model; the job of the old pipeline runs it and
succeeds. -/
theorem reused_handle_runs_other :
    ¬KeepsNames (run Named.step (Named.init twoJobs) reuseCalls) ∧
      (run Named.step (Named.init twoJobs) reuseCalls).sched.final 2 = some 0 := by
  refine ⟨fun h => ?_, by decide +kernel⟩
  have := (h ⟨some 7, none, 8⟩ (by decide +kernel)).1 7 rfl
  cases this

end SynapticOS.Infer
