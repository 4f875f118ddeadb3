import SynapticOS.Store.Effects
import SynapticOS.System
import Mathlib.Data.Fintype.Defs

/-!
# Calls from several threads

A thread is outside the engine, waits for `ota_lock` behind the checks of its call,
or has left its locked section with an error that it has still to put the session
into. A step is the code of one thread between two of these.
-/

namespace SynapticOS

open Lib

variable {cfg : Config} {τ : Type}

inductive OtaCall
  | begin (name : List UInt8) (totalSize : Nat)
  | writeChunk (data : List UInt8)
  | finish
  | activate
  | rollback

namespace OtaCall

/-- The checks before the lock. -/
def checks (s : Sys) : OtaCall → Except Errno Unit
  | begin name totalSize =>
    if name.takeWhile (· ≠ 0) = [] ∨ totalSize ≤ synmHdrSize then .error .einval
    else if ¬s.store.st.ready then .error .enodev
    else .ok ()
  | writeChunk data => if data.length = 0 then .error .einval else .ok ()
  | finish | activate | rollback => .ok ()

def locked (cfg : Config) : OtaCall → OtaM Unit
  | begin name totalSize => beginLocked cfg name totalSize
  | writeChunk data => writeChunkLocked cfg data
  | finish => finishLocked cfg
  | activate => otaActivateLocked cfg
  | rollback => otaRollbackLocked cfg

def op : OtaCall → Op
  | begin name totalSize => .otaBegin name totalSize
  | writeChunk data => .otaWriteChunk data
  | finish => .otaFinish
  | activate => .otaActivate
  | rollback => .otaRollback

/-- A call is its checks, its locked section and the tail call. -/
theorem exec_op (c : OtaCall) (s : Sys) : (exec cfg c.op).run s = match c.checks s with
    | .error e => (.error e, s)
    | .ok () => (otaCall (c.locked cfg)).run s := by
  cases c with
  | begin name totalSize =>
    show (otaBegin cfg name totalSize).run s = _
    unfold otaBegin checks locked
    rw [Act.run_bind, Act.run_get]
    dsimp only
    split
    · rfl
    · split <;> rfl
  | writeChunk data =>
    show (otaWriteChunk cfg data).run s = _
    unfold otaWriteChunk checks locked
    rw [Act.run_ite]
    dsimp only
    split <;> rfl
  | finish | activate | rollback => rfl

end OtaCall

inductive Phase
  | outside
  | waiting (c : OtaCall)
  | failing (e : Errno)

inductive ThreadStep
  | call (c : OtaCall)
  | lock (env : Env)
  | exit (env : Env)

/-- The thread has unlocked with an error and not entered it yet. -/
def Phase.owes : Phase → Bool
  | .failing _ => true
  | _ => false

/-- The move starts where the thread is. -/
def Phase.Takes : Phase → ThreadStep → Prop
  | .outside, .call _ | .waiting _, .lock _ | .failing _, .exit _ => True
  | _, _ => False

instance : (p : Phase) → (m : ThreadStep) → Decidable (p.Takes m)
  | .outside, .call _ | .waiting _, .lock _ | .failing _, .exit _ => isTrue trivial
  | .outside, .lock _ | .outside, .exit _ | .waiting _, .call _ | .waiting _, .exit _
  | .failing _, .call _ | .failing _, .lock _ => isFalse not_false

instance : (p : Phase) → Decidable (p = .outside)
  | .outside => isTrue rfl
  | .waiting _ | .failing _ => isFalse fun h => by cases h

structure Threads (τ : Type) where
  sys : Sys
  phase : τ → Phase

namespace Threads

/-- No call is under way. -/
def start (τ : Type) (s : Sys) : Threads τ := ⟨s, fun _ => .outside⟩

section
variable [DecidableEq τ]

def put (w : Threads τ) (t : τ) (p : Phase) (s : Sys) : Threads τ :=
  ⟨s, Function.update w.phase t p⟩

def step (cfg : Config) (w : Threads τ) (x : τ × ThreadStep) : Threads τ :=
  match x.2, w.phase x.1 with
  | .call c, .outside =>
    match c.checks w.sys with
    | .error _ => w
    | .ok () => w.put x.1 (.waiting c) w.sys
  | .lock env, .waiting c =>
    match (c.locked cfg).run (w.sys.enter env) with
    | (.error (.fail e), s) => w.put x.1 (.failing e) s
    | (_, s) => w.put x.1 .outside s
  | .exit env, .failing e => w.put x.1 .outside ((enterError e : SysM Unit).run (w.sys.enter env)).2
  | _, _ => w

end

def Enabled (w : Threads τ) (x : τ × ThreadStep) : Prop := (w.phase x.1).Takes x.2

instance (w : Threads τ) (x : τ × ThreadStep) : Decidable (w.Enabled x) :=
  inferInstanceAs (Decidable (Phase.Takes _ _))

/-- One thread's call at a time. -/
def Alone (w : Threads τ) (x : τ × ThreadStep) : Prop :=
  w.Enabled x ∧ ∀ t, t ≠ x.1 → w.phase t = .outside

end Threads

/-- What is seen of the engine: its state, its last error, and what it has done to
the other core. -/
def Sys.seen (s : Sys) : OtaState × Option Errno × List CpuAct :=
  (s.ota.state, s.ota.lastError, s.cpu.acts)

/-- What one step shows. -/
def shown (s s' : Sys) : List (OtaState × Option Errno × List CpuAct) :=
  if s'.seen = s.seen then [] else [s'.seen]

/-- What a run shows, in its order. -/
def observations [DecidableEq τ] (cfg : Config) (w : Threads τ) : List (τ × ThreadStep) →
    List (OtaState × Option Errno × List CpuAct)
  | [] => []
  | x :: l => shown w.sys (w.step cfg x).sys ++ observations cfg (w.step cfg x) l

/-- The checks under the lock that refuse a call, and refuse it in ERROR as well. -/
def OtaCall.Refused (cfg : Config) (s : Sys) : OtaCall → Prop
  | .begin _ totalSize => cfg.lay.slotSize < totalSize
  | .writeChunk _ | .finish => s.ota.state ≠ .downloading
  | .activate => activateTarget s = none
  | .rollback => False

instance (s : Sys) : (c : OtaCall) → Decidable (c.Refused cfg s)
  | .begin _ totalSize => inferInstanceAs (Decidable (cfg.lay.slotSize < totalSize))
  | .writeChunk _ | .finish => inferInstanceAs (Decidable (s.ota.state ≠ .downloading))
  | .activate => inferInstanceAs (Decidable (activateTarget s = none))
  | .rollback => isFalse not_false

/-- A call that takes the lock while the error of another is still to be entered is
refused. -/
def Threads.Guarded (cfg : Config) (w : Threads τ) (x : τ × ThreadStep) : Prop :=
  match x.2, w.phase x.1 with
  | .lock _, .waiting c => (∃ t, (w.phase t).owes = true) → c.Refused cfg w.sys
  | _, _ => True

instance [Fintype τ] (w : Threads τ) (x : τ × ThreadStep) : Decidable (w.Guarded cfg x) := by
  unfold Threads.Guarded
  split <;> infer_instance

-- ---------------------------------------------------------------------------
-- What the calls leave alone
-- ---------------------------------------------------------------------------

/-- The store stays initialized or not. -/
def KeepsReady (s s' : Sys) : Prop := s'.store.st.ready = s.store.st.ready

def StoreReady (t t' : Store) : Prop := t'.st.ready = t.st.ready

instance : IsPreorder Store StoreReady where
  refl _ := rfl
  trans _ _ _ h h' := h'.trans h

instance : IsPreorder Sys KeepsReady where
  refl _ := rfl
  trans _ _ _ h h' := h'.trans h

theorem storeReady_onFlash (x : FlashM α) : Respects StoreReady (Store.onFlash x) := fun _ => rfl

theorem storeReady_copyCommit (c : Copy) (gen : UInt32) :
    Respects StoreReady (copyCommit cfg c gen) := by
  refine Respects.bind (Respects.attempt ?_) fun r => ?_
  · refine Respects.bind Respects.get fun s => Respects.bind (storeReady_onFlash _) fun _ =>
      Respects.bind (Respects.modify fun _ => rfl) fun _ =>
        Respects.bind (storeReady_onFlash _) fun _ => ?_
    exact Respects.chunks (fun _ => True) (fun _ _ _ _ => Respects.bind (storeReady_onFlash _)
      fun _ => Respects.ite (Respects.pure' _) (Respects.throw _)) (fun _ _ _ => trivial) _ _ _
        trivial
  · cases r with
    | error e => exact Respects.bind (Respects.modify fun _ => rfl) fun _ => Respects.throw _
    | ok u => exact Respects.modify fun _ => rfl

theorem storeReady_effects (cfg : Config) : Effects cfg (fun _ => True) StoreReady where
  commit := Respects.bind (Respects.gets _) fun _ => storeReady_copyCommit _ _
  modifyReg _ := Respects.modify fun _ => rfl
  onModels _ := fun _ => rfl
  read _ := storeReady_onFlash _
  slot _ _ _ := storeReady_onFlash _

theorem keepsReady_onStore {x : StoreM α} (hx : Respects StoreReady x) :
    Respects KeepsReady (Sys.onStore x) := Respects.zoom hx fun _ _ h => h

theorem keepsReady_onFlash (x : FlashM α) : Respects KeepsReady (Sys.onFlash x) :=
  keepsReady_onStore (storeReady_onFlash x)

theorem keepsReady_modifyOta (f : Ota → Ota) :
    Respects KeepsReady (Sys.modifyOta f : Act Sys ε Unit) := fun _ => rfl

theorem keepsReady_act (a : CpuAct) : Respects KeepsReady (Sys.act a : Act Sys ε Unit) :=
  fun _ => rfl

theorem keepsReady_cpu1Park : Respects KeepsReady (cpu1Park : Act Sys ε Unit) :=
  Respects.bind (Respects.gets _) fun _ => Respects.ite (Respects.bind (keepsReady_act _)
    fun _ => Respects.ite (keepsReady_modifyOta _) (Respects.pure' _)) (Respects.pure' _)

theorem keepsReady_cpu1Unpark : Respects KeepsReady (cpu1Unpark : Act Sys ε Unit) :=
  Respects.bind Respects.get fun _ => Respects.ite (Respects.bind (keepsReady_act _) fun _ =>
    Respects.ite (Respects.bind (keepsReady_modifyOta _) fun _ => keepsReady_act _)
      (Respects.pure' _)) (Respects.pure' _)

theorem keepsReady_enterError (e : Errno) : Respects KeepsReady (enterError e : Act Sys ε Unit) :=
  Respects.bind (keepsReady_modifyOta _) fun _ => keepsReady_cpu1Unpark

theorem keepsReady_begin (name : List UInt8) (totalSize : Nat) :
    Respects KeepsReady (beginLocked cfg name totalSize) := by
  have h := storeReady_effects cfg
  refine Respects.bind (Respects.bind Respects.get fun s => Respects.ite (Respects.throw _) <|
    Respects.bind ?_ fun _ => Respects.bind ?_ fun _ =>
      Respects.bind (keepsReady_modifyOta _) fun _ => Respects.bind keepsReady_cpu1Park fun _ =>
        Respects.pure' _) fun slot => ?_
  · exact Respects.bind (Respects.gets _) fun _ => Respects.ite (Respects.bind (keepsReady_act _)
      fun _ => Respects.ite (Respects.pure' _) (Respects.bind (keepsReady_act _) fun _ =>
        Respects.throw _)) (Respects.pure' _)
  · exact Respects.bind (Respects.gets _) fun _ => Respects.bind (Respects.attempt
      (Respects.ite (keepsReady_onStore h.clearStaged) (Respects.pure' _))) fun _ =>
        Respects.pure' _
  · exact Respects.bind (Respects.mapError (keepsReady_onStore (h.beginStaging slot))) fun _ =>
      Respects.bind (Respects.mapError (keepsReady_onFlash _)) fun _ => keepsReady_modifyOta _

theorem keepsReady_flushPages (final : Bool) : Respects KeepsReady (flushPages cfg final) :=
  Respects.bind (Respects.gets _) fun _ => Respects.ite (Respects.pure' _) <|
    Respects.bind (keepsReady_onFlash _) fun _ => keepsReady_modifyOta _

theorem keepsReady_fillPages (fuel : Nat) (src : List UInt8) :
    Respects KeepsReady (fillPages cfg fuel src) := by
  induction fuel generalizing src with
  | zero => exact Respects.pure' _
  | succ fuel ih =>
    exact Respects.ite (Respects.pure' _) <| Respects.bind (Respects.gets _) fun _ =>
      Respects.bind (keepsReady_modifyOta _) fun _ => Respects.ite (Respects.bind
        (keepsReady_flushPages _) fun _ => ih _) (ih _)

theorem keepsReady_captureHdr (data : List UInt8) : Respects KeepsReady (captureHdr data) := by
  refine Respects.bind (Respects.gets _) fun o => Respects.ite (Respects.bind
    (keepsReady_modifyOta _) fun _ => Respects.ite ?_ (Respects.pure' _)) (Respects.pure' _)
  split
  · exact Respects.throw _
  · exact Respects.pure' _

theorem keepsReady_locked (c : OtaCall) : Respects KeepsReady (c.locked cfg) := by
  have h := storeReady_effects cfg
  cases c with
  | begin name totalSize => exact keepsReady_begin name totalSize
  | writeChunk data =>
    exact Respects.bind (Respects.gets _) fun _ => Respects.ite (Respects.throw _) <|
      Respects.ite (Respects.throw _) <|
        Respects.bind (Respects.mapError (keepsReady_captureHdr data)) fun _ =>
          Respects.bind (Respects.mapError (keepsReady_fillPages _ _)) fun _ =>
            keepsReady_modifyOta _
  | finish =>
    refine Respects.bind (Respects.gets _) fun _ => Respects.ite (Respects.throw _) <|
      Respects.ite (Respects.throw _) <|
        Respects.bind (Respects.mapError (keepsReady_flushPages true)) fun _ =>
          Respects.bind (Respects.mapError ?_) fun _ => Respects.mapError ?_
    · exact Respects.bind (keepsReady_modifyOta _) fun _ => Respects.bind (Respects.gets _)
        fun _ => Respects.bind (keepsReady_onFlash _) fun _ =>
          Respects.ite (Respects.throw _) (Respects.pure' _)
    · exact Respects.bind (keepsReady_modifyOta _) fun _ => Respects.bind (Respects.gets _)
        fun _ => Respects.bind (keepsReady_onStore (h.markStaged _ _)) fun _ =>
          keepsReady_modifyOta _
  | activate =>
    refine Respects.bind Respects.get fun s => ?_
    split
    · exact Respects.throw _
    · exact Respects.bind (Respects.mapError (keepsReady_onStore (h.activate _))) fun _ =>
        Respects.bind (keepsReady_modifyOta _) fun _ => keepsReady_cpu1Unpark
  | rollback =>
    exact Respects.bind (Respects.gets _) fun _ => Respects.ite (Respects.throw _) <|
      Respects.bind (Respects.mapError (keepsReady_onStore h.rollback)) fun _ =>
        Respects.bind (keepsReady_modifyOta _) fun _ => keepsReady_cpu1Unpark

end SynapticOS
