import SynapticOS.Infer.Unregister
import Mathlib.Data.Fintype.Prod

/-!
# The store's calls beside the scheduler

`syn_store_begin_staging`, `install`, `activate` and `rollback`, called by threads
that call the registry as well: what they check before the store's lock, what they
do under it, and where they go into the registry, which is the same thread's way
through the operations of `Sched`. A record is reduced to its name, the flash to
whether the payload of a slot is in place; whether erasing, writing and committing
succeed comes with the operation. The flash offset of a registered model says from
which slot it is (`Shop.origin`).
-/

namespace SynapticOS.Infer

variable {cfg : Cfg} {count : Nat}

/-- The adopted registry of the store. -/
structure StoreReg (count : Nat) where
  occupied : Fin count → Bool
  name : Fin count → Nat
  active : Option (Fin count)
  prev : Option (Fin count)
  staged : Option (Fin count)

inductive Switch
  | activate | rollback
  deriving DecidableEq, Repr

/-- Where a thread is inside a function of the store. -/
inductive StoreCall (count : Nat)
  | idle
  /-- An installation has its slot. -/
  | choosing (k : Fin count) (name : Nat)
  /-- `begin_staging` at the lock; `next` is what an installation goes on with. -/
  | evicting (k : Fin count) (next : Option Nat)
  /-- The slot's model is being unregistered. -/
  | dropping (k : Fin count) (next : Option Nat)
  | clearing (k : Fin count) (next : Option Nat)
  /-- Before the commit; `old` is what a failure restores. -/
  | cleared (k : Fin count) (next : Option Nat) (old : StoreReg count)
  /-- An installation at the lock. -/
  | erasing (k : Fin count) (name : Nat)
  | writing (k : Fin count) (name : Nat)
  | installed (k : Fin count) (old : StoreReg count)
  /-- At the lock. -/
  | activating (k : Fin count)
  | rollingBack
  /-- The outgoing model gives the NPU up; `held` is its handle, if it has it. -/
  | releasing (k : Fin count) (sw : Switch) (held : Option Handle)
  | switched (k : Fin count) (held : Option Handle) (old : StoreReg count)
  /-- `ram_register`; `reload` when the model gets the NPU. -/
  | registering (k : Fin count) (reload : Bool)
  /-- The model that has the name is being unregistered. -/
  | replacing (k : Fin count) (reload : Bool)
  | inserting (k : Fin count) (reload : Bool)
  | attaching (k : Fin count) (h : Handle) (reload : Bool)
  | reloading (h : Handle)
  /-- The last call into the registry; the lock is given back after it. -/
  | leaving

structure Shop (cfg : Cfg) (count : Nat) where
  sched : Sched cfg
  reg : StoreReg count
  /-- The payload of the slot is in place. -/
  written : Fin count → Bool
  origin : Handle → Option (Fin count)
  lock : Bool
  calls : Fin cfg.threads → StoreCall count

-- ---------------------------------------------------------------------------
-- The adopted registry
-- ---------------------------------------------------------------------------

namespace StoreReg

def dropSlot (k : Fin count) (v : Option (Fin count)) : Option (Fin count) := if v = some k then none else v

def evict (k : Fin count) (r : StoreReg count) : StoreReg count :=
  { r with
    occupied := Function.update r.occupied k false
    staged := dropSlot k r.staged, prev := dropSlot k r.prev }

def install (k : Fin count) (name : Nat) (r : StoreReg count) : StoreReg count :=
  { r with
    occupied := Function.update r.occupied k true
    name := Function.update r.name k name
    staged := dropSlot k r.staged, active := some k
    prev := if r.active = some k then r.prev else r.active }

def switch (k : Fin count) (r : StoreReg count) : Switch → StoreReg count
  | .activate => { r with active := some k, prev := r.active, staged := dropSlot k r.staged }
  | .rollback => { r with active := some k, prev := r.active }

def stagingSlot (r : StoreReg count) : Option (Fin count) :=
  ((List.finRange count).find? fun k => !r.occupied k) <|>
    ((List.finRange count).find? fun k => r.active ≠ some k ∧ r.prev ≠ some k) <|>
    (List.finRange count).find? fun k => r.active ≠ some k

/-- The recorded pivot, or the last occupied slot that is neither active nor staged. -/
def rollbackTarget (r : StoreReg count) : Option (Fin count) :=
  let scan := ((List.finRange count).filter fun k =>
    r.occupied k ∧ r.active ≠ some k ∧ r.staged ≠ some k).getLast?
  match r.prev with
  | none => scan
  | some p => if r.active ≠ some p ∧ r.occupied p then some p else scan

end StoreReg

-- ---------------------------------------------------------------------------
-- Calls into the registry
-- ---------------------------------------------------------------------------

namespace Shop

def goto (s : Shop cfg count) (t : Fin cfg.threads) (c : StoreCall count) : Shop cfg count :=
  { s with calls := Function.update s.calls t c }

/-- Give the lock back. -/
def leave (s : Shop cfg count) (t : Fin cfg.threads) : Shop cfg count :=
  { s.goto t .idle with lock := false }

/-- The thread makes one operation of the registry, and goes on at `c`. -/
def call (s : Shop cfg count) (t : Fin cfg.threads) (o : Op cfg) (c : StoreCall count) : Shop cfg count :=
  { s with sched := step s.sched o, calls := Function.update s.calls t c }

/-- `slot_handle`: the slot's model, if it is the one registered under its name. -/
def slotHandle (s : Shop cfg count) (k : Fin count) : Option Handle :=
  match getByName (s.reg.name k) s.sched with
  | none => none
  | some h => if s.origin h = some k then some h else none

/-- `syn_model_unregister`; where it refuses, the store's function ends. -/
def unregister (s : Shop cfg count) (t : Fin cfg.threads) (h : Handle) (c : StoreCall count) :
    Shop cfg count :=
  if (s.sched.info h).isSome ∧ s.sched.modelSuspended h = false then
    s.call t (.unregisterEnter t h) c
  else s.leave t

-- ---------------------------------------------------------------------------
-- Staging
-- ---------------------------------------------------------------------------

/-- The rest of an installation, or of `begin_staging` alone. -/
def afterStaging (k : Fin count) : Option Nat → StoreCall count
  | none => .idle
  | some name => .erasing k name

/-- `begin_staging` before the lock. -/
def beginStaging (t : Fin cfg.threads) (k : Fin count) (next : Option Nat) (s : Shop cfg count) :
    Shop cfg count :=
  if s.reg.active = some k then s.goto t .idle
  else if s.reg.occupied k = false then s.goto t (afterStaging k next)
  else s.goto t (.evicting k next)

/-- `ram_unregister`. -/
def evictLock (t : Fin cfg.threads) (k : Fin count) (next : Option Nat) (s : Shop cfg count) :
    Shop cfg count :=
  if s.lock then s
  else
    match s.slotHandle k with
    | none => { s with lock := true }.goto t (.clearing k next)
    | some h => { s with lock := true }.unregister t h (.dropping k next)

def clear (t : Fin cfg.threads) (k : Fin count) (next : Option Nat) (s : Shop cfg count) : Shop cfg count :=
  { s with reg := s.reg.evict k }.goto t (.cleared k next s.reg)

def evictCommit (t : Fin cfg.threads) (k : Fin count) (next : Option Nat) (old : StoreReg count)
    (ok : Bool) (s : Shop cfg count) : Shop cfg count :=
  if ok then { s with lock := false }.goto t (afterStaging k next)
  else { s with reg := old }.leave t

-- ---------------------------------------------------------------------------
-- Installation
-- ---------------------------------------------------------------------------

def installEnter (t : Fin cfg.threads) (name : Nat) (s : Shop cfg count) : Shop cfg count :=
  match s.reg.stagingSlot with
  | none => s
  | some k => s.goto t (.choosing k name)

def erase (t : Fin cfg.threads) (k : Fin count) (name : Nat) (s : Shop cfg count) : Shop cfg count :=
  if s.lock then s
  else { s with lock := true, written := Function.update s.written k false }.goto t (.writing k name)

/-- Erasing, writing and verifying are over. -/
def write (t : Fin cfg.threads) (k : Fin count) (name : Nat) (ok : Bool) (s : Shop cfg count) :
    Shop cfg count :=
  if ok then
    { s with
      written := Function.update s.written k true
      reg := s.reg.install k name }.goto t (.installed k s.reg)
  else s.leave t

def installCommit (t : Fin cfg.threads) (k : Fin count) (old : StoreReg count) (ok : Bool)
    (s : Shop cfg count) : Shop cfg count :=
  if ok then s.goto t (.registering k false) else { s with reg := old }.leave t

-- ---------------------------------------------------------------------------
-- Activation and rollback
-- ---------------------------------------------------------------------------

def activateEnter (t : Fin cfg.threads) (k : Fin count) (s : Shop cfg count) : Shop cfg count :=
  if s.reg.occupied k = false ∨ s.reg.active = some k then s else s.goto t (.activating k)

/-- The outgoing model is unloaded, unless one of its jobs is suspended. -/
def release (t : Fin cfg.threads) (k : Fin count) (sw : Switch) (s : Shop cfg count) : Shop cfg count :=
  match s.reg.active.bind s.slotHandle with
  | none => s.goto t (.releasing k sw none)
  | some h =>
    if (s.sched.models h).loaded = false then s.goto t (.releasing k sw none)
    else if s.sched.modelSuspended h then s.leave t
    else s.call t (.unloadEnter t h) (.releasing k sw (some h))

def activateLock (t : Fin cfg.threads) (k : Fin count) (s : Shop cfg count) : Shop cfg count :=
  if s.lock then s else { s with lock := true }.release t k .activate

def rollbackLock (t : Fin cfg.threads) (s : Shop cfg count) : Shop cfg count :=
  if s.lock then s
  else
    match s.reg.rollbackTarget with
    | none => s.goto t .idle
    | some k => { s with lock := true }.release t k .rollback

def switchReg (t : Fin cfg.threads) (k : Fin count) (sw : Switch) (held : Option Handle)
    (s : Shop cfg count) : Shop cfg count :=
  { s with reg := s.reg.switch k sw }.goto t (.switched k held s.reg)

/-- After a failure the outgoing model gets the NPU back. -/
def switchCommit (t : Fin cfg.threads) (k : Fin count) (held : Option Handle) (old : StoreReg count)
    (ok : Bool) (s : Shop cfg count) : Shop cfg count :=
  if ok then s.goto t (.registering k held.isSome)
  else
    match held with
    | none => { s with reg := old }.leave t
    | some h => { s with reg := old }.goto t (.reloading h)

-- ---------------------------------------------------------------------------
-- Registration
-- ---------------------------------------------------------------------------

def reloadNext (t : Fin cfg.threads) (h : Handle) (reload : Bool) (s : Shop cfg count) : Shop cfg count :=
  if reload then s.goto t (.reloading h) else s.leave t

/-- `ram_register`: a same-name model of another slot gives way. -/
def ramRegister (t : Fin cfg.threads) (k : Fin count) (reload : Bool) (s : Shop cfg count) :
    Shop cfg count :=
  match getByName (s.reg.name k) s.sched with
  | none => s.goto t (.inserting k reload)
  | some h =>
    if s.origin h = some k then s.reloadNext t h reload
    else s.unregister t h (.replacing k reload)

def ramInsert (t : Fin cfg.threads) (k : Fin count) (reload : Bool) (s : Shop cfg count) :
    Shop cfg count :=
  match nextHandle (s.reg.name k) s.sched with
  | none => s.leave t
  | some h =>
    { s.call t (.register (s.reg.name k)) (.attaching k h reload) with
      origin := Function.update s.origin h (some k) }

/-- The payload's address is known by its slot. -/
def attach (t : Fin cfg.threads) (k : Fin count) (h : Handle) (reload : Bool) (s : Shop cfg count) :
    Shop cfg count :=
  { s with sched := step s.sched (.setData h (some k)) }.reloadNext t h reload

-- ---------------------------------------------------------------------------
-- Steps
-- ---------------------------------------------------------------------------

/-- A thread inside the store goes on, unless it is inside the registry; `ok` is what
the flash says. -/
def next (t : Fin cfg.threads) (ok : Bool) (s : Shop cfg count) : Shop cfg count :=
  if s.sched.threads t ≠ .idle then s
  else
    match s.calls t with
    | .idle => s
    | .choosing k name => s.beginStaging t k (some name)
    | .evicting k next => s.evictLock t k next
    | .dropping k next => s.goto t (.clearing k next)
    | .clearing k next => s.clear t k next
    | .cleared k next old => s.evictCommit t k next old ok
    | .erasing k name => s.erase t k name
    | .writing k name => s.write t k name ok
    | .installed k old => s.installCommit t k old ok
    | .activating k => s.activateLock t k
    | .rollingBack => s.rollbackLock t
    | .releasing k sw held => s.switchReg t k sw held
    | .switched k held old => s.switchCommit t k held old ok
    | .registering k reload => s.ramRegister t k reload
    | .replacing k reload => s.goto t (.inserting k reload)
    | .inserting k reload => s.ramInsert t k reload
    | .attaching k h reload => s.attach t k h reload
    | .reloading h => s.call t (.loadEnter t h) .leaving
    | .leaving => s.leave t

end Shop

/-- The thread whose call begins. -/
def Op.caller : Op cfg → Option (Fin cfg.threads)
  | .loadEnter t _ | .swapEnter t _ _ | .unloadEnter t _ | .unregisterEnter t _
  | .addEnter t _ _ _ | .buildEnter t _ | .destroyEnter t _ | .submitEnter t _ _
  | .waitEnter t _ => some t
  | _ => none

inductive ShopOp (cfg : Cfg) (count : Nat)
  | api (o : Op cfg)
  | beginStaging (t : Fin cfg.threads) (k : Fin count)
  | install (t : Fin cfg.threads) (name : Nat)
  | activate (t : Fin cfg.threads) (k : Fin count)
  | rollback (t : Fin cfg.threads)
  | next (t : Fin cfg.threads) (ok : Bool)

namespace Shop

/-- The thread is in no call. -/
def free (s : Shop cfg count) (t : Fin cfg.threads) : Bool :=
  (match s.calls t with
    | .idle => true
    | _ => false) && decide (s.sched.threads t = .idle)

/-- A thread that is in the store begins no other call. -/
def blocked (s : Shop cfg count) (o : Op cfg) : Bool := o.caller.any fun t => !s.free t

/-- What is registered without the store is of no slot. -/
def originAfter (s : Shop cfg count) : Op cfg → Handle → Option (Fin count)
  | .register name =>
    match nextHandle name s.sched with
    | none => s.origin
    | some h => Function.update s.origin h none
  | _ => s.origin

def step (s : Shop cfg count) : ShopOp cfg count → Shop cfg count
  | .api o =>
    if s.blocked o then s
    else { s with sched := Infer.step s.sched o, origin := s.originAfter o }
  | .beginStaging t k => if s.free t then s.beginStaging t k none else s
  | .install t name => if s.free t then s.installEnter t name else s
  | .activate t k => if s.free t then s.activateEnter t k else s
  | .rollback t => if s.free t then s.goto t .rollingBack else s
  | .next t ok => s.next t ok

-- ---------------------------------------------------------------------------
-- Boot
-- ---------------------------------------------------------------------------

/-- Register the model of a slot, unless the name is taken. -/
def bootSlot (s : Shop cfg count) (k : Fin count) : Shop cfg count :=
  match getByName (s.reg.name k) s.sched, nextHandle (s.reg.name k) s.sched with
  | none, some h =>
    { s with
      sched := Infer.step (Infer.step s.sched (.register (s.reg.name k))) (.setData h (some k))
      origin := Function.update s.origin h (some k) }
  | _, _ => s

/-- The active slot registers first, then the other residents. -/
def bootSlots (r : StoreReg count) : List (Fin count) :=
  r.active.toList ++ (List.finRange count).filter fun k =>
    r.occupied k ∧ r.active ≠ some k ∧ r.staged ≠ some k

def boot (cfg : Cfg) (r : StoreReg count) : Shop cfg count :=
  (bootSlots r).foldl bootSlot
    ⟨Sched.init cfg, r, r.occupied, fun _ => none, false, fun _ => .idle⟩

end Shop

/-- A suspended job's model is registered, and its slot is occupied and holds the
payload. -/
def Untouched (s : Shop cfg count) : Prop :=
  ∀ j, (s.sched.jobs j).state = .suspended → (s.sched.info (s.sched.modelOf j)).isSome ∧
    ∀ k, s.origin (s.sched.modelOf j) = some k → s.reg.occupied k = true ∧ s.written k = true

/-- The slot that a thread is about to take the lock for, and whether it must be
occupied. -/
def Shop.expects (s : Shop cfg count) (t : Fin cfg.threads) : Option (Fin count × Bool) :=
  if s.lock then none
  else
    match s.calls t with
    | .erasing k _ => some (k, false)
    | .activating k => some (k, true)
    | _ => none

/-- Unregistrations go as `DrainSafe` says, the store's own included, and what `install`
and `activate` found before the lock holds when they have it. -/
def ShopSafe (s : Shop cfg count) : ShopOp cfg count → Prop
  | .api o => s.blocked o = false → TakeSafe s.sched o
  | .next t _ => ∀ b, s.expects t = some b → s.reg.occupied b.1 = b.2
  | _ => True

instance (s : Shop cfg count) (o : ShopOp cfg count) : Decidable (ShopSafe s o) := by
  unfold ShopSafe
  cases o <;> dsimp only <;> infer_instance

end SynapticOS.Infer
