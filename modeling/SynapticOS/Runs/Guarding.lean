import SynapticOS.Runs.Payloads

/-!
# What every boot adopts

`Guarding P` says of a system that its registry, and every registry a boot could
adopt from its flash, is one that `P` allows. It survives failed commits and power
losses, as long as no generation wraps and no boot fails to read a copy.
-/

namespace SynapticOS

open Lib

variable {cfg : Config} {o : Ota} {s s' : Store} {P Q : Reg → Prop} {u : RegUpdate} {slot : Nat}

/-- The store is in step with its copies, and a boot adopts only what `P` allows. -/
structure GuardInv (cfg : Config) (P : Reg → Prop) (s : Store) : Prop where
  ready : s.st.ready = true
  fits : s.st.reg.Fits cfg
  guard : TornRejected cfg s.flash.trace → Sync cfg s ∧ Guarded cfg P s

/-- The commit does not wrap the generation and writes what `P` allows. -/
def Grants (cfg : Config) (P : Reg → Prop) (u : RegUpdate) (s : Store) : Prop :=
  s.st.reg.Bounded ∧ (TornRejected cfg s.flash.trace →
    P { u.apply s.st.reg with generation := s.st.reg.generation + 1 })

-- ---------------------------------------------------------------------------
-- The moves of the store
-- ---------------------------------------------------------------------------

theorem GuardInv.commit (hv : layoutValid cfg) (h : GuardInv cfg Q s)
    (hf : (u.apply s.st.reg).Fits cfg) (hu : Grants cfg P u s)
    (hc : Committed cfg (u.apply s.st.reg) s s') : GuardInv cfg P s' := by
  refine ⟨hc.ready.trans h.ready, hc.reg ▸ hf.of_generation _, fun ht => ?_⟩
  have ht₀ := ht.earlier hc.later.trace
  have hs := (h.guard ht₀).1
  refine ⟨hc.sync hv hs hf hu.1, hc.guarded hv hs hu.1 ?_⟩
  rw [hc.reg]
  exact hu.2 ht₀

theorem GuardInv.abort (hv : layoutValid cfg) (h : GuardInv cfg P s)
    (hf : (u.apply s.st.reg).Fits cfg) (hu : Grants cfg P u s)
    (hc : Aborted cfg (u.apply s.st.reg) s s') : GuardInv cfg P s' := by
  refine ⟨hc.ready.trans h.ready, hc.reg ▸ h.fits, fun ht => ?_⟩
  have ht₀ := ht.earlier hc.later.trace
  obtain ⟨hs, hg⟩ := h.guard ht₀
  exact ⟨hc.sync hv hs hf hu.1 ht, hc.guarded hv hf ht hg (hu.2 ht₀)⟩

theorem guard_keeps (hv : layoutValid cfg) (P : Reg → Prop) :
    Keeps cfg (fun _ s => GuardInv cfg P s) (fun _ _ => True) (fun u _ s => Grants cfg P u s) where
  fits h := h.fits
  ram := by
    rintro o s ⟨fl, st, m⟩ h ⟨rfl, rfl⟩
    exact ⟨h.ready, h.fits, fun ht => (h.guard ht).imp (·.of_same rfl rfl) (·.of_same rfl rfl)⟩
  fill := by
    intro o s s' slot h hs _ hf
    have hc := hf.copies hv hs
    refine ⟨⟨hf.st ▸ h.ready, hf.st ▸ h.fits, fun ht => ?_⟩, trivial⟩
    exact (h.guard (ht.earlier hf.within.later.trace)).imp (·.of_same hc hf.st) (·.of_same hc hf.st)
  commit h hf hu hc := h.commit hv hf hu hc
  abort h hf hu hc := h.abort hv hf hu hc
  session _ _ := trivial
  close h _ := h
  start h _ := h

-- ---------------------------------------------------------------------------
-- Steps
-- ---------------------------------------------------------------------------

/-- What the flash holds for the next boot, and a powered system over it. -/
structure Guarding (cfg : Config) (P : Reg → Prop) (s : Sys) : Prop where
  flash : TornRejected cfg s.store.flash.trace → GensDiffer cfg s.store.flash.mem ∧
    ∀ st, Adopted cfg s.store.flash.mem st → P st.reg
  live : s.store.flash.powered = true → Holds cfg (fun _ t => GuardInv cfg P t) s

theorem Guarding.of_holds {s : Sys} (h : Holds cfg (fun _ t => GuardInv cfg P t) s) :
    Guarding cfg P s where
  flash ht := by
    obtain ⟨hs, hg⟩ := h.store.guard ht
    exact ⟨hs.gensDiffer, fun st ha => ha.guarded hs hg⟩
  live _ := h

/-- The registry of a store that has adopted it is guarded by what the flash holds. -/
theorem Adopted.guards (h : Adopted cfg s.flash.mem s.st) (hg : GensDiffer cfg s.flash.mem)
    (hp : P s.st.reg) : Guarded cfg P s := by
  cases ha : adopt Reg.seqNo (copies cfg s) with
  | none => exact Guards.of_empty (adopt_none ha) hp
  | some y =>
    obtain ⟨c, r⟩ := y
    have hr : s.st.reg = r := by rw [h.reg, ha]; rfl
    rw [Guarded, hr]
    exact Guards.of_adopt ha (fun b hb => hg.ne (adopt_some ha).1 hb) (hr ▸ hp)

theorem Guarding.boot {s : Sys} {env : Env} (hv : layoutValid cfg) (h : Guarding cfg P s)
    (hc : ∀ t, Fault.error t ∉ env.plan) : Guarding cfg P (sysStep cfg s (env, .boot)) := by
  have hbooted : ∀ t, Booted cfg (s.restart env).store t →
      Guarding cfg P { s.restart env with store := t } := by
    intro t hb
    have hflash : TornRejected cfg t.flash.trace → GensDiffer cfg t.flash.mem ∧
        ∀ st, Adopted cfg t.flash.mem st → P st.reg := by
      intro ht
      rw [hb.mem]
      exact h.flash (ht.earlier hb.later.trace)
    refine ⟨hflash, fun hp => ⟨⟨hb.ready, hb.header.fits, fun ht => ?_⟩, OtaOk.zero cfg⟩⟩
    obtain ⟨hgens, hP⟩ := hflash ht
    have hadopt : Adopted cfg t.flash.mem t.st := hb.mem ▸ hb.adopted hc hp
    exact ⟨hadopt.sync hgens, hadopt.guards hgens (hP _ hadopt)⟩
  show Ends (exec cfg .boot) (s.restart env) (Guarding cfg P)
  exact Ends.zoom (Ends.of_triple (storeInit_spec hv rfl) (fun _ t hb => hbooted t hb)
    fun _ t hb => hbooted t hb)

theorem Holds.enter {s : Sys} (h : Holds cfg (fun _ t => GuardInv cfg P t) s) (env : Env) :
    Holds cfg (fun _ t => GuardInv cfg P t) (s.enter env) :=
  ⟨⟨h.store.ready, h.store.fits, fun ht =>
    (h.store.guard ht).imp (·.of_same rfl rfl) (·.of_same rfl rfl)⟩, h.ota⟩

/-- What `P` grants to a call. -/
abbrev Granted (cfg : Config) (P : Reg → Prop) (s : Sys) (op : Op) : Prop :=
  Permits cfg (fun _ t => GuardInv cfg P t) (fun _ _ => True) (fun u _ t => Grants cfg P u t) s op

theorem Guarding.step {s : Sys} {x : Env × Op} (hv : layoutValid cfg) (h : Guarding cfg P s)
    (hboot : x.2 = .boot → ∀ t, Fault.error t ∉ x.1.plan)
    (hop : x.2 ≠ .boot → s.store.flash.powered = true → Granted cfg P (s.enter x.1) x.2) :
    Guarding cfg P (sysStep cfg s x) := by
  obtain ⟨env, op⟩ := x
  by_cases hb : op = .boot
  · subst hb
    exact h.boot hv (hboot rfl)
  · refine sysStep_ends (fun he => absurd he hb) (fun _ hp => ?_) (fun _ => h)
    exact ((guard_keeps hv P).exec hv ((h.live hp).enter env) hb (hop hb hp)).mono
      fun _ ht => Guarding.of_holds ht

-- ---------------------------------------------------------------------------
-- Runs with room for their generations
-- ---------------------------------------------------------------------------

/-- A step that does not wrap the generation; a boot that reads both copies. -/
def Careful (s : Sys) (x : Env × Op) : Prop :=
  match x.2 with
  | .boot => ∀ t, Fault.error t ∉ x.1.plan
  | _ => Room 2 s.store


theorem Room.later (h : Room 2 s) (hseq : s'.st.reg.seqNo ≤ s.st.reg.seqNo + 1) :
    s'.st.reg.Bounded := by
  unfold Room at h
  unfold Reg.Bounded
  omega

/-- With room for two commits every call is granted everything. -/
theorem granted_all {s : Sys} {op : Op} (hr : Room 2 s.store) :
    Granted cfg (fun _ => True) s op := by
  have hb := hr.bounded (by decide)
  cases op with
  | boot | otaWriteChunk _ => trivial
  | install info data =>
    refine fun _ => ⟨fun _ => ⟨hb, fun _ => trivial⟩, fun _ _ _ => trivial, fun t t' hp _ _ => ?_⟩
    refine ⟨?_, fun _ => trivial⟩
    rw [hp.filled.st]
    exact hr.later (hp.freed.seqNo_le hb)
  | beginStaging slot => exact fun _ => ⟨hb, fun _ => trivial⟩
  | markStaged slot info => exact fun _ _ => ⟨hb, fun _ => trivial⟩
  | activate slot => exact fun _ => ⟨hb, fun _ => trivial⟩
  | rollback | otaRollback => exact fun _ _ => ⟨hb, fun _ => trivial⟩
  | clearStaged => exact fun _ => ⟨hb, fun _ => trivial⟩
  | otaBegin name total =>
    exact ⟨fun _ => ⟨hb, fun _ => trivial⟩, fun t hsup _ _ => ⟨hr.later (hsup.seqNo_le hb),
      fun _ => trivial⟩, fun _ _ _ _ _ _ => trivial⟩
  | otaFinish =>
    intro t hf _ _ _ _
    refine ⟨?_, fun _ => trivial⟩
    rw [hf.filled.st]
    exact hb
  | otaActivate => exact fun _ _ _ => ⟨hb, fun _ => trivial⟩

theorem guarding_run {m : Mem} {l : List (Env × Op)} (hv : layoutValid cfg) (hm : GensDiffer cfg m)
    (hl : Along (sysStep cfg) Careful (Sys.cold m) l) :
    Guarding cfg (fun _ => True) (run (sysStep cfg) (Sys.cold m) l) := by
  refine hl.invariant (I := Guarding cfg fun _ => True) ⟨fun _ => ⟨hm, fun _ _ => trivial⟩,
    fun hp => by cases hp⟩ fun s x h hx => h.step hv (fun hb => ?_) fun hb _ => granted_all ?_
  · rw [Careful, hb] at hx
    exact hx
  · obtain ⟨env, op⟩ := x
    cases op <;> first | exact absurd rfl hb | exact hx

end SynapticOS
