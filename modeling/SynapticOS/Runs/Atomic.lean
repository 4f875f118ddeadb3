import SynapticOS.Runs.Payloads

/-!
# Commits and power losses

A power loss anywhere in a commit leaves the registry from before it or the one it
was to write. An operation that commits once is as atomic as its commit. Two of the
operations may commit twice: `install` evicts the occupant of its slot first, and
`syn_ota_begin` drops the staged image and evicts.
-/

namespace SynapticOS

open Lib

variable {cfg : Config} {o : Ota} {s s' : Store} {P : Reg → Prop} {u : RegUpdate} {slot : Nat}

-- ---------------------------------------------------------------------------
-- The registries of an operation
-- ---------------------------------------------------------------------------

/-- The registry that a commit of `u` writes. -/
def Reg.next (u : RegUpdate) (r : Reg) : Reg := { u.apply r with generation := r.generation + 1 }

/-- After `syn_store_begin_staging`. -/
def Reg.evicted (slot : Nat) (r : Reg) : Reg :=
  if r.occupied slot then r.next (Reg.evict slot) else r

/-- After `syn_store_clear_staged`. -/
def Reg.cleared (r : Reg) : Reg :=
  if r.stagedSlot = slotNone then r else r.next Reg.clearStaged

/-- The registries that an operation passes, from the one it starts with. -/
def stages (cfg : Config) (s : Sys) (op : Op) : List Reg :=
  let r := s.store.st.reg
  match op with
  | .boot | .otaWriteChunk _ => [r]
  | .install info data =>
    let slot := stagingSlot cfg r
    [r, r.evicted slot, (r.evicted slot).next (Reg.install slot (installRecord cfg slot info data))]
  | .beginStaging slot => [r, r.evicted slot]
  | .markStaged slot info => [r, r.next (Reg.markStaged slot info)]
  | .activate slot => [r, r.next (Reg.activate slot)]
  | .rollback | .otaRollback =>
    r :: ((rollbackTarget cfg r).map fun prev => r.next (Reg.rollback prev)).toList
  | .clearStaged => [r, r.cleared]
  | .otaBegin _ _ => [r, r.cleared, r.cleared.evicted (stagingSlot cfg r)]
  | .otaFinish => [r, r.next (Reg.markStaged s.ota.slot (otaRecord cfg s.ota))]
  | .otaActivate => r :: ((activateTarget s).map fun slot => r.next (Reg.activate slot)).toList

/-- No commit of the operation wraps the generation. -/
def GenOk (cfg : Config) (r : Reg) : Op → Prop
  | .install _ _ => r.Bounded ∧ (r.evicted (stagingSlot cfg r)).Bounded
  | .otaBegin _ _ => r.Bounded ∧ r.cleared.Bounded
  | _ => r.Bounded

-- ---------------------------------------------------------------------------
-- What commits keep
-- ---------------------------------------------------------------------------

/-- The store is in step with its copies and a boot adopts only what `P` allows; as
long as there is power, only the state of the store. -/
structure Steady (cfg : Config) (P : Reg → Prop) (s : Store) : Prop where
  sync : Sync cfg s
  allowed : Guarded cfg P s
  settled : s.flash.powered = true → Guarded cfg (· = s.st.reg) s

structure SteadyInv (cfg : Config) (P : Reg → Prop) (s : Store) : Prop where
  ready : s.st.ready = true
  fits : s.st.reg.Fits cfg
  cut : Flash.CutOnly s.flash
  steady : TornRejected cfg s.flash.trace → Steady cfg P s

/-- The commit does not wrap the generation and writes what `P` allows. -/
def Allows (P : Reg → Prop) (u : RegUpdate) (s : Store) : Prop :=
  s.flash.powered = true → s.st.reg.Bounded ∧ P (s.st.reg.next u)

theorem Steady.of_same (h : Steady cfg P s) (hc : copies cfg s' = copies cfg s)
    (hst : s'.st = s.st) (hp : s'.flash.powered = true → s.flash.powered = true) :
    Steady cfg P s' where
  sync := h.sync.of_same hc hst
  allowed := h.allowed.of_same hc hst
  settled hp' := by
    rw [hst]
    exact (h.settled (hp hp')).of_same hc hst

/-- Without power a commit does nothing but fail. -/
theorem Steady.abort_off (h : Steady cfg P s) (hoff : s.flash.powered = false)
    (ha : Aborted cfg r s s') : Steady cfg P s' := by
  have hfl := ha.later.off hoff
  have hc : copies cfg s' = copies cfg s := by rw [copies, hfl]
  obtain ⟨htarget, hkept⟩ := ha.target
  refine ⟨⟨ha.reg ▸ h.sync.fits, ?_, fun hk => ?_⟩, ?_, fun hp => ?_⟩
  · rw [htarget, hkept, ha.reg, hc]
    exact h.sync.tracks
  · rw [hkept] at hk
    rw [ha.reg]
    exact h.sync.fresh hk
  · rw [Guarded, hc, ha.reg]
    exact h.allowed
  · rw [hfl, hoff] at hp
    cases hp

theorem steadyInv_commit (hv : layoutValid cfg) (h : SteadyInv cfg P s)
    (hf : (u.apply s.st.reg).Fits cfg) (hu : Allows P u s)
    (hc : Committed cfg (u.apply s.st.reg) s s') : SteadyInv cfg P s' := by
  obtain ⟨hb, hp⟩ := hu (hc.later.powered hc.powered)
  refine ⟨hc.ready.trans h.ready, hc.reg ▸ hf.of_generation _, h.cut.later hc.later, fun ht => ?_⟩
  have hs := (h.steady (ht.earlier hc.later.trace)).sync
  exact ⟨hc.sync hv hs hf hb, hc.guarded hv hs hb (hc.reg ▸ hp), fun _ => hc.guarded hv hs hb rfl⟩

theorem steadyInv_abort (hv : layoutValid cfg) (h : SteadyInv cfg P s)
    (hf : (u.apply s.st.reg).Fits cfg) (hu : Allows P u s)
    (hc : Aborted cfg (u.apply s.st.reg) s s') : SteadyInv cfg P s' := by
  refine ⟨hc.ready.trans h.ready, hc.reg ▸ h.fits, h.cut.later hc.later, fun ht => ?_⟩
  have hs := h.steady (ht.earlier hc.later.trace)
  cases hp : s.flash.powered with
  | false => exact hs.abort_off hp hc
  | true =>
    obtain ⟨hb, hnext⟩ := hu hp
    refine ⟨hc.sync hv hs.sync hf hb ht, hc.guarded hv hf ht hs.allowed hnext, fun hon => ?_⟩
    rw [hc.cut h.cut] at hon
    cases hon

theorem steady_keeps (hv : layoutValid cfg) (P : Reg → Prop) :
    Keeps cfg (fun _ s => SteadyInv cfg P s) (fun _ _ => True) (fun u _ s => Allows P u s) where
  fits h := h.fits
  ram := by
    rintro o s ⟨fl, st, m⟩ h ⟨rfl, rfl⟩
    exact ⟨h.ready, h.fits, h.cut, fun ht => (h.steady ht).of_same rfl rfl fun hp => hp⟩
  fill := by
    intro o s s' slot h hs _ hf
    refine ⟨⟨hf.st ▸ h.ready, hf.st ▸ h.fits, h.cut.later hf.within.later, fun ht => ?_⟩, trivial⟩
    exact (h.steady (ht.earlier hf.within.later.trace)).of_same (hf.copies hv hs) hf.st
      hf.within.later.powered
  commit h hf hu hc := steadyInv_commit hv h hf hu hc
  abort h hf hu hc := steadyInv_abort hv h hf hu hc
  session _ _ := trivial
  close h _ := h
  start h _ := h

-- ---------------------------------------------------------------------------
-- Calls
-- ---------------------------------------------------------------------------

theorem Freed.reg (h : Freed cfg slot s s') : s'.st.reg = s.st.reg.evicted slot := by
  unfold Reg.evicted
  rcases h with ⟨hn, -, -, rfl⟩ | ⟨he, -, hc⟩
  · rw [if_neg hn]
  · rw [if_pos he.occupied, hc.reg]
    rfl

/-- Superseding drops the staged slot, or takes the power with it. -/
theorem Superseded.reg (h : Superseded cfg s s') (hr : s.st.ready = true)
    (hc : Flash.CutOnly s.flash) (hp : s'.flash.powered = true) :
    s'.st.reg = s.st.reg.cleared := by
  unfold Reg.cleared
  cases h with
  | same hn h => rw [h, if_pos (hn hr)]
  | cleared hn h =>
    rw [if_neg hn, h.reg]
    rfl
  | kept _ h =>
    rw [h.cut hc] at hp
    cases hp

/-- A call is permitted when `P` allows all the registries it passes. -/
theorem permits_of_stages {s : Sys} {op : Op} (h : SteadyInv cfg P s.store)
    (hg : GenOk cfg s.store.st.reg op) (hP : ∀ r ∈ stages cfg s op, P r) :
    Permits cfg (fun _ s => SteadyInv cfg P s) (fun _ _ => True)
        (fun u _ s => Allows P u s) s op := by
  cases op with
  | boot => trivial
  | install info data =>
    intro _
    refine ⟨fun he _ => ⟨hg.1, ?_⟩, fun _ _ _ => trivial, fun t t' hp _ _ _ => ?_⟩
    · have := hP _ (List.mem_cons_of_mem _ List.mem_cons_self)
      rw [Reg.evicted, if_pos he.occupied] at this
      exact this
    · rw [hp.filled.st, hp.freed.reg]
      exact ⟨hg.2, hP _ (by simp [stages])⟩
  | beginStaging slot =>
    intro he _
    have := hP (s.store.st.reg.evicted slot) (by simp [stages])
    rw [Reg.evicted, if_pos he.occupied] at this
    exact ⟨hg, this⟩
  | markStaged slot info => exact fun _ _ _ => ⟨hg, hP _ (by simp [stages])⟩
  | activate slot => exact fun _ _ => ⟨hg, hP _ (by simp [stages])⟩
  | rollback => exact fun prev hp _ => ⟨hg, hP _ (by simp [stages, hp])⟩
  | clearStaged =>
    intro hn _
    have := hP s.store.st.reg.cleared (by simp [stages])
    rw [Reg.cleared, if_neg hn] at this
    exact ⟨hg, this⟩
  | otaBegin name total =>
    refine ⟨fun hn _ => ⟨hg.1, ?_⟩, fun t hsup _ he hp => ?_, fun _ _ _ _ _ _ => trivial⟩
    · have := hP s.store.st.reg.cleared (by simp [stages])
      rw [Reg.cleared, if_neg hn] at this
      exact this
    · have hreg := hsup.reg h.ready h.cut hp
      have := hP (s.store.st.reg.cleared.evicted (stagingSlot cfg s.store.st.reg))
          (by simp [stages])
      rw [Reg.evicted, ← hreg, if_pos he.occupied] at this
      exact ⟨hreg ▸ hg.2, this⟩
  | otaWriteChunk data => trivial
  | otaFinish =>
    intro t hf _ _ _ _ _
    rw [hf.filled.st]
    exact ⟨hg, hP _ (by simp [stages])⟩
  | otaActivate => exact fun slot hs _ _ => ⟨hg, hP _ (by simp [stages, hs])⟩
  | otaRollback => exact fun prev hp _ => ⟨hg, hP _ (by simp [stages, hp])⟩

-- ---------------------------------------------------------------------------
-- Runs
-- ---------------------------------------------------------------------------

/-- A step whose only faults are power losses and whose commits do not wrap the
generation. -/
structure Tame (cfg : Config) (s : Sys) (x : Env × Op) : Prop where
  cut : ∀ t, Fault.error t ∉ x.1.plan
  gen : x.2 ≠ .boot → s.store.flash.powered = true → GenOk cfg s.store.st.reg x.2

/-- The generations of the copies differ, and a store with power is steady. -/
structure Orderly (cfg : Config) (s : Sys) : Prop where
  gens : TornRejected cfg s.store.flash.trace → GensDiffer cfg s.store.flash.mem
  live : s.store.flash.powered = true →
    Holds cfg (fun _ t => SteadyInv cfg (· = t.st.reg) t) s

theorem Steady.to_settled (h : Steady cfg P s) (hp : s.flash.powered = true) :
    Steady cfg (· = s.st.reg) s := ⟨h.sync, h.settled hp, h.settled⟩

theorem SteadyInv.to_settled (h : SteadyInv cfg P s) (hp : s.flash.powered = true) :
    SteadyInv cfg (· = s.st.reg) s :=
  ⟨h.ready, h.fits, h.cut, fun ht => (h.steady ht).to_settled hp⟩

theorem Holds.orderly {s : Sys} (h : Holds cfg (fun _ t => SteadyInv cfg P t) s) :
    Orderly cfg s where
  gens ht := (h.store.steady ht).sync.gensDiffer
  live hp := ⟨h.store.to_settled hp, h.ota⟩

/-- A store that has just come up is steady. -/
theorem Booted.steady {s s' : Store} (hb : Booted cfg s s') (hc : Flash.CutOnly s.flash)
    (hg : TornRejected cfg s.flash.trace → GensDiffer cfg s.flash.mem)
    (hp : s'.flash.powered = true) : SteadyInv cfg (· = s'.st.reg) s' := by
  refine ⟨hb.ready, hb.header.fits, hc.later hb.later, fun ht => ?_⟩
  have hgens := hg (ht.earlier hb.later.trace)
  have hadopt := hb.adopted hc hp
  rw [← hb.mem] at hgens hadopt
  have hguard : Guarded cfg (· = s'.st.reg) s' := by
    cases ha : adopt Reg.seqNo (copies cfg s') with
    | none => exact Guards.of_empty (adopt_none ha) rfl
    | some y =>
      obtain ⟨c, r⟩ := y
      have hr : s'.st.reg = r := by rw [hadopt.reg, ha]; rfl
      rw [Guarded, hr]
      exact Guards.of_adopt ha (fun b hb => hgens.ne (adopt_some ha).1 hb) rfl
  exact ⟨hadopt.sync hgens, hguard, fun _ => hguard⟩

theorem Orderly.boot {s : Sys} {env : Env} (hv : layoutValid cfg) (h : Orderly cfg s)
    (hc : ∀ t, Fault.error t ∉ env.plan) : Orderly cfg (sysStep cfg s (env, .boot)) := by
  have hbooted : ∀ t, Booted cfg (s.restart env).store t →
      Orderly cfg { s.restart env with store := t } := by
    refine fun t hb => ⟨fun ht => ?_, fun hp => ⟨hb.steady hc h.gens hp, OtaOk.zero cfg⟩⟩
    show GensDiffer cfg t.flash.mem
    rw [hb.mem]
    exact h.gens (ht.earlier hb.later.trace)
  show Ends (exec cfg .boot) (s.restart env) (Orderly cfg)
  exact Ends.zoom (Ends.of_triple (storeInit_spec hv rfl) (fun _ t hb => hbooted t hb)
    fun _ t hb => hbooted t hb)

theorem SteadyInv.mono {Q : Reg → Prop} (h : SteadyInv cfg P s) (hq : ∀ r, P r → Q r) :
    SteadyInv cfg Q s :=
  ⟨h.ready, h.fits, h.cut, fun ht =>
    ⟨(h.steady ht).sync, (h.steady ht).allowed.mono hq, (h.steady ht).settled⟩⟩

theorem SteadyInv.enter {s : Sys} (h : SteadyInv cfg P s.store) {env : Env}
    (hc : ∀ t, Fault.error t ∉ env.plan) : SteadyInv cfg P (s.enter env).store :=
  ⟨h.ready, h.fits, hc, fun ht => (h.steady ht).of_same rfl rfl fun hp => hp⟩

theorem mem_stages (cfg : Config) (s : Sys) (op : Op) : s.store.st.reg ∈ stages cfg s op := by
  cases op <;> simp [stages]

/-- A step of a live system passes only the registries of its operation. -/
theorem Orderly.passes {s : Sys} {x : Env × Op} (hv : layoutValid cfg) (h : Orderly cfg s)
    (hx : Tame cfg s x) (hop : x.2 ≠ .boot) (hp : s.store.flash.powered = true) :
    Holds cfg (fun _ t => SteadyInv cfg (· ∈ stages cfg (s.enter x.1) x.2) t)
      (sysStep cfg s x) := by
  have hlive := h.live hp
  have hstart : SteadyInv cfg (· ∈ stages cfg (s.enter x.1) x.2) (s.enter x.1).store :=
    (hlive.store.mono fun r hr => hr ▸ mem_stages cfg (s.enter x.1) x.2).enter hx.cut
  refine sysStep_ends (I := Holds cfg fun _ t => SteadyInv cfg (· ∈ stages cfg (s.enter x.1) x.2) t)
    (fun hb => absurd hb hop) (fun _ _ => ?_) (fun hoff => ?_)
  · exact (steady_keeps hv _).exec hv ⟨hstart, hlive.ota⟩ hop
      (permits_of_stages hstart (hx.gen hop hp) fun _ hr => hr)
  · rw [hp] at hoff
    cases hoff

theorem orderly_step {s : Sys} {x : Env × Op} (hv : layoutValid cfg) (h : Orderly cfg s)
    (hx : Tame cfg s x) : Orderly cfg (sysStep cfg s x) := by
  obtain ⟨env, op⟩ := x
  by_cases hop : op = .boot
  · subst hop
    exact h.boot hv hx.cut
  · cases hp : s.store.flash.powered with
    | true => exact (h.passes hv hx hop hp).orderly
    | false =>
      have hsame : sysStep cfg s (env, op) = s := by
        unfold sysStep call
        dsimp only
        split
        · exact absurd rfl hop
        · rw [hp]
          rfl
      rw [hsame]
      exact h

theorem orderly_run {m : Mem} {l : List (Env × Op)} (hv : layoutValid cfg) (hm : GensDiffer cfg m)
    (hl : Along (sysStep cfg) (Tame cfg) (Sys.cold m) l) :
    Orderly cfg (run (sysStep cfg) (Sys.cold m) l) :=
  hl.invariant ⟨fun _ => hm, fun hp => by cases hp⟩ fun _ _ h hx => orderly_step hv h hx

-- ---------------------------------------------------------------------------
-- Power losses
-- ---------------------------------------------------------------------------

/-- An operation of the store itself. -/
def Op.ofStore : Op → Bool
  | .install .. | .beginStaging _ | .markStaged .. | .activate _ | .rollback | .clearStaged => true
  | _ => false

theorem Op.ofStore_ne_boot {op : Op} (h : op.ofStore = true) : op ≠ .boot := by
  rintro rfl
  cases h

/-- An operation that succeeds has passed all of its registries. -/
theorem stages_last {s : Sys} {op : Op} (hv : layoutValid cfg) (hf : s.store.st.reg.Fits cfg)
    (hop : op.ofStore = true) :
    Triple (exec cfg op) s
      (fun _ s' => (stages cfg s op).getLast? = some s'.store.st.reg) (fun _ _ => True) := by
  cases op with
  | install info data =>
    refine Triple.bind ((Sys.onStore_spec (storeInstall_spec hv hf info data)).mono (fun _ _ h => h)
      fun _ _ _ => trivial) ?_
    rintro _ s' ⟨⟨-, t, t', hp, t'', hc, hd, -⟩, -⟩
    refine Triple.pure' ?_
    rw [hd.st, hc.reg, hp.filled.st, hp.freed.reg]
    rfl
  | beginStaging slot =>
    refine (Sys.onStore_spec (storeBeginStaging_spec hv hf slot)).mono ?_ fun _ _ _ => trivial
    rintro _ s' ⟨hfr, -⟩
    rw [hfr.reg]
    rfl
  | markStaged slot info =>
    refine (Sys.onStore_spec (storeMarkStaged_spec hv hf slot info)).mono ?_ fun _ _ _ => trivial
    rintro _ s' ⟨⟨-, hc⟩, -⟩
    rw [hc.reg]
    rfl
  | activate slot =>
    refine (Sys.onStore_spec (storeActivate_spec hv hf slot)).mono ?_ fun _ _ _ => trivial
    rintro _ s' ⟨⟨-, hc, -⟩, -⟩
    rw [hc.reg]
    rfl
  | rollback =>
    refine (Sys.onStore_spec (storeRollback_spec hv hf)).mono ?_ fun _ _ _ => trivial
    rintro _ s' ⟨⟨prev, hp, hc, -⟩, -⟩
    rw [hc.reg, stages, hp]
    rfl
  | clearStaged =>
    refine (Sys.onStore_spec (storeClearStaged_spec hv hf)).mono ?_ fun _ _ _ => trivial
    rintro _ s' ⟨⟨hn, hs⟩ | ⟨hn, hc⟩, -⟩
    · rw [hs, stages, Reg.cleared, if_pos hn]
      rfl
    · rw [hc.reg, stages, Reg.cleared, if_neg hn]
      rfl
  | _ => cases hop

/-- The next boot adopts a registry that `P` allows. -/
theorem Steady.adopts {s : Sys} {env : Env} (hv : layoutValid cfg) (h : Steady cfg P s.store)
    (he : env.plan = []) : P (sysStep cfg s (env, .boot)).store.st.reg := by
  have hcut : Flash.CutOnly (s.restart env).store.flash := by
    intro t ht
    have ht : Fault.error t ∈ env.plan := ht
    rw [he] at ht
    cases ht
  have hbooted : ∀ t, Booted cfg (s.restart env).store t → P t.st.reg := by
    intro t hb
    have hadopt : Adopted cfg s.store.flash.mem t.st := hb.adopted hcut (hb.later.calm he)
    exact hadopt.guarded h.sync h.allowed
  have hspec := Sys.onStore_spec (s := s.restart env) (storeInit_spec hv rfl)
  show Ends (exec cfg .boot) (s.restart env) fun s' => P s'.store.st.reg
  exact Ends.of_triple hspec (fun _ s' hs => hbooted _ hs.1) fun _ s' hs => hbooted _ hs.1

/-- In every run on a flash whose copies differ in generation, with power losses
anywhere: wherever an operation of the store is cut, the next boot adopts the registry
from before it, the one after it, or, when it had to evict first, the one between the
two commits. The copy that holds the registry of the store is intact, whatever was
being written, and the generations of the copies differ. -/
theorem commit_atomic {m : Mem} {l : List (Env × Op)} {x : Env × Op} {env : Env}
    (hv : layoutValid cfg) (hm : GensDiffer cfg m)
    (hl : Along (sysStep cfg) (Tame cfg) (Sys.cold m) (l ++ [x])) (hop : x.2.ofStore = true)
    (hp : (run (sysStep cfg) (Sys.cold m) l).store.flash.powered = true) (he : env.plan = [])
    (ht : TornRejected cfg (run (sysStep cfg) (Sys.cold m) (l ++ [x])).store.flash.trace) :
    let s := run (sysStep cfg) (Sys.cold m) l
    let s' := sysStep cfg s x
    (sysStep cfg s' (env, .boot)).store.st.reg ∈ stages cfg s x.2 ∧
    ((call cfg s x).1 = .ok () → (stages cfg s x.2).getLast? = some s'.store.st.reg) ∧
    (s'.store.st.kept = true →
      copyReg cfg s'.store.flash.mem s'.store.st.newestCopy = some s'.store.st.reg) ∧
    GensDiffer cfg s'.store.flash.mem := by
  dsimp only
  have hstep : run (sysStep cfg) (Sys.cold m) (l ++ [x]) =
      sysStep cfg (run (sysStep cfg) (Sys.cold m) l) x := by
    rw [run_append]
    rfl
  rw [hstep] at ht
  have hlive := orderly_run hv hm hl.left
  have hx := hl.last
  generalize run (sysStep cfg) (Sys.cold m) l = s at hp ht hlive hx
  have hboot := Op.ofStore_ne_boot hop
  have hpass := (hlive.passes hv hx hboot hp).store.steady ht
  have hstages : stages cfg (s.enter x.1) x.2 = stages cfg s x.2 := by
    obtain ⟨env, op⟩ := x
    cases op <;> rfl
  rw [hstages] at hpass
  refine ⟨hpass.adopts hv he, fun hok => ?_, fun hk => ?_, hpass.sync.gensDiffer⟩
  · have hcall : call cfg s x = (exec cfg x.2).run (s.enter x.1) := by
      obtain ⟨env, op⟩ := x
      unfold call
      dsimp only
      split
      · exact absurd rfl hboot
      · rw [if_pos hp]
    have hlast := stages_last hv (s := s.enter x.1) (hlive.live hp).store.fits hop
    have hrun : (exec cfg x.2).run (s.enter x.1) = (.ok (), sysStep cfg s x) := by
      rw [← hcall, sysStep, ← hok]
    rw [← hstages]
    exact hlast.ok hrun
  · have hother := hpass.sync.tracks.other
    rw [St.target_other_of_kept hk, if_pos hk] at hother
    exact hother

theorem Room.evicted {r : Reg} (h : r.seqNo + 2 < 2 ^ 32) (slot : Nat) :
    r.Bounded ∧ (r.evicted slot).Bounded := by
  have hb : r.Bounded := by
    unfold Reg.Bounded
    omega
  refine ⟨hb, ?_⟩
  unfold Reg.evicted
  split
  · have hn : (r.next (Reg.evict slot)).seqNo = r.seqNo + 1 := hb.seqNo_succ
    unfold Reg.Bounded
    omega
  · exact hb

theorem gensDiffer_erased (cfg : Config) : GensDiffer cfg erasedMem := fun a _ ha _ =>
  absurd ((copyReg_erased cfg .zero).symm.trans ha) (by simp)

/-- A third one takes the slot of the first; power is lost after the erase of its
second commit. -/
def cutInstall : Env × Op :=
  ({ quiet with plan := List.replicate 9 .none ++ [.powerLoss ⟨1, false⟩] },
    .install (namedModel 67) [3])

/-- The states it passes. -/
def afterBoot : Sys := sysStep smallDevice (Sys.cold erasedMem) (quiet, .boot)

def afterOne : Sys := sysStep smallDevice afterBoot (quiet, .install (namedModel 65) [1])

def afterTwo : Sys := sysStep smallDevice afterOne (quiet, .install (namedModel 66) [2])

def afterCut : Sys := sysStep smallDevice afterTwo cutInstall

theorem cutInstall_ends :
    afterBoot.store.st.reg.seqNo + 2 < 2 ^ 32 ∧ afterOne.store.st.reg.seqNo + 2 < 2 ^ 32 ∧
    afterTwo.store.st.reg.seqNo + 2 < 2 ^ 32 ∧ afterTwo.store.flash.powered = true ∧
    afterCut.store.flash.trace.all (wholeImage smallDevice) = true ∧
    afterTwo.store.st.reg.occupiedMask = 3 ∧
    (∀ r ∈ (stages smallDevice afterTwo cutInstall.2).getLast?, r.occupiedMask = 3) ∧
    afterCut.store.st.reg.occupiedMask = 2 ∧ afterCut.store.flash.powered = false ∧
    blank afterCut.store.flash.mem (smallDevice.lay.registryOff afterCut.store.st.target)
      smallDevice.port.pageSize = true := by
  decide +kernel

theorem afterBoot_eq : sysStep smallDevice (Sys.cold erasedMem) (quiet, .boot) = afterBoot := rfl

theorem afterOne_eq :
    sysStep smallDevice afterBoot (quiet, .install (namedModel 65) [1]) = afterOne := rfl

theorem afterTwo_eq :
    sysStep smallDevice afterOne (quiet, .install (namedModel 66) [2]) = afterTwo := rfl

theorem afterCut_eq : sysStep smallDevice afterTwo cutInstall = afterCut := rfl

theorem run_twoModels : run (sysStep smallDevice) (Sys.cold erasedMem) twoModels = afterTwo := by
  unfold twoModels
  rw [run_cons, afterBoot_eq, run_cons, afterOne_eq, run_cons, afterTwo_eq, run_nil]

theorem cutInstall_tame :
    Along (sysStep smallDevice) (Tame smallDevice) (Sys.cold erasedMem)
        (twoModels ++ [cutInstall]) := by
  obtain ⟨h0, h1, h2, -⟩ := cutInstall_ends
  refine .cons ⟨by simp [quiet], fun h => absurd rfl h⟩ ?_
  rw [afterBoot_eq]
  refine .cons ⟨by simp [quiet], fun _ _ => Room.evicted h0 _⟩ ?_
  rw [afterOne_eq]
  refine .cons ⟨by simp [quiet], fun _ _ => Room.evicted h1 _⟩ ?_
  rw [afterTwo_eq]
  exact .cons ⟨by simp [cutInstall], fun _ _ => Room.evicted h2 _⟩ .nil

theorem cutInstall_rejected : TornRejected smallDevice (run (sysStep smallDevice)
    (Sys.cold erasedMem) (twoModels ++ [cutInstall])).store.flash.trace := by
  rw [run_append, run_twoModels, run_cons, afterCut_eq, run_nil]
  exact TornRejected.of_whole cutInstall_ends.2.2.2.2.1

theorem twoModels_powered :
    (run (sysStep smallDevice) (Sys.cold erasedMem) twoModels).store.flash.powered = true := by
  rw [run_twoModels]
  exact cutInstall_ends.2.2.2.1

theorem commit_atomic_small :
    let s := run (sysStep smallDevice) (Sys.cold erasedMem) twoModels
    (sysStep smallDevice (sysStep smallDevice s cutInstall) (quiet, .boot)).store.st.reg ∈
      stages smallDevice s cutInstall.2 :=
  (commit_atomic smallDevice_valid (gensDiffer_erased _) cutInstall_tame rfl twoModels_powered rfl
    cutInstall_rejected).1

/-- The copy that the second commit erased is empty, so the boot adopts the first. -/
theorem cutInstall_adopts :
    (sysStep smallDevice afterCut (quiet, .boot)).store.st.reg.occupiedMask = 2 := by
  obtain ⟨-, -, -, -, -, -, -, hmask, hoff, hblank⟩ := cutInstall_ends
  have hlive := orderly_run smallDevice_valid (gensDiffer_erased _) cutInstall_tame.left
  have hpass := hlive.passes smallDevice_valid cutInstall_tame.last (by simp [cutInstall])
    twoModels_powered
  rw [run_twoModels, afterCut_eq] at hpass
  have hrejected := cutInstall_rejected
  rw [run_append, run_twoModels, run_cons, afterCut_eq, run_nil] at hrejected
  have hsync := (hpass.store.steady hrejected).sync
  have hsteady : Steady smallDevice (·.occupiedMask = 2) afterCut.store := by
    refine ⟨hsync, Guards.of_tracks hsync.tracks hmask fun b hb _ => ?_, fun hp => ?_⟩
    · exact absurd ((copyReg_blank hblank).symm.trans hb) (by simp)
    · rw [hoff] at hp
      cases hp
  exact hsteady.adopts smallDevice_valid rfl

/-- The registry between the two commits of an installation is neither the one
from before it nor the one after. -/
theorem install_commits_twice : ¬∀ (cfg : Config) (m : Mem) (l : List (Env × Op)) (x : Env × Op)
    (env : Env), layoutValid cfg → GensDiffer cfg m →
    Along (sysStep cfg) (Tame cfg) (Sys.cold m) (l ++ [x]) → x.2.ofStore = true →
    (run (sysStep cfg) (Sys.cold m) l).store.flash.powered = true → env.plan = [] →
    TornRejected cfg (run (sysStep cfg) (Sys.cold m) (l ++ [x])).store.flash.trace →
    let s := run (sysStep cfg) (Sys.cold m) l
    let r := (sysStep cfg (sysStep cfg s x) (env, .boot)).store.st.reg
    r = s.store.st.reg ∨ some r = (stages cfg s x.2).getLast? := by
  intro h
  obtain ⟨-, -, -, -, -, hbefore, hafter, -⟩ := cutInstall_ends
  have hr := cutInstall_adopts
  have hcut := h smallDevice erasedMem twoModels cutInstall quiet smallDevice_valid
    (gensDiffer_erased _) cutInstall_tame rfl twoModels_powered rfl cutInstall_rejected
  dsimp only at hcut
  rw [run_twoModels, afterCut_eq] at hcut
  rcases hcut with he | he
  · rw [he, hbefore] at hr
    cases hr
  · rw [hafter _ he.symm] at hr
    cases hr

end SynapticOS
