import SynapticOS.Runs.Calm
import SynapticOS.Runs.Guarding

/-!
# The rollback pivot

An activation remembers the slot it takes over from. The pivot outlives reboots and
OTA sessions that stay away from its slot; a rollback then makes it active again, and
a second one undoes the first. A session that was opened on the slot before it became
active stages its record over the pivot's.
-/

namespace SynapticOS

open Lib

variable {cfg : Config} {s s₁ : Sys} {t t' : Store} {r : Reg} {op : Op} {a b slot : Nat}
variable {rec info : ModelInfo} {data : List UInt8}

/-- Slot `b` has taken over from slot `a`, whose record is `rec`. -/
structure Pivot (a b : Nat) (rec : ModelInfo) (r : Reg) : Prop where
  active : r.activeSlot = b
  prev : r.prevActive = a
  ne : a ≠ b
  occupiedPrev : r.occupied a
  occupiedActive : r.occupied b
  unstaged : r.stagedSlot ≠ b
  record : r.record a = rec

namespace Pivot

theorem of_generation (h : Pivot a b rec r) (g : UInt32) :
    Pivot a b rec { r with generation := g } := { h with }

theorem clearStaged (h : Pivot a b rec r) (hs : r.stagedSlot ≠ a) (hn : b ≠ slotNone) :
    Pivot a b rec (Reg.clearStaged.apply r) where
  active := h.active
  prev := h.prev
  ne := h.ne
  occupiedPrev := Reg.occupied_clearStaged.mpr ⟨h.occupiedPrev, hs.symm⟩
  occupiedActive := Reg.occupied_clearStaged.mpr ⟨h.occupiedActive, h.unstaged.symm⟩
  unstaged := hn.symm
  record := h.record

theorem dropSlot_ne {v w : Nat} (hv : v ≠ w) (hn : w ≠ slotNone) : Reg.dropSlot slot v ≠ w := by
  unfold Reg.dropSlot
  split
  · exact hn.symm
  · exact hv

theorem evict (h : Pivot a b rec r) (ha : slot ≠ a) (hb : slot ≠ b) (hn : b ≠ slotNone) :
    Pivot a b rec ((Reg.evict slot).apply r) where
  active := h.active
  prev := by
    show Reg.dropSlot slot r.prevActive = a
    rw [Reg.dropSlot, h.prev, if_neg ha.symm]
  ne := h.ne
  occupiedPrev := Reg.occupied_evict.mpr ⟨h.occupiedPrev, ha.symm⟩
  occupiedActive := Reg.occupied_evict.mpr ⟨h.occupiedActive, hb.symm⟩
  unstaged := dropSlot_ne h.unstaged hn
  record := h.record

theorem markStaged (h : Pivot a b rec r) (hs : slot < 8) (ha : slot ≠ a) (hb : slot ≠ b)
    (info : ModelInfo) : Pivot a b rec ((Reg.markStaged slot info).apply r) where
  active := h.active
  prev := h.prev
  ne := h.ne
  occupiedPrev := (Reg.occupied_markStaged hs).mpr (.inl h.occupiedPrev)
  occupiedActive := (Reg.occupied_markStaged hs).mpr (.inl h.occupiedActive)
  unstaged := hb
  record := (Function.update_of_ne ha.symm _ _).trans h.record

/-- A rollback goes to the pivot. -/
theorem target (h : Pivot a b rec r) (hn : a ≠ slotNone) : rollbackTarget cfg r = some a := by
  unfold rollbackTarget
  rw [h.prev, h.active, if_pos ⟨hn, h.ne, h.occupiedPrev⟩]

/-- The new pivot is the slot the rollback leaves. -/
theorem rollback (h : Pivot a b rec r) (hn : b ≠ slotNone) :
    rollbackTarget cfg (r.next (Reg.rollback a)) = some b := by
  have hprev : (r.next (Reg.rollback a)).prevActive = b := h.active
  have hact : (r.next (Reg.rollback a)).activeSlot = a := rfl
  unfold rollbackTarget
  rw [hprev, hact, if_pos ⟨hn, h.ne.symm, h.occupiedActive⟩]

/-- The second rollback undoes the first. -/
theorem rollback_rollback (h : Pivot a b rec r) :
    (r.next (Reg.rollback a)).next (Reg.rollback b) =
      { r with generation := r.generation + 1 + 1 } := by
  obtain ⟨g, act, prev, st, mask, rc⟩ := r
  obtain ⟨rfl, rfl, -, -, -, -, -⟩ := h
  rfl

end Pivot

-- ---------------------------------------------------------------------------
-- The operations that set the pivot
-- ---------------------------------------------------------------------------

/-- The operations that activate another slot. -/
def Op.takesOver : Op → Bool
  | .activate _ | .install .. => true
  | _ => false

theorem storeActivate_pivots (hv : layoutValid cfg) (h : GuardInv cfg (fun _ => True) t)
    (hr : Room 2 t) (ho : t.st.reg.occupied t.st.reg.activeSlot) (slot : Nat) :
    Triple (storeActivate cfg slot) t (fun _ t' => ∃ b, b ≠ slotNone ∧
      GuardInv cfg (Pivot t.st.reg.activeSlot b (t.st.reg.record t.st.reg.activeSlot)) t')
      (fun _ _ => True) := by
  refine (storeActivate_spec hv h.fits slot).mono ?_ (fun _ _ _ => trivial)
  rintro _ t' ⟨⟨hocc, hne⟩, hc, -⟩
  have hs := h.fits.mask slot hocc
  have hn := hv.slot_ne_none hs
  refine ⟨slot, hn, h.commit hv (Reg.activate_fits h.fits hs)
    ⟨hr.bounded (by decide), fun _ => ⟨rfl, rfl, hne.symm, ho, hocc, ?_, rfl⟩⟩ hc⟩
  show Reg.dropSlot slot t.st.reg.stagedSlot ≠ slot
  unfold Reg.dropSlot
  split
  next => exact hn.symm
  next hst => exact hst

theorem storeInstall_pivots (hv : layoutValid cfg) (h : GuardInv cfg (fun _ => True) t)
    (hr : Room 2 t) (ho : t.st.reg.occupied t.st.reg.activeSlot) (info : ModelInfo)
    (data : List UInt8) :
    Triple (storeInstall cfg info data) t (fun _ t' => ∃ b, b ≠ slotNone ∧
      GuardInv cfg (Pivot t.st.reg.activeSlot b (t.st.reg.record t.st.reg.activeSlot)) t')
      (fun _ _ => True) := by
  refine (storeInstall_spec hv h.fits info data).mono ?_ (fun _ _ _ => trivial)
  rintro _ t' ⟨-, t₁, t₂, hp, t₃, hc, hd, -⟩
  have hb := hr.bounded (by decide)
  have k := guard_keeps hv fun _ => True
  have h₁ : GuardInv cfg (fun _ => True) t₁ :=
    k.freed (o := Ota.zero) h (fun _ => ⟨hb, fun _ => trivial⟩) hp.freed
  have hs := hp.freed.lt
  have hne : stagingSlot cfg t.st.reg ≠ t.st.reg.activeSlot := fun he =>
    (stagingSlot_spec hv t.st.reg).2 (by rw [he]; exact ho) he
  have h₂ : GuardInv cfg (fun _ => True) t₂ :=
    (k.fill (o := Ota.zero) h₁ hs trivial hp.filled).1
  have hn := hv.slot_ne_none hs
  have hs8 := Nat.lt_of_lt_of_le hs hv.count_le
  have hreg : t₂.st.reg = t.st.reg.evicted (stagingSlot cfg t.st.reg) := by
    rw [hp.filled.st, hp.freed.reg]
  have hkeep : t₂.st.reg.activeSlot = t.st.reg.activeSlot ∧
      t₂.st.reg.record = t.st.reg.record ∧ t₂.st.reg.occupied t.st.reg.activeSlot := by
    rw [hreg, Reg.evicted]
    split
    · exact ⟨rfl, rfl, Reg.occupied_evict.mpr ⟨ho, hne.symm⟩⟩
    · exact ⟨rfl, rfl, ho⟩
  generalize stagingSlot cfg t.st.reg = slot at *
  obtain ⟨hact, hrec, hocc⟩ := hkeep
  have hgrant : Grants cfg (Pivot t.st.reg.activeSlot slot (t.st.reg.record t.st.reg.activeSlot))
      (Reg.install slot (installRecord cfg slot info data)) t₂ := by
    refine ⟨?_, fun _ => ⟨rfl, ?_, hne.symm, ?_, ?_, ?_, ?_⟩⟩
    · rw [hp.filled.st]
      exact hr.later (hp.freed.seqNo_le hb)
    · show (if t₂.st.reg.activeSlot = slot then _ else t₂.st.reg.activeSlot) = _
      rw [hact, if_neg hne.symm]
    · exact (@Reg.occupied_install _ _ _ (installRecord cfg slot info data) hs8).mpr (.inl hocc)
    · exact (@Reg.occupied_install _ _ _ (installRecord cfg slot info data) hs8).mpr (.inr rfl)
    · show Reg.dropSlot slot t₂.st.reg.stagedSlot ≠ slot
      unfold Reg.dropSlot
      split
      next => exact hn.symm
      next hst => exact hst
    · show Function.update t₂.st.reg.record slot _ _ = _
      rw [Function.update_of_ne hne.symm, hrec]
  refine ⟨slot, hn, (guard_keeps hv _).ram (o := Ota.zero) ?_ hd⟩
  exact h₂.commit hv (Reg.install_fits hv h₂.fits hs _) hgrant hc.toCommitted

-- ---------------------------------------------------------------------------
-- The steps that spare it
-- ---------------------------------------------------------------------------

/-- The slot is occupied in the registry in force, and in any that a boot might
adopt. -/
abbrev HeldSlot (cfg : Config) (slot : Nat) (s : Store) : Prop :=
  Guarded cfg (fun r => r.occupied slot) s

/-- A reboot, or a call of an OTA session that does not evict slot `a`. -/
def NoEviction (cfg : Config) (a : Nat) (s : Sys) (x : Env × Op) : Prop :=
  match x.2 with
  | .boot | .otaWriteChunk _ | .otaFinish => True
  | .otaBegin _ _ => HeldSlot cfg a (sysStep cfg s x).store
  | _ => False

/-- One that does not stage over slot `a` either. -/
structure Spares (cfg : Config) (a : Nat) (s : Sys) (x : Env × Op) : Prop where
  careful : Careful s x
  noEviction : NoEviction cfg a s x
  session : x.2 = .otaFinish → s.ota.state = .downloading → s.ota.received = s.ota.totalSize →
    s.ota.slot ≠ a

/-- The pivot is there, unless slot `a` was evicted. -/
def PivotOr (a b : Nat) (rec : ModelInfo) (r : Reg) : Prop := Pivot a b rec r ∨ ¬r.occupied a

namespace PivotOr

theorem clearStaged (h : PivotOr a b rec r) (hn : b ≠ slotNone) :
    PivotOr a b rec (Reg.clearStaged.apply r) := by
  by_cases hs : r.stagedSlot = a
  · exact .inr fun ho => (Reg.occupied_clearStaged.mp ho).2 hs.symm
  · rcases h with hp | hno
    · exact .inl (hp.clearStaged hs hn)
    · exact .inr fun ho => hno (Reg.occupied_clearStaged.mp ho).1

theorem evict (h : PivotOr a b rec r) (hact : slot ≠ r.activeSlot) (hn : b ≠ slotNone) :
    PivotOr a b rec ((Reg.evict slot).apply r) := by
  by_cases hs : slot = a
  · exact .inr fun ho => (Reg.occupied_evict.mp ho).2 hs.symm
  · rcases h with hp | hno
    · exact .inl (hp.evict hs (hp.active ▸ hact) hn)
    · exact .inr fun ho => hno (Reg.occupied_evict.mp ho).1

theorem of_generation (h : PivotOr a b rec r) (g : UInt32) :
    PivotOr a b rec { r with generation := g } := h.imp (·.of_generation g) id

end PivotOr

theorem GuardInv.mono {P Q : Reg → Prop} (h : GuardInv cfg P t) (hq : ∀ r, P r → Q r) :
    GuardInv cfg Q t :=
  ⟨h.ready, h.fits, fun ht => (h.guard ht).imp id fun hg => hg.mono hq⟩

/-- A begin may try to evict slot `a` and fail, so its steps keep only `PivotOr`. -/
theorem Guarding.spareBegin {env : Env} {name : List UInt8} {total : Nat} (hv : layoutValid cfg)
    (h : Guarding cfg (Pivot a b rec) s) (hn : b ≠ slotNone)
    (hx : Spares cfg a s (env, .otaBegin name total)) :
    Guarding cfg (Pivot a b rec) (sysStep cfg s (env, .otaBegin name total)) := by
  have hr : Room 2 s.store := hx.careful
  have hbd := hr.bounded (by decide)
  have hheld : HeldSlot cfg a (sysStep cfg s (env, .otaBegin name total)).store := hx.noEviction
  by_cases hp : s.store.flash.powered = true
  · have hlive := (h.live hp).enter env
    have hor : Holds cfg (fun _ t => GuardInv cfg (PivotOr a b rec) t) (s.enter env) :=
      ⟨hlive.store.mono fun _ => .inl, hlive.ota⟩
    have hgrant : Granted cfg (PivotOr a b rec) (s.enter env) (.otaBegin name total) := by
      refine ⟨fun _ => ⟨hbd, fun ht => ?_⟩, fun t hsup ht he => ⟨hr.later (hsup.seqNo_le hbd),
        fun htorn => ?_⟩, fun _ _ _ _ _ _ => trivial⟩
      · exact ((hor.store.guard ht).2.base.clearStaged hn).of_generation _
      · exact ((ht.guard htorn).2.base.evict he.active hn).of_generation _
    have hend : Holds cfg (fun _ t => GuardInv cfg (PivotOr a b rec) t)
        (sysStep cfg s (env, .otaBegin name total)) :=
      sysStep_ends (fun he => nomatch he)
        (fun he _ => (guard_keeps hv (PivotOr a b rec)).exec hv hor he hgrant)
        fun hoff => by rw [hp] at hoff; cases hoff
    refine Guarding.of_holds ⟨⟨hend.store.ready, hend.store.fits, fun ht => ?_⟩, hend.ota⟩
    obtain ⟨hs, hg⟩ := hend.store.guard ht
    refine ⟨hs, (hg.and hheld).mono fun r hq => ?_⟩
    exact hq.1.resolve_right fun hno => hno hq.2
  · exact sysStep_ends (I := Guarding cfg (Pivot a b rec)) (fun he => nomatch he)
      (fun _ hon => absurd hon hp) fun _ => h

theorem Spares.granted {x : Env × Op} (hv : layoutValid cfg)
    (h : Holds cfg (fun _ t => GuardInv cfg (Pivot a b rec) t) (s.enter x.1))
    (hx : Spares cfg a s x) (hb : x.2 ≠ .boot) (hbegin : ∀ name total, x.2 ≠ .otaBegin name total) :
    Granted cfg (Pivot a b rec) (s.enter x.1) x.2 := by
  obtain ⟨env, op⟩ := x
  obtain ⟨hcare, hspare, hses⟩ := hx
  cases op with
  | boot => exact absurd rfl hb
  | otaWriteChunk data => trivial
  | otaBegin name total => exact absurd rfl (hbegin name total)
  | otaFinish =>
    have hr : Room 2 s.store := hcare
    intro t hf _ hne ht _
    refine ⟨by rw [hf.filled.st]; exact hr.bounded (by decide), fun htorn => ?_⟩
    have hp := (ht.guard htorn).2.base
    have hs := (h.ota hf.state).slot_lt
    rw [← hf.filled.st, hp.active] at hne
    exact (hp.markStaged (Nat.lt_of_lt_of_le hs hv.count_le) (hses rfl hf.state hf.complete) hne
      _).of_generation _
  | _ => exact hspare.elim

theorem Guarding.spare {x : Env × Op} (hv : layoutValid cfg) (h : Guarding cfg (Pivot a b rec) s)
    (hn : b ≠ slotNone) (hx : Spares cfg a s x) : Guarding cfg (Pivot a b rec) (sysStep cfg s x) := by
  by_cases hbegin : ∃ name total, x.2 = .otaBegin name total
  · obtain ⟨env, op⟩ := x
    obtain ⟨name, total, rfl⟩ := hbegin
    exact h.spareBegin hv hn hx
  · refine h.step hv (fun hb => ?_) fun hb hp => ?_
    · have := hx.careful
      rw [Careful, hb] at this
      exact this
    · exact hx.granted hv ((h.live hp).enter x.1) hb fun name total he => hbegin ⟨name, total, he⟩

-- ---------------------------------------------------------------------------
-- Rolling back
-- ---------------------------------------------------------------------------

theorem call_powered {x : Env × Op} (hb : x.2 ≠ .boot) (h : (call cfg s x).1 = .ok ()) :
    s.store.flash.powered = true ∧ call cfg s x = (exec cfg x.2).run (s.enter x.1) := by
  obtain ⟨env, op⟩ := x
  by_cases hp : s.store.flash.powered = true
  · refine ⟨hp, ?_⟩
    cases op <;> first | exact absurd rfl hb | exact if_pos hp
  · have hoff : call cfg s (env, op) = (.error .eio, s) := by
      cases op <;> first | exact absurd rfl hb | exact if_neg hp
    rw [hoff] at h
    cases h

/-- What every boot after `s'` adopts remembers the active slot of `s` as its pivot. -/
def Pivoted (cfg : Config) (s s' : Sys) : Prop :=
  ∃ b, b ≠ slotNone ∧ Guarding cfg (Pivot s.store.st.reg.activeSlot b
    (s.store.st.reg.record s.store.st.reg.activeSlot)) s'

theorem call_eq {x : Env × Op} {v : Except Errno Unit} (h : (call cfg s x).1 = v) :
    call cfg s x = (v, sysStep cfg s x) := Prod.ext h rfl

/-- A rollback without a target fails. -/
theorem Up.rollback_none {env : Env} (hv : layoutValid cfg) (h : Up cfg r s) (he : env.Quiet)
    (ht : rollbackTarget cfg r = none) :
    (SynapticOS.call cfg s (env, .rollback)).1 ≠ .ok () := by
  intro hok
  obtain ⟨-, hrun⟩ := call_powered (x := (env, .rollback)) (by simp) hok
  rw [call_eq hok] at hrun
  obtain ⟨⟨prev, hprev, -⟩, -⟩ :=
    (Sys.onStore_spec (storeRollback_spec hv (h.calm he).fits)).ok hrun.symm
  have hreg : (s.enter env).store.st.reg = r := h.reg
  rw [hreg, ht] at hprev
  cases hprev

/-- The operation that takes over leaves the pivot on the flash. -/
theorem Guarding.takesOver {x : Env × Op} (hv : layoutValid cfg)
    (h : Guarding cfg (fun _ => True) s) (hop : x.2.takesOver = true) (hx : Careful s x)
    (ho : s.store.st.reg.occupied s.store.st.reg.activeSlot)
    (hok : call cfg s x = (.ok (), s₁)) : Pivoted cfg s s₁ := by
  obtain ⟨env, op⟩ := x
  have hb : op ≠ .boot := by
    rintro rfl
    cases hop
  obtain ⟨hp, hrun⟩ := call_powered (x := (env, op)) hb (by rw [hok])
  rw [hrun] at hok
  have hlive := (h.live hp).enter env
  have hpivots : ∀ {α : Type} {y : StoreM α},
      Triple y (s.enter env).store (fun _ t' => ∃ b, b ≠ slotNone ∧ GuardInv cfg
        (Pivot s.store.st.reg.activeSlot b (s.store.st.reg.record s.store.st.reg.activeSlot)) t')
        (fun _ _ => True) →
      Triple (Sys.onStore y) (s.enter env) (fun _ s' => Pivoted cfg s s') (fun _ _ => True) := by
    intro α y hy
    refine (Sys.onStore_spec hy).mono ?_ (fun _ _ _ => trivial)
    rintro _ s' ⟨⟨b, hn, hg⟩, hs⟩
    refine ⟨b, hn, Guarding.of_holds ⟨hg, ?_⟩⟩
    rw [hs]
    exact hlive.ota
  cases op with
  | activate slot =>
    have hr : Room 2 s.store := hx
    exact (hpivots (storeActivate_pivots hv hlive.store hr ho slot)).ok hok
  | install info data =>
    have hr : Room 2 s.store := hx
    have hinst : Triple (exec cfg (.install info data)) (s.enter env)
        (fun _ s' => Pivoted cfg s s') (fun _ _ => True) :=
      Triple.bind (hpivots (storeInstall_pivots hv hlive.store hr ho info data))
        fun _ _ h => Triple.pure' h
    exact hinst.ok hok
  | _ => cases hop

/-- After an operation that activates another slot, and reboots and sessions that spare
the old one, two rollbacks in a row make the old slot active again, with its record, and
then undo that, generation apart. -/
theorem rollback_undoes {m : Mem} {past mid : List (Env × Op)} {x : Env × Op} {env₁ env₂ : Env}
    (hv : layoutValid cfg) (hm : GensDiffer cfg m)
    (hpast : Along (sysStep cfg) Careful (Sys.cold m) (past ++ [x])) (hop : x.2.takesOver = true)
    (ha : (run (sysStep cfg) (Sys.cold m) past).store.st.reg.activeSlot = a) (hn : a ≠ slotNone)
    (ho : (run (sysStep cfg) (Sys.cold m) past).store.st.reg.occupied a)
    (hok : call cfg (run (sysStep cfg) (Sys.cold m) past) x = (.ok (), s₁))
    (hmid : Along (sysStep cfg) (Spares cfg a) s₁ mid)
    (hp : (run (sysStep cfg) s₁ mid).store.flash.powered = true)
    (ht : TornRejected cfg (run (sysStep cfg) s₁ mid).store.flash.trace)
    (h₁ : env₁.Quiet) (h₂ : env₂.Quiet) :
    let s := run (sysStep cfg) (Sys.cold m) past
    let s₂ := run (sysStep cfg) s₁ mid
    let s₃ := sysStep cfg s₂ (env₁, .rollback)
    let s₄ := sysStep cfg s₃ (env₂, .rollback)
    (call cfg s₂ (env₁, .rollback)).1 = .ok () ∧ s₃.store.st.reg.activeSlot = a ∧
      s₃.store.st.reg.record a = s.store.st.reg.record a ∧
      (call cfg s₃ (env₂, .rollback)).1 = .ok () ∧
      s₄.store.st.reg =
        { s₂.store.st.reg with generation := s₂.store.st.reg.generation + 1 + 1 } := by
  dsimp only
  have hguard := guarding_run hv hm hpast.left
  have hx := hpast.last
  generalize run (sysStep cfg) (Sys.cold m) past = s at *
  subst ha
  obtain ⟨b, hb, hg⟩ := hguard.takesOver hv hop hx ho hok
  have hend : Guarding cfg (Pivot s.store.st.reg.activeSlot b
      (s.store.st.reg.record s.store.st.reg.activeSlot)) (run (sysStep cfg) s₁ mid) :=
    hmid.invariant hg fun _ _ h hs => h.spare hv hb hs
  generalize run (sysStep cfg) s₁ mid = s₂ at *
  have hlive := (hend.live hp).store
  have hpivot := (hlive.guard ht).2.base
  have hup : Up cfg s₂.store.st.reg s₂ := ⟨hp, hlive.ready, rfl, hlive.fits⟩
  obtain ⟨hc₁, hup₁⟩ := hup.rollback hv h₁ (hpivot.target hn)
  obtain ⟨hc₂, hup₂⟩ := hup₁.rollback hv h₂ (hpivot.rollback hb)
  refine ⟨by rw [hc₁], by rw [hup₁.reg]; rfl, ?_, by rw [hc₂], ?_⟩
  · rw [hup₁.reg]
    exact hpivot.record
  · rw [hup₂.reg, hpivot.rollback_rollback]

theorem afterTwo_ends : afterOne.store.st.reg.activeSlot = 0 ∧ afterOne.store.st.reg.occupied 0 ∧
    (call smallDevice afterOne (quiet, .install (namedModel 66) [2])).1 = .ok () := by
  decide +kernel

theorem run_oneModel : run (sysStep smallDevice) (Sys.cold erasedMem)
    [(quiet, .boot), (quiet, .install (namedModel 65) [1])] = afterOne := by
  rw [run_cons, afterBoot_eq, run_cons, afterOne_eq, run_nil]

theorem afterTwo_call : call smallDevice (run (sysStep smallDevice) (Sys.cold erasedMem)
    [(quiet, .boot), (quiet, .install (namedModel 65) [1])])
      (quiet, .install (namedModel 66) [2]) = (.ok (), afterTwo) := by
  rw [run_oneModel, ← afterTwo_eq]
  exact call_eq afterTwo_ends.2.2

theorem twoModels_careful :
    Along (sysStep smallDevice) Careful (Sys.cold erasedMem) ([(quiet, .boot),
      (quiet, .install (namedModel 65) [1])] ++ [(quiet, .install (namedModel 66) [2])]) := by
  obtain ⟨h0, h1, -⟩ := cutInstall_ends
  refine .cons (by simp [Careful, quiet]) ?_
  rw [afterBoot_eq]
  refine .cons h0 ?_
  rw [afterOne_eq]
  exact .cons h1 .nil

theorem HeldSlot.of_all {t : Store} (hr : t.st.reg.occupied a)
    (h0 : ((copies cfg t .zero).all fun r => decide (r.occupied a)) = true)
    (h1 : ((copies cfg t .one).all fun r => decide (r.occupied a)) = true) : HeldSlot cfg a t where
  base := hr
  copies c x hx _ := by
    cases c with
    | zero =>
      rw [hx] at h0
      exact of_decide_eq_true h0
    | one =>
      rw [hx] at h1
      exact of_decide_eq_true h1

/-- Calls that are refused, although they would finish on or begin with slot 0, and a
reboot. -/
def strayCalls : List (Env × Op) :=
  [(quiet, .otaFinish), (quiet, .otaBegin [69] 1000), (quiet, .otaWriteChunk [1]), (quiet, .boot)]

def afterStray : Sys := sysStep smallDevice afterTwo (quiet, .otaFinish)

def afterRefused : Sys := sysStep smallDevice afterStray (quiet, .otaBegin [69] 1000)

def afterChunk : Sys := sysStep smallDevice afterRefused (quiet, .otaWriteChunk [1])

def afterReboot : Sys := sysStep smallDevice afterChunk (quiet, .boot)

theorem strayCalls_ends : afterTwo.ota.slot = 0 ∧ afterTwo.ota.state = .idle ∧
    afterTwo.store.st.reg.seqNo + 2 < 2 ^ 32 ∧ afterStray.store.st.reg.seqNo + 2 < 2 ^ 32 ∧
    afterRefused.store.st.reg.seqNo + 2 < 2 ^ 32 ∧
    stagingSlot smallDevice afterStray.store.st.reg = 0 ∧ afterRefused.store.st.reg.occupied 0 ∧
    ((copies smallDevice afterRefused.store .zero).all fun r => decide (r.occupied 0)) = true ∧
    ((copies smallDevice afterRefused.store .one).all fun r => decide (r.occupied 0)) = true ∧
    afterReboot.store.flash.powered = true ∧
    afterReboot.store.flash.trace.all (wholeImage smallDevice) = true := by
  decide +kernel

theorem afterStray_eq : sysStep smallDevice afterTwo (quiet, .otaFinish) = afterStray := rfl

theorem afterRefused_eq :
    sysStep smallDevice afterStray (quiet, .otaBegin [69] 1000) = afterRefused := rfl

theorem run_strayCalls : run (sysStep smallDevice) afterTwo strayCalls = afterReboot := rfl

theorem strayCalls_spare : Along (sysStep smallDevice) (Spares smallDevice 0) afterTwo strayCalls := by
  obtain ⟨-, hidle, h0, h1, h2, -, hocc, hzero, hone, -⟩ := strayCalls_ends
  refine .cons ⟨h0, trivial, fun _ hs => ?_⟩ ?_
  · rw [hidle] at hs
    cases hs
  rw [afterStray_eq]
  refine .cons ⟨h1, ?_, fun he => nomatch he⟩ ?_
  · rw [NoEviction, afterRefused_eq]
    exact HeldSlot.of_all hocc hzero hone
  rw [afterRefused_eq]
  exact .cons ⟨h2, trivial, fun he => nomatch he⟩
    (.cons ⟨by simp [Careful, quiet], trivial, fun he => nomatch he⟩ .nil)

theorem rollback_undoes_small :
    (sysStep smallDevice (run (sysStep smallDevice) afterTwo strayCalls)
      (quiet, .rollback)).store.st.reg.activeSlot = 0 := by
  have hact : (run (sysStep smallDevice) (Sys.cold erasedMem) [(quiet, .boot),
      (quiet, .install (namedModel 65) [1])]).store.st.reg.activeSlot = 0 ∧
      (run (sysStep smallDevice) (Sys.cold erasedMem) [(quiet, .boot),
        (quiet, .install (namedModel 65) [1])]).store.st.reg.occupied 0 := by
    rw [run_oneModel]
    exact ⟨afterTwo_ends.1, afterTwo_ends.2.1⟩
  obtain ⟨-, -, -, -, -, -, -, -, -, hp, ht⟩ := strayCalls_ends
  exact (rollback_undoes smallDevice_valid (gensDiffer_erased _) twoModels_careful rfl hact.1
    (by decide) hact.2 afterTwo_call strayCalls_spare (by rw [run_strayCalls]; exact hp)
    (by rw [run_strayCalls]; exact TornRejected.of_whole ht) quiet_quiet quiet_quiet).2.1

/-- A record is staged over the pivot, the pivot becomes active, and its image is dropped. -/
def droppedActive : List (Env × Op) :=
  [(quiet, .boot), (quiet, .markStaged 0 (namedModel 65)), (quiet, .activate 0),
    (quiet, .markStaged 1 (namedModel 66)), (quiet, .activate 1),
    (quiet, .markStaged 0 (namedModel 67)), (quiet, .rollback), (quiet, .clearStaged)]

theorem droppedActive_up : ∃ rc, Up smallDevice ⟨7, 0, 1, slotNone, 2, rc⟩
    (run (sysStep smallDevice) (Sys.cold erasedMem) droppedActive) := by
  have hv := smallDevice_valid
  have hq := quiet_quiet
  have h0 := (Up.boot_erased hv (show quiet.plan = [] from rfl)).1
  have h1 : Up smallDevice ⟨1, slotNone, slotNone, 0, 1, _⟩ _ :=
    (h0.markStaged 0 hv hq (by decide) (by decide) (namedModel 65)).1
  have h2 : Up smallDevice ⟨2, 0, slotNone, slotNone, 1, _⟩ _ :=
    (h1.activate 0 hv hq (by decide) (by decide)).1
  have h3 : Up smallDevice ⟨3, 0, slotNone, 1, 3, _⟩ _ :=
    (h2.markStaged 1 hv hq (by decide) (by decide) (namedModel 66)).1
  have h4 : Up smallDevice ⟨4, 1, 0, slotNone, 3, _⟩ _ :=
    (h3.activate 1 hv hq (by decide) (by decide)).1
  have h5 : Up smallDevice ⟨5, 1, 0, 0, 3, _⟩ _ :=
    (h4.markStaged 0 hv hq (by decide) (by decide) (namedModel 67)).1
  have h6 : Up smallDevice ⟨6, 0, 1, 0, 3, _⟩ _ := (h5.rollback hv hq (by decide)).2
  rw [droppedActive, run_cons, run_cons, run_cons, run_cons, run_cons, run_cons, run_cons,
    run_cons, run_nil]
  exact ⟨_, h6.clearStaged hv hq (by decide)⟩

theorem rollback_stuck : ¬∀ (cfg : Config) (m : Mem) (past mid : List (Env × Op)) (x : Env × Op)
    (s₁ : Sys) (a : Nat) (env₁ : Env), layoutValid cfg → GensDiffer cfg m →
    (∀ y ∈ past ++ x :: mid, y.1.Quiet) → x.2.takesOver = true →
    (run (sysStep cfg) (Sys.cold m) past).store.st.reg.activeSlot = a → a ≠ slotNone →
    call cfg (run (sysStep cfg) (Sys.cold m) past) x = (.ok (), s₁) →
    Along (sysStep cfg) (NoEviction cfg a) s₁ mid → env₁.Quiet →
    (call cfg (run (sysStep cfg) s₁ mid) (env₁, .rollback)).1 = .ok () := by
  intro hall
  have hv := smallDevice_valid
  obtain ⟨rc, hup⟩ := droppedActive_up
  have hquiet : ∀ y ∈ droppedActive ++ [(quiet, .activate 1)], y.1.Quiet := by
    simp only [droppedActive, List.cons_append, List.nil_append, List.forall_mem_cons,
      List.not_mem_nil, false_implies, implies_true, and_true]
    exact ⟨quiet_quiet, quiet_quiet, quiet_quiet, quiet_quiet, quiet_quiet, quiet_quiet,
      quiet_quiet, quiet_quiet, quiet_quiet⟩
  obtain ⟨hok, hup', -⟩ := hup.activate_call 1 hv quiet_quiet
    (show (2 : BitVec 8).getLsbD 1 = true by decide) (show 1 ≠ 0 by decide)
  have hr := hall smallDevice erasedMem droppedActive [] (quiet, .activate 1) _ 0 quiet hv
    (gensDiffer_erased _) hquiet rfl (by rw [hup.reg]) (by decide) hok .nil quiet_quiet
  rw [run_nil] at hr
  refine hup'.rollback_none hv quiet_quiet ?_ hr
  have hfree : ∀ i, i < 2 → (2 : BitVec 8).getLsbD i = true → i = 1 := by decide
  unfold rollbackTarget
  rw [if_neg (fun h => absurd h.2.2 (show ¬(2 : BitVec 8).getLsbD 0 = true by decide)),
    List.getLast?_eq_none_iff, List.filter_eq_nil_iff]
  intro i hi hp
  simp only [decide_eq_true_eq] at hp
  exact hp.2.1 (hfree i (List.mem_range.mp hi) hp.1)

end SynapticOS
