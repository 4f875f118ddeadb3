import Mathlib.Logic.Relation
import SynapticOS.Runs.Wear

/-!
# Flash isolation

Every call on a store with an accepted layout changes the flash by registry commits,
each inside the copy it overwrites, and by commands inside the one slot the call or
its session is for.
-/

namespace SynapticOS

open Lib Flash

variable {cfg : Config} {A : Nat → Prop} {s s' : Sys} {t t' : Store} {lo hi off len : Nat}

/-- Commands and bytes stay in `[lo, hi)`. -/
structure Stays (lo hi : Nat) (fl fl' : Flash) : Prop where
  within : Within lo hi fl fl'
  issued : Issued lo hi fl fl'

instance : IsPreorder Flash (Stays lo hi) where
  refl _ := ⟨Std.Refl.refl _, Std.Refl.refl _⟩
  trans _ _ _ h h' := ⟨IsTrans.trans _ _ _ h.1 h'.1, IsTrans.trans _ _ _ h.2 h'.2⟩

theorem Confined.stays {slot : Nat} {x : FlashM α} (hx : Confined cfg slot x) :
    Respects (Stays (cfg.lay.slotOff slot) (cfg.lay.slotOff slot + cfg.lay.slotSize)) x :=
  fun fl => ⟨hx _ (confines_within _ _ _) fl, hx _ (confines_issued _ _ _) fl⟩

-- ---------------------------------------------------------------------------
-- A commit
-- ---------------------------------------------------------------------------

/-- The region of a copy. -/
def StaysCopy (cfg : Config) (c : Copy) (t t' : Store) : Prop :=
  Stays (cfg.lay.registryOff c) (cfg.lay.registryOff c + cfg.lay.registrySize) t.flash t'.flash

instance : IsPreorder Store (StaysCopy cfg c) where
  refl t := Std.Refl.refl t.flash
  trans _ _ _ h h' := IsTrans.trans (r := Stays _ _) _ _ _ h h'

theorem staysCopy_onFlash {x : FlashM α} (hx : Respects (Stays (cfg.lay.registryOff c)
      (cfg.lay.registryOff c + cfg.lay.registrySize)) x) :
    Respects (StaysCopy cfg c) (Store.onFlash x) := Respects.zoom hx fun _ _ h => h

theorem stays_erase (p : Port) (h1 : lo ≤ off) (h2 : off + len ≤ hi) (h0 : 0 < len) :
    Respects (Stays lo hi) (Flash.erase p off len) := by
  intro fl
  have hissued : ∀ {fl' : Flash}, (∃ ops, fl'.trace = fl.trace ++ ops ∧
      ∀ op ∈ ops, ∃ n, op = .erase off len n) → Issued lo hi fl fl' := by
    rintro fl' ⟨ops, ht, hops⟩
    refine ⟨ops, ht, fun op hop => ?_⟩
    obtain ⟨n, rfl⟩ := hops op hop
    exact ⟨h1, show off < hi by omega, h2⟩
  have h := ((Flash.erase_spec p off len fl).and (erase_issues p off len fl)).and
    (Triple.of_respects (Flash.erase_later p off len) fl)
  unfold Triple at h
  split at h <;> rename_i hr <;> rw [hr]
  · obtain ⟨⟨⟨hm, -⟩, ht⟩, hl⟩ := h
    refine ⟨⟨?_, hl⟩, hissued ⟨_, ht, fun op hop => ⟨_, List.mem_singleton.mp hop⟩⟩⟩
    rw [hm]
    exact (Mem.sameOutside_put (Nat.le_refl _)).mono h1 (by rw [List.length_replicate]; exact h2)
  · obtain ⟨⟨⟨⟨done, hle, hm, -⟩, -⟩, ht⟩, hl⟩ := h
    refine ⟨⟨?_, hl⟩, hissued ht⟩
    rw [hm]
    exact (Mem.sameOutside_put (Nat.le_refl _)).mono h1 (by rw [List.length_replicate]; omega)

theorem stays_read (p : Port) (off len : Nat) : Respects (Stays lo hi) (Flash.read p off len) :=
  fun fl => ⟨within_read p off len fl, (read_untouched p off len fl).issued⟩

theorem stays_write (p : Port) {data : List UInt8} (h1 : lo ≤ off) (h2 : off + data.length ≤ hi) :
    Respects (Stays lo hi) (Flash.write p off data) :=
  fun fl => ⟨within_write p h1 h2 fl, issued_write p h1 h2 fl⟩

theorem copyCommit_stays (hv : layoutValid cfg) (c : Copy) (gen : UInt32) :
    Respects (StaysCopy cfg c) (copyCommit cfg c gen) := by
  have hpos := cfg.port.sector_pos.trans_le hv.sector_le_registry
  refine Respects.bind (Respects.attempt ?_) fun r => ?_
  · refine Respects.bind Respects.get fun t => ?_
    refine Respects.bind (staysCopy_onFlash (stays_erase _ (Nat.le_refl _) (Nat.le_refl _) hpos))
      fun _ => ?_
    refine Respects.bind (Respects.modify fun t => Std.Refl.refl (r := Stays _ _) t.flash) fun _ => ?_
    refine Respects.bind (staysCopy_onFlash (stays_write _ (Nat.le_refl _)
      (Nat.add_le_add_left ?_ _))) fun _ => ?_
    · rw [length_imageBuild]
      exact hv.image_fits
    · exact Respects.chunks (fun _ => True) (fun _ _ _ _ => Respects.bind
        (staysCopy_onFlash (stays_read _ _ _)) fun _ =>
          Respects.ite (Respects.pure' _) (Respects.throw _)) (fun _ _ _ => trivial) _ _ _ trivial
  · cases r with
    | error e =>
      exact Respects.bind (Respects.modify fun t => Std.Refl.refl (r := Stays _ _) t.flash)
        fun _ => Respects.throw _
    | ok u => exact Respects.modify fun t => Std.Refl.refl (r := Stays _ _) t.flash

theorem commit_stays (hv : layoutValid cfg) (t : Store) :
    Ends (commit cfg) t (StaysCopy cfg t.st.target t) :=
  Ends.gets_bind (Respects.ends (copyCommit_stays hv _ _) (Std.Refl.refl t))

-- ---------------------------------------------------------------------------
-- A call
-- ---------------------------------------------------------------------------

/-- A piece of what a call does to the flash: nothing, a registry commit, or
commands in a slot of `A`. -/
inductive Piece (cfg : Config) (A : Nat → Prop) (t t' : Store) : Prop
  | quiet (h : Untouched t.flash t'.flash)
  | commit (h : t' = ((commit cfg).run t).2) (hs : StaysCopy cfg t.st.target t t')
  | slot (i : Nat) (hi : i < cfg.lay.slotCount) (hA : A i)
      (hs : Stays (cfg.lay.slotOff i) (cfg.lay.slotOff i + cfg.lay.slotSize) t.flash t'.flash)

def Isolated (cfg : Config) (A : Nat → Prop) : Store → Store → Prop :=
  Relation.ReflTransGen (Piece cfg A)

instance : IsPreorder Store (Isolated cfg A) where
  refl _ := .refl
  trans _ _ _ := .trans

theorem isolated_effects (hv : layoutValid cfg) : Effects cfg A (Isolated cfg A) where
  commit t := .single (.commit rfl (commit_stays hv t))
  modifyReg _ _ := .single (.quiet ⟨rfl, rfl⟩)
  onModels _ _ := .single (.quiet ⟨rfl, rfl⟩)
  read hx t := .single (.quiet (hx t.flash))
  slot hs hA hx t := .single (.slot _ hs hA (hx.stays t.flash))

/-- The bytes outside the copies and the slots of `A` are as they were. -/
theorem Isolated.outside (h : Isolated cfg A t t') {a : Nat}
    (hcopy : ∀ c, a < cfg.lay.registryOff c ∨ cfg.lay.registryOff c + cfg.lay.registrySize ≤ a)
    (hslot : ∀ i, A i → a < cfg.lay.slotOff i ∨ cfg.lay.slotOff i + cfg.lay.slotSize ≤ a) :
    t'.flash.mem a = t.flash.mem a := by
  induction h with
  | refl => rfl
  | tail _ hp ih =>
    rw [← ih]
    cases hp with
    | quiet h => rw [h.1]
    | commit _ hs => exact hs.within.mem a (hcopy _)
    | slot i _ hA hs => exact hs.within.mem a (hslot i hA)

theorem Op.target_enter (op : Op) (env : Env) : op.target cfg (s.enter env) = op.target cfg s := by
  cases op <;> rfl

theorem isolated_step {x : Env × Op} (hv : layoutValid cfg) (hf : Fitting cfg s) :
    Isolated cfg (fun i => x.2.target cfg s = some i) s.store (sysStep cfg s x).store ∧
      ((x.2 ≠ .boot ∧ ∀ name total, x.2 ≠ .otaBegin name total) →
        (sysStep cfg s x).ota.slot = s.ota.slot) := by
  refine sysStep_ends (I := fun s' => Isolated cfg _ s.store s'.store ∧ (_ → s'.ota.slot = _))
    (fun hb => ?_) (fun hop _ => ?_) (fun _ => ⟨.refl, fun _ => rfl⟩)
  · have hcounts := storeInit_counts hv (t := (s.restart x.1).store) rfl
    have hboot : Ends (exec cfg .boot) (s.restart x.1) fun s' =>
        Untouched s.store.flash s'.store.flash :=
      hcounts.mono (J := fun t : Store => Untouched s.store.flash t.flash) fun t ht =>
        ⟨ht.untouched.1, ht.untouched.2⟩
    exact hboot.mono fun s' h => ⟨.single (.quiet h), fun hk => absurd hb hk.1⟩
  · have hexec := (isolated_effects (A := fun i => x.2.target cfg s = some i) hv).exec hv
      (s := s.enter x.1) hf.ota hop fun i h => (x.2.target_enter x.1).symm.trans h
    refine hexec.mono fun s' h => ⟨?_, fun hk => h.2 hk.2⟩
    exact (Relation.ReflTransGen.single (.quiet ⟨rfl, rfl⟩)).trans h.1

/-- No begin and no power cycle. -/
def KeepsSession (op : Op) : Prop := op ≠ .boot ∧ ∀ name total, op ≠ .otaBegin name total

theorem session_slot (hv : layoutValid cfg) (hf : Fitting cfg s) {l : List (Env × Op)}
    (hl : ∀ y ∈ l, KeepsSession y.2) : (run (sysStep cfg) s l).ota.slot = s.ota.slot := by
  induction l generalizing s with
  | nil => rfl
  | cons y l ih =>
    obtain ⟨hy, hl⟩ := List.forall_mem_cons.mp hl
    exact (ih (fitting_step hv hf) hl).trans ((isolated_step hv hf).2 hy)

theorem otaBegin_slot (hv : layoutValid cfg) {env : Env} {name : List UInt8} {total : Nat}
    (h : (call cfg s (env, .otaBegin name total)).1 = .ok ()) :
    (sysStep cfg s (env, .otaBegin name total)).ota.slot = stagingSlot cfg s.store.st.reg := by
  unfold sysStep
  by_cases hp : s.store.flash.powered = true
  · have hrun : call cfg s (env, .otaBegin name total) =
        (otaBegin cfg name total).run (s.enter env) := if_pos hp
    have hb := (isolated_effects (A := fun _ => True) hv).otaBegin (s := s.enter env) hv name total
      trivial
    rw [hrun] at h ⊢
    exact (hb.ok (Prod.ext h rfl)).2
  · have hrun : call cfg s (env, .otaBegin name total) = (.error .eio, s) := if_neg hp
    rw [hrun] at h
    cases h

/-- An accepted layout has aligned, disjoint regions in the window. On it, along every
run, each call's effect on the flash is made of registry commits, each inside the copy
it overwrites, and of commands inside the call's target, if it has one; the bytes
elsewhere stay. The writes and the end of a session have the target of its begin. -/
theorem flash_isolation (hv : layoutValid cfg) :
    (∀ r ∈ cfg.lay.regions, r.1 % cfg.port.sectorSize = 0 ∧ r.2 % cfg.port.sectorSize = 0 ∧
      r.1 + r.2 ≤ cfg.port.size) ∧
    cfg.lay.regions.Pairwise Apart ∧
    ∀ (m : Mem) (l : List (Env × Op)),
      let s := run (sysStep cfg) (Sys.cold m) l
      (∀ x : Env × Op, let t := s.store
        let t' := (sysStep cfg s x).store
        Isolated cfg (fun i => x.2.target cfg s = some i) t t' ∧
        ∀ a, (∀ c, a < cfg.lay.registryOff c ∨ cfg.lay.registryOff c + cfg.lay.registrySize ≤ a) →
          (∀ i, x.2.target cfg s = some i →
            a < cfg.lay.slotOff i ∨ cfg.lay.slotOff i + cfg.lay.slotSize ≤ a) →
          t'.flash.mem a = t.flash.mem a) ∧
      ∀ env name total, (call cfg s (env, .otaBegin name total)).1 = .ok () →
        ∀ l' : List (Env × Op), (∀ y ∈ l', KeepsSession y.2) →
          let s' := run (sysStep cfg) (sysStep cfg s (env, .otaBegin name total)) l'
          (∀ data, Op.target cfg s' (.otaWriteChunk data) =
            Op.target cfg s (.otaBegin name total)) ∧
          Op.target cfg s' .otaFinish = Op.target cfg s (.otaBegin name total) := by
  refine ⟨fun r hr => hv.region hr, hv.regions_apart, fun m l => ?_⟩
  have hf := fitting_run hv m l
  refine ⟨fun x => ?_, fun env name total hok l' hl' => ?_⟩
  · have h := (isolated_step (x := x) hv hf).1
    exact ⟨h, fun a hcopy hslot => h.outside hcopy hslot⟩
  · have hslot := (session_slot hv (fitting_step hv hf) hl').trans (otaBegin_slot hv hok)
    exact ⟨fun _ => congrArg some hslot, congrArg some hslot⟩

theorem flash_isolation_small :
    smallDevice.lay.regions.Pairwise Apart ∧
    ∀ m l env name total, let s := run (sysStep smallDevice) (Sys.cold m) l
      Isolated smallDevice (fun i => i = stagingSlot smallDevice s.store.st.reg) s.store
        (sysStep smallDevice s (env, .otaBegin name total)).store := by
  obtain ⟨-, hapart, hruns⟩ := flash_isolation smallDevice_valid
  refine ⟨hapart, fun m l env name total => ?_⟩
  have h := ((hruns m l).1 (env, .otaBegin name total)).1
  simpa [Op.target, eq_comm] using h

end SynapticOS
