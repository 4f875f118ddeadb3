import SynapticOS.Runs.Effects
import SynapticOS.Store.ScanLaws
import SynapticOS.Store.Wear

/-!
# Wear counters along a run

`syn_store_init` takes the count of a copy from its header. A copy that it cannot load
starts again at 0, whatever was erased before: `wear_counts_erases` is about the runs in
which every boot loads the copies that were erased.
-/

namespace SynapticOS

open Lib Flash

variable {cfg : Config} {c : Copy} {s s' : Sys} {sc : Scan}

def storeWear (st : St) (copy : UInt8) : UInt32 :=
  if st.ready ∧ copy < 2 then st.wear (if copy = 0 then .zero else .one) else 0

def copyIndex : Copy → UInt8
  | .zero => 0
  | .one => 1

theorem storeWear_copyIndex {st : St} (h : st.ready = true) (c : Copy) :
    storeWear st (copyIndex c) = st.wear c := by
  unfold storeWear
  cases c <;> simp [h, copyIndex]

theorem storeWear_le {st : St} {n : Nat} (h : st.wear c = UInt32.ofNat n) :
    (storeWear st (copyIndex c)).toNat ≤ n := by
  by_cases hr : st.ready = true
  · rw [storeWear_copyIndex hr, h]
    exact (UInt32.toNat_ofNat' ▸ Nat.mod_le _ _)
  · have : storeWear st (copyIndex c) = 0 := if_neg fun hc => hr hc.1
    rw [this]
    exact Nat.zero_le _

theorem toNat_ofNat_of_lt {n : Nat} (h : n < 2 ^ 32) : (UInt32.ofNat n).toNat = n := by
  rw [UInt32.toNat_ofNat']
  exact Nat.mod_eq_of_lt h

-- ---------------------------------------------------------------------------
-- Boots
-- ---------------------------------------------------------------------------

/-- What the two loads of the boot scan report, one after the other. -/
def bootHdr (cfg : Config) (fl : Flash) : Copy → Option StoreHdr :=
  let zero := (copyLoad cfg .zero).run ⟨fl, List.replicate storeBufSize 0⟩
  fun
  | .zero => zero.1.toOption.join
  | .one => ((copyLoad cfg .one).run zero.2).1.toOption.join

def ScanUntouched (sc sc' : Scan) : Prop := Untouched sc.flash sc'.flash

instance : IsPreorder Scan ScanUntouched where
  refl sc := Std.Refl.refl (r := Untouched) sc.flash
  trans _ _ _ h h' := IsTrans.trans (r := Untouched) _ _ _ h h'

theorem readImg_untouched (cfg : Config) (off len : Nat) :
    Respects ScanUntouched (readImg cfg off len) :=
  Respects.bind (Respects.zoom (read_untouched _ _ _) fun _ _ h => h) fun _ =>
    Respects.modify fun _ => ⟨rfl, rfl⟩

theorem copyLoad_untouched (cfg : Config) (c : Copy) :
    Respects ScanUntouched (copyLoad cfg c) := by
  refine Respects.bind (Respects.attempt (Respects.zoom (isBlank_untouched _ _ _)
    fun _ _ h => h)) fun b => ?_
  split
  · exact Respects.pure' _
  · exact Respects.pure' _
  refine Respects.bind (Respects.attempt (readImg_untouched _ _ _)) fun r => ?_
  split
  · exact Respects.pure' _
  refine Respects.bind (Respects.gets _) fun hdr => Respects.ite (Respects.pure' _) ?_
  refine Respects.bind (Respects.attempt (readImg_untouched _ _ _)) fun r => ?_
  split
  · exact Respects.pure' _
  exact Respects.ite (Respects.pure' _) <| Respects.bind (Respects.modify fun _ => ⟨rfl, rfl⟩)
    fun _ => Respects.bind (Respects.gets _) fun _ =>
      Respects.ite (Respects.pure' _) (Respects.pure' _)

theorem bootScan_untouched (cfg : Config) : Respects ScanUntouched (bootScan cfg) := by
  refine Respects.bind (copyLoad_untouched _ _) fun h0 =>
    Respects.bind (copyLoad_untouched _ _) fun h1 => ?_
  dsimp only
  split
  · exact Respects.pure' _
  · exact Respects.bind (copyLoad_untouched _ _) fun _ => Respects.bind (Respects.gets _)
      fun _ => Respects.pure' _

/-- The scan takes the counts from the headers it has loaded. -/
theorem bootScan_wear (hv : layoutValid cfg) (fl : Flash) : ∃ st sc',
    (bootScan cfg).run ⟨fl, List.replicate storeBufSize 0⟩ = (.ok st, sc') ∧
      (∀ c, st.wear c = (bootHdr cfg fl c).elim 0 StoreHdr.wear) ∧
      ∀ c h, bootHdr cfg fl c = some h → copyView cfg fl.mem c = some h := by
  obtain ⟨r0, sc₁, hrun0, hl0⟩ := copyLoad_load hv .zero ⟨fl, List.replicate storeBufSize 0⟩
  obtain ⟨r1, sc₂, hrun1, hl1⟩ := copyLoad_load hv .one sc₁
  have hzero : bootHdr cfg fl .zero = r0 := by
    simp only [bootHdr, hrun0]
    rfl
  have hone : bootHdr cfg fl .one = r1 := by
    simp only [bootHdr, hrun0, hrun1]
    rfl
  have hview : ∀ c h, bootHdr cfg fl c = some h → copyView cfg fl.mem c = some h := by
    have hl : Loads cfg ⟨fl, List.replicate storeBufSize 0⟩ r0 r1 sc₁ sc₂ := ⟨hl0, hl1⟩
    intro c h hh
    cases c with
    | zero => exact hl.copyView_of_hdr (hzero.symm.trans hh)
    | one => exact hl.copyView_of_hdr (hone.symm.trans hh)
  have hwear : ∀ c, ((match c with | .zero => r0 | .one => r1 : Option StoreHdr).elim 0
      StoreHdr.wear) = (bootHdr cfg fl c).elim 0 StoreHdr.wear := by
    intro c
    cases c with
    | zero => rw [hzero]
    | one => rw [hone]
  unfold bootScan
  rw [Act.run_bind_ok hrun0, Act.run_bind_ok hrun1]
  dsimp only
  split
  · exact ⟨_, _, rfl, hwear, hview⟩
  · rename_i newest h _
    obtain ⟨r2, sc₃, hrun2, -⟩ := copyLoad_load hv newest sc₂
    rw [Act.run_bind_ok hrun2, Act.run_bind, Act.run_gets]
    exact ⟨_, _, rfl, hwear, hview⟩

/-- A boot starts with the counts of the headers it has loaded, and with 0 for a copy it
has not. -/
structure Counts (cfg : Config) (t t' : Store) : Prop where
  untouched : Untouched t.flash t'.flash
  ready : t'.st.ready = true
  wear : ∀ c, t'.st.wear c = (bootHdr cfg t.flash c).elim 0 StoreHdr.wear
  view : ∀ c h, bootHdr cfg t.flash c = some h → copyView cfg t.flash.mem c = some h

theorem storeInit_counts (hv : layoutValid cfg) {t : Store} (hr : t.st.ready = false) :
    Ends (storeInit cfg) t (Counts cfg t) := by
  obtain ⟨st, sc', hrun, hwear, hview⟩ := bootScan_wear hv t.flash
  obtain ⟨hst, hfl⟩ := storeInit_scanned hv hr hrun
  have hu := bootScan_untouched cfg ⟨t.flash, List.replicate storeBufSize 0⟩
  rw [hrun] at hu
  unfold Ends
  generalize ((storeInit cfg).run t).2 = t' at hst hfl
  exact {
    untouched := hfl ▸ hu
    ready := by rw [hst]
    wear := fun c => by rw [hst, ← hwear]
    view := hview }

theorem Counts.wearOk {t t' : Store} (h : Counts cfg t t') (hr : Recorded cfg c t.flash)
    (hk : completedErases cfg c t.flash.trace = 0 ∨ (bootHdr cfg t.flash c).isSome = true) :
    WearOk cfg c t' := by
  obtain ⟨hm, ht⟩ := h.untouched
  have hnone : t'.flash.trace = t.flash.trace ++ [] := by rw [ht, List.append_nil]
  obtain ⟨hrec, hsame⟩ := hr.idle hnone (fun _ h => (List.not_mem_nil h).elim) (.inl (by rw [hm]))
  refine ⟨hrec, fun htorn => ?_⟩
  rw [h.wear, hsame]
  cases hb : bootHdr cfg t.flash c with
  | some x => exact hr.stored (ht ▸ htorn) x (h.view c x hb)
  | none =>
    have hzero := hr.erased
    rw [hk.resolve_right (by rw [hb]; decide)] at hzero
    rw [Nat.le_zero.mp hzero]
    rfl

/-- A boot finds the right count exactly where it loads the copy, or has nothing to
count. -/
theorem Counts.right_iff {t t' : Store} (h : Counts cfg t t') (hr : Recorded cfg c t.flash)
    (htorn : TornRejected cfg t.flash.trace) (hrep : reported cfg c t.flash.trace = true)
    (hlt : completedErases cfg c t.flash.trace < 2 ^ 32) :
    (storeWear t'.st (copyIndex c)).toNat = completedErases cfg c t'.flash.trace ↔
      completedErases cfg c t.flash.trace = 0 ∨ (bootHdr cfg t.flash c).isSome = true := by
  have hsame : imageWrites cfg c t.flash.trace = completedErases cfg c t.flash.trace :=
    Nat.le_antisymm hr.erased ((Nat.le_add_right _ _).trans (completedErases_le hrep))
  rw [storeWear_copyIndex h.ready, h.wear, h.untouched.2]
  cases hb : bootHdr cfg t.flash c with
  | some x =>
    refine iff_of_true ?_ (.inr rfl)
    show x.wear.toNat = _
    rw [hr.stored htorn x (h.view c x hb), hsame, toNat_ofNat_of_lt hlt]
  | none => exact ⟨fun he => .inl he.symm, fun hz => (hz.resolve_right (by decide)).symm⟩

-- ---------------------------------------------------------------------------
-- Runs
-- ---------------------------------------------------------------------------

/-- A boot loads the copy if it was ever erased. -/
def WearKept (cfg : Config) (c : Copy) (s : Sys) (x : Env × Op) : Prop :=
  x.2 = .boot → completedErases cfg c s.store.flash.trace = 0 ∨
    (bootHdr cfg (s.restart x.1).store.flash c).isSome = true

instance (cfg : Config) (c : Copy) (s : Sys) (x : Env × Op) : Decidable (WearKept cfg c s x) :=
  match h : x.2 with
  | .boot => decidable_of_iff (completedErases cfg c s.store.flash.trace = 0 ∨
      (bootHdr cfg (s.restart x.1).store.flash c).isSome = true)
      ⟨fun hk _ => hk, fun hk => hk h⟩
  | .install .. | .beginStaging .. | .markStaged .. | .activate .. | .rollback | .clearStaged
  | .otaBegin .. | .otaWriteChunk .. | .otaFinish | .otaActivate | .otaRollback =>
    .isTrue fun hb => by rw [h] at hb; cases hb

theorem wearOk_step {x : Env × Op} (hv : layoutValid cfg) (hf : Fitting cfg s)
    (h : WearOk cfg c s.store) (hk : WearKept cfg c s x) :
    s.store.flash.trace <+: (sysStep cfg s x).store.flash.trace ∧
      WearOk cfg c (sysStep cfg s x).store := by
  refine sysStep_ends (I := fun s' => s.store.flash.trace <+: s'.store.flash.trace ∧
    WearOk cfg c s'.store) (fun hb => ?_) (fun hop _ => ?_) (fun _ => ⟨List.prefix_rfl, h⟩)
  · have hcounts := storeInit_counts hv (t := (s.restart x.1).store) rfl
    exact hcounts.mono (J := fun t => s.store.flash.trace <+: t.flash.trace ∧ WearOk cfg c t)
      fun t ht => ⟨ht.untouched.2 ▸ List.prefix_rfl,
        ht.wearOk ⟨h.recorded.erased, h.recorded.stored⟩ (hk hb)⟩
  · refine ((wears_effects (c := c) hv).exec hv (s := s.enter x.1) hf.ota hop
      fun _ _ => trivial).mono fun s' hw => ?_
    exact ⟨hw.1.1, hw.1.2 ⟨⟨h.recorded.erased, h.recorded.stored⟩, h.counted⟩⟩

theorem copyView_blank (hv : layoutValid cfg) {m : Mem} (hm : Erased m 0 cfg.port.size) (c : Copy) :
    copyView cfg m c = none := by
  have hwin := hv.copy_in_window c
  have hpage := hv.page_le_registry
  exact copyView_none (copyReg_blank (blank_iff.mpr (hm.mono (Nat.zero_le _) (by omega))))

theorem wearOk_cold (hv : layoutValid cfg) {m : Mem} (hm : Erased m 0 cfg.port.size) (c : Copy) :
    WearOk cfg c (Sys.cold m).store where
  recorded := {
    erased := Nat.le_refl _
    stored := fun _ h hh => by
      rw [show (Sys.cold m).store.flash.mem = m from rfl, copyView_blank hv hm c] at hh
      cases hh }
  counted _ := rfl

/-- Along a run that keeps the count the trace grows, and the count is right at its end. -/
theorem wearOk_run {l : List (Env × Op)} (hv : layoutValid cfg) (hf : Fitting cfg s)
    (h : WearOk cfg c s.store) (hk : Along (sysStep cfg) (WearKept cfg c) s l) :
    s.store.flash.trace <+: (run (sysStep cfg) s l).store.flash.trace ∧
      WearOk cfg c (run (sysStep cfg) s l).store := by
  induction hk with
  | nil => exact ⟨List.prefix_rfl, h⟩
  | cons hc _ ih =>
    obtain ⟨hp, hw⟩ := wearOk_step hv hf h hc
    obtain ⟨hp', hw'⟩ := ih (fitting_step hv hf) hw
    exact ⟨hp.trans hp', hw'⟩

/-- From a blank flash, whatever fails and whenever power is lost: as long as every boot
loads the copy once it was erased, its wear counter is the number of its erases, and so
it never goes down. -/
theorem wear_counts_erases (hv : layoutValid cfg) {m : Mem} (hm : Erased m 0 cfg.port.size)
    {l : List (Env × Op)} (hk : Along (sysStep cfg) (WearKept cfg c) (Sys.cold m) l) :
    let s := run (sysStep cfg) (Sys.cold m) l
    let trace := s.store.flash.trace
    TornRejected cfg trace → reported cfg c trace = true → completedErases cfg c trace < 2 ^ 32 →
    s.store.st.ready = true →
      (storeWear s.store.st (copyIndex c)).toNat = completedErases cfg c trace ∧
      ∀ l₁ l₂, l = l₁ ++ l₂ → storeWear (run (sysStep cfg) (Sys.cold m) l₁).store.st (copyIndex c) ≤
        storeWear s.store.st (copyIndex c) := by
  dsimp only
  intro htorn hrep hlt hready
  have hcold := wearOk_cold hv hm c
  have hok : WearOk cfg c (run (sysStep cfg) (Sys.cold m) l).store :=
    (wearOk_run hv (fitting_run hv m []) hcold hk).2
  have hsame : imageWrites cfg c (run (sysStep cfg) (Sys.cold m) l).store.flash.trace =
      completedErases cfg c (run (sysStep cfg) (Sys.cold m) l).store.flash.trace :=
    Nat.le_antisymm hok.recorded.erased ((Nat.le_add_right _ _).trans (completedErases_le hrep))
  have hwear : (storeWear (run (sysStep cfg) (Sys.cold m) l).store.st (copyIndex c)).toNat =
      completedErases cfg c (run (sysStep cfg) (Sys.cold m) l).store.flash.trace := by
    rw [storeWear_copyIndex hready, hok.counted htorn, hsame, toNat_ofNat_of_lt hlt]
  refine ⟨hwear, ?_⟩
  rintro l₁ l₂ rfl
  have hok₁ : WearOk cfg c (run (sysStep cfg) (Sys.cold m) l₁).store :=
    (wearOk_run hv (fitting_run hv m []) hcold hk.left).2
  have hprefix := (wearOk_run hv (fitting_run hv m l₁) hok₁ hk.right).1
  rw [← run_append] at hprefix
  rw [UInt32.le_iff_toNat_le, hwear, ← hsame]
  refine (storeWear_le (hok₁.counted (htorn.earlier hprefix))).trans ?_
  obtain ⟨ops, hops⟩ := hprefix
  rw [← hops, imageWrites_append]
  exact Nat.le_add_right _ _

/-- One commit, and a power cycle that loads it again. -/
def stageAndReboot : List (Env × Op) :=
  [(quiet, .boot), (quiet, .markStaged 0 (namedModel 65)), (quiet, .boot)]

theorem stageAndReboot_ends :
    Along (sysStep smallDevice) (WearKept smallDevice .zero) (Sys.cold erasedMem) stageAndReboot ∧
    let s := run (sysStep smallDevice) (Sys.cold erasedMem) stageAndReboot
    s.store.flash.trace.all (wholeImage smallDevice) = true ∧
    reported smallDevice .zero s.store.flash.trace = true ∧
    completedErases smallDevice .zero s.store.flash.trace < 2 ^ 32 ∧
    s.store.st.ready = true := by
  decide +kernel

theorem wear_counts_erases_small :
    let s := run (sysStep smallDevice) (Sys.cold erasedMem) stageAndReboot
    (storeWear s.store.st 0).toNat = completedErases smallDevice .zero s.store.flash.trace := by
  obtain ⟨hk, hwhole, hrep, hlt, hready⟩ := stageAndReboot_ends
  exact (wear_counts_erases (m := erasedMem) smallDevice_valid (fun _ _ _ => rfl) hk
    (TornRejected.of_whole hwhole) hrep hlt hready).1

/-- Power is lost between the erase of the first commit and its program. -/
def cutImage : Env := { quiet with plan := [.none, .powerLoss ⟨0, false⟩] }

def tornCommit : List (Env × Op) :=
  [(quiet, .boot), (cutImage, .markStaged 0 (namedModel 65)), (quiet, .boot)]

/-- The commit after the reboot. -/
def nextCommit : Env × Op := (quiet, .markStaged 0 (namedModel 65))

theorem nextCommit_ends :
    let s := run (sysStep smallDevice) (Sys.cold erasedMem) tornCommit
    let s' := sysStep smallDevice s nextCommit
    (call smallDevice s nextCommit).1 = .ok () ∧ s'.store.st.newestCopy = .zero ∧
    s'.store.st.reg.generation = s.store.st.reg.generation + 1 ∧
    storeWear s'.store.st 0 = 1 ∧ completedErases smallDevice .zero s'.store.flash.trace = 2 := by
  decide +kernel

/-- The count of the erase whose image was torn is gone. -/
theorem torn_commit_forgets : ¬∀ (cfg : Config) (m : Mem) (l : List (Env × Op)) (x : Env × Op)
    (c : Copy), layoutValid cfg → Erased m 0 cfg.port.size →
    let s := run (sysStep cfg) (Sys.cold m) l
    let s' := sysStep cfg s x
    (call cfg s x).1 = .ok () → s'.store.st.newestCopy = c →
    s'.store.st.reg.generation = s.store.st.reg.generation + 1 →
    (storeWear s'.store.st (copyIndex c)).toNat =
      completedErases cfg c s'.store.flash.trace := by
  intro h
  obtain ⟨hok, hnewest, hgen, hwear, hcount⟩ := nextCommit_ends
  have he := h smallDevice erasedMem tornCommit nextCommit .zero smallDevice_valid
    (fun _ _ _ => rfl) hok hnewest hgen
  dsimp only [copyIndex] at he
  rw [hwear, hcount] at he
  cases he

end SynapticOS
