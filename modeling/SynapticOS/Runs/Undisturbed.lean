import SynapticOS.Runs.Calm

/-!
# What a failed operation leaves behind

An operation of the store works on the RAM registry and the NPU before its commit and
restores by hand afterwards. `Undisturbed` is when that restores everything.
-/

namespace SynapticOS

open Lib

variable {cfg : Config} {s s' : Sys} {t t' : Store} {cur slot : Nat}

-- ---------------------------------------------------------------------------
-- Giving the NPU back
-- ---------------------------------------------------------------------------

/-- The flash of `mem` after a commit to the copy `c`, whatever it wrote there. -/
def AfterCommit (cfg : Config) (c : Copy) (mem mem' : Mem) : Prop :=
  Mem.SameOutside (cfg.lay.registryOff c) (cfg.lay.registryOff c + cfg.lay.registrySize) mem mem'

/-- The NPU would take the outgoing model again after a commit that failed. -/
def NpuReturns (cfg : Config) (cur : Nat) (t : Store) : Prop :=
  ∀ hd e, outgoing cfg cur t = some hd → t.models.entry cfg.maxModels hd = some (hd - 1, e) →
    t.models.suspended hd = false → ∀ mem, AfterCommit cfg t.st.target t.flash.mem mem →
      Models.NpuTakes mem e t.models

/-- The payload of the outgoing model is out of reach of the commit. -/
def PayloadApart (cfg : Config) (cur : Nat) (t : Store) : Prop :=
  ∀ hd e off, outgoing cfg cur t = some hd →
    t.models.entry cfg.maxModels hd = some (hd - 1, e) → e.data = some (.window off) →
    off + e.dataSize ≤ cfg.lay.registryOff t.st.target ∨
      cfg.lay.registryOff t.st.target + cfg.lay.registrySize ≤ off

/-- The registry of the store and the table of the RAM registry are as before. -/
structure SameView (t t' : Store) : Prop where
  reg : t'.st.reg = t.st.reg
  slots : t'.models.slots = t.models.slots

theorem PayloadApart.read {mem mem' : Mem} {hd off : Nat} {e : ModelSlot}
    (h : PayloadApart cfg cur t)
    (ho : outgoing cfg cur t = some hd) (he : t.models.entry cfg.maxModels hd = some (hd - 1, e))
    (hd : e.data = some (.window off)) (h₁ : AfterCommit cfg t.st.target t.flash.mem mem)
    (h₂ : AfterCommit cfg t.st.target t.flash.mem mem') :
    mem'.read off e.dataSize = mem.read off e.dataSize := by
  have hap := h _ e off ho he hd
  have hs₁ := h₁.sameOn (a := off) (b := off + e.dataSize) (by omega)
  have hs₂ := h₂.sameOn (a := off) (b := off + e.dataSize) (by omega)
  rw [Mem.read_congr hs₁, Mem.read_congr hs₂]

/-- The RAM registry after a commit that failed and the return of the NPU. -/
theorem returned_slots {m₁ : Models}
    (hrel : Released cfg.maxModels (outgoing cfg cur t) t.models m₁)
    (hb : ¬NpuBusy cfg cur t) {mem : Mem} (hmem : AfterCommit cfg t.st.target t.flash.mem mem) :
    (NpuReturns cfg cur t →
      (reloaded cfg.maxModels mem (outgoing cfg cur t) m₁).slots = t.models.slots) ∧
    (PayloadApart cfg cur t →
      (reloaded cfg.maxModels mem (outgoing cfg cur t) m₁).slots = t.models.slots →
      NpuReturns cfg cur t) := by
  unfold NpuReturns
  cases ho : outgoing cfg cur t with
  | none =>
    rw [ho] at hrel
    have hm : m₁ = t.models := hrel
    exact ⟨fun _ => by rw [hm]; rfl, fun _ _ _ _ h => (nomatch h)⟩
  | some hd =>
    rw [ho] at hrel
    obtain ⟨e, he, hl, hrep⟩ := hrel
    have hidle : t.models.suspended hd = false := by
      by_contra hs
      exact hb ⟨hd, ho, by simpa using hs⟩
    obtain ⟨hslot, hlt, hhd⟩ := Models.entry_some he
    have he₁ : m₁.entry cfg.maxModels hd = some (hd - 1, { e with loaded := false }) := by
      have h := Models.entry_of_slot (m := m₁) (i := hd - 1) (s := { e with loaded := false })
        (by rw [hrep.slots, Function.update_self]) hlt
      rwa [← hhd] at h
    obtain ⟨htake, hrefuse⟩ := @Models.load_slots _ _ _ _ mem he₁ rfl
    have hsame : ∀ mem', AfterCommit cfg t.st.target t.flash.mem mem' → PayloadApart cfg cur t →
        Models.NpuTakes mem { e with loaded := false } m₁ → Models.NpuTakes mem' e t.models :=
      fun mem' hm' hap => NpuTakes.congr hrep.hal.symm hrep.app.symm rfl fun off hd' =>
        hap.read (e := e) ho he hd' hmem hm'
    constructor
    · intro hret
      have ht := hret hd e rfl he hidle mem hmem
      have ht₁ : Models.NpuTakes mem { e with loaded := false } m₁ :=
        NpuTakes.congr hrep.hal hrep.app rfl (fun _ _ => rfl) ht
      show ((Models.load cfg.maxModels mem hd).run m₁).2.slots = _
      have hback : { { e with loaded := false } with loaded := true } = e := by
        rw [← hl]
      rw [htake ht₁, hrep.slots, Function.update_idem, Function.update_eq_self_iff, hslot, hback]
    · intro hap hs hd' e' h h' _ mem' hm'
      cases h
      rw [he] at h'
      cases h'
      refine hsame mem' hm' hap ?_
      by_contra hn
      have hslots : (reloaded cfg.maxModels mem (some hd) m₁).slots = m₁.slots := hrefuse hn
      have hat := congrFun (hslots.symm.trans hs) (hd - 1)
      rw [hrep.slots, Function.update_self, hslot] at hat
      have hfl := congrArg ModelSlot.loaded (Option.some.inj hat)
      rw [hl] at hfl
      cases hfl

-- ---------------------------------------------------------------------------
-- The operations
-- ---------------------------------------------------------------------------

/-- The operations that restore by hand what they changed in RAM. -/
def Op.restores : Op → Bool
  | .beginStaging _ | .markStaged .. | .activate _ | .rollback | .clearStaged => true
  | _ => false

/-- Nothing that a failed commit would leave changed is at stake: an eviction finds no
model of its slot in the RAM registry, or refuses for its suspended job; an activation
and a rollback take the NPU from no model, or from one that it would take again. -/
def Undisturbed (cfg : Config) (t : Store) : Op → Prop
  | .beginStaging slot => t.st.ready = true → Evictable cfg slot t → ∀ hd,
    slotHandle cfg.maxModels (t.st.reg.record slot) t.models = some hd → t.models.suspended hd =
        true
  | .activate slot => t.st.ready = true → Keeps.CanActivate slot t →
    NpuReturns cfg t.st.reg.activeSlot t
  | .rollback => t.st.ready = true → rollbackTarget cfg t.st.reg ≠ none →
    NpuReturns cfg t.st.reg.activeSlot t
  | _ => True

theorem SameView.refl (t : Store) : SameView t t := ⟨rfl, rfl⟩

theorem storeBeginStaging_failed (hv : layoutValid cfg) (hf : t.st.reg.Fits cfg) (slot : Nat) :
    Triple (storeBeginStaging cfg slot) t (fun _ _ => True)
      (fun _ t' => SameView t t' ↔ Undisturbed cfg t (.beginStaging slot)) := by
  unfold storeBeginStaging
  refine Triple.gets_bind ?_
  refine Triple.ite (fun hg => Triple.throw ?_) (fun hg => ?_)
  · refine iff_of_true (SameView.refl t) fun hr he => absurd hg ?_
    have hlt := he.lt
    rw [not_or, not_not, not_le]
    exact ⟨hr, hlt⟩
  refine Triple.ite (fun ha => Triple.throw
      (iff_of_true (SameView.refl t) fun _ he => absurd ha he.active))
    (fun ha => ?_)
  refine Triple.ite (fun _ => Triple.pure' trivial) (fun ho => ?_)
  have he : Evictable cfg slot t := ⟨by omega, ha, not_not.mp ho⟩
  have hrun := ramUnregister_run cfg.maxModels (t.st.reg.record slot) t.models
  refine (evictLocked_spec hv hf slot).mono (fun _ _ _ => trivial) ?_
  unfold Unregisters Undisturbed
  rintro _ t' (⟨hu, hd⟩ | ⟨hu, hc⟩)
  · -- the occupant is busy
    rw [hu] at hrun
    cases hh : slotHandle cfg.maxModels (t.st.reg.record slot) t.models with
    | none => simp [hh] at hrun
    | some hd' =>
      simp only [hh] at hrun
      split at hrun
      next hs =>
        refine iff_of_true ⟨by rw [hd.st], ?_⟩ ?_
        · rw [(Prod.mk.inj hrun).2]
        · intro _ _ hd'' h
          rw [hh] at h
          cases h
          exact hs
      next => obtain ⟨_, h, -⟩ := hrun; cases h
  · -- the commit failed
    rw [hu] at hrun
    cases hh : slotHandle cfg.maxModels (t.st.reg.record slot) t.models with
    | none =>
      simp only [hh] at hrun
      refine iff_of_true ⟨hc.reg, by rw [(Prod.mk.inj hrun).2]⟩ fun _ _ _ h => ?_
      rw [hh] at h
      cases h
    | some hd' =>
      simp only [hh] at hrun
      split at hrun
      next => cases hrun
      next hs =>
        obtain ⟨m, h, hrep⟩ := hrun
        cases h
        obtain ⟨e, hent, -⟩ := slotHandle_some hh
        refine iff_of_false (fun hsame => ?_) fun hu => hs (hu ?_ he hd' hh)
        · have hat := congrFun hsame.slots (hd' - 1)
          rw [hrep.slots, Function.update_self, (Models.entry_some hent).1] at hat
          cases hat
        · by_contra hn
          exact hg (.inl hn)

/-- The ending of a move of the active slot that failed. -/
theorem switchActive_failed (hv : layoutValid cfg) (cur next : Nat) (u : RegUpdate)
    (hf : (u.apply t.st.reg).Fits cfg) :
    Triple (switchActive cfg cur next u) t (fun _ _ => True) (fun _ t' =>
      (NpuReturns cfg cur t → SameView t t') ∧
        (PayloadApart cfg cur t → SameView t t' → NpuReturns cfg cur t)) := by
  refine (switchActive_exact hv cur next u hf).mono (fun _ _ _ => trivial) ?_
  rintro _ t' (⟨⟨hd, ho, hs⟩, rfl⟩ | ⟨hb, hc, m, hrel, hm⟩)
  · refine ⟨fun _ => SameView.refl _, fun _ _ hd' e ho' _ hidle => ?_⟩
    rw [ho] at ho'
    cases ho'
    rw [hs] at hidle
    cases hidle
  · obtain ⟨h1, h2⟩ := returned_slots hrel hb hc.mem
    exact ⟨fun hr => ⟨hc.reg, by rw [hm]; exact h1 hr⟩,
      fun hap hsame => h2 hap (by rw [← hm]; exact hsame.slots)⟩

/-- The two ends of a failed call: the condition is enough, and it is needed where the
payload of the outgoing model is out of reach of the commit. -/
def FailsSafely (cfg : Config) (t : Store) (op : Op) (t' : Store) : Prop :=
  (Undisturbed cfg t op → SameView t t') ∧
    (PayloadApart cfg t.st.reg.activeSlot t → SameView t t' → Undisturbed cfg t op)

theorem FailsSafely.refl {op : Op} (h : Undisturbed cfg t op) : FailsSafely cfg t op t :=
  ⟨fun _ => SameView.refl t, fun _ _ => h⟩

theorem storeActivate_failed (hv : layoutValid cfg) (hf : t.st.reg.Fits cfg) (slot : Nat) :
    Triple (storeActivate cfg slot) t (fun _ _ => True)
      (fun _ t' => FailsSafely cfg t (.activate slot) t') := by
  unfold storeActivate
  refine Triple.gets_bind ?_
  refine Triple.ite (fun hg => Triple.throw (.refl fun hr hc => absurd hg ?_)) (fun hg => ?_)
  · have hlt := hf.mask slot hc.1
    rw [not_or, not_not, not_le]
    exact ⟨hr, hlt⟩
  refine Triple.ite (fun ho => Triple.throw (.refl fun _ hc => absurd hc.1 ho)) (fun ho => ?_)
  refine Triple.ite (fun ha => Triple.throw (.refl fun _ hc => absurd ha hc.2)) (fun ha => ?_)
  unfold activateLocked
  refine Triple.gets_bind ?_
  refine (switchActive_failed hv _ slot _ (Reg.activate_fits hf (by omega))).mono
    (fun _ _ h => h) ?_
  rintro _ t' ⟨h1, h2⟩
  have hr : t.st.ready = true := by
    by_contra hn
    exact hg (.inl hn)
  exact ⟨fun hu => h1 (hu hr ⟨not_not.mp ho, ha⟩), fun hap hs _ _ => h2 hap hs⟩

theorem storeRollback_failed (hv : layoutValid cfg) (hf : t.st.reg.Fits cfg) :
    Triple (storeRollback cfg) t (fun _ _ => True)
        (fun _ t' => FailsSafely cfg t .rollback t') := by
  unfold storeRollback rollbackLocked
  refine Triple.gets_bind ?_
  refine Triple.ite (fun hn => Triple.throw (.refl fun hr => absurd hr hn)) (fun hr => ?_)
  refine Triple.gets_bind ?_
  cases hp : rollbackTarget cfg t.st.reg with
  | none => exact Triple.throw (.refl fun _ hne => absurd hp hne)
  | some prev =>
    have hlt := (rollbackTarget_spec hf hp).1
    refine (switchActive_failed hv _ prev _ (Reg.rollback_fits hf hlt)).mono (fun _ _ h => h) ?_
    rintro _ t' ⟨h1, h2⟩
    exact ⟨fun hu => h1 (hu (not_not.mp hr) (by rw [hp]; simp)), fun hap hs _ _ => h2 hap hs⟩

theorem commit_failed (hv : layoutValid cfg) (hf : t.st.reg.Fits cfg) :
    (∀ slot info, Triple (storeMarkStaged cfg slot info) t (fun _ _ => True)
      (fun _ t' => SameView t t')) ∧
    Triple (storeClearStaged cfg) t (fun _ _ => True) (fun _ t' => SameView t t') := by
  refine ⟨fun slot info => (storeMarkStaged_spec hv hf slot info).mono (fun _ _ _ => trivial) ?_,
    (storeClearStaged_spec hv hf).mono (fun _ _ _ => trivial) ?_⟩
  · rintro _ t' (⟨-, rfl⟩ | ⟨-, hc⟩)
    · exact SameView.refl _
    · exact ⟨hc.reg, by rw [hc.models]⟩
  · rintro _ t' (⟨-, rfl⟩ | ⟨-, hc⟩)
    · exact SameView.refl _
    · exact ⟨hc.reg, by rw [hc.models]⟩

theorem Sys.enter_slots (env : Env) (s : Sys) :
    (s.enter env).store.models.slots = s.store.models.slots := rfl

/-- In every state of every run: an operation that fails leaves the registry, the RAM
registry and the flags of the NPU as they were, just when nothing was at stake. -/
theorem failed_call_undisturbed {op : Op} {env : Env} {e : Errno} (hv : layoutValid cfg) (m : Mem)
    (past : List (Env × Op)) (hop : op.restores = true)
    (hon : (run (sysStep cfg) (Sys.cold m) past).store.flash.powered = true)
    (hc : call cfg (run (sysStep cfg) (Sys.cold m) past) (env, op) = (.error e, s')) :
    FailsSafely cfg ((run (sysStep cfg) (Sys.cold m) past).enter env).store op s'.store := by
  have hfit := fitting_run hv m past
  generalize run (sysStep cfg) (Sys.cold m) past = s at hon hc hfit
  have hf : (s.enter env).store.st.reg.Fits cfg := hfit.store
  have hstore : ∀ {x : StoreM Unit} {E : Store → Prop}, exec cfg op = Sys.onStore x →
      Triple x (s.enter env).store (fun _ _ => True) (fun _ => E) → E s'.store := by
    intro x E hx hE
    have hcall : call cfg s (env, op) = (exec cfg op).run (s.enter env) := by
      cases op <;> first | exact if_pos hon | cases hop
    rw [hcall, hx] at hc
    exact ((Sys.onStore_spec hE).error hc).1
  have hall : Undisturbed cfg (s.enter env).store op → SameView (s.enter env).store s'.store →
      FailsSafely cfg (s.enter env).store op s'.store := fun hu hs => ⟨fun _ => hs, fun _ _ => hu⟩
  cases op with
  | beginStaging slot =>
    have h := hstore rfl (storeBeginStaging_failed hv hf slot)
    exact ⟨h.mpr, fun _ => h.mp⟩
  | markStaged slot info => exact hall trivial (hstore rfl ((commit_failed hv hf).1 slot info))
  | activate slot => exact hstore rfl (storeActivate_failed hv hf slot)
  | rollback => exact hstore rfl (storeRollback_failed hv hf)
  | clearStaged => exact hall trivial (hstore rfl (commit_failed hv hf).2)
  | _ => cases hop

-- ---------------------------------------------------------------------------
-- A commit that fails after the model is gone
-- ---------------------------------------------------------------------------

/-- The erase of the commit fails. -/
def failingErase : Env := { quiet with plan := [.error ⟨0, false⟩] }

def failedStaging : Except Errno Unit × Sys :=
  call smallDevice afterTwo (failingErase, .beginStaging 0)

theorem failedStaging_ends : afterTwo.store.flash.powered = true ∧ failedStaging.1 = .error .eio ∧
    (afterTwo.store.models.slots 0).isSome = true ∧
    (failedStaging.2.store.models.slots 0).isSome = false := by
  decide +kernel

theorem failedStaging_eq : call smallDevice (run (sysStep smallDevice) (Sys.cold erasedMem)
    twoModels) (failingErase, .beginStaging 0) = (.error .eio, failedStaging.2) := by
  rw [run_twoModels, ← failedStaging_ends.2.1]
  exact (Prod.mk.eta (p := failedStaging)).symm

theorem failed_call_undisturbed_small :
    FailsSafely smallDevice ((run (sysStep smallDevice) (Sys.cold erasedMem) twoModels).enter
      failingErase).store (.beginStaging 0) failedStaging.2.store :=
  failed_call_undisturbed smallDevice_valid erasedMem twoModels rfl twoModels_powered
      failedStaging_eq

theorem failed_staging_unregisters : ¬∀ (cfg : Config) (m : Mem) (past : List (Env × Op))
    (env : Env)
    (op : Op) (e : Errno) (s' : Sys), layoutValid cfg → op.restores = true →
    call cfg (run (sysStep cfg) (Sys.cold m) past) (env, op) = (.error e, s') →
    SameView ((run (sysStep cfg) (Sys.cold m) past).enter env).store s'.store := by
  intro h
  have hs := (h smallDevice erasedMem twoModels failingErase (.beginStaging 0) .eio failedStaging.2
    smallDevice_valid rfl failedStaging_eq).slots
  rw [run_twoModels, Sys.enter_slots] at hs
  obtain ⟨-, -, h1, h2⟩ := failedStaging_ends
  rw [hs, h1] at h2
  cases h2

end SynapticOS
