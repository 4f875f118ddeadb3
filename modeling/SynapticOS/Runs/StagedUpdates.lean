import SynapticOS.Runs.Undisturbed
import SynapticOS.Runs.Calm

/-!
# What becomes of a staged update

A staged update outlives the calls that the engine turns down by its own checks.
A begin that fails later has superseded it, and an activation that fails leaves
the engine in ERROR, where no later activation is let through, although the
registry still has the slot staged.
-/

namespace SynapticOS

open Lib

variable {cfg : Config} {s s' : Sys} {env : Env} {op : Op} {slot : Nat} {e : Errno}

/-- With no fault and no suspended job in the way, `syn_ota_activate` activates `slot`. -/
def Activatable (cfg : Config) (s : Sys) (slot : Nat) : Prop :=
  ∀ env : Env, env.Quiet → (call cfg s (env, .otaActivate)).1 = .ok () ∧
    (sysStep cfg s (env, .otaActivate)).store.st.reg.activeSlot = slot

/-- The registry has the update staged, and it can be activated. -/
def KeepsUpdate (cfg : Config) (s : Sys) (slot : Nat) : Prop :=
  s.store.st.reg.stagedSlot = slot ∧ Activatable cfg s slot

/-- What `syn_ota_begin` turns down by itself. -/
def BeginRefused (cfg : Config) (name : List UInt8) (totalSize : Nat) (s : Sys) : Prop :=
  (name.takeWhile (· ≠ 0) = [] ∨ totalSize ≤ synmHdrSize) ∨ ¬s.store.st.ready ∨
    cfg.lay.slotSize < totalSize ∨ s.cpu.dualCore = true ∧ ¬s.cpu.drainOk

/-- The calls that end before they have touched the store. -/
def Op.RefusedAtOnce (cfg : Config) (s : Sys) : Op → Prop
  | .otaBegin name totalSize => BeginRefused cfg name totalSize s
  | _ => False

/-- The calls a staged update is meant to survive. -/
def Op.sparesUpdate : Op → Bool
  | .otaBegin .. | .otaActivate => true
  | _ => false

-- ---------------------------------------------------------------------------
-- What can be activated
-- ---------------------------------------------------------------------------

/-- What the engine, the registry and the flash have to say for it. -/
structure CanActivate (s : Sys) (slot : Nat) : Prop where
  powered : s.store.flash.powered = true
  target : activateTarget s = some slot
  occupied : s.store.st.reg.occupied slot
  inactive : slot ≠ s.store.st.reg.activeSlot

theorem CanActivate.congr (h : CanActivate s slot) (hst : s'.store.st = s.store.st)
    (hp : s'.store.flash.powered = s.store.flash.powered) (ho : s'.ota = s.ota) :
    CanActivate s' slot where
  powered := hp.trans h.powered
  target := by
    have ht := h.target
    unfold activateTarget at ht ⊢
    rwa [hst, ho]
  occupied := hst ▸ h.occupied
  inactive := hst ▸ h.inactive

theorem otaActivate_calm (hv : layoutValid cfg) (h : Calm cfg s.store) (hc : CanActivate s slot) :
    Triple (otaActivate cfg) s (fun _ s' => s'.store.st.reg.activeSlot = slot)
      (fun _ _ => False) := by
  refine (otaCall_spec (E := fun _ _ => False) ?_).mono (fun _ _ h => h) ?_
  · unfold otaActivateLocked
    refine Triple.get_bind ?_
    rw [hc.target]
    refine Triple.bind (orFail_spec (Sys.onStore_spec
      (storeActivate_calm hv h hc.occupied hc.inactive)) |>.mono (fun _ _ h => h) ?_) ?_
    · rintro _ _ ⟨_, -, h, -⟩
      exact h
    rintro _ s₁ ⟨hcm, -⟩
    refine Triple.modify_bind ((cpu1Unpark_spec _).mono ?_ (fun _ _ h => h.elim))
    rintro _ s₂ ⟨hst, -⟩
    rw [hst]
    show s₁.store.st.reg.activeSlot = slot
    rw [hcm.reg]
    rfl
  · rintro _ _ (h | ⟨-, _, h, -⟩) <;> exact h

theorem Activatable.can (h : Activatable cfg s slot) (hv : layoutValid cfg)
    (hf : Fitting cfg s) : CanActivate s slot := by
  obtain ⟨hok, hact⟩ := h quiet quiet_quiet
  have he : Fitting cfg (s.enter quiet) := ⟨hf.store, hf.ota⟩
  unfold sysStep at hact
  by_cases hp : s.store.flash.powered = true
  · have hrun : call cfg s (quiet, .otaActivate) =
        (otaActivate cfg).run (s.enter quiet) := if_pos hp
    rw [hrun] at hok hact
    obtain ⟨t, ht, ⟨⟨ho, hi⟩, hc, -⟩, -⟩ := (otaActivate_spec hv he.store).ok
      (Prod.ext hok rfl : (otaActivate cfg).run (s.enter quiet) = (.ok (), _))
    rw [hc.reg] at hact
    obtain rfl : t = slot := hact
    exact ⟨hp, ht, ho, hi⟩
  · rw [show call cfg s (quiet, .otaActivate) = (.error .eio, s) from if_neg hp] at hok
    cases hok

theorem activatable_iff (hv : layoutValid cfg) (hf : Fitting cfg s)
    (hr : s.store.st.ready = true) : Activatable cfg s slot ↔ CanActivate s slot := by
  refine ⟨fun h => h.can hv hf, fun hc env he => ?_⟩
  have hup : Up cfg s.store.st.reg s := ⟨hc.powered, hr, rfl, hf.store⟩
  have h : _ ∧ (sysStep cfg s (env, .otaActivate)).store.st.reg.activeSlot = slot :=
    hup.call (P := fun s' => s'.store.st.reg.activeSlot = slot) (by simp)
      (otaActivate_calm hv (hup.calm he) (hc.congr rfl rfl rfl))
  exact ⟨by rw [h.1], h.2⟩

theorem activateTarget_error (h : s.ota.state = .error) : activateTarget s = none := by
  rw [activateTarget, h]
  rfl

-- ---------------------------------------------------------------------------
-- The calls that fail
-- ---------------------------------------------------------------------------

theorem drainServe_exact (s : Sys) :
    Triple drainServe s
      (fun _ s' => ¬(s.cpu.dualCore = true ∧ ¬s.cpu.drainOk) ∧ s'.store = s.store ∧ s'.ota = s.ota)
      (fun e s' => (∃ err, e = .refuse err) ∧ (s.cpu.dualCore = true ∧ ¬s.cpu.drainOk) ∧
        s'.store = s.store ∧ s'.ota = s.ota) := by
  unfold drainServe Sys.act
  refine Triple.gets_bind (Triple.ite (fun hd => Triple.modify_bind (Triple.ite (fun ho => ?_)
    (fun ho => ?_))) (fun hd => ?_))
  · exact Triple.pure' ⟨fun h => h.2 ho, rfl, rfl⟩
  · exact Triple.modify_bind (Triple.throw ⟨⟨_, rfl⟩, ⟨hd, ho⟩, rfl, rfl⟩)
  · exact Triple.pure' ⟨fun h => hd h.1, rfl, rfl⟩

/-- A begin either is turned down by its own checks, with nothing changed, or its
failure leaves the engine in ERROR. -/
theorem otaBegin_failed (hv : layoutValid cfg) (hf : s.store.st.reg.Fits cfg) (name : List UInt8)
    (totalSize : Nat) :
    Triple (otaBegin cfg name totalSize) s (fun _ _ => True)
      (fun _ s' => BeginRefused cfg name totalSize s ∧ s'.store = s.store ∧ s'.ota = s.ota ∨
        ¬BeginRefused cfg name totalSize s ∧ s'.ota.state = .error) := by
  unfold otaBegin
  refine Triple.get_bind ?_
  refine Triple.ite (fun hn => Triple.throw (.inl ⟨.inl hn, rfl, rfl⟩)) (fun hn => ?_)
  refine Triple.ite (fun hr => Triple.throw (.inl ⟨.inr (.inl hr), rfl, rfl⟩)) (fun hr => ?_)
  refine (otaCall_spec (Q := fun _ => True) (E := fun x s' => (∃ err, x = .refuse err) ∧
    BeginRefused cfg name totalSize s ∧ s'.store = s.store ∧ s'.ota = s.ota ∨
      (∃ err, x = .fail err) ∧ ¬BeginRefused cfg name totalSize s) ?_).mono (fun _ _ h => h) ?_
  rotate_left
  · rintro e s' ((⟨-, h⟩ | ⟨⟨_, he⟩, -⟩) | ⟨hst, s₁, (⟨⟨_, he⟩, -⟩ | ⟨-, hb⟩), -⟩)
    · exact .inl h
    · cases he
    · cases he
    · exact .inr ⟨hb, hst⟩
  unfold beginLocked beginPrepare
  refine Triple.bind (Q := fun slot s₁ => ¬BeginRefused cfg name totalSize s ∧
    totalSize ≤ cfg.lay.slotSize ∧ Superseded cfg s.store s₁.store) (Triple.get_bind ?_) ?_
  · dsimp only
    refine Triple.ite (fun hb => Triple.throw (.inl ⟨⟨_, rfl⟩, .inr (.inr (.inl hb)), rfl, rfl⟩))
      (fun hb => ?_)
    refine Triple.bind ((drainServe_exact s).mono (fun _ _ h => h)
      fun _ _ h => .inl ⟨h.1, .inr (.inr (.inr h.2.1)), h.2.2⟩) ?_
    rintro _ s₁ ⟨hd, hst, -⟩
    refine Triple.bind ((supersede_spec hv (hst ▸ hf)).mono (fun _ _ h => h)
      fun _ _ h => h.elim) ?_
    rintro _ s₂ ⟨hsup, -⟩
    refine Triple.modify_bind ?_
    refine Triple.bind ((cpu1Park_spec _).mono (fun _ _ h => h) fun _ _ h => h.elim) ?_
    rintro _ s₃ ⟨hst₃, -⟩
    refine Triple.pure' ⟨?_, by omega, hst₃ ▸ hst ▸ hsup⟩
    rintro (h | h | h | h)
    · exact hn h
    · exact hr h
    · exact hb h
    · exact hd h
  rintro slot s₁ ⟨hb, hle, hsup⟩
  exact (beginErase_spec hv (hsup.fits hf) slot hle).mono (fun _ _ _ => trivial)
    fun _ _ h => .inr ⟨h.1, hb⟩

/-- A call that fails either leaves the store and the session as they were, or puts
the engine in ERROR; an activation never does the former if it had a target. -/
theorem spared_failed (hv : layoutValid cfg) (hf : Fitting cfg s) (hop : op.sparesUpdate = true)
    (hcall : call cfg s (env, op) = (.error e, s')) (hp : s.store.flash.powered = true) :
    (s'.store = (s.enter env).store ∧ s'.ota = s.ota) ∧
        (op.RefusedAtOnce cfg (s.enter env) ∨ activateTarget s = none) ∨
      ¬op.RefusedAtOnce cfg (s.enter env) ∧ s'.ota.state = .error := by
  have he : Fitting cfg (s.enter env) := ⟨hf.store, hf.ota⟩
  cases op with
  | otaBegin name totalSize =>
    have hrun : (otaBegin cfg name totalSize).run (s.enter env) = (.error e, s') :=
      (if_pos hp).symm.trans hcall
    rcases (otaBegin_failed hv he.store name totalSize).error hrun with ⟨hb, h⟩ | h
    · exact .inl ⟨h, .inl hb⟩
    · exact .inr h
  | otaActivate =>
    have hrun : (otaActivate cfg).run (s.enter env) = (.error e, s') :=
      (if_pos hp).symm.trans hcall
    rcases (otaActivate_spec hv he.store).error hrun with ⟨ht, h⟩ | ⟨h, -⟩
    · exact .inl ⟨by rw [h]; exact ⟨rfl, rfl⟩, .inr ht⟩
    · exact .inr ⟨id, h⟩
  | _ => cases hop

theorem kept_iff (hv : layoutValid cfg) (hf : Fitting cfg s) (hop : op.sparesUpdate = true)
    (hr : s.store.st.ready = true) (hst : s.store.st.reg.stagedSlot = slot)
    (hcall : call cfg s (env, op) = (.error e, s')) :
    KeepsUpdate cfg s' slot ↔ Activatable cfg s slot ∧ op.RefusedAtOnce cfg (s.enter env) := by
  have hf' : Fitting cfg s' := by
    have h := fitting_step (x := (env, op)) hv hf
    rwa [sysStep, hcall] at h
  by_cases hp : s.store.flash.powered = true
  · rcases spared_failed hv hf hop hcall hp with ⟨⟨hs, ho⟩, hwhy⟩ | ⟨hn, herr⟩
    · have hst' : s'.store.st = s.store.st := by rw [hs]; rfl
      have hpow : s'.store.flash.powered = s.store.flash.powered := by rw [hs]; rfl
      have hact : Activatable cfg s' slot ↔ Activatable cfg s slot := by
        rw [activatable_iff hv hf' (hst' ▸ hr), activatable_iff hv hf hr]
        exact ⟨fun h => h.congr hst'.symm hpow.symm ho.symm, fun h => h.congr hst' hpow ho⟩
      constructor
      · rintro ⟨-, h⟩
        have h := hact.mp h
        refine ⟨h, hwhy.resolve_right fun ht => ?_⟩
        have htarget := ((activatable_iff hv hf hr).mp h).target
        rw [ht] at htarget
        cases htarget
      · rintro ⟨h, -⟩
        exact ⟨by rw [hst', hst], hact.mpr h⟩
    · refine iff_of_false (fun h => ?_) fun h => hn h.2
      have ht := (h.2.can hv hf').target
      rw [activateTarget_error herr] at ht
      cases ht
  · -- nothing answers until the next power cycle
    obtain rfl : s = s' := by
      have hoff : call cfg s (env, op) = (.error .eio, s) := by
        cases op <;> first | exact if_neg hp | cases hop
      rw [hoff] at hcall
      exact congrArg Prod.snd hcall
    exact iff_of_false (fun h => hp (h.2.can hv hf).powered) fun h => hp (h.1.can hv hf).powered

/-- In every reachable state with a staged slot: after a begin or an activation that
fails, the update is still staged and activatable if and only if it was so before
and the call was turned down before it had touched the store. -/
theorem staged_update_kept_iff (hv : layoutValid cfg) (m : Mem) (past : List (Env × Op))
    (hop : op.sparesUpdate = true)
    (hr : (run (sysStep cfg) (Sys.cold m) past).store.st.ready = true)
    (hst : (run (sysStep cfg) (Sys.cold m) past).store.st.reg.stagedSlot = slot)
    (hcall : call cfg (run (sysStep cfg) (Sys.cold m) past) (env, op) = (.error e, s')) :
    KeepsUpdate cfg s' slot ↔ Activatable cfg (run (sysStep cfg) (Sys.cold m) past) slot ∧
      op.RefusedAtOnce cfg ((run (sysStep cfg) (Sys.cold m) past).enter env) := by
  have hf := fitting_run hv m past
  generalize run (sysStep cfg) (Sys.cold m) past = s at *
  exact kept_iff hv hf hop hr hst hcall

/-- An image staged by hand on a fresh device. -/
def stagedByHand : List (Env × Op) :=
  [(quiet, .boot), (quiet, .markStaged 0 (namedModel 65))]

theorem stagedByHand_up : Up smallDevice ⟨1, slotNone, slotNone, 0, 1,
    Function.update default 0 (namedModel 65)⟩
      (run (sysStep smallDevice) (Sys.cold erasedMem) stagedByHand) ∧
    (run (sysStep smallDevice) (Sys.cold erasedMem) stagedByHand).ota = Ota.zero := by
  have hv := smallDevice_valid
  have h0 := Up.boot_erased hv (show quiet.plan = [] from rfl)
  have h1 := h0.1.markStaged 0 hv quiet_quiet (by decide) (by decide) (namedModel 65)
  rw [stagedByHand, run_cons, run_cons, run_nil]
  exact ⟨h1.1, h1.2.trans h0.2⟩

theorem stagedByHand_can :
    CanActivate (run (sysStep smallDevice) (Sys.cold erasedMem) stagedByHand) 0 := by
  obtain ⟨hup, hota⟩ := stagedByHand_up
  refine ⟨hup.powered, ?_, ?_, ?_⟩
  · rw [activateTarget, hota, hup.reg, hup.ready]
    rfl
  · rw [hup.reg]
    decide
  · rw [hup.reg]
    decide

/-- Its activation, when the first erase of the commit fails. -/
def failedActivation : Except Errno Unit × Sys :=
  call smallDevice (run (sysStep smallDevice) (Sys.cold erasedMem) stagedByHand)
    (failingErase, .otaActivate)

theorem failedActivation_fst : failedActivation.1 = .error .eio := by decide +kernel

theorem failedActivation_eq : call smallDevice (run (sysStep smallDevice) (Sys.cold erasedMem)
    stagedByHand) (failingErase, .otaActivate) = (.error .eio, failedActivation.2) := by
  rw [← failedActivation_fst]
  exact (Prod.mk.eta (p := failedActivation)).symm

theorem staged_update_kept_failed : ¬KeepsUpdate smallDevice failedActivation.2 0 := fun h =>
  ((staged_update_kept_iff smallDevice_valid erasedMem stagedByHand rfl stagedByHand_up.1.ready
    (by rw [stagedByHand_up.1.reg]) failedActivation_eq).mp h).2

theorem staged_update_lost : ¬∀ (cfg : Config) (m : Mem) (past : List (Env × Op)) (env : Env)
    (op : Op) (slot : Nat) (e : Errno) (s' : Sys), layoutValid cfg → op.sparesUpdate = true →
    KeepsUpdate cfg (run (sysStep cfg) (Sys.cold m) past) slot →
    call cfg (run (sysStep cfg) (Sys.cold m) past) (env, op) = (.error e, s') →
    KeepsUpdate cfg s' slot := by
  intro hall
  have hv := smallDevice_valid
  have hf := fitting_run hv erasedMem stagedByHand
  have hup := stagedByHand_up.1
  have hst : (run (sysStep smallDevice) (Sys.cold erasedMem) stagedByHand).store.st.reg.stagedSlot =
      0 := by rw [hup.reg]
  have hkeeps : KeepsUpdate smallDevice _ 0 :=
    ⟨hst, (activatable_iff hv hf hup.ready).mpr stagedByHand_can⟩
  exact ((kept_iff hv hf rfl hup.ready hst failedActivation_eq).mp
    (hall _ _ _ _ _ _ _ _ hv rfl hkeeps failedActivation_eq)).2

end SynapticOS
