import SynapticOS.Store.OpsLaws

/-!
# What the store's operations are made of

Commits, changes of RAM, reads, and commands that stay in a slot. A relation that
allows these (`Effects`) allows every operation, whatever it returns.
-/

namespace SynapticOS

open Lib Flash

variable {cfg : Config} {A : Nat → Prop} {R : Store → Store → Prop} {t : Store}

/-- `x` stays in a slot, in any sense of staying. -/
def Confined (cfg : Config) (slot : Nat) (x : FlashM α) : Prop :=
  ∀ (R : Flash → Flash → Prop) [IsPreorder Flash R],
    Confines cfg.port (cfg.lay.slotOff slot) (cfg.lay.slotOff slot + cfg.lay.slotSize) R →
      Respects R x

/-- `R` allows what operations are made of; commands go to slots in `A` only. -/
structure Effects (cfg : Config) (A : Nat → Prop) (R : Store → Store → Prop) : Prop where
  commit : Respects R (commit cfg)
  modifyReg : ∀ f, Respects R (Store.modifyReg f)
  onModels : ∀ {α} (x : ModelsM α), Respects R (Store.onModels x)
  read : ∀ {α} {x : FlashM α}, Respects Untouched x → Respects R (Store.onFlash x)
  slot : ∀ {α slot} {x : FlashM α}, slot < cfg.lay.slotCount → A slot → Confined cfg slot x →
    Respects R (Store.onFlash x)

namespace Effects

variable [IsPreorder Store R] (h : Effects cfg A R)
include h

theorem commitUpdate (u : RegUpdate) : Respects R (commitUpdate cfg u) := by
  refine Respects.bind (Respects.gets _) fun old => Respects.bind (h.modifyReg _) fun _ =>
    Respects.bind (Respects.attempt h.commit) fun r => ?_
  cases r with
  | error e => exact Respects.bind (h.modifyReg _) fun _ => Respects.throw _
  | ok u => exact Respects.pure' _

theorem beginStaging (slot : Nat) : Respects R (storeBeginStaging cfg slot) :=
  Respects.bind (Respects.gets _) fun _ => Respects.ite (Respects.throw _) <|
    Respects.ite (Respects.throw _) <| Respects.ite (Respects.pure' _) <|
      Respects.bind (Respects.bind (Respects.gets _) fun _ => h.onModels _) fun _ =>
        h.commitUpdate _

theorem markStaged (slot : Nat) (info : ModelInfo) :
    Respects R (storeMarkStaged cfg slot info) :=
  Respects.bind (Respects.gets _) fun _ => Respects.ite (Respects.throw _) <|
    Respects.ite (Respects.throw _) (h.commitUpdate _)

theorem clearStaged : Respects R (storeClearStaged cfg) :=
  Respects.bind (Respects.gets _) fun _ => Respects.ite (Respects.throw _) <|
    Respects.ite (Respects.pure' _) (h.commitUpdate _)

theorem registerSlot (slot : Nat) : Respects R (registerSlot cfg slot) :=
  Respects.bind (Respects.gets _) fun _ => h.onModels _

theorem reload (held : Option Nat) : Respects R (reload cfg held) := by
  refine Respects.bind (Respects.gets _) fun mem => ?_
  cases held with
  | none => exact Respects.pure' _
  | some n => exact Respects.bind (Respects.attempt (h.onModels _)) fun _ => Respects.pure' _

theorem switchActive (cur next : Nat) (u : RegUpdate) :
    Respects R (switchActive cfg cur next u) := by
  refine Respects.bind (Respects.gets _) fun reg => Respects.bind (h.onModels _) fun held =>
    Respects.bind (Respects.attempt (h.commitUpdate u)) fun r => ?_
  cases r with
  | error e => exact Respects.bind (h.reload _) fun _ => Respects.throw _
  | ok u =>
    exact Respects.bind (Respects.attempt (h.registerSlot _)) fun _ => h.reload _

theorem activate (slot : Nat) : Respects R (storeActivate cfg slot) :=
  Respects.bind (Respects.gets _) fun _ => Respects.ite (Respects.throw _) <|
    Respects.ite (Respects.throw _) <| Respects.ite (Respects.throw _) <|
      Respects.bind (Respects.gets _) fun _ => h.switchActive _ _ _

theorem rollback : Respects R (storeRollback cfg) := by
  refine Respects.bind (Respects.gets _) fun _ => Respects.ite (Respects.throw _) <|
    Respects.bind (Respects.gets _) fun reg => ?_
  split
  · exact Respects.throw _
  · exact h.switchActive _ _ _

/-- An installation goes to the slot that is chosen when it starts. -/
theorem install (hv : layoutValid cfg) (info : ModelInfo) (data : List UInt8)
    (hA : A (stagingSlot cfg t.st.reg)) : Ends (storeInstall cfg info data) t (R t) := by
  refine Ends.gets_bind ?_
  split
  · exact Ends.throw (Std.Refl.refl _)
  · rename_i slot hok
    obtain ⟨hi, rfl⟩ := installChecks_ok hok
    have hs := (stagingSlot_spec hv t.st.reg).1
    refine Respects.ends (Respects.bind (h.beginStaging _) fun _ => Respects.bind ?_ fun _ =>
      Respects.bind (h.commitUpdate _) fun _ => h.registerSlot _) (Std.Refl.refl _)
    exact h.slot hs hA fun R _ hR => hR.installPayload hv info hi.fits

end Effects

end SynapticOS
