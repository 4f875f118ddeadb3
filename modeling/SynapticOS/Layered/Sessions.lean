import SynapticOS.Layered.EngineLaws
import SynapticOS.Lib.Run

/-!
# Parked sessions

A run of calls on the engine, with a record of which session is live, which
session each slot holds and what was delivered for whom (`World`). Parking and
resuming leaves every result as it is in a run without it (`preempt_exact`).

A `begin` that fails on another model's blob has planned over the live session
without ending it (`begin_clobbers`).
-/

namespace SynapticOS.Layered

open Lib

inductive Call
  | onLoad (blob : List UInt8)
  | begin (input : List UInt8)
  | step
  | output (cap : Nat)
  | save
  | restore (slot : Nat)
  | slotFree (slot : Nat)
  deriving DecidableEq, Repr

/-- The engine, and whose session is where. -/
structure World where
  engine : Engine
  live : Option Session
  parked : Nat → Option Session
  outputs : List (Session × List UInt8)

def World.boot : World := ⟨Engine.boot, none, fun _ => none, []⟩

/-- The record follows what the calls return: a `begin` that starts a session
replaces the live one, a `begin` that fails leaves it. -/
def World.call (lim : Limits) (w : World) : Call → World
  | .onLoad blob => { w with engine := ((onLoad lim blob).run w.engine).2 }
  | .begin input =>
    match (begin lim input).run w.engine with
    | (.ok (_ + 1), e) => { w with engine := e, live := e.resident.map fun blob => ⟨blob, input⟩ }
    | (_, e) => { w with engine := e }
  | .step => { w with engine := (step.run w.engine).2 }
  | .output cap =>
    match (output cap).run w.engine with
    | (.ok out, e) =>
      { w with engine := e, live := none, outputs := w.outputs ++ (w.live.map (·, out)).toList }
    | (.error _, e) => { w with engine := e }
  | .save =>
    match save.run w.engine with
    | (.ok slot, e) =>
      { w with engine := e, live := none, parked := Function.update w.parked slot w.live }
    | (.error _, e) => { w with engine := e }
  | .restore slot =>
    match (restore lim slot).run w.engine with
    | (.ok (), e) =>
      { w with engine := e, live := w.parked slot, parked := Function.update w.parked slot none }
    | (.error _, e) => { w with engine := e }
  | .slotFree slot =>
    { w with
      engine := ((slotFree slot).run w.engine).2
      parked := if slot < ctxSlots then Function.update w.parked slot none else w.parked }

/-- A session on its own. -/
def solo (lim : Limits) (s : Session) (cap : Nat) : Except Errno (List UInt8) :=
  ((infer lim s cap).run Engine.boot).1

/-- The live session can finish as on its own, so can every parked one once it is
resumed, and what was delivered is what the session gives on its own. -/
structure Exact (lim : Limits) (w : World) : Prop where
  live : ∀ s, w.live = some s → ∀ cap, ((finish cap).run w.engine).1 = solo lim s cap
  parked : ∀ slot s, w.parked slot = some s → ∀ cap,
    ((restore lim slot >>= fun _ => finish cap).run w.engine).1 = solo lim s cap
  outputs : ∀ s out, (s, out) ∈ w.outputs → ∃ cap, solo lim s cap = .ok out

/-- The resident blob fits the plan area and takes this input. -/
def Fits (lim : Limits) (blob input : List UInt8) : Prop :=
  ∃ p, (planLive lim blob).run Engine.boot.plan = (.ok (), p) ∧ input.length = p.inputSize

/-- While a session is live, a `begin` on another model's blob does not fail. -/
def Careful (lim : Limits) (w : World) : Call → Prop
  | .begin input => ∀ blob, w.engine.resident = some blob → w.engine.active = true →
    w.engine.plan.model ≠ blob → Fits lim blob input
  | _ => True

-- ---------------------------------------------------------------------------
-- The invariant
-- ---------------------------------------------------------------------------

structure World.Ok (lim : Limits) (w : World) : Prop where
  live : ∀ s, w.live = some s → Live lim s w.engine
  idle : w.live = none → w.engine.active = false
  parked : ∀ slot s, w.parked slot = some s →
    slot < ctxSlots ∧ ∃ k, w.engine.slots slot = some k ∧ IsParked lim s k
  slots : ∀ slot, w.parked slot = none → w.engine.slots slot = none
  outputs : ∀ s out, (s, out) ∈ w.outputs → ∃ cap, solo lim s cap = .ok out

section
variable {lim : Limits} {w : World} {s : Session} {e : Engine} {p : Plan}

/-- A session that is live finishes as on its own. -/
theorem Live.finish_solo (h : Live lim s e) (cap : Nat) :
    ((finish cap).run e).1 = solo lim s cap := by
  rw [finish_spec h, solo, infer_run Engine.boot h.plan h.input]

/-- Resuming brings the parked session back. -/
theorem restore_run (hs : slot < ctxSlots) (hk : e.slots slot = some k) (h : IsParked lim s k) :
    ∃ e', (restore lim slot).run e = (.ok (), e') ∧ Live lim s e' ∧
      e'.slots = Function.update e.slots slot none ∧ e'.resident = e.resident := by
  obtain ⟨hm, e₀, hlive, hn, ha⟩ := h
  refine ⟨{ e with
    plan := e₀.plan, area := e.area.put 0 k.area, next := k.next, active := true
    slots := Function.update e.slots slot none }, ?_, ?_, rfl, rfl⟩
  · rw [restore, Act.run_bind, Act.run_get]
    dsimp only
    rw [if_pos hs, hk]
    dsimp only
    rw [Act.run_bind, Act.run_attempt, hm, livePlan_run hlive.plan]
    rfl
  · refine ⟨hlive.plan, rfl, ?_, hlive.input, ?_⟩
    · show k.next ≤ e₀.plan.layerCount
      rw [hn]
      exact hlive.next
    · show Holds e₀.plan (e.area.put 0 k.area) k.next s.input
      rw [hn]
      refine hlive.holds.congr hlive.planned hlive.next fun a _ ha' => ?_
      have hlt : a < k.area.length := by rw [ha, Mem.length_read]; exact ha'
      have hput : e.area.put 0 k.area (0 + a) = k.area[a] := Mem.put_add hlt
      rw [Nat.zero_add] at hput
      rw [hput]
      simp only [ha, Mem.getElem_read, Nat.zero_add]

theorem World.Ok.exact (h : w.Ok lim) : Exact lim w := by
  refine ⟨fun s hs => (h.live s hs).finish_solo, fun slot s hs cap => ?_, h.outputs⟩
  obtain ⟨hlt, k, hk, hp⟩ := h.parked slot s hs
  obtain ⟨e', hr, hlive, -, -⟩ := restore_run hlt hk hp
  rw [Act.run_bind_ok hr]
  exact hlive.finish_solo cap

-- ---------------------------------------------------------------------------
-- One call
-- ---------------------------------------------------------------------------

theorem World.Ok.boot : World.Ok lim World.boot :=
  ⟨fun _ h => (nomatch h), fun _ => rfl, fun _ _ h => (nomatch h), fun _ _ => rfl,
    fun _ _ h => (nomatch h)⟩

/-- Calls that leave the live context and the slots alone. -/
theorem World.Ok.of_same (h : w.Ok lim) (hp : e.plan = w.engine.plan) (ha : e.area = w.engine.area)
    (hn : e.next = w.engine.next) (hl : e.active = w.engine.active)
    (hs : e.slots = w.engine.slots) : World.Ok lim { w with engine := e } :=
  ⟨fun s hs => (h.live s hs).of_same hp ha hn hl, fun hi => hl.trans (h.idle hi),
    fun slot s hp => (by rw [hs]; exact h.parked slot s hp),
    fun slot hp => (by rw [hs]; exact h.slots slot hp), h.outputs⟩

/-- A new live session. -/
theorem World.Ok.of_live (h : w.Ok lim) (hl : Live lim s e) (hs : e.slots = w.engine.slots) :
    World.Ok lim { w with engine := e, live := some s } :=
  ⟨fun s' hs' => (by cases hs'; exact hl), fun hi => (by cases hi),
    fun slot s hp => (by rw [hs]; exact h.parked slot s hp),
    fun slot hp => (by rw [hs]; exact h.slots slot hp), h.outputs⟩

/-- No live session: the plan and the plan area may be anything. -/
theorem World.Ok.of_idle (h : w.Ok lim) (ha : e.active = false) (hs : e.slots = w.engine.slots)
    (ho : ∀ s out, (s, out) ∈ given → ∃ cap, solo lim s cap = .ok out) :
    World.Ok lim { w with engine := e, live := none, outputs := given } :=
  ⟨fun _ hl => (by cases hl), fun _ => ha,
    fun slot s hp => (by rw [hs]; exact h.parked slot s hp),
    fun slot hp => (by rw [hs]; exact h.slots slot hp), ho⟩

/-- A slot is emptied. -/
theorem World.Ok.freed (h : w.Ok lim) (slot : Nat)
    (he : e.slots = Function.update w.engine.slots slot none)
    (hl : ∀ s, cur = some s → Live lim s e) (hi : cur = none → e.active = false) :
    World.Ok lim { w with engine := e, live := cur, parked := Function.update w.parked slot none } := by
  refine ⟨hl, hi, fun t s hp => ?_, fun t hp => ?_, h.outputs⟩
  · dsimp only at hp ⊢
    rw [Function.update_apply] at hp
    split at hp
    · cases hp
    · rename_i hne
      rw [he, Function.update_of_ne hne]
      exact h.parked t s hp
  · dsimp only at hp ⊢
    rw [he, Function.update_apply]
    rw [Function.update_apply] at hp
    split
    · rfl
    · rename_i hne
      rw [if_neg hne] at hp
      exact h.slots t hp

theorem World.Ok.onLoad (h : w.Ok lim) (blob : List UInt8) : (w.call lim (.onLoad blob)).Ok lim := by
  have he : ∀ e : Engine, ((Layered.onLoad lim blob).run e).2.plan = e.plan ∧
      ((Layered.onLoad lim blob).run e).2.area = e.area ∧
      ((Layered.onLoad lim blob).run e).2.next = e.next ∧
      ((Layered.onLoad lim blob).run e).2.active = e.active ∧
      ((Layered.onLoad lim blob).run e).2.slots = e.slots := by
    intro e
    rw [Layered.onLoad, Act.run_modify]
    split <;> exact ⟨rfl, rfl, rfl, rfl, rfl⟩
  obtain ⟨h1, h2, h3, h4, h5⟩ := he w.engine
  exact h.of_same h1 h2 h3 h4 h5

/-- Where the record has a live session, its blob is the plan's. -/
theorem World.Ok.live_model (h : w.Ok lim) (hl : w.live = some s) : w.engine.plan.model = s.blob :=
  (h.live s hl).planned.model

theorem begin_fails (hr : e.resident = some blob)
    (hp : (planLive lim blob).run e.plan = (.error er, p)) (input : List UInt8) :
    ∃ r, (begin lim input).run e = (r, e.withPlan p) ∧ ∀ n, r ≠ .ok (n + 1) := by
  have hlp : (livePlan lim blob).run e = (.error er, e.withPlan p) := by
    rw [livePlan, Act.run_zoom, hp]
    rfl
  rw [begin, Act.run_bind, Act.run_get]
  dsimp only
  rw [hr]
  dsimp only
  rw [Act.run_bind, Act.run_attempt, hlp]
  by_cases he : er = .enotsup
  · subst he
    exact ⟨.ok 0, rfl, fun n h => (by cases h)⟩
  · refine ⟨.error er, ?_, fun n h => (by cases h)⟩
    cases er <;> first | rfl | exact (he rfl).elim

theorem begin_refused (hr : e.resident = some blob)
    (hp : (planLive lim blob).run e.plan = (.ok (), p)) (hin : input.length ≠ p.inputSize) :
    (begin lim input).run e = (.error .einval, e.withPlan p) := by
  rw [begin, Act.run_bind, Act.run_get]
  dsimp only
  rw [hr]
  dsimp only
  rw [Act.run_bind, Act.run_attempt, livePlan_run hp]
  dsimp only
  rw [Act.run_bind, Act.run_get]
  dsimp only
  rw [Act.run_ite]
  exact if_pos hin

/-- The ways a `begin` can go. -/
theorem begin_cases (lim : Limits) (input : List UInt8) (e : Engine) :
    (begin lim input).run e = (.ok 0, e) ∨
    (∃ blob r p, e.resident = some blob ∧ (begin lim input).run e = (r, e.withPlan p) ∧
      (∀ n, r ≠ .ok (n + 1)) ∧ ∀ q, (planLive lim blob).run e.plan = (.ok (), q) →
        q = p ∧ input.length ≠ p.inputSize) ∨
    (∃ blob p, e.resident = some blob ∧ (planLive lim blob).run e.plan = (.ok (), p) ∧
      input.length = p.inputSize ∧
      (begin lim input).run e = (.ok p.layerCount, e.begun p input)) := by
  cases hr : e.resident with
  | none =>
    left
    rw [begin, Act.run_bind, Act.run_get]
    dsimp only
    rw [hr]
    rfl
  | some blob =>
    right
    cases hp : (planLive lim blob).run e.plan with
    | mk r p =>
      cases r with
      | error er =>
        left
        obtain ⟨r, h, hne⟩ := begin_fails hr hp input
        exact ⟨blob, r, p, rfl, h, hne, fun q hq => (by cases hp.symm.trans hq)⟩
      | ok _ =>
        by_cases hin : input.length = p.inputSize
        · right
          exact ⟨blob, p, rfl, hp, hin, begin_run (s := ⟨blob, input⟩) hr hp hin⟩
        · left
          refine ⟨blob, _, p, rfl, begin_refused hr hp hin, fun n h => (by cases h), fun q hq => ?_⟩
          cases hp.symm.trans hq
          exact ⟨rfl, hin⟩

theorem World.Ok.begin (h : w.Ok lim) (input : List UInt8) (hc : Careful lim w (.begin input)) :
    (w.call lim (.begin input)).Ok lim := by
  unfold World.call
  dsimp only
  rcases begin_cases lim input w.engine with hr | ⟨blob, r, p, hres, hr, hne, hbad⟩ |
    ⟨blob, p, hres, hp, hin, hr⟩
  · rw [hr]
    exact h
  · have hok : World.Ok lim { w with engine := w.engine.withPlan p } := by
      cases hl : w.live with
      | none =>
        exact h.of_idle (e := w.engine.withPlan p) (h.idle hl) rfl h.outputs
      | some s =>
        have hlive := h.live s hl
        by_cases hm : w.engine.plan.model = blob
        · -- a live session of this blob is replanned as it was
          have hs : s.blob = blob := (h.live_model hl).symm.trans hm
          obtain ⟨he, -⟩ := hbad _ (hs ▸ hlive.plan)
          rw [← he, ← hl]
          exact h
        · obtain ⟨q, hq, hin⟩ := hc blob hres hlive.active hm
          obtain ⟨he, hin'⟩ := hbad q (planLive_const hq w.engine.plan)
          exact absurd (he ▸ hin) hin'
    rw [hr]
    rcases r with er | n
    · exact hok
    · cases n with
      | zero => exact hok
      | succ n => exact absurd rfl (hne n)
  · have hcount := ((planLive_spec lim blob w.engine.plan).ok hp).count
    obtain ⟨n, hn⟩ := Nat.exists_eq_succ_of_ne_zero (Nat.pos_iff_ne_zero.mp hcount)
    rw [hr, hn]
    have := h.of_live (begun_live (s := ⟨blob, input⟩) hp hin w.engine) rfl
    simp only [Engine.begun, hres] at this ⊢
    exact this

theorem World.Ok.step (h : w.Ok lim) : (w.call lim .step).Ok lim := by
  unfold World.call
  dsimp only
  cases ha : w.engine.active with
  | false =>
    have hr : Layered.step.run w.engine = (.error .eperm, w.engine) := by
      rw [Layered.step, Act.run_bind, Act.run_get]
      dsimp only
      rw [ha]
      rfl
    rw [hr]
    exact h.of_same rfl rfl rfl rfl rfl
  | true =>
    cases hl : w.engine.plan.layers[w.engine.next]? with
    | none =>
      have hr : Layered.step.run w.engine = (.error .eperm, w.engine) := by
        rw [Layered.step, Act.run_bind, Act.run_get]
        dsimp only
        rw [ha, hl]
        rfl
      rw [hr]
      exact h.of_same rfl rfl rfl rfl rfl
    | some l =>
      rw [step_run ha hl]
      cases hs : w.live with
      | none =>
        rw [h.idle hs] at ha
        cases ha
      | some s =>
        have := h.of_live ((h.live s hs).stepped hl) rfl
        rw [← hs] at this
        rw [← hs]
        exact this

theorem World.Ok.output (h : w.Ok lim) (cap : Nat) : (w.call lim (.output cap)).Ok lim := by
  unfold World.call
  dsimp only
  have hout : ∀ e : Engine, (Layered.output cap).run e =
      if e.active = false then (.error .eperm, e)
      else if e.next < e.plan.layerCount then (.error .ebusy, e)
      else if cap < e.plan.bufSize e.plan.layerCount then (.error .enomem, e)
      else (.ok (e.area.read (e.plan.off e.plan.layerCount) (e.plan.bufSize e.plan.layerCount)),
        { e with active := false }) := by
    intro e
    rw [Layered.output, Act.run_bind, Act.run_get]
    dsimp only
    rw [Act.run_ite, Act.run_ite, Act.run_ite]
    rfl
  cases hl : w.live with
  | none =>
    rw [hout, if_pos (h.idle hl), ← hl]
    exact h
  | some s =>
    have hlive := h.live s hl
    rw [hout, if_neg (by rw [hlive.active]; exact Bool.noConfusion)]
    by_cases hn : w.engine.next < w.engine.plan.layerCount
    · rw [if_pos hn, ← hl]
      exact h
    · by_cases hcap : cap < w.engine.plan.bufSize w.engine.plan.layerCount
      · rw [if_neg hn, if_pos hcap, ← hl]
        exact h
      · rw [if_neg hn, if_neg hcap]
        refine h.of_idle (e := { w.engine with active := false }) rfl rfl fun t out ht => ?_
        rcases List.mem_append.mp ht with ht | ht
        · exact h.outputs t out ht
        · cases ht with
          | head =>
            have hend : w.engine.next = w.engine.plan.layerCount := by
              have := hlive.next
              omega
            refine ⟨cap, ?_⟩
            rw [solo, infer_run Engine.boot hlive.plan hlive.input, ← output_run hlive hend, hout,
              if_neg (by rw [hlive.active]; exact Bool.noConfusion), if_neg hn, if_neg hcap]
          | tail _ ht => cases ht

theorem Live.parked (h : Live lim s e) :
    IsParked lim s ⟨e.plan.model, e.next, e.area.read 0 e.plan.plannedPeak⟩ :=
  ⟨h.planned.model, e, h, rfl, rfl⟩

theorem World.Ok.save (h : w.Ok lim) : (w.call lim .save).Ok lim := by
  unfold World.call
  dsimp only
  cases hl : w.live with
  | none =>
    have hr : Layered.save.run w.engine = (.error .eperm, w.engine) := by
      rw [Layered.save, Act.run_bind, Act.run_get]
      dsimp only
      rw [if_pos (h.idle hl)]
      rfl
    rw [hr, ← hl]
    exact h
  | some s =>
    have hlive := h.live s hl
    cases hf : w.engine.freeSlot with
    | none =>
      have hr : Layered.save.run w.engine = (.error .enospc, w.engine) := by
        rw [Layered.save, Act.run_bind, Act.run_get]
        dsimp only
        rw [if_neg (by rw [hlive.active]; exact Bool.noConfusion), hf]
        rfl
      rw [hr, ← hl]
      exact h
    | some slot =>
      obtain ⟨e, hr, he⟩ : ∃ e, Layered.save.run w.engine = (.ok slot, e) ∧ e =
          { w.engine with
            slots := Function.update w.engine.slots slot (some ⟨w.engine.plan.model, w.engine.next,
              w.engine.area.read 0 w.engine.plan.plannedPeak⟩)
            active := false } := by
        refine ⟨_, ?_, rfl⟩
        rw [Layered.save, Act.run_bind, Act.run_get]
        dsimp only
        rw [if_neg (by rw [hlive.active]; exact Bool.noConfusion), hf]
        rfl
      have hslot : slot < ctxSlots := List.mem_range.mp (List.mem_of_find?_eq_some hf)
      rw [hr]
      subst he
      refine ⟨fun _ h => (nomatch h), fun _ => rfl, fun t s' ht => ?_, fun t ht => ?_, h.outputs⟩
      · dsimp only at ht ⊢
        rw [Function.update_apply] at ht ⊢
        split at ht
        · rename_i heq
          cases ht
          rw [if_pos heq, heq]
          exact ⟨hslot, _, rfl, hlive.parked⟩
        · rename_i hne
          rw [if_neg hne]
          exact h.parked t s' ht
      · dsimp only at ht ⊢
        rw [Function.update_apply] at ht ⊢
        split at ht
        · cases ht
        · rename_i hne
          rw [if_neg hne]
          exact h.slots t ht

theorem World.Ok.restore (h : w.Ok lim) (slot : Nat) : (w.call lim (.restore slot)).Ok lim := by
  unfold World.call
  dsimp only
  have hbad : (if slot < ctxSlots then w.engine.slots slot else none) = none →
      (Layered.restore lim slot).run w.engine = (.error .einval, w.engine) := by
    intro hn
    rw [Layered.restore, Act.run_bind, Act.run_get]
    dsimp only
    rw [hn]
    rfl
  cases hp : w.parked slot with
  | none =>
    rw [hbad (by rw [h.slots slot hp]; exact ite_self _)]
    exact h
  | some s =>
    obtain ⟨hlt, k, hk, hkept⟩ := h.parked slot s hp
    obtain ⟨e', hr, hlive, hs, -⟩ := restore_run hlt hk hkept
    rw [hr]
    exact h.freed slot hs (fun t ht => by cases ht; exact hlive) (fun ht => nomatch ht)

theorem World.Ok.slotFree (h : w.Ok lim) (slot : Nat) : (w.call lim (.slotFree slot)).Ok lim := by
  unfold World.call
  dsimp only
  rw [Layered.slotFree, Act.run_modify]
  split
  · exact h.freed slot rfl (fun s hs => (h.live s hs).of_same rfl rfl rfl rfl) h.idle
  · exact h

theorem World.Ok.call (h : w.Ok lim) (c : Call) (hc : Careful lim w c) : (w.call lim c).Ok lim := by
  cases c with
  | onLoad blob => exact h.onLoad blob
  | begin input => exact h.begin input hc
  | step => exact h.step
  | output cap => exact h.output cap
  | save => exact h.save
  | restore slot => exact h.restore slot
  | slotFree slot => exact h.slotFree slot

end

-- ---------------------------------------------------------------------------
-- Runs
-- ---------------------------------------------------------------------------

/-- Preemption is invisible to results. -/
theorem preempt_exact (lim : Limits) (calls : List Call)
    (h : Along (World.call lim) (Careful lim) World.boot calls) :
    Exact lim (run (World.call lim) World.boot calls) :=
  (h.invariant (I := World.Ok lim) World.Ok.boot fun _ c hi hc => hi.call c hc).exact

/-- A session is parked after its first layer, another runs to its end, and the
first is resumed. -/
def nestedCalls : List Call :=
  [.onLoad skipBlob, .begin [5, 9], .step, .save, .begin [1, 2], .step, .step, .step, .output 8,
    .restore 0, .step, .step]

theorem preempt_exact_nested :
    Exact smallLimits (run (World.call smallLimits) World.boot nestedCalls) :=
  preempt_exact smallLimits nestedCalls
    (.cons trivial (.cons (fun _ _ h => Bool.noConfusion h) (.cons trivial (.cons trivial
      (.cons (fun _ _ h => Bool.noConfusion h) (.cons trivial (.cons trivial (.cons trivial
        (.cons trivial (.cons trivial (.cons trivial (.cons trivial .nil))))))))))))

def chainBlob : List UInt8 := [0x53, 0x59, 0x4E, 0x4C, 1, 0, 1, 0, 1, 0, 0, 0]

/-- A resumed session is live when a `begin` on another model fails on the size of
its input. -/
def clobberCalls : List Call :=
  [.onLoad skipBlob, .begin [5, 9], .step, .save, .restore 0, .onLoad chainBlob, .begin [1, 2]]

/-- The session then ends with the bytes of another plan. -/
theorem begin_clobbers :
    ¬Exact smallLimits (run (World.call smallLimits) World.boot clobberCalls) := by
  intro h
  have := h.live ⟨skipBlob, [5, 9]⟩ rfl 8
  revert this
  decide +kernel

end SynapticOS.Layered
