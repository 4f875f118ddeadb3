import SynapticOS.Infer.Contexts
import SynapticOS.Lib.Potential
import Mathlib.Algebra.BigOperators.Group.Finset.Basic
import Mathlib.Algebra.BigOperators.Fin
import Mathlib.Algebra.Order.BigOperators.Group.Finset

/-!
# Progress under preemption

Every layer of a session is run once at most, however often the job is suspended, and a job
is suspended less often than its session has layers: no amount of preemption can keep it from
getting on. Both follow from one account of what a session is still worth (`Price`), which the
layer loop pays from.
-/

namespace SynapticOS.Infer

open Lib

variable {cfg : Cfg} {s s' : Sched cfg} {j x : Fin cfg.jobs} {p : Price}

-- ---------------------------------------------------------------------------
-- What is counted
-- ---------------------------------------------------------------------------

/-- The layers that a session has left. -/
def layersLeft : Option Ctx → Nat
  | none => 0
  | some c => c.rem

/-- The layers of the session that a step begins for a submission. -/
def begun (ticket : Nat) (s : Sched cfg) : Op cfg → Nat
  | .schedule _ layers =>
    match s.pc with
    | .stage j i =>
      if (s.jobs j).ticket = ticket ∧ (s.pipes (s.jobs j).pipe).stages[i]? = some .model ∧
          (s.jobs j).resuming = false then layers.getD 0
      else 0
    | _ => 0
  | _ => 0

/-- Whether a step runs a layer of a submission. -/
def layersRun (ticket : Nat) (s : Sched cfg) : Op cfg → Nat
  | .schedule _ _ =>
    match s.pc with
    | .layer j _ => if (s.jobs j).ticket = ticket ∧ 0 < layersLeft s.live then 1 else 0
    | _ => 0
  | _ => 0

/-- Whether a step suspends a submission at a layer boundary. -/
def suspensions (ticket : Nat) (s : Sched cfg) : Op cfg → Nat
  | .schedule _ _ =>
    match s.pc with
    | .saved j _ _ => if (s.jobs j).ticket = ticket then 1 else 0
    | _ => 0
  | _ => 0

-- ---------------------------------------------------------------------------
-- What a session is worth
-- ---------------------------------------------------------------------------

/-- The cost of a layer and of a suspension, and what a session with so many layers left pays
for all of them. -/
structure Price where
  layer : Nat
  park : Nat
  worth : Nat → Nat
  zero : worth 0 = 0
  run : ∀ n, layer + worth n ≤ worth (n + 1)
  save : ∀ n, 0 < n → layer + (park + worth n) ≤ worth (n + 1)

/-- Layers. -/
def Price.layers : Price := ⟨1, 0, id, rfl, fun n => by simp; omega, fun n _ => by simp; omega⟩

/-- Suspensions. -/
def Price.parks : Price :=
  ⟨0, 1, (· - 1), rfl, fun n => by simp, fun n h => by simp; omega⟩

/-- The session that job `j` has parked. -/
def parkedLeft (s : Sched cfg) (j : Fin cfg.jobs) : Nat :=
  match (s.jobs j).ctxSlot with
  | none => 0
  | some k => layersLeft (s.ctx k)

/-- The session in whose layer loop job `j` is. -/
def loopLeft (s : Sched cfg) (j : Fin cfg.jobs) : Nat :=
  match s.pc with
  | .layer x _ => if x = j then layersLeft s.live else 0
  | _ => 0

/-- A session of job `j` that has just been parked, with the suspension still to pay. -/
def Price.saved (p : Price) (s : Sched cfg) (j : Fin cfg.jobs) : Nat :=
  match s.pc with
  | .saved x _ k => if x = j then p.park + p.worth (layersLeft (s.ctx k)) else 0
  | _ => 0

def Price.credit (p : Price) (s : Sched cfg) (j : Fin cfg.jobs) : Nat :=
  p.worth (parkedLeft s j) + p.worth (loopLeft s j) + p.saved s j

/-- What the sessions of a submission are worth. -/
def Price.account (p : Price) (ticket : Nat) (s : Sched cfg) : Nat :=
  ∑ j, if (s.jobs j).ticket = ticket then p.credit s j else 0

-- ---------------------------------------------------------------------------
-- Steps that bring nothing in
-- ---------------------------------------------------------------------------

/-- In the layer loop, or just out of it. -/
def Pc.inside : Pc cfg → Bool
  | .layer _ _ | .saved _ _ _ => true
  | _ => false

/-- No session is begun, resumed or parked; some may be dropped, and a job may be submitted
anew. -/
structure Drops (s s' : Sched cfg) : Prop where
  ticket : ∀ j, (s'.jobs j).ticket = (s.jobs j).ticket ∨
    (s'.jobs j).ctxSlot = none ∧ s'.pc.job ≠ some j
  slot : ∀ j k, (s'.jobs j).ctxSlot = some k → (s.jobs j).ctxSlot = some k
  ctx : ∀ k, s'.ctx k = s.ctx k ∨ s'.ctx k = none
  pc : s'.pc = s.pc ∧ s'.live = s.live ∨ s'.pc.inside = false

theorem Price.worth_of_drop (p : Price) {a b : Option Ctx} (h : b = a ∨ b = none) :
    p.worth (layersLeft b) ≤ p.worth (layersLeft a) := by
  rcases h with rfl | rfl
  · exact Nat.le_refl _
  · simp [layersLeft, p.zero]

theorem Drops.parked (h : Drops s s') (p : Price) (j : Fin cfg.jobs) :
    p.worth (parkedLeft s' j) ≤ p.worth (parkedLeft s j) := by
  unfold parkedLeft
  cases hk : (s'.jobs j).ctxSlot with
  | none => simp [p.zero]
  | some k =>
    rw [h.slot j k hk]
    exact p.worth_of_drop (h.ctx k)

theorem Drops.loop (h : Drops s s') (p : Price) (j : Fin cfg.jobs) :
    p.worth (loopLeft s' j) ≤ p.worth (loopLeft s j) := by
  rcases h.pc with ⟨hp, hl⟩ | hp
  · simp [loopLeft, hp, hl]
  · unfold loopLeft
    cases hpc : s'.pc with
    | layer x i =>
      rw [hpc] at hp
      cases hp
    | _ => simp [p.zero]

theorem Drops.saved (h : Drops s s') (p : Price) (j : Fin cfg.jobs) :
    p.saved s' j ≤ p.saved s j := by
  rcases h.pc with ⟨hp, -⟩ | hp
  · unfold Price.saved
    rw [hp]
    split
    · split
      · exact Nat.add_le_add_left (p.worth_of_drop (h.ctx _)) _
      · exact Nat.le_refl _
    · exact Nat.le_refl _
  · unfold Price.saved
    cases hpc : s'.pc with
    | saved x i k =>
      rw [hpc] at hp
      cases hp
    | _ => exact Nat.zero_le _

theorem Drops.credit (h : Drops s s') (p : Price) (j : Fin cfg.jobs) :
    p.credit s' j ≤ p.credit s j :=
  Nat.add_le_add (Nat.add_le_add (h.parked p j) (h.loop p j)) (h.saved p j)

/-- A job without a slot that does not run has no session. -/
theorem credit_zero (hc : (s.jobs j).ctxSlot = none) (hp : s.pc.job ≠ some j) :
    p.credit s j = 0 := by
  have hloop : loopLeft s j = 0 := by
    unfold loopLeft
    cases hpc : s.pc with
    | layer x i =>
      have hne : x ≠ j := fun he => hp (by rw [hpc, he]; rfl)
      simp [hne]
    | _ => rfl
  have hsaved : p.saved s j = 0 := by
    unfold Price.saved
    cases hpc : s.pc with
    | saved x i k =>
      have hne : x ≠ j := fun he => hp (by rw [hpc, he]; rfl)
      simp [hne]
    | _ => rfl
  simp [Price.credit, parkedLeft, hc, hloop, hsaved, p.zero]

theorem Drops.account (h : Drops s s') (p : Price) (ticket : Nat) :
    p.account ticket s' ≤ p.account ticket s := by
  refine Finset.sum_le_sum fun j _ => ?_
  rcases h.ticket j with ht | ⟨hc, hp⟩
  · rw [ht]
    split
    · exact h.credit p j
    · exact Nat.le_refl _
  · rw [credit_zero hc hp, ite_self]
    exact Nat.zero_le _

theorem Drops.of_same (h : SameJobs s s') : Drops s s' :=
  ⟨fun j => .inl (by rw [h.jobs]), fun j k hk => by rwa [h.jobs] at hk,
    fun k => .inl (by rw [h.ctx]), .inl ⟨h.pc, h.live⟩⟩

/-- One job changes, but not its ticket or its slot. -/
theorem Drops.of_set (hj : s'.jobs = Function.update s.jobs j y)
    (hy : y.ticket = (s.jobs j).ticket ∧ y.ctxSlot = (s.jobs j).ctxSlot) (hc : s'.ctx = s.ctx)
    (hp : s'.pc = s.pc ∧ s'.live = s.live ∨ s'.pc.inside = false) : Drops s s' := by
  have hall : ∀ i, (s'.jobs i).ticket = (s.jobs i).ticket ∧
      (s'.jobs i).ctxSlot = (s.jobs i).ctxSlot := by
    intro i
    rw [hj, Function.update_apply]
    split
    · rename_i he
      rw [he]
      exact hy
    · exact ⟨rfl, rfl⟩
  exact ⟨fun i => .inl (hall i).1, fun i k hk => (hall i).2.symm.trans hk,
    fun k => .inl (by rw [hc]), hp⟩

/-- The scheduler thread goes on, outside the layer loop. -/
theorem Drops.of_move (hj : s'.jobs = s.jobs) (hc : s'.ctx = s.ctx) (hp : s'.pc.inside = false) :
    Drops s s' :=
  ⟨fun i => .inl (by rw [hj]), fun i k hk => by rwa [hj] at hk, fun k => .inl (by rw [hc]),
    .inr hp⟩

-- ---------------------------------------------------------------------------
-- The calls
-- ---------------------------------------------------------------------------

theorem drops_submitLock (hr : RunningOk s) (t : Fin cfg.threads) (now : Nat) :
    Drops s (submitLock t now s) := by
  unfold submitLock
  split
  · split
    · exact .of_same ⟨rfl, rfl, rfl, rfl⟩
    next pipe params _ _ j hf =>
      have hall : ∀ i, i ≠ j → (((submitJob s j pipe params now).setThread t .idle).giveWake).jobs i
          = s.jobs i := fun i hi => Function.update_of_ne hi _ _
      have hnew : (((submitJob s j pipe params now).setThread t .idle).giveWake.jobs j).ctxSlot =
          none := by
        show (Function.update s.jobs j _ j).ctxSlot = none
        rw [Function.update_self]
      have hne : s.pc.job ≠ some j := fun hp => by
        rw [← hr j, freeJob_free hf] at hp
        cases hp
      refine ⟨fun i => ?_, fun i k hk => ?_, fun k => .inl rfl, .inl ⟨rfl, rfl⟩⟩
      · by_cases hi : i = j
        · rw [hi]
          exact .inr ⟨hnew, hne⟩
        · rw [hall i hi]
          exact .inl rfl
      · by_cases hi : i = j
        · rw [hi, hnew] at hk
          cases hk
        · rwa [hall i hi] at hk
  · exact .of_same ⟨rfl, rfl, rfl, rfl⟩

theorem Drops.refl (s : Sched cfg) : Drops s s := .of_same ⟨rfl, rfl, rfl, rfl⟩

theorem drops_cancel (n : Nat) (s : Sched cfg) : Drops s (cancel n s) := by
  unfold cancel
  split
  · exact .refl s
  next j _ =>
    split
    · exact .of_set rfl ⟨rfl, rfl⟩ rfl (.inl ⟨rfl, rfl⟩)
    · have hjobs : ∀ i, ((cancelJob (dropCtx s j) j).jobs i).ticket = (s.jobs i).ticket ∧
          ∀ k, ((cancelJob (dropCtx s j) j).jobs i).ctxSlot = some k →
            (s.jobs i).ctxSlot = some k := by
        intro i
        by_cases hi : i = j
        · subst hi
          simp [cancelJob, dropCtx, Sched.setJob]
        · simp [cancelJob, dropCtx, Sched.setJob, hi]
      refine ⟨fun i => .inl (hjobs i).1, fun i => (hjobs i).2, fun k => ?_, .inl ⟨rfl, rfl⟩⟩
      show (if _ then none else s.ctx k) = s.ctx k ∨ (if _ then none else s.ctx k) = none
      split
      · exact .inr rfl
      · exact .inl rfl
    · exact .refl s

theorem drops_getResult (n : Nat) (s : Sched cfg) : Drops s (getResult n s) := by
  unfold getResult
  split
  · exact .refl s
  · split
    · exact .of_set rfl ⟨rfl, rfl⟩ rfl (.inl ⟨rfl, rfl⟩)
    · exact .of_set rfl ⟨rfl, rfl⟩ rfl (.inl ⟨rfl, rfl⟩)
    · exact .of_set rfl ⟨rfl, rfl⟩ rfl (.inl ⟨rfl, rfl⟩)
    · exact .refl s

theorem drops_waitStep (t : Fin cfg.threads) (s : Sched cfg) : Drops s (waitStep t s) := by
  unfold waitStep
  split
  · exact .of_same ⟨rfl, rfl, rfl, rfl⟩
  · split
    · exact .of_set rfl ⟨rfl, rfl⟩ rfl (.inl ⟨rfl, rfl⟩)
    · exact .of_same ⟨rfl, rfl, rfl, rfl⟩
  · split
    · exact .of_set rfl ⟨rfl, rfl⟩ rfl (.inl ⟨rfl, rfl⟩)
    · exact .refl s
  · exact .of_set rfl ⟨rfl, rfl⟩ rfl (.inl ⟨rfl, rfl⟩)
  · split <;> exact .of_same ⟨rfl, rfl, rfl, rfl⟩
  · exact .of_same ⟨rfl, rfl, rfl, rfl⟩
  · exact .refl s

theorem destroyJob_ticket (p : Fin maxPipelines) (job : Job) :
    (destroyJob p job).ticket = job.ticket := by
  unfold destroyJob
  dsimp only
  split <;> split <;> rfl

theorem drops_destroyLock (t : Fin cfg.threads) (s : Sched cfg) : Drops s (destroyLock t s) := by
  unfold destroyLock
  split
  next pipe _ =>
    refine ⟨fun j => .inl (destroyJob_ticket pipe (s.jobs j)), fun j k hk => ?_, fun k => ?_,
      .inl ⟨rfl, rfl⟩⟩
    · have hk' : (destroyJob pipe (s.jobs j)).ctxSlot = some k := hk
      rw [destroyJob_ctxSlot] at hk'
      split at hk'
      · cases hk'
      · exact hk'
    · show (if destroyFrees s k then none else s.ctx k) = s.ctx k ∨
        (if destroyFrees s k then none else s.ctx k) = none
      split
      · exact .inr rfl
      · exact .inl rfl
  · exact .refl s

theorem drops_dispatch (s : Sched cfg) : Drops s (dispatch s) := by
  unfold dispatch
  split
  · dsimp only
    split
    · exact .of_same ⟨rfl, rfl, rfl, rfl⟩
    · split
      · exact .of_same ⟨rfl, rfl, rfl, rfl⟩
      · exact .of_set rfl ⟨rfl, rfl⟩ rfl (.inr rfl)
  · exact .refl s

/-- Everything but the scheduler thread. -/
def Op.isCall : Op cfg → Bool
  | .schedule _ _ => false
  | _ => true

theorem drops_call (hr : RunningOk s) {o : Op cfg} (ho : o.isCall = true) : Drops s (step s o) := by
  cases o with
  | schedule => cases ho
  | submitLock t now => exact drops_submitLock hr t now
  | cancel n => exact drops_cancel n s
  | getResult n => exact drops_getResult n s
  | waitEnter t n => exact .of_same (sameJobs_waitEnter t n s)
  | waitStep t => exact drops_waitStep t s
  | waitTimeout t => exact .of_same (sameJobs_waitTimeout t s)
  | destroyLock t => exact drops_destroyLock t s
  | dispatch => exact drops_dispatch s
  | create | addEnter | addWrite | buildEnter | buildWrite | destroyEnter | submitEnter
  | setMaxConcurrent => exact .of_same (quiet_of_builder s _ rfl).same
  | _ => exact .of_same (quiet_of_registry s _ rfl).same

-- ---------------------------------------------------------------------------
-- The scheduler thread
-- ---------------------------------------------------------------------------

/-- A step on the sessions of job `x` that costs `c` and brings `g` in. -/
structure Pays (p : Price) (s s' : Sched cfg) (x : Fin cfg.jobs) (c g : Nat) : Prop where
  ticket : ∀ j, (s'.jobs j).ticket = (s.jobs j).ticket
  others : ∀ j, j ≠ x → p.credit s' j ≤ p.credit s j
  pays : c + p.credit s' x ≤ p.credit s x + g

theorem Pays.account (h : Pays p s s' x c g) (ticket : Nat) :
    (if (s.jobs x).ticket = ticket then c else 0) + p.account ticket s' ≤
      p.account ticket s + if (s.jobs x).ticket = ticket then g else 0 := by
  have hsum : ∑ j, ((if j = x then if (s.jobs j).ticket = ticket then c else 0 else 0) +
        if (s.jobs j).ticket = ticket then p.credit s' j else 0) ≤
      ∑ j, ((if (s.jobs j).ticket = ticket then p.credit s j else 0) +
        if j = x then if (s.jobs j).ticket = ticket then g else 0 else 0) := by
    refine Finset.sum_le_sum fun j _ => ?_
    by_cases ht : (s.jobs j).ticket = ticket
    · simp only [ht, if_true]
      by_cases hj : j = x
      · subst hj
        simpa using h.pays
      · simpa [hj] using h.others j hj
    · simp [ht]
  simpa [Price.account, Finset.sum_add_distrib, h.ticket] using hsum

/-- A session begins. -/
theorem pays_begin (hp : s.pc = .stage j i) (p : Price) (n : Nat) :
    Pays p s { s with live := some ⟨(s.jobs j).ticket, n⟩, pc := .layer j i } j 0 (p.worth n) := by
  refine ⟨fun _ => rfl, fun x hx => ?_, ?_⟩
  · simp [Price.credit, parkedLeft, loopLeft, Price.saved, hp, Ne.symm hx]
  · simp [Price.credit, parkedLeft, loopLeft, Price.saved, hp, layersLeft, p.zero]

/-- A parked session is live again. -/
theorem pays_resume (hs : Slots s) (hp : s.pc = .stage j i) (hk : (s.jobs j).ctxSlot = some k)
    (hc : s.ctx k = some c) (p : Price)
    (hj : s'.jobs = Function.update s.jobs j y) (hy : y.ticket = (s.jobs j).ticket)
    (hslot : y.ctxSlot = none) (hl : s'.live = some c)
        (hctx : s'.ctx = Function.update s.ctx k none)
    (hp' : s'.pc = .layer j i) : Pays p s s' j 0 0 := by
  refine ⟨fun x => ?_, fun x hx => ?_, ?_⟩
  · rw [hj, Function.update_apply]
    split
    · rename_i he
      rw [he, hy]
    · rfl
  · have hjob : s'.jobs x = s.jobs x := by rw [hj, Function.update_of_ne hx]
    have hparked : parkedLeft s' x = parkedLeft s x := by
      unfold parkedLeft
      rw [hjob]
      split
      · rfl
      next k' hk' =>
        have hne : k' ≠ k := by
          rintro rfl
          exact hx (hs.inj x j k' hk' hk)
        rw [hctx, Function.update_of_ne hne]
    simp [Price.credit, hparked, loopLeft, Price.saved, hp, hp', Ne.symm hx]
  · have hjob : s'.jobs j = y := by rw [hj, Function.update_self]
    simp [Price.credit, parkedLeft, loopLeft, Price.saved, hp, hp', hl, hjob, hslot, hk, hc,
      p.zero]

/-- A layer is run. -/
theorem pays_layer (hp : s.pc = .layer j i) (hl : s.live = some ⟨owner, rem + 1⟩) (p : Price) :
    Pays p s { s with live := some ⟨owner, rem⟩, pc := .layer j i } j p.layer 0 := by
  refine ⟨fun _ => rfl, fun x hx => ?_, ?_⟩
  · simp [Price.credit, parkedLeft, loopLeft, Price.saved, hp, Ne.symm hx]
  · have := p.run rem
    simp only [Price.credit, parkedLeft, loopLeft, Price.saved, hp, hl, layersLeft, if_true]
    omega

/-- A layer is run and the session is parked. -/
theorem pays_save (hs : Slots s) (hp : s.pc = .layer j i) (hl : s.live = some ⟨owner, rem + 1⟩)
    (hrem : 0 < rem) (hk : s.ctx k = none) (p : Price) :
    Pays p s { s with
      live := none, ctx := Function.update s.ctx k (some ⟨owner, rem⟩), pc := .saved j i k }
      j p.layer 0 := by
  have hparked : ∀ x, parkedLeft { s with
      live := none, ctx := Function.update s.ctx k (some ⟨owner, rem⟩), pc := .saved j i k } x =
        parkedLeft s x := by
    intro x
    unfold parkedLeft
    dsimp only
    split
    · rfl
    next k' hk' =>
      have hne : k' ≠ k := by
        rintro rfl
        exact hs.held x k' hk' hk
      rw [Function.update_of_ne hne]
  refine ⟨fun _ => rfl, fun x hx => ?_, ?_⟩
  · simp [Price.credit, hparked, loopLeft, Price.saved, hp, Ne.symm hx]
  · have := p.save rem hrem
    simp only [Price.credit, hparked, loopLeft, Price.saved, hp, hl, layersLeft, if_true, p.zero,
      Function.update_self]
    omega

/-- The job learns its slot. -/
theorem pays_park (hp : s.pc = .saved j i k) (p : Price) : Pays p s (park s j i k) j p.park 0 := by
  have hother : ∀ x, x ≠ j → (park s j i k).jobs x = s.jobs x :=
    fun x hx => Function.update_of_ne hx _ _
  have hself : (park s j i k).jobs j = { s.jobs j with ctxSlot := some k, resumeStage := i } :=
    Function.update_self ..
  have hctx : (park s j i k).ctx = s.ctx := rfl
  have hpc : (park s j i k).pc = .left j eintr := rfl
  refine ⟨fun x => ?_, fun x hx => ?_, ?_⟩
  · by_cases hx : x = j
    · rw [hx, hself]
    · rw [hother x hx]
  · simp [Price.credit, parkedLeft, loopLeft, Price.saved, hp, hpc, hctx, hother x hx, Ne.symm hx]
  · simp only [Price.credit, parkedLeft, loopLeft, Price.saved, hp, hpc, hctx, hself, if_true,
      p.zero]
    omega

theorem drops_endModel (hj : s'.jobs = s.jobs) (hc : s'.ctx = s.ctx) (j : Fin cfg.jobs) (i : Nat)
    (res : Ret) : Drops s (endModel s' j i res) := by
  unfold endModel
  split
  · exact .of_move hj hc rfl
  · split
    · have hset : ({ s'.setJob j fun job => { job with resumeStage := i } with
          pc := .left j eintr } : Sched cfg).jobs =
            Function.update s.jobs j { s.jobs j with resumeStage := i } := by
        simp [Sched.setJob, hj]
      exact .of_set hset ⟨rfl, rfl⟩ hc (.inr rfl)
    · exact .of_move hj hc rfl

theorem drops_enterPipeline (s : Sched cfg) (j : Fin cfg.jobs) (res : Ret) :
    Drops s (enterPipeline s j res) := by
  unfold enterPipeline
  dsimp only
  repeat' split
  all_goals exact .of_move rfl rfl rfl

theorem drops_settle (s : Sched cfg) (j : Fin cfg.jobs) (ret : Ret) :
    Drops s (settle s j ret) := by
  unfold settle
  split <;> exact .of_set rfl ⟨rfl, rfl⟩ rfl (.inr rfl)

/-- What the steps cost. -/
def Price.cost (p : Price) (ticket : Nat) (s : Sched cfg) (o : Op cfg) : Nat :=
  p.layer * layersRun ticket s o + p.park * suspensions ticket s o

/-- What a stage does to the sessions. -/
theorem stage_pays (hs : Slots s) (hp : s.pc = .stage j i) (p : Price) (res : Ret)
    (layers : Option Nat) : Drops s (runStage s j i res layers) ∨
      Pays p s (runStage s j i res layers) j 0
        (if (s.pipes (s.jobs j).pipe).stages[i]? = some .model ∧ (s.jobs j).resuming = false then
          p.worth (layers.getD 0) else 0) := by
  unfold runStage
  dsimp only
  cases hst : (s.pipes (s.jobs j).pipe).stages[i]? with
  | none => exact .inl (.of_move rfl rfl rfl)
  | some st =>
    cases st with
    | preprocess fn config | postprocess fn config =>
      dsimp only
      split <;> exact .inl (.of_move rfl rfl rfl)
    | model =>
      dsimp only
      cases hr : (s.jobs j).resuming with
      | true =>
        rw [if_pos rfl]
        unfold resume
        cases hk : (s.jobs j).ctxSlot with
        | none => exact .inl (.of_set rfl ⟨rfl, rfl⟩ rfl (.inr rfl))
        | some k =>
          dsimp only
          cases hc : s.ctx k with
          | none => exact .inl (.of_set rfl ⟨rfl, rfl⟩ rfl (.inr rfl))
          | some c =>
            refine .inr ?_
            simp only [Bool.true_eq_false, and_false, if_false]
            exact pays_resume hs hp hk hc p (Function.update_idem ..) (by simp [Sched.setJob])
              (by simp) rfl rfl rfl
      | false =>
        rw [if_neg Bool.false_ne_true]
        cases layers with
        | none => exact .inl (drops_endModel rfl rfl j i _)
        | some n =>
          cases n with
          | zero => exact .inl (drops_endModel rfl rfl j i _)
          | succ n =>
            refine .inr ?_
            simpa using pays_begin hp p (n + 1)

/-- What the layer loop does to the sessions. -/
theorem layer_pays (hs : Slots s) (hp : s.pc = .layer j i) (p : Price) (res : Ret) :
    Drops s (runLayer s j i res) ∧ layersLeft s.live = 0 ∨
      Pays p s (runLayer s j i res) j p.layer 0 ∧ 0 < layersLeft s.live := by
  unfold runLayer
  cases hl : s.live with
  | none => exact .inl ⟨drops_endModel rfl rfl j i _, rfl⟩
  | some c =>
    obtain ⟨owner, rem⟩ := c
    cases rem with
    | zero =>
      refine .inl ⟨?_, rfl⟩
      apply drops_endModel <;> rfl
    | succ rem =>
      refine .inr ⟨?_, Nat.succ_pos rem⟩
      dsimp only
      split
      next hpre =>
        cases hk : freeSlot s with
        | none => exact pays_layer hp hl p
        | some k => exact pays_save hs hp hl hpre.1 (freeSlot_none hk) p
      · exact pays_layer hp hl p

/-- Every step pays for itself out of the account. -/
theorem account_step (hs : Slots s) (hr : RunningOk s) (p : Price) (ticket : Nat) (o : Op cfg) :
    p.cost ticket s o + p.account ticket (step s o) ≤
      p.account ticket s + p.worth (begun ticket s o) := by
  have hdrop : Drops s (step s o) → p.cost ticket s o = 0 →
      p.cost ticket s o + p.account ticket (step s o) ≤
        p.account ticket s + p.worth (begun ticket s o) := by
    intro h h0
    rw [h0, Nat.zero_add]
    exact (h.account p ticket).trans (Nat.le_add_right _ _)
  cases ho : o.isCall with
  | true =>
    refine hdrop (drops_call hr ho) ?_
    cases o with
    | schedule => cases ho
    | _ => simp [Price.cost, layersRun, suspensions]
  | false =>
    cases o with
    | schedule res layers =>
      cases hp : s.pc with
      | waiting | start | left | rested | reporting | calling =>
        refine hdrop ?_ (by simp [Price.cost, layersRun, suspensions, hp])
        simp only [step, schedule, hp]
        first
        | exact .refl s
        | exact drops_enterPipeline s _ res
        | exact .of_move rfl rfl rfl
        | exact .of_set rfl ⟨rfl, rfl⟩ rfl (.inr rfl)
        | exact drops_settle s _ _
      | stage j i =>
        have hstep : step s (.schedule res layers) = runStage s j i res layers := by
          simp only [step, schedule, hp]
        rcases stage_pays hs hp p res layers with h | h
        · exact hdrop (hstep ▸ h) (by simp [Price.cost, layersRun, suspensions, hp])
        · have hacc := h.account ticket
          rw [hstep]
          simp only [Price.cost, layersRun, suspensions, begun, hp] at hacc ⊢
          by_cases ht : (s.jobs j).ticket = ticket
          · by_cases hm : (s.pipes (s.jobs j).pipe).stages[i]? = some .model ∧
                (s.jobs j).resuming = false
            · simpa [ht, hm] using hacc
            · simp only [ht, hm, if_true, if_false, and_false] at hacc ⊢
              simpa [p.zero] using hacc
          · simpa [ht, p.zero] using hacc
      | layer j i =>
        have hstep : step s (.schedule res layers) = runLayer s j i res := by
          simp only [step, schedule, hp]
        rcases layer_pays hs hp p res with ⟨h, h0⟩ | ⟨h, hpos⟩
        · exact hdrop (hstep ▸ h) (by simp [Price.cost, layersRun, suspensions, hp, h0])
        · have hacc := h.account ticket
          rw [hstep]
          simp only [Price.cost, layersRun, suspensions, begun, hp, hpos, and_true, p.zero]
            at hacc ⊢
          by_cases ht : (s.jobs j).ticket = ticket <;> simpa [ht] using hacc
      | saved j i k =>
        have hstep : step s (.schedule res layers) = park s j i k := by
          simp only [step, schedule, hp]
        have hacc := (pays_park hp p).account ticket
        rw [hstep]
        simp only [Price.cost, layersRun, suspensions, begun, hp, p.zero] at hacc ⊢
        by_cases ht : (s.jobs j).ticket = ticket <;> simpa [ht] using hacc
    | _ => cases ho

theorem account_init (p : Price) (ticket : Nat) : p.account ticket (Sched.init cfg) = 0 :=
  Finset.sum_eq_zero fun j _ => by
    have hp : (Sched.init cfg).pc.job ≠ some j := by simp [Sched.init, Pc.job]
    rw [credit_zero rfl hp, ite_self]

/-- What a run costs is paid by the sessions that it begins. -/
theorem cost_le (p : Price) (ticket : Nat) (l : List (Op cfg)) :
    total step (p.cost ticket) (Sched.init cfg) l ≤
      total step (fun s o => p.worth (begun ticket s o)) (Sched.init cfg) l := by
  have h := total_le (I := fun s : Sched cfg => Slots s ∧ RunningOk s) (Φ := p.account ticket)
    ⟨Slots.init, RunningOk.init⟩ (fun s o h => ⟨slots_step h.1 o, runningOk_step h.2 o⟩)
    (fun s o h => account_step h.1 h.2 p ticket o) l
  rw [account_init] at h
  omega

/-- In every run, of every submission: no more layers are run than its sessions were begun
with, however often it is suspended, and each session is suspended less often than it has
layers. -/
theorem preemption_progress (l : List (Op cfg)) (ticket : Nat) :
    total step (layersRun ticket) (Sched.init cfg) l ≤
        total step (begun ticket) (Sched.init cfg) l ∧
      total step (suspensions ticket) (Sched.init cfg) l ≤
        total step (fun s o => begun ticket s o - 1) (Sched.init cfg) l := by
  have hlayers : Price.layers.cost ticket = (layersRun ticket : Sched cfg → Op cfg → Nat) := by
    funext s o
    simp [Price.cost, Price.layers]
  have hparks : Price.parks.cost ticket = (suspensions ticket : Sched cfg → Op cfg → Nat) := by
    funext s o
    simp [Price.cost, Price.parks]
  exact ⟨hlayers ▸ cost_le Price.layers ticket l, hparks ▸ cost_le Price.parks ticket l⟩

end SynapticOS.Infer
