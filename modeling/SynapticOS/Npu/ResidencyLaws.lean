import SynapticOS.Layered.EngineLaws
import SynapticOS.Lib.Run
import SynapticOS.Npu.Residency

/-!
# The residency contract

The registry's `resident`, the HAL's loaded blob, the prepared Neutron model and the
engine's layered blob are four records of one fact (`Sound`). A SYNN load does not
tell the engine, and a failed one takes the prepared model away without telling the
registry. Where neither happens, and the same address is not attached with two
sizes, every stage runs what its model calls for (`residency_contract`).
-/

namespace SynapticOS.Npu

open Lib Layered

variable {b : Board} {drv : Driver} {s : Rig}

-- ---------------------------------------------------------------------------
-- The layered engine
-- ---------------------------------------------------------------------------

/-- The resident blob is the same. -/
def SameResident (e e' : Engine) : Prop := e'.resident = e.resident

instance : IsPreorder Engine SameResident where
  refl _ := rfl
  trans _ _ _ h h' := Eq.trans h' h

theorem sameResident_livePlan (lim : Limits) (data : List UInt8) :
    Respects SameResident (livePlan lim data) := fun _ => rfl

theorem sameResident_begin (lim : Limits) (input : List UInt8) :
    Respects SameResident (begin lim input) := by
  unfold begin
  refine Respects.bind Respects.get fun e => ?_
  split
  · exact Respects.pure' 0
  · refine Respects.bind (Respects.attempt (sameResident_livePlan lim _)) fun r => ?_
    split
    · exact Respects.pure' 0
    · exact Respects.throw _
    · refine Respects.bind Respects.get fun e => ?_
      refine Respects.ite (Respects.throw _) ?_
      exact Respects.bind (Respects.modify fun _ => rfl) fun _ => Respects.pure' _

theorem sameResident_step : Respects SameResident Layered.step := by
  unfold Layered.step
  refine Respects.bind Respects.get fun e => ?_
  split
  · exact Respects.bind (Respects.modify fun _ => rfl) fun _ => Respects.pure' _
  · exact Respects.throw _

theorem sameResident_stepN (k : Nat) : Respects SameResident (stepN k) := by
  induction k with
  | zero => exact Respects.pure' ()
  | succ k ih => exact Respects.bind sameResident_step fun _ => ih

theorem sameResident_finish (cap : Nat) : Respects SameResident (finish cap) := by
  unfold finish remaining output
  refine Respects.bind (Respects.bind Respects.get fun e => ?_) fun n =>
    Respects.bind (sameResident_stepN n) fun _ => Respects.bind Respects.get fun e => ?_
  · exact Respects.ite (Respects.pure' _) (Respects.throw _)
  · dsimp only
    refine Respects.ite (Respects.throw _) (Respects.ite (Respects.throw _)
      (Respects.ite (Respects.throw _) ?_))
    exact Respects.bind (Respects.modify fun _ => rfl) fun _ => Respects.pure' _

theorem sameResident_save : Respects SameResident save := by
  unfold save
  refine Respects.bind Respects.get fun e => Respects.ite (Respects.throw _) ?_
  split
  · exact Respects.throw _
  · exact Respects.bind (Respects.modify fun _ => rfl) fun _ => Respects.pure' _

theorem sameResident_session (st : Stage) : Respects SameResident (session st) := by
  unfold session
  split
  · exact sameResident_finish _
  · refine Respects.bind (sameResident_stepN _) fun _ =>
      Respects.bind (Respects.attempt sameResident_save) fun r => ?_
    split
    · exact Respects.throw _
    · exact sameResident_finish _

theorem sameResident_restore (lim : Limits) (slot : Nat) :
    Respects SameResident (restore lim slot) := by
  unfold restore
  refine Respects.bind Respects.get fun e => ?_
  split
  · exact Respects.throw _
  · refine Respects.bind (Respects.attempt (sameResident_livePlan lim _)) fun r => ?_
    split
    · exact Respects.throw _
    · exact Respects.modify fun _ => rfl

theorem parseLayer_error {lim : Limits} (h : parseLayer lim dag data i = .error e) : e = .einval := by
  unfold parseLayer at h
  dsimp only at h
  generalize Layered.hdrSize + i * (if dag then 8 else 4) = d at h
  generalize (if dag then rds16 data (d + 4) else srcPrev) = rawA at h
  generalize (if dag then rds16 data (d + 6) else srcNone) = rawB at h
  split at h
  · cases h
    rfl
  · split at h
    · cases h
    · cases h
      rfl

/-- A blob whose header is accepted is not taken for one that is not layered. -/
theorem planLive_not_enotsup {lim : Limits} (h : parseHeader lim data = .ok x) (p : Plan) :
    ((planLive lim data).run p).1 ≠ .error .enotsup := by
  have hlayers : ∀ (dag : Bool) (k i : Nat) (p : Plan),
      Triple (parseLayers lim dag data k i) p (fun _ _ => True) (fun e _ => e ≠ .enotsup) := by
    intro dag k
    induction k with
    | zero => exact fun _ _ => Triple.pure' trivial
    | succ k ih =>
      intro i p
      unfold parseLayers
      split
      · rename_i e he
        rw [parseLayer_error he]
        exact Triple.throw (by decide)
      · exact Triple.modify_bind (ih (i + 1) _)
  have hplace : ∀ (t : Nat → Nat) (k n peak : Nat) (p : Plan),
      Triple (placeFrom lim t k n peak) p (fun _ _ => True) (fun e _ => e ≠ .enotsup) := by
    intro t k
    induction k with
    | zero => exact fun _ _ _ => Triple.modify trivial
    | succ k ih =>
      intro n peak p
      unfold placeFrom
      refine Triple.bind (Q := fun _ _ => True) ?_ fun top p' _ => ih (n + 1) (max peak top) p'
      unfold placeBuffer
      refine Triple.get_bind ?_
      dsimp only
      refine Triple.ite (fun _ => Triple.throw (by decide)) fun _ => ?_
      exact Triple.modify_bind (Triple.pure' trivial)
  have hlive : Triple (planLive lim data) p (fun _ _ => True) (fun e _ => e ≠ .enotsup) := by
    unfold planLive parseModel placeBuffers
    rw [h]
    obtain ⟨dag, n, input⟩ := x
    refine Triple.bind (Q := fun _ _ => True) (Triple.modify_bind (hlayers dag n 0 _)) fun _ p' _ => ?_
    exact Triple.get_bind (Triple.modify_bind (hplace _ _ 0 0 _))
  unfold Triple at hlive
  split at hlive
  · rename_i hr
    rw [hr]
    intro he
    cases he
  · rename_i e p' hr
    rw [hr]
    exact fun he => hlive (Except.error.inj he)

theorem accepts_header {lim : Limits} (h : layeredAccepts lim data = true) :
    ∃ x, parseHeader lim data = .ok x := by
  unfold layeredAccepts parseModel at h
  cases hh : parseHeader lim data with
  | ok x => exact ⟨x, rfl⟩
  | error e =>
    rw [hh] at h
    cases h

/-- A session of an accepted blob is one of the blob; without a blob there is none. -/
theorem begin_spec {lim : Limits} {e e' : Engine} (input : List UInt8)
    (hr : (begin lim input).run e = (.ok n, e')) :
    (e.resident = none → n = 0) ∧ ∀ m, e.resident = some m → layeredAccepts lim m = true →
      n ≠ 0 ∧ e'.plan.model = m := by
  unfold begin at hr
  rw [Act.run_bind, Act.run_get] at hr
  dsimp only at hr
  cases hres : e.resident with
  | none =>
    rw [hres] at hr
    exact ⟨fun _ => by cases hr; rfl, fun _ h => nomatch h⟩
  | some m =>
    rw [hres] at hr
    refine ⟨fun h => (nomatch h), fun m' hm hacc => ?_⟩
    cases hm
    obtain ⟨x, hx⟩ := accepts_header hacc
    dsimp only at hr
    rw [Act.run_bind, Act.run_attempt] at hr
    dsimp only at hr
    unfold livePlan at hr
    rw [Act.run_zoom] at hr
    have hne := planLive_not_enotsup hx e.plan
    have hspec := planLive_spec lim m e.plan
    unfold Triple at hspec
    cases hp : (planLive lim m).run e.plan with
    | mk r p =>
      rw [hp] at hr hne hspec
      cases r with
      | error err =>
        cases err with
        | enotsup => exact absurd rfl hne
        | _ => cases hr
      | ok _ =>
        dsimp only at hr hspec
        rw [Act.run_bind, Act.run_get] at hr
        dsimp only at hr
        rw [Act.run_ite] at hr
        split at hr
        · cases hr
        · cases hr
          exact ⟨Nat.pos_iff_ne_zero.mp hspec.count, hspec.model⟩

-- ---------------------------------------------------------------------------
-- The backend
-- ---------------------------------------------------------------------------

/-- What a model stage that begins now runs on. -/
def Hal.execs (s : Hal) : Exec :=
  match s.engine.resident with
  | some m => .layered m
  | none => if s.neutron.prepared then .neutron s.neutron.model else .stub

/-- The engine holds only blobs that it accepted. -/
def EngineOk (b : Board) (s : Hal) : Prop :=
  ∀ m, s.engine.resident = some m → layeredAccepts b.lim m = true

/-- The load of a blob gets to the driver. -/
def prepares (b : Board) (addr size : Nat) : Bool :=
  decide (size ≤ maxModelSize) && (neutronCheck b (b.blob addr size)).isOk

/-- The driver takes the prepared model back and prepares the next. -/
def DriverOk (drv : Driver) (s : Hal) : Prop :=
  drv.prepare = true ∧ (s.neutron.prepared = true → drv.unprepare = true)

instance (drv : Driver) (s : Hal) : Decidable (DriverOk drv s) := by
  unfold DriverOk; infer_instance

theorem neutronCheck_ok (h : neutronCheck b data = .ok d) : synnParse data = .ok d := by
  unfold neutronCheck at h
  split at h
  · cases h
  · rename_i d' hp
    split at h
    · cases h
    · split at h
      · cases h
      · split at h
        · cases h
        · split at h
          · cases h
          · rw [hp, h]

theorem neutronCheck_enotsup (h : neutronCheck b data = .error .enotsup) :
    synnParse data = .error .enotsup := by
  unfold neutronCheck at h
  split at h
  · rename_i e hp
    rw [hp, h]
  · repeat' split at h
    all_goals cases h

theorem neutronUnprepare_prepared (drv : Driver) (n : Neutron) :
    (neutronUnprepare drv n).2.prepared = false := by
  unfold neutronUnprepare
  split
  · assumption
  · rfl

theorem neutronUnprepare_ok {n : Neutron} (h : n.prepared = true → drv.unprepare = true) :
    (neutronUnprepare drv n).1 = .ok () := by
  unfold neutronUnprepare
  split
  · rfl
  · rename_i hp
    rw [if_pos (h (by simpa using hp))]

/-- The endings of `neutron_prepare`: it refuses the blob, the driver fails, or the
blob is prepared. -/
theorem neutronPrepare_cases (b : Board) (drv : Driver) (data : List UInt8) (n : Neutron) :
    (∃ e, neutronCheck b data = .error e ∧ neutronPrepare b drv data n = (.error e, n)) ∨
    (∃ d, neutronCheck b data = .ok d ∧
      ¬(drv.prepare = true ∧ (n.prepared = true → drv.unprepare = true)) ∧
      ∃ n', neutronPrepare b drv data n = (.error .eio, n')) ∨
    (∃ d, neutronCheck b data = .ok d ∧
      neutronPrepare b drv data n = (.ok (), ⟨true, data, d.inputSize⟩)) := by
  unfold neutronPrepare
  cases hc : neutronCheck b data with
  | error e => exact .inl ⟨e, rfl, rfl⟩
  | ok d =>
    refine .inr ?_
    dsimp only
    by_cases hu : n.prepared = true → drv.unprepare = true
    · have h1 := neutronUnprepare_ok hu
      cases hun : neutronUnprepare drv n with
      | mk r n' =>
        rw [hun] at h1
        cases h1
        dsimp only
        by_cases hp : drv.prepare = true
        · rw [if_pos hp]
          exact .inr ⟨d, rfl, rfl⟩
        · rw [if_neg hp]
          exact .inl ⟨d, rfl, fun h => hp h.1, _, rfl⟩
    · refine .inl ⟨d, rfl, fun h => hu h.2, ?_⟩
      obtain ⟨hprep, hfail⟩ := Classical.not_imp.mp hu
      unfold neutronUnprepare
      rw [if_neg (by simp [hprep]), if_neg hfail]
      exact ⟨_, rfl⟩

theorem onLoad_resident (b : Board) (data : List UInt8) (s : Hal) :
    (s.onLoad b data).engine.resident = if layeredAccepts b.lim data then some data else none := by
  unfold Hal.onLoad Layered.onLoad layeredAccepts
  rw [Act.run_modify]
  dsimp only
  cases hr : ((parseModel b.lim data).run Engine.boot.plan).1 with
  | ok _ => rfl
  | error _ => rfl

theorem engineOk_onLoad (b : Board) (data : List UInt8) (s : Hal) : EngineOk b (s.onLoad b data) := by
  intro m hm
  rw [onLoad_resident] at hm
  split at hm
  · rename_i hacc
    cases hm
    exact hacc
  · cases hm

/-- A load that succeeds leaves what the blob calls for, unless the engine still
holds a layered blob under a SYNN model; a load that fails leaves what was there,
unless the driver failed. -/
theorem load_spec {hal : Hal} (he : EngineOk b hal) (drv : Driver) (addr size : Nat) :
    EngineOk b (hal.load b drv addr size).2 ∧
    (((hal.load b drv addr size).1 = .ok () ∧ (hal.load b drv addr size).2.data = some addr ∧
        (hal.load b drv addr size).2.size = size ∧
        ((prepares b addr size = true → hal.engine.resident = none) →
          (hal.load b drv addr size).2.execs = calledFor b (b.blob addr size))) ∨
      (∃ e, (hal.load b drv addr size).1 = .error e) ∧
        (hal.load b drv addr size).2.data = hal.data ∧
        (hal.load b drv addr size).2.size = hal.size ∧
        ((prepares b addr size = true → DriverOk drv hal) →
          (hal.load b drv addr size).2.execs = hal.execs)) := by
  unfold Hal.load
  split
  · exact ⟨he, .inr ⟨⟨_, rfl⟩, rfl, rfl, fun _ => rfl⟩⟩
  · split
    · exact ⟨he, .inr ⟨⟨_, rfl⟩, rfl, rfl, fun _ => rfl⟩⟩
    · split
      · exact ⟨he, .inr ⟨⟨_, rfl⟩, rfl, rfl, fun _ => rfl⟩⟩
      · rename_i hsize
        have hle : size ≤ maxModelSize := Nat.le_of_not_lt hsize
        rcases neutronPrepare_cases b drv (b.blob addr size) hal.neutron with
          ⟨e, hc, hr⟩ | ⟨d, hc, hdrv, n', hr⟩ | ⟨d, hc, hr⟩
        · rw [hr]
          cases e with
          | enotsup =>
            refine ⟨engineOk_onLoad b _ _, .inl ⟨rfl, rfl, rfl, fun _ => ?_⟩⟩
            unfold Hal.execs calledFor
            rw [neutronCheck_enotsup hc]
            dsimp only
            rw [onLoad_resident]
            cases layeredAccepts b.lim (b.blob addr size) with
            | true => rfl
            | false =>
              show (if (neutronUnprepare drv hal.neutron).2.prepared then _ else Exec.stub) = .stub
              rw [neutronUnprepare_prepared]
              rfl
          | _ => exact ⟨he, .inr ⟨⟨_, rfl⟩, rfl, rfl, fun _ => rfl⟩⟩
        · rw [hr]
          dsimp only
          refine ⟨he, .inr ⟨⟨_, rfl⟩, rfl, rfl, fun h => ?_⟩⟩
          have hprep : prepares b addr size = true := by
            unfold prepares
            rw [hc]
            simp [hle, Except.isOk, Except.toBool]
          exact absurd (h hprep) hdrv
        · rw [hr]
          dsimp only
          refine ⟨he, .inl ⟨rfl, rfl, rfl, fun h => ?_⟩⟩
          have hprep : prepares b addr size = true := by
            unfold prepares
            rw [hc]
            simp [hle, Except.isOk, Except.toBool]
          unfold Hal.execs calledFor
          dsimp only
          rw [h hprep, neutronCheck_ok hc]
          rfl

theorem unload_spec {hal : Hal} (he : EngineOk b hal) (drv : Driver) :
    EngineOk b (hal.unload b drv) := by
  unfold Hal.unload
  split
  · exact he
  · exact engineOk_onLoad b _ _

/-- A call that leaves alone what the stages run on. -/
structure Hal.Same (s s' : Hal) : Prop where
  resident : s'.engine.resident = s.engine.resident
  neutron : s'.neutron = s.neutron
  data : s'.data = s.data
  size : s'.size = s.size

theorem Hal.Same.execs {s s' : Hal} (h : s.Same s') : s'.execs = s.execs := by
  unfold Hal.execs
  rw [h.resident, h.neutron]

theorem Hal.Same.engineOk {s s' : Hal} (h : s.Same s') (he : EngineOk b s) : EngineOk b s' := by
  intro m hm
  exact he m (by rw [← h.resident]; exact hm)

theorem setInput_same (size : Nat) (s : Hal) : s.Same (s.setInput size).2 := by
  unfold Hal.setInput
  repeat' split
  all_goals exact ⟨rfl, rfl, rfl, rfl⟩

theorem invoke_same (drv : Driver) (s : Hal) : s.Same (s.invoke drv).2 := by
  unfold Hal.invoke
  repeat' split
  all_goals exact ⟨rfl, rfl, rfl, rfl⟩

theorem Hal.Same.trans {s s' s'' : Hal} (h : s.Same s') (h' : s'.Same s'') : s.Same s'' :=
  ⟨h'.resident.trans h.resident, h'.neutron.trans h.neutron, h'.data.trans h.data,
    h'.size.trans h.size⟩

/-- An invocation without a layered blob runs on what the backend executes. -/
theorem invoke_execs {s : Hal} (h : (s.invoke drv).1 = .ok x) (hr : s.engine.resident = none) :
    x = s.execs := by
  unfold Hal.execs
  rw [hr]
  unfold Hal.invoke at h
  dsimp only
  split at h
  · cases h
  · split at h
    · cases h
    · split at h
      · rename_i hp
        rw [if_pos hp]
        split at h
        · cases h
        · split at h
          · cases h
            rfl
          · cases h
      · rename_i hp
        rw [if_neg hp]
        cases h
        rfl

theorem stage_spec {hal : Hal} (he : EngineOk b hal) (drv : Driver) (st : Stage)
    (input : List UInt8) :
    hal.Same (hal.stage b drv st input).2 ∧
      ∀ x, (hal.stage b drv st input).1 = .ok x → x = hal.execs := by
  unfold Hal.stage
  have hsame := sameResident_begin b.lim input hal.engine
  cases hb : (begin b.lim input).run hal.engine with
  | mk r g =>
    rw [hb] at hsame
    cases r with
    | error e => exact ⟨⟨hsame, rfl, rfl, rfl⟩, fun _ h => nomatch h⟩
    | ok n =>
      obtain ⟨hnone, hsome⟩ := begin_spec input hb
      dsimp only
      by_cases hn : n = 0
      · rw [if_neg (not_not.mpr hn)]
        -- no layered blob, since an accepted one has layers
        have hres : hal.engine.resident = none := by
          cases hres : hal.engine.resident with
          | none => rfl
          | some m => exact absurd hn (hsome m hres (he m hres)).1
        have hset := setInput_same input.length { hal with engine := g }
        cases hsi : Hal.setInput input.length { hal with engine := g } with
        | mk r s₁ =>
          rw [hsi] at hset
          have h₀ : hal.Same { hal with engine := g } := ⟨hsame, rfl, rfl, rfl⟩
          have h₁ : hal.Same s₁ := h₀.trans hset
          cases r with
          | error e => exact ⟨h₁, fun _ h => nomatch h⟩
          | ok _ =>
            dsimp only
            have hinv := invoke_same drv s₁
            cases hx : s₁.invoke drv with
            | mk r s₂ =>
              rw [hx] at hinv
              cases r with
              | error e => exact ⟨h₁.trans hinv, fun _ h => nomatch h⟩
              | ok x =>
                refine ⟨h₁.trans hinv, fun y hy => ?_⟩
                dsimp only at hy
                split at hy
                · cases hy
                  rw [← h₁.execs]
                  exact invoke_execs (by rw [hx]) (h₁.resident.trans hres)
                · cases hy
      · rw [if_pos hn]
        have hsess := sameResident_session st g
        cases hs : (session st).run g with
        | mk r g' =>
          rw [hs] at hsess
          have hg : g'.resident = hal.engine.resident := Eq.trans hsess hsame
          cases r with
          | error e => exact ⟨⟨hg, rfl, rfl, rfl⟩, fun _ h => nomatch h⟩
          | ok _ =>
            refine ⟨⟨hg, rfl, rfl, rfl⟩, fun x hx => ?_⟩
            dsimp only at hx
            split at hx
            · cases hx
              cases hres : hal.engine.resident with
              | none => exact absurd (hnone hres) hn
              | some m =>
                unfold Hal.execs
                rw [hres, (hsome m hres (he m hres)).2]
            · cases hx

theorem resume_same (b : Board) (st : Stage) (slot : Nat) (hal : Hal) :
    hal.Same (hal.resume b st slot) := by
  unfold Hal.resume
  have hres := sameResident_restore b.lim slot hal.engine
  cases hr : (restore b.lim slot).run hal.engine with
  | mk r g =>
    rw [hr] at hres
    cases r with
    | error e => exact ⟨hres, rfl, rfl, rfl⟩
    | ok _ => exact ⟨Eq.trans (sameResident_session st g) hres, rfl, rfl, rfl⟩

-- ---------------------------------------------------------------------------
-- The four records
-- ---------------------------------------------------------------------------

/-- What the registry believes resident is what a stage would run on. -/
def Sound (b : Board) (s : Rig) : Prop :=
  ∀ addr, s.resident = some addr → s.hal.data = some addr ∧
    s.hal.execs = calledFor b (b.blob addr s.hal.size)

structure RigOk (b : Board) (s : Rig) : Prop where
  engine : EngineOk b s.hal
  sizes : ∀ i addr, (s.slots i).data = some addr → (s.slots i).size ≠ 0
  sound : Sound b s
  contract : Contract b s

/-- The blob that loading an entry hands to the HAL, once it is checked. -/
def ModelSlot.handed (b : Board) (drv : Driver) (x : ModelSlot) : Option (Nat × Nat × Driver) :=
  match x.toLoad with
  | none => none
  | some addr => if x.crcOk b addr then some (addr, x.size, drv) else none

/-- The blob that an operation hands to the HAL. -/
def Rig.loads (b : Board) (s : Rig) : Op → Option (Nat × Nat × Driver)
  | .load h drv =>
    match s.index b h with
    | some i => if (s.slots i).loaded then none else (s.slots i).handed b drv
    | none => none
  | .swap old new drv =>
    match s.index b old, s.index b new with
    | some o, some n => if o = n ∨ (s.slots n).loaded then none else (s.slots n).handed b drv
    | _, _ => none
  | .job h _ drv _ =>
    match s.index b h with
    | some i =>
      if (s.slots i).loaded = false ∨ (s.slots i).data = s.resident then none
      else (s.slots i).handed b drv
    | none => none
  | _ => none

/-- A SYNN model replaces no layered blob, and where something is resident the
driver does not fail. -/
def LoadSafe (s : Rig) (b : Board) : Option (Nat × Nat × Driver) → Prop
  | none => True
  | some (addr, size, drv) => prepares b addr size = true →
    s.hal.engine.resident = none ∧ (s.resident ≠ none → DriverOk drv s.hal)

/-- A job whose blob is resident has it attached with the size it was loaded with. -/
def SizeSafe (b : Board) (s : Rig) : Op → Prop
  | .job h _ _ _ =>
    match s.index b h with
    | some i => (s.slots i).data ≠ none → (s.slots i).data = s.resident → (s.slots i).size = s.hal.size
    | none => True
  | _ => True

def Careful (b : Board) (s : Rig) (o : Op) : Prop := LoadSafe s b (s.loads b o) ∧ SizeSafe b s o

instance (s : Rig) (b : Board) (r : Option (Nat × Nat × Driver)) : Decidable (LoadSafe s b r) := by
  unfold LoadSafe
  split <;> infer_instance

instance (b : Board) (s : Rig) (o : Op) : Decidable (SizeSafe b s o) := by
  unfold SizeSafe
  split
  · split <;> infer_instance
  · infer_instance

instance (b : Board) (s : Rig) (o : Op) : Decidable (Careful b s o) := by
  unfold Careful; infer_instance

theorem RigOk.setSlot (h : RigOk b s) (i : Nat) {x : ModelSlot}
    (hx : ∀ addr, x.data = some addr → x.size ≠ 0) : RigOk b (s.setSlot i x) := by
  refine ⟨h.engine, fun j addr => ?_, h.sound, h.contract⟩
  show (Function.update s.slots i x j).data = _ → (Function.update s.slots i x j).size ≠ 0
  rw [Function.update_apply]
  split
  · exact hx addr
  · exact h.sizes j addr

/-- A load keeps the records together, and its blob is what a stage runs on. -/
theorem halLoad_ok (h : RigOk b s) (drv : Driver) (x : ModelSlot)
    (hs : LoadSafe s b (x.handed b drv)) :
    RigOk b (halLoad b drv x s).2 ∧ (halLoad b drv x s).2.slots = s.slots ∧
      (halLoad b drv x s).2.ran = s.ran ∧
      ((halLoad b drv x s).1 = .ok () → ∀ addr, x.data = some addr → x.size ≠ 0 →
        (halLoad b drv x s).2.hal.execs = calledFor b (b.blob addr x.size)) := by
  have htoLoad : ∀ addr, x.data = some addr → x.size ≠ 0 → x.toLoad = some addr := by
    intro addr hd hz
    unfold ModelSlot.toLoad
    rw [hd]
    exact if_neg hz
  unfold halLoad
  unfold ModelSlot.handed at hs
  cases hl : x.toLoad with
  | none =>
    refine ⟨h, rfl, rfl, fun _ addr hd hz => ?_⟩
    rw [htoLoad addr hd hz] at hl
    cases hl
  | some addr =>
    rw [hl] at hs
    dsimp only at hs ⊢
    cases hcrc : x.crcOk b addr with
    | false => exact ⟨h, rfl, rfl, fun hok => nomatch hok⟩
    | true =>
      rw [hcrc] at hs
      rw [if_neg (by decide)]
      obtain ⟨heng, hload⟩ := load_spec h.engine drv addr x.size
      cases hr : s.hal.load b drv addr x.size with
      | mk r hal =>
        rw [hr] at heng hload
        rcases hload with ⟨hok, hdata, hsize, hexecs⟩ | ⟨⟨e, herr⟩, hdata, hsize, hexecs⟩
        · cases hok
          dsimp only at hdata hsize hexecs ⊢
          have he := hexecs fun hp => (hs hp).1
          refine ⟨⟨heng, h.sizes, fun a ha => ?_, h.contract⟩, rfl, rfl, fun _ a hd hz => ?_⟩
          · cases ha
            refine ⟨hdata, ?_⟩
            dsimp only
            rw [hsize]
            exact he
          · rw [htoLoad a hd hz] at hl
            cases hl
            exact he
        · cases herr
          dsimp only at hdata hsize hexecs ⊢
          refine ⟨⟨heng, h.sizes, fun a ha => ?_, h.contract⟩, rfl, rfl, fun hok => nomatch hok⟩
          obtain ⟨h1, h2⟩ := h.sound a ha
          have hres : s.resident ≠ none := by
            rw [show s.resident = some a from ha]
            exact fun hn => nomatch hn
          refine ⟨hdata.trans h1, ?_⟩
          dsimp only
          rw [hexecs fun hp => (hs hp).2 hres, hsize]
          exact h2

theorem doLoad_ok (h : RigOk b s) (drv : Driver) (i : Nat)
    (hs : LoadSafe s b ((s.slots i).handed b drv)) : RigOk b (doLoad b drv i s) := by
  have hload := (halLoad_ok h drv (s.slots i) hs).1
  unfold doLoad
  cases hr : halLoad b drv (s.slots i) s with
  | mk r s' =>
    rw [hr] at hload
    cases r with
    | ok _ => exact hload.setSlot i (hload.sizes i)
    | error e => exact hload

theorem unloadSlot_ok (h : RigOk b s) (i : Nat) (drv : Driver) : RigOk b (unloadSlot b i drv s) := by
  unfold unloadSlot
  split
  · exact h
  · have hset := h.setSlot i (x := { s.slots i with loaded := false }) (h.sizes i)
    dsimp only
    split
    · exact ⟨unload_spec hset.engine drv, hset.sizes, fun _ ha => (nomatch ha), hset.contract⟩
    · exact hset

-- ---------------------------------------------------------------------------
-- Jobs
-- ---------------------------------------------------------------------------

/-- Once a model is ensured resident, a stage runs on what its blob calls for. -/
theorem ensureResident_ok (h : RigOk b s) (drv : Driver) (i : Nat)
    (hl : (s.slots i).loaded = true → (s.slots i).data ≠ s.resident →
      LoadSafe s b ((s.slots i).handed b drv))
    (hsize : (s.slots i).data ≠ none → (s.slots i).data = s.resident →
      (s.slots i).size = s.hal.size) :
    RigOk b (ensureResident b drv i s).2 ∧ (ensureResident b drv i s).2.slots = s.slots ∧
      (ensureResident b drv i s).2.ran = s.ran ∧
      ((ensureResident b drv i s).1 = .ok () → (s.slots i).loaded = true ∧
        ∀ addr, (s.slots i).data = some addr →
          (ensureResident b drv i s).2.hal.execs = calledFor b (b.blob addr (s.slots i).size)) := by
  unfold ensureResident
  dsimp only
  split
  · exact ⟨h, rfl, rfl, fun hok => nomatch hok⟩
  · rename_i hloaded
    have hloaded : (s.slots i).loaded = true := by simpa using hloaded
    split
    · rename_i hd
      refine ⟨h, rfl, rfl, fun _ => ⟨hloaded, fun addr ha => ?_⟩⟩
      have hres : (s.slots i).data = s.resident := hd.resolve_left (by rw [ha]; exact fun hn => nomatch hn)
      rw [hsize (by rw [ha]; exact fun hn => nomatch hn) hres]
      exact (h.sound addr (hres.symm.trans ha)).2
    · rename_i hd
      have hne : (s.slots i).data ≠ s.resident := fun he => hd (.inr he)
      obtain ⟨h1, h2, h3, h4⟩ := halLoad_ok h drv (s.slots i) (hl hloaded hne)
      exact ⟨h1, h2, h3, fun hok => ⟨hloaded, fun addr ha => h4 hok addr ha (h.sizes i addr ha)⟩⟩

theorem job_ok (h : RigOk b s) (n : Nat) (input : List UInt8) (drv : Driver) (st : Stage)
    (hc : Careful b s (.job n input drv st)) : RigOk b (job b n input drv st s) := by
  obtain ⟨hload, hsize⟩ := hc
  unfold Rig.loads at hload
  unfold SizeSafe at hsize
  dsimp only at hload hsize
  unfold job
  cases hi : s.index b n with
  | none => exact h
  | some i =>
    rw [hi] at hload hsize
    dsimp only at hload hsize ⊢
    have hens := ensureResident_ok h drv i (fun hl hne => by
      rwa [if_neg (by simp [hl, hne])] at hload) hsize
    cases hr : ensureResident b drv i s with
    | mk r s₁ =>
      rw [hr] at hens
      obtain ⟨h1, hslots, hran, hexecs⟩ := hens
      cases r with
      | error e => exact h1
      | ok _ =>
        obtain ⟨hloaded, hexecs⟩ := hexecs rfl
        dsimp only at hslots hexecs h1 ⊢
        obtain ⟨hsame, hstage⟩ := stage_spec h1.engine drv st input
        cases hst : s₁.hal.stage b drv st input with
        | mk r hal =>
          rw [hst] at hsame hstage
          dsimp only at hsame hstage
          have hsound : ∀ addr, s₁.resident = some addr → hal.data = some addr ∧
              hal.execs = calledFor b (b.blob addr hal.size) := by
            intro addr ha
            rw [hsame.data, hsame.execs, hsame.size]
            exact h1.sound addr ha
          cases r with
          | error e => exact ⟨hsame.engineOk h1.engine, h1.sizes, hsound, h1.contract⟩
          | ok x =>
            refine ⟨hsame.engineOk h1.engine, h1.sizes, hsound, fun r hr addr ha => ?_⟩
            rcases List.mem_append.mp hr with hr | hr
            · exact h1.contract r hr addr ha
            · rw [List.mem_singleton.mp hr] at ha ⊢
              dsimp only at ha ⊢
              rw [hslots] at ha ⊢
              exact ⟨hloaded, (hstage x rfl).trans (hexecs addr ha)⟩

-- ---------------------------------------------------------------------------
-- Runs
-- ---------------------------------------------------------------------------

theorem rigOk_step (h : RigOk b s) (o : Op) (hc : Careful b s o) : RigOk b (step b s o) := by
  cases o with
  | register name crc32 =>
    unfold step register
    dsimp only
    split
    · exact h
    · split
      · exact h
      · exact h.setSlot _ fun _ hd => nomatch hd
  | setData n data size =>
    unfold step setData
    dsimp only
    split
    · exact h
    · split
      · exact h
      · rename_i hz
        refine h.setSlot _ fun addr hd => ?_
        dsimp only at hd ⊢
        rw [hd, if_neg (by exact fun hn => nomatch hn)]
        exact fun hs => hz ⟨by rw [hd]; exact fun hn => (nomatch hn), hs⟩
  | load n drv =>
    have hl := hc.1
    unfold Rig.loads at hl
    dsimp only at hl
    unfold step load
    dsimp only
    cases hi : s.index b n with
    | none => exact h
    | some i =>
      rw [hi] at hl
      dsimp only at hl ⊢
      split
      · exact h
      · rename_i hnl
        rw [if_neg hnl] at hl
        exact doLoad_ok h drv i hl
  | unload n suspended drv =>
    unfold step unload
    dsimp only
    split
    · exact h
    · split
      · exact h
      · exact unloadSlot_ok h _ drv
  | unregister n suspended drv =>
    unfold step unregister
    dsimp only
    split
    · exact h
    · split
      · exact h
      · exact (unloadSlot_ok h _ drv).setSlot _ fun _ hd => nomatch hd
  | swap old new drv =>
    have hl := hc.1
    unfold Rig.loads at hl
    dsimp only at hl
    unfold step swap
    dsimp only
    cases ho : s.index b old with
    | none => exact h
    | some o =>
      cases hn : s.index b new with
      | none => exact h
      | some n =>
        rw [ho, hn] at hl
        dsimp only at hl ⊢
        split
        · exact h
        · rename_i hne
          have hset := h.setSlot o (x := { s.slots o with loaded := false }) (h.sizes o)
          have hslot : (s.setSlot o { s.slots o with loaded := false }).slots n = s.slots n :=
            Function.update_of_ne (fun he => hne he.symm) _ _
          split
          · exact hset
          · rename_i hnl
            rw [hslot] at hnl
            rw [if_neg (by simp [hne, hnl])] at hl
            exact doLoad_ok hset drv n (by rw [hslot]; exact hl)
  | job n input drv st => exact job_ok h n input drv st hc
  | resume slot st =>
    have hsame := resume_same b st slot s.hal
    refine ⟨hsame.engineOk h.engine, h.sizes, fun addr ha => ?_, h.contract⟩
    show (s.hal.resume b st slot).data = _ ∧ (s.hal.resume b st slot).execs = _
    rw [hsame.data, hsame.execs]
    show _ ∧ _ = calledFor b (b.blob addr (s.hal.resume b st slot).size)
    rw [hsame.size]
    exact h.sound addr ha

theorem RigOk.init (b : Board) : RigOk b Rig.init :=
  ⟨fun _ h => (nomatch h), fun _ _ h => (nomatch h), fun _ h => (nomatch h), fun _ h => (nomatch h)⟩

/-- The residency contract. -/
theorem residency_contract (b : Board) (ops : List Op) (h : Along (step b) (Careful b) Rig.init ops) :
    Contract b (run (step b) Rig.init ops) :=
  (h.invariant (RigOk.init b) fun _ o hi hc => rigOk_step hi o hc).contract

/-- A header without sections: two bytes of input, one of output. -/
def synnBlob : List UInt8 :=
  [0x53, 0x59, 0x4E, 0x4E, 1, 0, 0, 0, 48, 0, 0, 0, 0, 0, 0, 0, 48, 0, 0, 0, 0, 0, 0, 0,
   48, 0, 0, 0, 0, 0, 0, 0, 2, 0, 0, 0, 1, 0, 0, 0, 0, 0, 0, 0, 0, 0, 0, 0]

/-- `skipBlob` at 0 and `synnBlob` at 64. -/
def smallBoard : Board :=
  ⟨smallLimits, 2, 0, 0, true, 0, Mem.put (Mem.put (fun _ => 0) 0 skipBlob) 64 synnBlob⟩

def driverOk : Driver := ⟨true, true, true⟩
def wholeStage : Stage := ⟨none, 8, true⟩

def registerBoth : List Op :=
  [.register [1] 0, .register [2] 0, .setData 1 (some 0) skipBlob.length,
    .setData 2 (some 64) synnBlob.length]

def job₁ : Op := .job 1 [5, 9] driverOk wholeStage
def job₂ : Op := .job 2 [5, 9] driverOk wholeStage

/-- Both models run, the layered one after the other. -/
theorem residency_contract_both :
    Contract smallBoard (run (step smallBoard) Rig.init
      (registerBoth ++ [.load 2 driverOk, job₂, .load 1 driverOk, job₁])) :=
  residency_contract smallBoard _ (by decide +kernel)

/-- A SYNN model that is loaded after a layered one runs the layers of the other. -/
theorem synn_runs_layers :
    ¬Contract smallBoard (run (step smallBoard) Rig.init
      (registerBoth ++ [.load 1 driverOk, .load 2 driverOk, job₂])) := by
  intro h
  have := h ⟨⟨true, true, [2], 0, some 64, 48⟩, .layered skipBlob⟩ (by decide +kernel) 64 rfl
  revert this
  decide +kernel

end SynapticOS.Npu
