import SynapticOS.Npu.ResidencyLaws
import SynapticOS.Memory.Arena

/-!
# The output of a model stage

`execute_model_stage` with the buffers that the data moves through. The tensor
for the output is allocated from the size that the model's record declares; what
is copied into it has the size that the blob declares, except for the stub.
-/

namespace SynapticOS.Npu

open Lib Layered

variable {b : Board} {cfg : Memory.Cfg}

/-- `STAGE_MIN_CAPACITY`. -/
def stageMinCapacity : Nat := 64

/-- What a model stage reads of `syn_model_info_t`. -/
structure StageInfo where
  outputSize : UInt32
  outputDtype : Memory.Dtype

def StageInfo.capacity (info : StageInfo) : Nat :=
  let cap := info.outputSize.toNat
  if cap < stageMinCapacity then stageMinCapacity else cap

/-- `neutron.output_size`, which is only read while the model is prepared. -/
def Neutron.outputSize (n : Neutron) : Nat := (synnDesc n.model).outputSize

/-- A model stage of a job. `resuming` is the slot of a preempted job, `preempt`
says before how many remaining layers a job of a higher priority waits, and
`computed` is what the NPU leaves in the output buffer. -/
structure StageCall where
  info : StageInfo
  input : List UInt8
  resuming : Option Nat
  preempt : Nat → Bool
  drv : Driver
  computed : Vector UInt8 maxOutputSize

/-- The backend with its data buffers, and the arena. -/
structure Io where
  hal : Hal
  inputBuf : List UInt8
  outputBuf : Vector UInt8 maxOutputSize
  outputSize : Nat
  arena : Memory.Arena

/-- A stage's tensor, and what was copied to its data. -/
structure Filled where
  tensor : Memory.Tensor
  bytes : List UInt8

def filled (info : StageInfo) (t : Memory.Tensor) (size : Nat) (bytes : List UInt8) : Filled :=
  ⟨{ t with
      size := size, dtype := info.outputDtype, ndim := 1, shape := t.shape.set 0 size }, bytes⟩

-- ---------------------------------------------------------------------------
-- The layered path
-- ---------------------------------------------------------------------------

def openSession (lim : Limits) (input : List UInt8) : Option Nat → EngineM Nat
  | some slot => do
    restore lim slot
    remaining
  | none => begin lim input

/-- The loop over the layers that remain; each step leaves one less. -/
def runLayers (preempt : Nat → Bool) : Nat → EngineM Unit
  | 0 => pure ()
  | k + 1 => do
    let rem ← Layered.step
    if 0 < rem ∧ preempt rem then do
      match ← Act.attempt save with
      | .ok _ => Act.throw .eintr
      | .error _ => runLayers preempt k
    else runLayers preempt k

namespace Io

def withHal (s : Io) (hal : Hal) : Io := { s with hal := hal }
def withEngine (s : Io) (g : Engine) : Io := { s with hal := { s.hal with engine := g } }

def allocStageOutput (cfg : Memory.Cfg) (cap : Nat) (s : Io) : Option Memory.Tensor × Io :=
  match Memory.tensorAlloc cfg [cap] .int8 .ephemeral s.arena with
  | (t, arena) => (t, { s with arena := arena })

/-- Nothing is what `execute_layered` says for a model that is not layered. -/
def executeLayered (lim : Limits) (cfg : Memory.Cfg) (call : StageCall) (s : Io) :
    Except Errno (Option Filled) × Io :=
  match (openSession lim call.input call.resuming).run s.hal.engine with
  | (.error e, g) => (.error e, s.withEngine g)
  | (.ok rem, g) =>
    if call.resuming = none ∧ rem = 0 then (.ok none, s.withEngine g)
    else
      match (runLayers call.preempt rem).run g with
      | (.error e, g) => (.error e, s.withEngine g)
      | (.ok (), g) =>
        match (s.withEngine g).allocStageOutput cfg call.info.capacity with
        | (none, s) => (.error .enomem, s)
        | (some t, s) =>
          match (output t.size).run s.hal.engine with
          | (.error e, g) => (.error e, s.withEngine g)
          | (.ok bytes, g) => (.ok (some (filled call.info t bytes.length bytes)), s.withEngine g)

-- ---------------------------------------------------------------------------
-- The HAL path
-- ---------------------------------------------------------------------------

def setInput (data : List UInt8) (s : Io) : Except Errno Unit × Io :=
  match s.hal.setInput data.length with
  | (.error e, hal) => (.error e, s.withHal hal)
  | (.ok (), hal) => (.ok (), { s with hal := hal, inputBuf := data })

def stubWinner (input : List UInt8) : Nat := (input.map UInt8.toNat).sum % 2 ^ 32 % 10

/-- The deterministic classification of the stub. -/
def stubOutput (input : List UInt8) (buf : Vector UInt8 maxOutputSize) :
    Vector UInt8 maxOutputSize :=
  Vector.ofFn fun i => if i < 10 then if i = stubWinner input then 127 else 0 else buf[i]

def invoke (drv : Driver) (computed : Vector UInt8 maxOutputSize) (s : Io) :
    Except Errno Unit × Io :=
  match s.hal.invoke drv with
  | (.error e, hal) => (.error e, s.withHal hal)
  | (.ok _, hal) =>
    if hal.neutron.prepared then
      (.ok (), { s with
        hal := hal, outputBuf := computed, outputSize := hal.neutron.outputSize })
    else
      (.ok (), { s with
        hal := hal, outputBuf := stubOutput s.inputBuf s.outputBuf, outputSize := 10 })

/-- `syn_hal_npu_get_output`: the capacity that `*size` comes with is not read. -/
def getOutput (_size : Nat) (s : Io) : Except Errno (List UInt8) :=
  if s.hal.state = .busy then .error .ebusy else .ok (s.outputBuf.toList.take s.outputSize)

def executeModelStage (lim : Limits) (cfg : Memory.Cfg) (call : StageCall) (s : Io) :
    Except Errno Filled × Io :=
  match s.executeLayered lim cfg call with
  | (.error e, s) => (.error e, s)
  | (.ok (some f), s) => (.ok f, s)
  | (.ok none, s) =>
    match s.setInput call.input with
    | (.error e, s) => (.error e, s)
    | (.ok (), s) =>
      match s.invoke call.drv call.computed with
      | (.error e, s) => (.error e, s)
      | (.ok (), s) =>
        match s.allocStageOutput cfg call.info.capacity with
        | (none, s) => (.error .enomem, s)
        | (some t, s) =>
          match s.getOutput t.size with
          | .error e => (.error e, s)
          | .ok bytes => (.ok (filled call.info t s.outputSize bytes), s)

def init (arena : Memory.Arena) : Io :=
  ⟨Hal.init, [], Vector.replicate maxOutputSize 0, 0, arena⟩

end Io

inductive IoOp
  | load (addr size : Nat) (drv : Driver)
  | unload (drv : Driver)
  | stage (call : StageCall)
  | slotFree (slot : Nat)
  | arena (o : Memory.Op)

def Io.step (b : Board) (cfg : Memory.Cfg) (s : Io) : IoOp → Io
  | .load addr size drv => s.withHal (s.hal.load b drv addr size).2
  | .unload drv => s.withHal (s.hal.unload b drv)
  | .stage call => (s.executeModelStage b.lim cfg call).2
  | .slotFree slot => s.withEngine ((slotFree slot).run s.hal.engine).2
  | .arena o => { s with arena := Memory.step cfg s.arena o }

/-- What a stage copied. A stage that fails has not copied anything. -/
def written : Except Errno Filled → List UInt8
  | .ok f => f.bytes
  | .error _ => []

/-- The stage of a prepared SYNN model goes through, and the blob declares a larger
output than the model's record has room for. -/
structure Overruns (cfg : Memory.Cfg) (call : StageCall) (s : Io) : Prop where
  fresh : call.resuming = none
  resident : s.hal.engine.resident = none
  prepared : s.hal.neutron.prepared = true
  input : call.input.length = s.hal.neutron.inputSize
  runs : call.drv.run = true
  room : (Memory.tensorAlloc cfg [call.info.capacity] .int8 .ephemeral s.arena).1.isSome = true
  larger : call.info.capacity < s.hal.neutron.outputSize

-- ---------------------------------------------------------------------------
-- The layered path copies what fits
-- ---------------------------------------------------------------------------

theorem tensorAlloc_size {a : Memory.Arena} {info : StageInfo}
    (h : (Memory.tensorAlloc cfg [info.capacity] .int8 .ephemeral a).1 = some t) :
    t.size = info.capacity := by
  have hlt : info.capacity < 2 ^ 32 := by
    have := info.outputSize.toNat_lt
    unfold StageInfo.capacity stageMinCapacity
    dsimp only
    split <;> omega
  have hsize : Memory.dataSize [info.capacity] .int8 = info.capacity := by
    unfold Memory.dataSize Memory.elements Memory.dtypeSize
    simp only [List.foldl_cons, List.foldl_nil, Nat.one_mul, Nat.mul_one]
    rw [Nat.mod_mod, Nat.mod_eq_of_lt hlt]
  unfold Memory.tensorAlloc at h
  split at h
  · cases h
  · dsimp only at h
    split at h
    · cases h
    · cases h
      exact hsize

theorem output_length {e e' : Engine} (h : (output cap).run e = (.ok bytes, e')) :
    bytes.length ≤ cap := by
  unfold output at h
  rw [Act.run_bind, Act.run_get] at h
  dsimp only at h
  repeat' rw [Act.run_ite] at h
  split at h
  · cases h
  · split at h
    · cases h
    · split at h
      · cases h
      · rename_i hcap
        cases h
        rw [Mem.length_read]
        exact Nat.not_lt.mp hcap

theorem sameResident_openSession (lim : Limits) (input : List UInt8) (slot : Option Nat) :
    Respects SameResident (openSession lim input slot) := by
  cases slot with
  | none => exact sameResident_begin lim input
  | some slot =>
    refine Respects.bind (sameResident_restore lim slot) fun _ =>
      Respects.bind Respects.get fun e => ?_
    exact Respects.ite (Respects.pure' _) (Respects.throw _)

theorem sameResident_runLayers (preempt : Nat → Bool) (k : Nat) :
    Respects SameResident (runLayers preempt k) := by
  induction k with
  | zero => exact Respects.pure' ()
  | succ k ih =>
    refine Respects.bind sameResident_step fun rem => Respects.ite ?_ ih
    refine Respects.bind (Respects.attempt sameResident_save) fun r => ?_
    split
    · exact Respects.throw _
    · exact ih

theorem sameResident_output (cap : Nat) : Respects SameResident (output cap) := by
  unfold output
  refine Respects.bind Respects.get fun e => Respects.ite (Respects.throw _)
    (Respects.ite (Respects.throw _) (Respects.ite (Respects.throw _) ?_))
  exact Respects.bind (Respects.modify fun _ => rfl) fun _ => Respects.pure' _

/-- What a model stage leaves alone. -/
structure Io.Same (s s' : Io) : Prop where
  hal : s.hal.Same s'.hal
  loaded : s'.hal.modelLoaded = s.hal.modelLoaded
  idle : s.hal.state ≠ .busy → s'.hal.state ≠ .busy

namespace Io

variable {s s' s'' : Io} {call : StageCall}

theorem Same.trans (h : s.Same s') (h' : s'.Same s'') : s.Same s'' :=
  ⟨h.hal.trans h'.hal, h'.loaded.trans h.loaded, fun hi => h'.idle (h.idle hi)⟩

theorem same_withEngine (h : SameResident s.hal.engine g) : s.Same (s.withEngine g) :=
  ⟨⟨h, rfl, rfl, rfl⟩, rfl, id⟩

theorem same_alloc (cfg : Memory.Cfg) (s : Io) (cap : Nat) : s.Same (s.allocStageOutput cfg cap).2 :=
  ⟨⟨rfl, rfl, rfl, rfl⟩, rfl, id⟩

/-- The layered path of a model that is layered. -/
structure Layers (call : StageCall) (r : Except Errno (Option Filled)) : Prop where
  taken : r ≠ .ok none
  fits : ∀ f, r = .ok (some f) → f.bytes.length ≤ call.info.capacity

theorem Layers.error (e : Errno) : Layers call (.error e) := ⟨nofun, nofun⟩

theorem begin_none (lim : Limits) (input : List UInt8) {e : Engine} (h : e.resident = none) :
    (begin lim input).run e = (.ok 0, e) := by
  unfold begin
  rw [Act.run_bind, Act.run_get]
  dsimp only
  rw [h]
  rfl

/-- Whether the layered path is taken. -/
def TakesLayers (call : StageCall) (s : Io) : Prop :=
  call.resuming ≠ none ∨ s.hal.engine.resident ≠ none

theorem executeLayered_none (lim : Limits) (h : ¬TakesLayers call s) :
    s.executeLayered lim cfg call = (.ok none, s) := by
  obtain ⟨hr, hres⟩ := not_or.mp h
  have hr := not_not.mp hr
  unfold executeLayered openSession
  rw [hr]
  dsimp only
  rw [begin_none lim call.input (not_not.mp hres)]
  dsimp only
  rw [if_pos ⟨rfl, rfl⟩]
  rfl

/-- A session that opens on the layered path has layers left or is a resumed one. -/
theorem openSession_layers (he : EngineOk b s.hal) (ht : TakesLayers call s)
    (h : (openSession b.lim call.input call.resuming).run s.hal.engine = (.ok rem, g)) :
    ¬(call.resuming = none ∧ rem = 0) := by
  rintro ⟨hr, hrem⟩
  have hres := ht.resolve_left (not_not.mpr hr)
  cases hm : s.hal.engine.resident with
  | none => exact hres hm
  | some m =>
    rw [hr] at h
    exact ((begin_spec call.input h).2 m hm (he m hm)).1 hrem

theorem executeLayered_layers (cfg : Memory.Cfg) (he : EngineOk b s.hal) (ht : TakesLayers call s) :
    s.Same (s.executeLayered b.lim cfg call).2 ∧
      Layers call (s.executeLayered b.lim cfg call).1 := by
  unfold executeLayered
  have hopen := sameResident_openSession b.lim call.input call.resuming s.hal.engine
  cases ho : (openSession b.lim call.input call.resuming).run s.hal.engine with
  | mk r g =>
    rw [ho] at hopen
    cases r with
    | error e => exact ⟨same_withEngine hopen, .error e⟩
    | ok rem =>
      dsimp only
      rw [if_neg (openSession_layers he ht ho)]
      have hloop := sameResident_runLayers call.preempt rem g
      cases hl : (runLayers call.preempt rem).run g with
      | mk r g' =>
        rw [hl] at hloop
        have hsame : SameResident s.hal.engine g' := Eq.trans hloop hopen
        cases r with
        | error e => exact ⟨same_withEngine hsame, .error e⟩
        | ok _ =>
          dsimp only
          have halloc := (same_withEngine hsame).trans
            (same_alloc cfg (s.withEngine g') call.info.capacity)
          cases ha : (s.withEngine g').allocStageOutput cfg call.info.capacity with
          | mk t s₁ =>
            rw [ha] at halloc
            cases t with
            | none => exact ⟨halloc, .error _⟩
            | some t =>
              dsimp only
              have hout := sameResident_output t.size s₁.hal.engine
              cases hx : (output t.size).run s₁.hal.engine with
              | mk r g'' =>
                rw [hx] at hout
                cases r with
                | error e => exact ⟨halloc.trans (same_withEngine hout), .error e⟩
                | ok bytes =>
                  refine ⟨halloc.trans (same_withEngine hout), nofun, ?_⟩
                  rintro f hf
                  cases hf
                  have hsize : t.size = call.info.capacity :=
                    tensorAlloc_size (a := (s.withEngine g').arena) (congrArg Prod.fst ha)
                  exact hsize ▸ output_length hx

-- ---------------------------------------------------------------------------
-- The HAL path
-- ---------------------------------------------------------------------------

/-- What holds of a prepared model, and of the backend between two calls. -/
structure Ready (b : Board) (hal : Hal) : Prop where
  engine : EngineOk b hal
  idle : hal.state ≠ .busy
  loaded : hal.neutron.prepared = true → hal.modelLoaded = true
  input : hal.neutron.prepared = true →
    0 < hal.neutron.inputSize ∧ hal.neutron.inputSize ≤ maxInputSize
  output : hal.neutron.prepared = true → hal.neutron.outputSize ≤ maxOutputSize

theorem Ready.same (h : Ready b s.hal) (hs : s.Same s') : Ready b s'.hal where
  engine := hs.hal.engineOk h.engine
  idle := hs.idle h.idle
  loaded := by rw [hs.hal.neutron, hs.loaded]; exact h.loaded
  input := by rw [hs.hal.neutron]; exact h.input
  output := by rw [hs.hal.neutron]; exact h.output

theorem setInput_cases (data : List UInt8) (s : Io) :
    (∃ e, s.setInput data = (.error e, s)) ∨
      s.setInput data = (.ok (), { s with
        hal := { s.hal with inputSize := data.length }, inputBuf := data }) := by
  unfold setInput Hal.setInput
  by_cases h1 : data.length = 0
  · rw [if_pos h1]
    exact .inl ⟨_, rfl⟩
  by_cases h2 : s.hal.modelLoaded = false
  · rw [if_neg h1, if_pos h2]
    exact .inl ⟨_, rfl⟩
  by_cases h3 : s.hal.state = .busy
  · rw [if_neg h1, if_neg h2, if_pos h3]
    exact .inl ⟨_, rfl⟩
  by_cases h4 : maxInputSize < data.length
  · rw [if_neg h1, if_neg h2, if_neg h3, if_pos h4]
    exact .inl ⟨_, rfl⟩
  · rw [if_neg h1, if_neg h2, if_neg h3, if_neg h4]
    exact .inr rfl

/-- A model's input is accepted. -/
theorem setInput_ready (hr : Ready b s.hal) (hp : s.hal.neutron.prepared = true)
    {data : List UInt8} (hl : data.length = s.hal.neutron.inputSize) :
    s.setInput data = (.ok (), { s with
      hal := { s.hal with inputSize := data.length }, inputBuf := data }) := by
  obtain ⟨hpos, hle⟩ := hr.input hp
  unfold setInput Hal.setInput
  rw [if_neg (by omega), if_neg (by rw [hr.loaded hp]; decide), if_neg hr.idle, if_neg (by omega)]

theorem invoke_cases (drv : Driver) (computed : Vector UInt8 maxOutputSize) (s : Io) :
    s.Same (s.invoke drv computed).2 ∧ (s.invoke drv computed).2.arena = s.arena ∧
      ((s.invoke drv computed).1 = .ok () →
        (s.hal.neutron.prepared = true → s.hal.inputSize = s.hal.neutron.inputSize ∧
          drv.run = true) ∧
        (s.invoke drv computed).2.outputSize =
          if s.hal.neutron.prepared then s.hal.neutron.outputSize else 10) := by
  unfold invoke Hal.invoke
  by_cases hl : s.hal.modelLoaded = false
  · rw [if_pos hl]
    exact ⟨⟨⟨rfl, rfl, rfl, rfl⟩, rfl, id⟩, rfl, nofun⟩
  rw [if_neg hl]
  by_cases hb : s.hal.state = .busy
  · rw [if_pos hb]
    exact ⟨⟨⟨rfl, rfl, rfl, rfl⟩, rfl, id⟩, rfl, nofun⟩
  rw [if_neg hb]
  by_cases hp : s.hal.neutron.prepared = true
  case neg =>
    rw [if_neg hp]
    dsimp only
    rw [if_neg hp]
    exact ⟨⟨⟨rfl, rfl, rfl, rfl⟩, rfl, fun _ => nofun⟩, rfl,
      fun _ => ⟨fun h => absurd h hp, (if_neg hp).symm⟩⟩
  rw [if_pos hp]
  by_cases hi : s.hal.inputSize ≠ s.hal.neutron.inputSize
  · rw [if_pos hi]
    exact ⟨⟨⟨rfl, rfl, rfl, rfl⟩, rfl, fun _ => nofun⟩, rfl, nofun⟩
  rw [if_neg hi]
  by_cases hrun : drv.run = true
  · rw [if_pos hrun]
    dsimp only
    rw [if_pos hp]
    exact ⟨⟨⟨rfl, rfl, rfl, rfl⟩, rfl, fun _ => nofun⟩, rfl,
      fun _ => ⟨fun _ => ⟨not_not.mp hi, hrun⟩, (if_pos hp).symm⟩⟩
  · rw [if_neg hrun]
    exact ⟨⟨⟨rfl, rfl, rfl, rfl⟩, rfl, fun _ => nofun⟩, rfl, nofun⟩

/-- A prepared model runs on an input of its size. -/
theorem invoke_ready (hr : Ready b s.hal) (hp : s.hal.neutron.prepared = true)
    (hi : s.hal.inputSize = s.hal.neutron.inputSize) {drv : Driver} (hrun : drv.run = true)
    (computed : Vector UInt8 maxOutputSize) : s.invoke drv computed = (.ok (), { s with
      hal := { s.hal with state := .idle }, outputBuf := computed
      outputSize := s.hal.neutron.outputSize }) := by
  unfold invoke Hal.invoke
  rw [if_neg (by rw [hr.loaded hp]; decide), if_neg hr.idle, if_pos hp, if_neg (not_not.mpr hi),
    if_pos hrun]
  exact if_pos hp

theorem alloc_arena {s' : Io} (h : s.allocStageOutput cfg cap = (t, s')) :
    (Memory.tensorAlloc cfg [cap] .int8 .ephemeral s.arena).1 = t ∧
      s'.outputSize = s.outputSize := by
  unfold allocStageOutput at h
  cases h
  exact ⟨rfl, rfl⟩

theorem getOutput_length (h : s.getOutput size = .ok bytes) : bytes.length ≤ s.outputSize := by
  unfold getOutput at h
  split at h
  · cases h
  · cases h
    exact List.length_take_le _ _

theorem capacity_ge (info : StageInfo) : 10 ≤ info.capacity := by
  unfold StageInfo.capacity stageMinCapacity
  dsimp only
  split <;> omega

/-- A stage copies what fits, or a prepared model goes through and copies more. -/
theorem executeModelStage_spec (hr : Ready b s.hal) (call : StageCall) :
    s.Same (s.executeModelStage b.lim cfg call).2 ∧
      ((written (s.executeModelStage b.lim cfg call).1).length ≤ call.info.capacity ∨
        Overruns cfg call s) := by
  unfold executeModelStage
  by_cases ht : TakesLayers call s
  · obtain ⟨hsame, hlay⟩ := executeLayered_layers cfg hr.engine ht
    cases hx : s.executeLayered b.lim cfg call with
    | mk r s' =>
      rw [hx] at hsame hlay
      match r with
      | .error e => exact ⟨hsame, .inl (Nat.zero_le _)⟩
      | .ok (some f) => exact ⟨hsame, .inl (hlay.fits f rfl)⟩
      | .ok none => exact absurd rfl hlay.taken
  rw [executeLayered_none b.lim ht]
  dsimp only
  rcases setInput_cases call.input s with ⟨e, h⟩ | h
  · rw [h]
    exact ⟨⟨⟨rfl, rfl, rfl, rfl⟩, rfl, id⟩, .inl (Nat.zero_le _)⟩
  rw [h]
  dsimp only
  set s₁ : Io := { s with
    hal := { s.hal with inputSize := call.input.length }, inputBuf := call.input } with hs₁
  have hset : s.Same s₁ := ⟨⟨rfl, rfl, rfl, rfl⟩, rfl, id⟩
  obtain ⟨hinv, harena, hout⟩ := invoke_cases call.drv call.computed s₁
  cases h2 : s₁.invoke call.drv call.computed with
  | mk r s₂ =>
    rw [h2] at hinv harena hout
    have hinv := hset.trans hinv
    cases r with
    | error e => exact ⟨hinv, .inl (Nat.zero_le _)⟩
    | ok _ =>
      dsimp only
      obtain ⟨hruns, hsize⟩ := hout rfl
      have halloc := hinv.trans (same_alloc cfg s₂ call.info.capacity)
      cases h3 : s₂.allocStageOutput cfg call.info.capacity with
      | mk t s₃ =>
        rw [h3] at halloc
        obtain ⟨ht3, hout3⟩ := alloc_arena h3
        cases t with
        | none => exact ⟨halloc, .inl (Nat.zero_le _)⟩
        | some t =>
          dsimp only
          cases h4 : s₃.getOutput t.size with
          | error e => exact ⟨halloc, .inl (Nat.zero_le _)⟩
          | ok bytes =>
            refine ⟨halloc, ?_⟩
            have hlen : bytes.length ≤ s₂.outputSize := hout3 ▸ getOutput_length h4
            by_cases hp : s.hal.neutron.prepared = true
            · have hsize : s₂.outputSize = s.hal.neutron.outputSize := hsize.trans (if_pos hp)
              by_cases hle : s.hal.neutron.outputSize ≤ call.info.capacity
              · exact .inl (by rw [hsize] at hlen; exact hlen.trans hle)
              · obtain ⟨hr', hres⟩ := not_or.mp ht
                obtain ⟨hin, hrun⟩ := hruns hp
                refine .inr ⟨not_not.mp hr', not_not.mp hres, hp, hin, hrun, ?_,
                  Nat.not_le.mp hle⟩
                have harena : s₂.arena = s.arena := harena
                rw [← harena, ht3]
                rfl
            · have hsize : s₂.outputSize = 10 := hsize.trans (if_neg hp)
              exact .inl (by rw [hsize] at hlen; exact hlen.trans (capacity_ge _))

/-- A stage that overruns copies as much as the blob declares. -/
theorem executeModelStage_overruns (hr : Ready b s.hal) {call : StageCall}
    (ho : Overruns cfg call s) :
    (written (s.executeModelStage b.lim cfg call).1).length = s.hal.neutron.outputSize := by
  obtain ⟨t, ht⟩ := Option.isSome_iff_exists.mp ho.room
  have hlay : ¬TakesLayers call s := fun h =>
    h.elim (fun h => h ho.fresh) fun h => h ho.resident
  unfold executeModelStage
  rw [executeLayered_none b.lim hlay]
  dsimp only
  rw [setInput_ready hr ho.prepared ho.input]
  dsimp only
  have hset : s.Same { s with
      hal := { s.hal with inputSize := call.input.length }, inputBuf := call.input } :=
    ⟨⟨rfl, rfl, rfl, rfl⟩, rfl, id⟩
  rw [invoke_ready (hr.same hset) ho.prepared ho.input ho.runs]
  dsimp only
  unfold allocStageOutput
  dsimp only
  cases ha : Memory.tensorAlloc cfg [call.info.capacity] .int8 .ephemeral s.arena with
  | mk t' arena =>
    rw [ha] at ht
    cases ht
    dsimp only
    show (call.computed.toList.take s.hal.neutron.outputSize).length = _
    rw [List.length_take, Vector.length_toList]
    exact Nat.min_eq_left (hr.output ho.prepared)

end Io

-- ---------------------------------------------------------------------------
-- Runs
-- ---------------------------------------------------------------------------

theorem synnParse_ok (h : synnParse data = .ok d) :
    d = synnDesc data ∧ 0 < d.inputSize ∧ 0 < d.outputSize := by
  unfold synnParse at h
  dsimp only at h
  repeat (split at h; · cases h)
  rename_i hzero
  cases h
  obtain ⟨hin, hout⟩ := not_or.mp hzero
  exact ⟨rfl, Nat.pos_of_ne_zero hin, Nat.pos_of_ne_zero hout⟩

theorem neutronCheck_bounds (h : neutronCheck b data = .ok d) :
    d.inputSize ≤ maxInputSize ∧ d.outputSize ≤ maxOutputSize := by
  have hp := neutronCheck_ok h
  unfold neutronCheck at h
  rw [hp] at h
  dsimp only at h
  split at h
  · cases h
  · split at h
    · cases h
    · rename_i hmax
      obtain ⟨hin, hout⟩ := not_or.mp hmax
      exact ⟨Nat.not_lt.mp hin, Nat.not_lt.mp hout⟩

/-- The driver's failures leave no model prepared. -/
theorem neutronPrepare_failed {n n' : Neutron} (hc : neutronCheck b data = .ok d)
    (h : neutronPrepare b drv data n = (.error e, n')) : n'.prepared = false := by
  have hp := neutronUnprepare_prepared drv n
  unfold neutronPrepare at h
  rw [hc] at h
  dsimp only at h
  cases hu : neutronUnprepare drv n with
  | mk r n₁ =>
    rw [hu] at h hp
    cases r with
    | error e' =>
      cases h
      exact hp
    | ok _ =>
      dsimp only at h
      split at h
      · cases h
      · cases h
        exact hp

theorem Io.Ready.unprepared {hal : Hal} (he : EngineOk b hal) (hi : hal.state ≠ .busy)
    (hp : hal.neutron.prepared = false) : Ready b hal :=
  ⟨he, hi, fun h => (nomatch hp.symm.trans h), fun h => (nomatch hp.symm.trans h),
    fun h => (nomatch hp.symm.trans h)⟩

theorem Io.Ready.unload {hal : Hal} (hr : Ready b hal) (drv : Driver) :
    Ready b (hal.unload b drv) := by
  have he := unload_spec hr.engine drv
  unfold Hal.unload at he ⊢
  rw [if_neg hr.idle] at he ⊢
  exact .unprepared he hr.idle (neutronUnprepare_prepared drv hal.neutron)

theorem Io.Ready.load {hal : Hal} (hr : Ready b hal) (drv : Driver) (addr size : Nat) :
    Ready b (hal.load b drv addr size).2 := by
  have he := (load_spec hr.engine drv addr size).1
  unfold Hal.load at he ⊢
  by_cases hsize : size = 0
  · rw [if_pos hsize]
    exact hr
  rw [if_neg hsize, if_neg hr.idle] at he ⊢
  by_cases hmax : maxModelSize < size
  · rw [if_pos hmax]
    exact hr
  rw [if_neg hmax] at he ⊢
  rcases neutronPrepare_cases b drv (b.blob addr size) hal.neutron with
    ⟨e, hc, h⟩ | ⟨d, hc, -, n, h⟩ | ⟨d, hc, h⟩
  · rw [h] at he ⊢
    by_cases hsup : e = .enotsup
    · subst hsup
      exact .unprepared he hr.idle (neutronUnprepare_prepared drv hal.neutron)
    · cases e with
      | enotsup => exact absurd rfl hsup
      | _ => exact hr
  · rw [h] at he ⊢
    exact .unprepared he hr.idle (neutronPrepare_failed hc h)
  · rw [h] at he ⊢
    obtain ⟨rfl, hpos, -⟩ := synnParse_ok (neutronCheck_ok hc)
    obtain ⟨hin, hout⟩ := neutronCheck_bounds hc
    exact ⟨he, hr.idle, fun _ => rfl, fun _ => ⟨hpos, hin⟩, fun _ => hout⟩

theorem Io.Ready.step {s : Io} (hr : Ready b s.hal) (o : IoOp) : Ready b (s.step b cfg o).hal := by
  cases o with
  | load addr size drv => exact hr.load drv addr size
  | unload drv => exact hr.unload drv
  | stage call => exact hr.same (executeModelStage_spec hr call).1
  | slotFree slot =>
    refine hr.same (same_withEngine ?_)
    unfold Layered.slotFree
    rw [Act.run_modify]
    split <;> rfl
  | arena o => exact hr

theorem Io.ready_init (b : Board) (arena : Memory.Arena) : Ready b (Io.init arena).hal :=
  ⟨nofun, nofun, nofun, nofun, nofun⟩

/-- In every state that calls from the initialization on lead to, a model stage
copies what fits its tensor, exactly where it does not overrun it. -/
theorem output_fits_iff (b : Board) (cfg : Memory.Cfg) (arena : Memory.Arena) (ops : List IoOp)
    (call : StageCall) :
    (written ((run (Io.step b cfg) (Io.init arena) ops).executeModelStage
      b.lim cfg call).1).length ≤ call.info.capacity ↔
        ¬Overruns cfg call (run (Io.step b cfg) (Io.init arena) ops) := by
  have hr : Io.Ready b (run (Io.step b cfg) (Io.init arena) ops).hal :=
    run_invariant (I := fun s : Io => Io.Ready b s.hal) ops (Io.ready_init b arena)
      fun _ o h => h.step o
  constructor
  · intro hle ho
    rw [Io.executeModelStage_overruns hr ho] at hle
    exact absurd ho.larger (Nat.not_lt.mpr hle)
  · exact fun hno => (Io.executeModelStage_spec hr call).2.resolve_right hno

/-- A header without sections: two bytes of input, 200 of output. -/
def wideBlob : List UInt8 :=
  [0x53, 0x59, 0x4E, 0x4E, 1, 0, 0, 0, 48, 0, 0, 0, 0, 0, 0, 0, 48, 0, 0, 0, 0, 0, 0, 0,
   48, 0, 0, 0, 0, 0, 0, 0, 2, 0, 0, 0, 200, 0, 0, 0, 0, 0, 0, 0, 0, 0, 0, 0]

def wideBoard : Board := ⟨smallLimits, 2, 0, 0, true, 0, Mem.put (fun _ => 0) 0 wideBlob⟩

def stageCfg : Memory.Cfg := ⟨48, 64, Nat.zero_lt_succ 47, Nat.le_add_right 48 16⟩

/-- An arena of 4 KiB. -/
def stageArena : Memory.Arena := (Memory.memInit stageCfg 4096 4096 .zero).2

/-- The record declares ten classes. -/
def tenClasses : StageCall :=
  ⟨⟨10, .int8⟩, [5, 9], none, fun _ => false, driverOk, Vector.replicate maxOutputSize 0⟩

/-- 200 bytes are copied into a tensor of 64. -/
theorem wide_output_overruns :
    ¬(written ((run (Io.step wideBoard stageCfg) (Io.init stageArena)
      [.load 0 48 driverOk]).executeModelStage wideBoard.lim stageCfg tenClasses).1).length ≤
        tenClasses.info.capacity := by
  decide +kernel

end SynapticOS.Npu
