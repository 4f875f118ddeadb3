import SynapticOS.Remote.Inference

/-!
# A request is a local run on the tensor that the handler allocates

Both end in the same model stage. They differ in the tensor: the handler's is as
long as the model's input type makes it, and what lies behind the input is what was
in the arena.
-/

namespace SynapticOS.Remote.Inference

open Lib Memory

variable {cfg : Memory.Cfg} {npu : Npu} {m : Model} {s : Cpu0} {a a' : Arena}

-- ---------------------------------------------------------------------------
-- The local run
-- ---------------------------------------------------------------------------

/-- The room that the model stage gives the result. -/
def capacity (m : Model) : Nat := dataSize [max m.outputSize stageMinCapacity % sizeMod] .int8

/-- The NPU turns the input into `o`. -/
def Npu.Gives (npu : Npu) (cap : Nat) (input o : List UInt8) : Prop :=
  npu.makeResident = .ok () ∧ ∃ r, npu.compute input = .ok r ∧ npu.getOutput cap r = .ok o

theorem tensorAlloc_size {t : Tensor} (h : tensorAlloc cfg shape dtype life a = (some t, a')) :
    t.size = dataSize shape dtype := by
  unfold tensorAlloc at h
  split at h
  · cases h
  · dsimp only at h
    split at h
    · cases h
    · cases h
      rfl

theorem modelStage_gives (cfg : Memory.Cfg) (npu : Npu) (m : Model) (input : List UInt8) (s : Cpu0)
    (o : List UInt8) :
    (∃ t s', modelStage cfg npu m input s = (.ok t, s') ∧ s'.mem.read t.data t.size = o) ↔
      LocalRoom cfg m s.arena ∧
        ∃ r, npu.compute input = .ok r ∧ npu.getOutput (capacity m) r = .ok o := by
  unfold modelStage LocalRoom
  cases hc : npu.compute input with
  | error e => simp
  | ok r =>
    cases ha : allocOutput cfg m s.arena with
    | mk t a =>
      cases t with
      | none => simp
      | some t =>
        have hs : t.size = capacity m := tensorAlloc_size ha
        dsimp only
        rw [hs]
        cases ho : npu.getOutput (capacity m) r with
        | error e => simp [ho]
        | ok out => simp [ho, Mem.read_put]

theorem runSync_gives (hm : s.models h = some m) (npu : Npu) (input o : List UInt8) :
    LocalGives cfg npu h input s o ↔
      Ready m s ∧ LocalRoom cfg m s.arena ∧ npu.Gives (capacity m) input o := by
  unfold LocalGives runSync Ready Npu.Gives
  rw [hm]
  dsimp only
  by_cases h1 : m.loaded = false
  · simp [h1]
  rw [if_neg h1]
  by_cases h2 : s.pipes.contains false = false
  · rw [if_pos h2]
    refine ⟨fun ⟨_, _, he, _⟩ => (nomatch he), fun ⟨⟨_, hp, _⟩, _⟩ => ?_⟩
    rw [h2] at hp
    cases hp
  rw [if_neg h2]
  by_cases h3 : submits s = false
  · simp [h3]
  rw [if_neg h3]
  have hready : m.loaded = true ∧ s.pipes.contains false = true ∧ submits s = true :=
    ⟨by simpa using h1, by simpa using h2, by simpa using h3⟩
  cases hr : npu.makeResident with
  | error e => simp
  | ok _ =>
    dsimp only
    rw [modelStage_gives]
    exact ⟨fun ⟨hl, hg⟩ => ⟨hready, hl, rfl, hg⟩, fun ⟨_, hl, _, hg⟩ => ⟨hl, hg⟩⟩

-- ---------------------------------------------------------------------------
-- The request
-- ---------------------------------------------------------------------------

/-- The status is zero and `o` is the output in the slot. -/
def Answers (r : Ret × Slot × Cpu0) (o : List UInt8) : Prop :=
  r.1 = 0 ∧ r.2.1.output.read 0 r.2.1.outputLen = o

/-- The bytes of the handler's tensor. -/
def Cpu0.tensorBytes (s : Cpu0) (t : Tensor) (input : List UInt8) : List UInt8 :=
  (s.mem.put t.data input).read t.data t.size

theorem takeResponse_gives (caller : Caller) (r : Ret × Slot × Cpu0) (o : List UInt8) :
    ((takeResponse caller r).1 = 0 ∧
      (takeResponse caller r).2.1 = ⟨o ++ caller.output.drop o.length, o.length⟩) ↔
      Answers r o ∧ o.length ≤ caller.output.length := by
  obtain ⟨ret, slot, s⟩ := r
  unfold takeResponse Answers
  dsimp only
  by_cases hr : ret = 0
  · rw [if_neg (not_not_intro hr)]
    by_cases hc : caller.output.length < slot.outputLen
    · rw [if_pos hc]
      refine ⟨fun h => absurd h.1 emsgsize.2, fun ⟨⟨_, ho⟩, hl⟩ => ?_⟩
      rw [← ho, Mem.length_read] at hl
      exact absurd hc (Nat.not_lt.mpr hl)
    · rw [if_neg hc]
      constructor
      · rintro ⟨-, he⟩
        have hlen : slot.outputLen = o.length := congrArg Caller.outputLen he
        have hout := congrArg Caller.output he
        refine ⟨⟨hr, ?_⟩, hlen ▸ Nat.le_of_not_lt hc⟩
        exact (List.append_inj hout (by rw [Mem.length_read, hlen])).1
      · rintro ⟨⟨-, rfl⟩, -⟩
        rw [Mem.length_read]
        exact ⟨rfl, rfl⟩
  · rw [if_pos hr]
    exact ⟨fun h => absurd h.1 hr, fun h => absurd h.1.1 hr⟩

theorem takeResponse_untouched (caller : Caller) (r : Ret × Slot × Cpu0)
    (h : (takeResponse caller r).1 ≠ 0) : (takeResponse caller r).2.1 = caller := by
  obtain ⟨ret, slot, s⟩ := r
  unfold takeResponse at h ⊢
  dsimp only at h ⊢
  split
  · rfl
  · split
    · rfl
    · rename_i h1 h2
      rw [if_neg h1, if_neg h2] at h
      exact absurd rfl h

theorem serve_answers (hlen : slot.inputLen ≠ 0) (hmax : slot.inputLen ≤ inputSize) (npu : Npu)
    (o : List UInt8) :
    Answers (serve cfg npu m slot s) o ↔
      ∃ t a, tensorAlloc cfg [slot.inputLen] m.inputDtype .ephemeral s.arena = (some t, a) ∧
        LocalGives cfg npu slot.model (s.tensorBytes t (slot.input.read 0 slot.inputLen))
          { s with arena := a, mem := s.mem.put t.data (slot.input.read 0 slot.inputLen) } o ∧
        o.length ≤ outputSize := by
  have hrange : ¬(inputSize < slot.inputLen ∨ slot.inputLen = 0) := by
    rintro (h | h)
    · exact absurd h (Nat.not_lt.mpr hmax)
    · exact hlen h
  unfold serve LocalGives Cpu0.tensorBytes
  rw [if_neg hrange]
  cases tensorAlloc cfg [slot.inputLen] m.inputDtype .ephemeral s.arena with
  | mk t a =>
    cases t with
    | none => exact ⟨fun h => absurd h.1 enomem.2, fun ⟨_, _, he, _⟩ => (nomatch he)⟩
    | some t =>
      dsimp only
      have hx : ∀ (P : Tensor → Arena → Prop), (∃ t' a', (some t, a) = (some t', a') ∧ P t' a') ↔
          P t a := by
        intro P
        constructor
        · rintro ⟨t', a', he, hp⟩
          cases he
          exact hp
        · exact fun hp => ⟨t, a, rfl, hp⟩
      rw [hx]
      generalize runSync cfg npu slot.model
          ((s.mem.put t.data (slot.input.read 0 slot.inputLen)).read t.data t.size)
        { s with arena := a, mem := s.mem.put t.data (slot.input.read 0 slot.inputLen) } = r
      obtain ⟨r, s'⟩ := r
      cases r with
      | error e => exact ⟨fun h => absurd h.1 e.2, fun ⟨⟨_, _, he, _⟩, _⟩ => (nomatch he)⟩
      | ok out =>
        dsimp only
        by_cases ho : outputSize < out.size
        · rw [if_pos ho]
          refine ⟨fun h => absurd h.1 emsgsize.2, ?_⟩
          rintro ⟨⟨t', s'', he, hr⟩, hl⟩
          cases he
          rw [← hr, Mem.length_read] at hl
          exact absurd ho (Nat.not_lt.mpr hl)
        · rw [if_neg ho]
          unfold Answers
          dsimp only
          have hread : (slot.output.put 0 (s'.mem.read out.data out.size)).read 0 out.size =
              s'.mem.read out.data out.size := by
            have h : (slot.output.put 0 (s'.mem.read out.data out.size)).read 0
                (s'.mem.read out.data out.size).length = s'.mem.read out.data out.size :=
                  Mem.read_put
            rwa [Mem.length_read] at h
          rw [hread]
          constructor
          · rintro ⟨-, rfl⟩
            exact ⟨⟨out, s', rfl, rfl⟩, by rw [Mem.length_read]; exact Nat.le_of_not_lt ho⟩
          · rintro ⟨⟨t', s'', he, hr⟩, -⟩
            cases he
            exact ⟨rfl, hr⟩

theorem respond_answers (r : Ret × Slot × Cpu0) (o : List UInt8) : Answers (respond r) o ↔
    Answers r o :=
  Iff.rfl

theorem remote_gives (hm : s.models h = some m) (h1 : input.length ≠ 0)
    (h2 : input.length ≤ inputSize)
    (npu : Npu) (caller : Caller) (slot : Slot) (o : List UInt8) :
    RemoteGives cfg npu h input caller slot s o ↔
      (s.gate.paused = false ∧
        ∃ t a, tensorAlloc cfg [input.length] m.inputDtype .ephemeral s.arena = (some t, a) ∧
          Ready m s ∧ LocalRoom cfg m a ∧ npu.Gives (capacity m) (s.tensorBytes t input) o) ∧
        o.length ≤ outputSize ∧ o.length ≤ caller.output.length := by
  unfold RemoteGives remoteInfer
  rw [if_neg h1, if_neg (Nat.not_lt.mpr h2), takeResponse_gives]
  unfold inferReqHandler
  dsimp only
  by_cases hp : s.gate.paused
  · rw [if_pos hp, hp]
    exact ⟨fun h => absurd h.1.1 eagain.2, fun h => (nomatch h.1.1)⟩
  · rw [if_neg hp, respond_answers]
    unfold admitted
    dsimp only
    rw [hm]
    dsimp only
    rw [serve_answers h1 h2]
    dsimp only
    rw [Mem.read_put]
    have hopen : s.gate.paused = false := by simpa using hp
    have hrun : ∀ t a, LocalGives cfg npu h (s.tensorBytes t input) { s with
          gate := { s.gate with busy := true }, arena := a, mem := s.mem.put t.data input } o ↔
        Ready m s ∧ LocalRoom cfg m a ∧ npu.Gives (capacity m) (s.tensorBytes t input) o := by
      intro t a
      exact runSync_gives (s := { s with
        gate := { s.gate with busy := true }, arena := a, mem := s.mem.put t.data input })
        hm npu (s.tensorBytes t input) o
    constructor
    · rintro ⟨⟨t, a, ha, hl, ho⟩, hc⟩
      exact ⟨⟨hopen, t, a, ha, (hrun t a).mp hl⟩, ho, hc⟩
    · rintro ⟨⟨-, t, a, ha, hl⟩, ho, hc⟩
      exact ⟨⟨t, a, ha, (hrun t a).mpr hl, ho⟩, hc⟩

theorem remote_untouched (h1 : input.length ≠ 0) (h2 : input.length ≤ inputSize) (npu : Npu)
    (h : Nat) (caller : Caller) (slot : Slot) (s : Cpu0)
    (hr : (remoteInfer cfg npu h input caller slot s).1 ≠ 0) :
    (remoteInfer cfg npu h input caller slot s).2.1 = caller := by
  unfold remoteInfer at hr ⊢
  rw [if_neg h1, if_neg (Nat.not_lt.mpr h2)] at hr ⊢
  exact takeResponse_untouched caller _ hr

-- ---------------------------------------------------------------------------
-- When they are equal
-- ---------------------------------------------------------------------------

/-- A one-byte type makes the handler's tensor exactly the input. -/
theorem tensorBytes_eq {input : List UInt8} (hd : dtypeSize dtype = 1) (hn : input.length < sizeMod)
    (ht : tensorAlloc cfg [input.length] dtype .ephemeral a = (some t, a')) (s : Cpu0) :
    s.tensorBytes t input = input := by
  have hs : t.size = input.length := by
    rw [tensorAlloc_size ht]
    unfold dataSize elements
    simp only [List.foldl_cons, List.foldl_nil, hd, Nat.one_mul, Nat.mul_one, Nat.mod_mod]
    exact Nat.mod_eq_of_lt hn
  unfold Cpu0.tensorBytes
  rw [hs, Mem.read_put]

theorem tensorBytes_length (s : Cpu0) (t : Tensor) (input : List UInt8) :
    (s.tensorBytes t input).length = t.size := Mem.length_read

/-- Any other type makes it longer. -/
theorem tensor_longer {input : List UInt8} (hd : dtypeSize dtype ≠ 1) (h1 : input.length ≠ 0)
    (h2 : input.length ≤ inputSize)
    (ht : tensorAlloc cfg [input.length] dtype .ephemeral a = (some t, a')) :
        t.size ≠ input.length := by
  have hsize : dtypeSize dtype ≤ 4 := by cases dtype <;> decide
  have hpos : 2 ≤ dtypeSize dtype := by
    cases dtype with
    | int8 => exact absurd rfl hd
    | uint8 => exact absurd rfl hd
    | int16 => decide
    | float16 => decide
    | float32 => decide
  rw [tensorAlloc_size ht]
  unfold dataSize elements
  simp only [List.foldl_cons, List.foldl_nil, Nat.one_mul]
  generalize dtypeSize dtype = k at hsize hpos
  generalize input.length = n at h1 h2
  have hk : n * 2 ≤ n * k := Nat.mul_le_mul_left n hpos
  have hk' : n * k ≤ n * 4 := Nat.mul_le_mul_left n hsize
  have hroom : 4 * inputSize < sizeMod := by decide
  have hmod : n % sizeMod = n := Nat.mod_eq_of_lt (by omega)
  rw [hmod, Nat.mod_eq_of_lt (by omega)]
  omega

/-- An NPU that takes inputs of certain sizes: one size if a Neutron model is prepared,
any size for the stub's model. -/
def accepting (p : Nat → Bool) : Npu where
  makeResident := .ok ()
  compute input := if p input.length then .ok [] else .error einval
  getOutput _ r := .ok r

theorem accepting_gives (p : Nat → Bool) (cap : Nat) (input : List UInt8) :
    (accepting p).Gives cap input [] ↔ p input.length = true := by
  unfold Npu.Gives accepting
  dsimp only
  split
  · rename_i h
    exact ⟨fun _ => h, fun _ => ⟨rfl, [], rfl, rfl⟩⟩
  · rename_i h
    exact ⟨fun ⟨_, _, he, _⟩ => (nomatch he), fun he => absurd he h⟩

/-- What being equal for such an NPU says. -/
theorem equals_accepting {input : List UInt8} (hm : s.models h = some m) (h1 : input.length ≠ 0)
    (h2 : input.length ≤ inputSize) (p : Nat → Bool)
    (he : Equals cfg (accepting p) h input caller slot s) :
    (s.gate.paused = false ∧ ∃ t a,
      tensorAlloc cfg [input.length] m.inputDtype .ephemeral s.arena = (some t, a) ∧
        Ready m s ∧ LocalRoom cfg m a ∧ p t.size = true) ↔
      Ready m s ∧ LocalRoom cfg m s.arena ∧ p input.length = true := by
  have hs := he.same []
  rw [remote_gives hm h1 h2, runSync_gives hm] at hs
  simp only [accepting_gives, tensorBytes_length, List.length_nil, Nat.zero_le, and_true] at hs
  exact hs

/-- The remote inference is the local one, whatever the NPU computes, exactly where
requests are admitted. -/
theorem remote_eq_local (cfg : Memory.Cfg) (s : Cpu0) (slot : Slot) (h : Nat) (m : Model)
    (hm : s.models h = some m) (input : List UInt8) (h1 : input.length ≠ 0)
    (h2 : input.length ≤ inputSize) (caller : Caller) :
    (∀ npu, Equals cfg npu h input caller slot s) ↔ Admits cfg m input.length s := by
  constructor
  · intro he
    refine ⟨fun hr hl => ?_, fun hr => ⟨fun hl => ?_, fun ⟨hp, t, a, ht, hl⟩ => ?_⟩⟩
    · -- an NPU that takes this size only
      have hone := equals_accepting hm h1 h2 (fun n => decide (n = input.length)) (he _)
      obtain ⟨-, t, a, ht, -, -, hs⟩ := hone.mpr ⟨hr, hl, decide_eq_true rfl⟩
      by_contra hd
      exact tensor_longer hd h1 h2 ht (of_decide_eq_true hs)
    · have hany := equals_accepting hm h1 h2 (fun _ => true) (he _)
      obtain ⟨hp, t, a, ht, -, hl, -⟩ := hany.mpr ⟨hr, hl, rfl⟩
      exact ⟨hp, t, a, ht, hl⟩
    · have hany := equals_accepting hm h1 h2 (fun _ => true) (he _)
      exact (hany.mp ⟨hp, t, a, ht, hr, hl, rfl⟩).2.1
  · intro ha npu
    refine ⟨fun o => ?_, remote_untouched h1 h2 npu h caller slot s⟩
    rw [remote_gives hm h1 h2, runSync_gives hm]
    have hlt : input.length < sizeMod := Nat.lt_of_le_of_lt h2 (by decide)
    constructor
    · rintro ⟨⟨hp, t, a, ht, hr, hl, hg⟩, hfit⟩
      have hlocal := (ha.room hr).mpr ⟨hp, t, a, ht, hl⟩
      rw [tensorBytes_eq (ha.dtype hr hlocal) hlt ht] at hg
      exact ⟨⟨hr, hlocal, hg⟩, hfit⟩
    · rintro ⟨⟨hr, hl, hg⟩, hfit⟩
      obtain ⟨hp, t, a, ht, hla⟩ := (ha.room hr).mp hl
      rw [← tensorBytes_eq (ha.dtype hr hl) hlt ht s] at hg
      exact ⟨⟨hp, t, a, ht, hr, hla, hg⟩, hfit⟩

-- ---------------------------------------------------------------------------
-- The stub
-- ---------------------------------------------------------------------------

/-- `syn_hal_npu_stub.c` with its model resident: ten classes, of which the sum of the
input bytes picks one. -/
def stub : Npu where
  makeResident := .ok ()
  compute input :=
    if input.length = 0 then .error einval
    else if 1024 < input.length then .error enomem
    else
      let sum := input.foldl (fun n b => (n + b.toNat) % 2 ^ 32) 0
      .ok ((List.replicate 10 0).set (sum % 10) 127)
  getOutput _ r := .ok r

def smallArena : Memory.Cfg := ⟨48, 64, by decide, by decide⟩

/-- CPU0 with one loaded model; the arena still holds what was there before. -/
def oneModel (dtype : Dtype) : Cpu0 where
  models h := if h = 1 then some ⟨true, dtype, .int8, 10⟩ else none
  pipes := List.replicate 4 false
  jobs := List.replicate 2 .free
  maxConcurrent := 2
  gate := ⟨false, false, none⟩
  arena := (memInit smallArena 4096 1024 Arena.zero).2
  mem _ := 1

def emptySlot : Slot := Link.init.slot

def room16 : Caller := ⟨List.replicate 16 0, 0⟩

theorem remote_eq_local_uint8 : Equals smallArena stub 1 [5] room16 emptySlot
    (oneModel .uint8) := by
  have hm : (oneModel .uint8).models 1 = some ⟨true, .uint8, .int8, 10⟩ := rfl
  refine (remote_eq_local smallArena (oneModel .uint8) emptySlot 1 _ hm [5] (by decide)
      (by decide) room16).mpr
    ⟨fun _ _ => rfl, fun _ => ⟨fun _ => ⟨rfl, _, _, rfl, rfl⟩, fun _ => rfl⟩⟩ stub

/-- A model with 16-bit inputs is run on the input and a byte left in the arena. -/
theorem stale_byte : ¬∀ (cfg : Memory.Cfg) (npu : Npu) (h : Nat) (m : Model) (input : List UInt8)
    (caller : Caller) (slot : Slot) (s : Cpu0), s.models h = some m → input.length ≠ 0 →
    input.length ≤ inputSize → Equals cfg npu h input caller slot s := by
  intro h
  have he := h smallArena stub 1 ⟨true, .int16, .int8, 10⟩ [5] room16 emptySlot
      (oneModel .int16) rfl
    (by decide) (by decide)
  have hlocal : LocalGives smallArena stub 1 [5] (oneModel .int16)
      [0, 0, 0, 0, 0, 127, 0, 0, 0, 0] :=
    ⟨_, _, rfl, by decide⟩
  have hremote := (he.same _).mpr ⟨hlocal, by decide, by decide⟩
  revert hremote
  unfold RemoteGives
  decide

end SynapticOS.Remote.Inference
