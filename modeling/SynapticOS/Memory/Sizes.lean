import SynapticOS.Memory.ArenaLaws

/-!
# Sizes that wrap

`syn_mem_tensor_alloc` multiplies the extents, and both allocators add an offset, before
the only comparison with a limit. All of it wraps, so a block is what was asked for as
long as its exact end is judged like its wrapped end (`sizes_exact`).
-/

namespace SynapticOS.Memory

variable {cfg : Cfg} {a : Arena} {shape : List Nat} {dtype : Dtype} {lifetime : Lifetime}
variable {n e limit : Nat}

/-- The bytes of a tensor's data. -/
def exactSize (shape : List Nat) (dtype : Dtype) : Nat := shape.prod * dtypeSize dtype

/-- Where a tensor's block would end: its descriptor, then its data. -/
def tensorEnd (cfg : Cfg) (shape : List Nat) (dtype : Dtype) (lifetime : Lifetime) (a : Arena) :
    Nat :=
  alignUp (a.bump lifetime) + alignUp cfg.descriptor + exactSize shape dtype

def scratchEnd (n : Nat) (a : Arena) : Nat := alignUp a.scratchUsed + n

/-- A tensor has its exact size and lies, with its descriptor, in the tensor region;
without one the arena is as it was. -/
def TensorExact (cfg : Cfg) (shape : List Nat) (dtype : Dtype) (lifetime : Lifetime) (a : Arena) :
    Prop :=
  match tensorAlloc cfg shape dtype lifetime a with
  | (some t, _) => t.size = exactSize shape dtype ∧ a.base + alignUp cfg.descriptor ≤ t.data ∧
      t.data + t.size ≤ a.base + a.usable
  | (none, a') => a' = a

/-- The same of `n` scratch bytes and the scratch region. -/
def ScratchExact (n : Nat) (a : Arena) : Prop :=
  match scratchAcquire n a with
  | (some p, _) => a.base + a.usable ≤ p ∧ p + n ≤ a.base + a.usable + a.scratchTotal
  | (none, a') => a' = a

/-- An end within the limit, or one that is past it even when it wraps. -/
def Judged (e limit : Nat) : Prop := e ≤ limit ∨ limit < e % sizeMod

instance (e limit : Nat) : Decidable (Judged e limit) := by
  unfold Judged
  infer_instance

theorem judged_iff (_ : limit < sizeMod) :
    Judged e limit ↔ (e % sizeMod ≤ limit → e ≤ limit) := by
  unfold Judged
  omega

-- ---------------------------------------------------------------------------
-- Tensors
-- ---------------------------------------------------------------------------

theorem dataSize_mod (shape : List Nat) (dtype : Dtype) :
    dataSize shape dtype = exactSize shape dtype % sizeMod := by
  unfold dataSize exactSize
  rw [elements_eq, Nat.mod_mul_mod]

/-- The comparison is one of the exact end, wrapped. -/
theorem tensorEnd_mod (cfg : Cfg) (shape : List Nat) (dtype : Dtype) (lifetime : Lifetime)
    (a : Arena) : (alignUp (a.bump lifetime) +
      (alignUp cfg.descriptor + dataSize shape dtype) % sizeMod) % sizeMod =
      tensorEnd cfg shape dtype lifetime a % sizeMod := by
  rw [dataSize_mod, Nat.add_mod_mod, ← Nat.add_assoc, Nat.add_mod_mod]
  rfl

theorem arenaAllocAt_cases (lifetime : Lifetime) (offset size : Nat) (a : Arena) :
    (a.usable < (alignUp offset + size) % sizeMod ∧
        arenaAllocAt lifetime offset size a = (none, a)) ∨
      ((alignUp offset + size) % sizeMod ≤ a.usable ∧
        ∃ a', arenaAllocAt lifetime offset size a = (some (a.base + alignUp offset), a')) := by
  unfold arenaAllocAt
  dsimp only
  by_cases h : a.usable < (alignUp offset + size) % sizeMod
  · exact .inl ⟨h, if_pos h⟩
  · exact .inr ⟨Nat.le_of_not_lt h, _, if_neg h⟩

theorem tensorAlloc_cases (cfg : Cfg) (dtype : Dtype) (lifetime : Lifetime)
    (hi : a.initialized = true) (h1 : shape.length ≠ 0) (h4 : shape.length ≤ 4) :
    (a.usable < tensorEnd cfg shape dtype lifetime a % sizeMod ∧
        tensorAlloc cfg shape dtype lifetime a = (none, a)) ∨
      (tensorEnd cfg shape dtype lifetime a % sizeMod ≤ a.usable ∧
        ∃ t a', tensorAlloc cfg shape dtype lifetime a = (some t, a') ∧
          t.data = a.base + alignUp (a.bump lifetime) + alignUp cfg.descriptor ∧
          t.size = dataSize shape dtype) := by
  have hc : ¬(a.initialized = false ∨ shape.length = 0 ∨ 4 < shape.length) := by
    rw [hi]
    rintro (h | h | h)
    · cases h
    · exact h1 h
    · omega
  unfold tensorAlloc arenaAlloc
  rw [if_neg hc, ← tensorEnd_mod]
  dsimp only
  rcases arenaAllocAt_cases lifetime (a.bump lifetime)
      ((alignUp cfg.descriptor + dataSize shape dtype) % sizeMod) a with ⟨h, hr⟩ | ⟨h, a', hr⟩
  · rw [hr]
    exact .inl ⟨h, rfl⟩
  · rw [hr]
    exact .inr ⟨h, _, _, rfl, rfl, rfl⟩

theorem tensorExact_iff (hu : a.usable < sizeMod) (h1 : shape.length ≠ 0) (h4 : shape.length ≤ 4) :
    TensorExact cfg shape dtype lifetime a ↔
      (a.initialized = true → Judged (tensorEnd cfg shape dtype lifetime a) a.usable) := by
  cases hi : a.initialized with
  | false =>
    have hr : tensorAlloc cfg shape dtype lifetime a = (none, a) := if_pos (.inl hi)
    simp [TensorExact, hr]
  | true =>
    rw [judged_iff hu]
    rcases tensorAlloc_cases cfg dtype lifetime hi h1 h4 with
      ⟨h, hr⟩ | ⟨h, t, a', hr, hd, hs⟩
    · simp only [TensorExact, hr, true_implies]
      exact ⟨fun _ h' => absurd h' (by omega), fun _ => trivial⟩
    · simp only [TensorExact, hr, true_implies]
      rw [hd]
      constructor
      · rintro ⟨hexact, -, hle⟩ -
        rw [hexact] at hle
        unfold tensorEnd
        omega
      · intro hle
        have hle := hle h
        unfold tensorEnd at hle
        have hexact : t.size = exactSize shape dtype := by
          rw [hs, dataSize_mod, Nat.mod_eq_of_lt (by omega)]
        exact ⟨hexact, by omega, by omega⟩

-- ---------------------------------------------------------------------------
-- Scratch blocks
-- ---------------------------------------------------------------------------

theorem scratchExact_iff (hs : a.scratchTotal < sizeMod) :
    ScratchExact n a ↔
      (a.initialized = true → n ≠ 0 → Judged (scratchEnd n a) a.scratchTotal) := by
  rw [judged_iff hs]
  unfold ScratchExact scratchAcquire
  by_cases hc : a.initialized = false ∨ n = 0
  · rw [if_pos hc]
    refine ⟨fun _ hi h0 => ?_, fun _ => rfl⟩
    rcases hc with hf | hn
    · rw [hi] at hf
      cases hf
    · exact absurd hn h0
  · rw [if_neg hc]
    push Not at hc
    obtain ⟨hi, h0⟩ := hc
    dsimp only
    by_cases h : (alignUp a.scratchUsed + n) % sizeMod > a.scratchTotal
    · rw [if_pos h]
      exact ⟨fun _ _ _ h' => absurd h' (Nat.not_le_of_lt h), fun _ => rfl⟩
    · rw [if_neg h]
      have hle := Nat.le_of_not_lt h
      constructor
      · rintro ⟨-, hend⟩ - - -
        unfold scratchEnd
        omega
      · intro hj
        have hend := hj (by simpa using hi) h0 hle
        unfold scratchEnd at hend
        exact ⟨by omega, by omega⟩

/-- For every arena, shape and number of bytes. -/
theorem sizes_exact (cfg : Cfg) (a : Arena) (hu : a.usable < sizeMod)
    (hs : a.scratchTotal < sizeMod) :
    (∀ shape dtype lifetime, shape.length ≠ 0 → shape.length ≤ 4 →
      (TensorExact cfg shape dtype lifetime a ↔
        (a.initialized = true → Judged (tensorEnd cfg shape dtype lifetime a) a.usable))) ∧
    ∀ n, ScratchExact n a ↔
      (a.initialized = true → n ≠ 0 → Judged (scratchEnd n a) a.scratchTotal) :=
  ⟨fun _ _ _ h1 h4 => tensorExact_iff hu h1 h4, fun _ => scratchExact_iff hs⟩

/-- Two requests that fit, and the one of 4 GiB. -/
theorem sizes_exact_started :
    TensorExact defaultCfg [1, 96, 96, 3] .float32 .ephemeral (started defaultCfg 4096 131072) ∧
      ScratchExact 1000 (started defaultCfg 4096 131072) ∧
      (TensorExact defaultCfg [65536, 65536] .int8 .ephemeral (started defaultCfg 4096 131072) ↔
        Judged (2 ^ 32 + 48) 114688) := by
  obtain ⟨htensor, hscratch⟩ :=
    sizes_exact defaultCfg (started defaultCfg 4096 131072) (by decide) (by decide)
  refine ⟨(htensor _ _ _ (by decide) (by decide)).mpr (by decide),
    (hscratch _).mpr (by decide), ?_⟩
  rw [htensor _ _ _ (by decide) (by decide)]
  decide

/-- The block of a tensor of 4 GiB has no data. -/
theorem tensor_wraps : ¬∀ (cfg : Cfg) (a : Arena), a.usable < sizeMod → a.scratchTotal < sizeMod →
    (∀ shape dtype lifetime, shape.length ≠ 0 → shape.length ≤ 4 →
      TensorExact cfg shape dtype lifetime a) ∧ ∀ n, ScratchExact n a := fun h => by
  have hw := (h defaultCfg (started defaultCfg 4096 131072) (by decide) (by decide)).1
    [65536, 65536] .int8 .ephemeral (by decide) (by decide)
  have hsize := hw.1
  revert hsize
  decide

end SynapticOS.Memory
