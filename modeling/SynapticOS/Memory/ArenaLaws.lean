import SynapticOS.Memory.Arena

/-!
# Live blocks do not overlap

As long as no persistent block is allocated above ephemeral ones, and only as
long (`arena_blocks`): the persistent region grows from its own end, where the
first ephemeral block lies.
-/

namespace SynapticOS.Memory

open Lib

variable {cfg : Cfg} {a a' : Arena} {b c : Block} {o : Op} {size n x : Nat}

-- ---------------------------------------------------------------------------
-- Sizes
-- ---------------------------------------------------------------------------

theorem alignUp_eq (h : x + 16 ≤ sizeMod) : alignUp x = (x + 15) / 16 * 16 := by
  unfold alignUp
  rw [Nat.mod_eq_of_lt (by omega)]

theorem alignUp_le (h : x + 16 ≤ sizeMod) : x ≤ alignUp x ∧ alignUp x ≤ x + 15 := by
  rw [alignUp_eq h]
  omega

theorem alignUp_mod (x : Nat) : alignUp x % 16 = 0 := Nat.mul_mod_left ..

theorem Cfg.desc_pos (cfg : Cfg) : 0 < alignUp cfg.descriptor := by
  have := cfg.pos
  have := cfg.small
  have := (alignUp_le (x := cfg.descriptor) (by unfold sizeMod; omega)).1
  omega

theorem foldl_elements (shape : List Nat) (n : Nat) (hn : n < sizeMod) :
    shape.foldl (fun n d => n * d % sizeMod) n = n * shape.prod % sizeMod := by
  induction shape generalizing n with
  | nil => simp [Nat.mod_eq_of_lt hn]
  | cons d shape ih =>
    rw [List.foldl_cons, ih _ (Nat.mod_lt _ (by decide)), List.prod_cons, ← Nat.mul_assoc,
      Nat.mod_mul_mod]

theorem elements_eq (shape : List Nat) : elements shape = shape.prod % sizeMod := by
  unfold elements
  rw [foldl_elements _ _ (by decide), Nat.one_mul]

theorem dtypeSize_pos (dtype : Dtype) : 0 < dtypeSize dtype := by cases dtype <;> decide

theorem dataSize_eq (shape : List Nat) (dtype : Dtype) (h : shape.prod * dtypeSize dtype < sizeMod) :
    dataSize shape dtype = shape.prod * dtypeSize dtype := by
  have hle := Nat.le_mul_of_pos_right shape.prod (dtypeSize_pos dtype)
  unfold dataSize
  rw [elements_eq, Nat.mod_eq_of_lt (show shape.prod < sizeMod by omega), Nat.mod_eq_of_lt h]

-- ---------------------------------------------------------------------------
-- The invariant
-- ---------------------------------------------------------------------------

/-- Which part of the arena a block lies in. -/
def Block.Placed (a : Arena) (b : Block) : Prop :=
  if b.scratch then b.offset + b.size ≤ a.scratchUsed
  else if b.lifetime = .persistent then b.offset + b.size ≤ a.persistentUsed
  else a.persistentUsed ≤ b.offset ∧ b.offset + b.size ≤ a.persistentUsed + a.ephemeralUsed

structure Ok (cfg : Cfg) (size : Nat) (a : Arena) : Prop where
  initialized : a.initialized = true
  usable : a.usable = size - cfg.scratch
  scratchTotal : a.scratchTotal = cfg.scratch
  scratchUsed : a.scratchUsed ≤ a.scratchTotal
  used : a.persistentUsed + a.ephemeralUsed ≤ a.usable
  placed : ∀ b ∈ a.live, b.Placed a
  pos : ∀ b ∈ a.live, 0 < b.size
  aligned : ∀ b ∈ a.live, b.offset % 16 = 0
  apart : a.live.Pairwise (Block.Apart a)
  first : 0 < a.ephemeralUsed →
    ∃ b ∈ a.live, b.scratch = false ∧ b.offset = alignUp a.persistentUsed

/-- A block that is put behind all others. -/
theorem apart_append (h : a.live.Pairwise (Block.Apart a')) (hb : ∀ c ∈ a.live, Block.Apart a' c b) :
    (a.live ++ [b]).Pairwise (Block.Apart a') := by
  rw [List.pairwise_append]
  refine ⟨h, List.pairwise_singleton .., fun c hc d hd => ?_⟩
  rw [List.mem_singleton.mp hd]
  exact hb c hc

theorem mem_append_one {P : Block → Prop} (h : ∀ c ∈ a.live, P c) (hb : P b) :
    ∀ c ∈ a.live ++ [b], P c := by
  intro c hc
  rcases List.mem_append.mp hc with hc | hc
  · exact h c hc
  · rw [List.mem_singleton.mp hc]
    exact hb

theorem Ok.ephemeral_none (h : Ok cfg size a) (he : a.ephemeralUsed = 0) (hb : b ∈ a.live)
    (hs : b.scratch = false) : b.lifetime = .persistent := by
  by_contra hl
  have hp := h.placed b hb
  have hpos := h.pos b hb
  unfold Block.Placed at hp
  rw [hs, if_neg Bool.noConfusion, if_neg hl] at hp
  omega

/-- Tensor blocks end where the used part ends. -/
theorem Ok.tensor_le (h : Ok cfg size a) (hb : b ∈ a.live) (hs : b.scratch = false) :
    b.offset + b.size ≤ a.persistentUsed + a.ephemeralUsed := by
  have hp := h.placed b hb
  unfold Block.Placed at hp
  rw [hs, if_neg Bool.noConfusion] at hp
  split at hp <;> omega

theorem Ok.scratch_le (h : Ok cfg size a) (hb : b ∈ a.live) (hs : b.scratch = true) :
    b.offset + b.size ≤ a.scratchUsed := by
  have hp := h.placed b hb
  unfold Block.Placed at hp
  rwa [hs, if_pos rfl] at hp

/-- A tensor block that begins behind the used part. -/
theorem Ok.apart_tensor (h : Ok cfg size a) (hb : b.scratch = false)
    (hlo : a.persistentUsed + a.ephemeralUsed ≤ b.offset) (hhi : b.offset + b.size ≤ a.usable) :
    ∀ c ∈ a.live, Block.Apart a c b := by
  intro c hc
  unfold Block.Apart Block.start
  cases hs : c.scratch with
  | false =>
    have := h.tensor_le hc hs
    simp only [hb, Bool.false_eq_true, ↓reduceIte]
    omega
  | true =>
    simp only [hb, Bool.false_eq_true, ↓reduceIte]
    omega

theorem Ok.apart_scratch (h : Ok cfg size a) (hb : b.scratch = true) (hlo : a.scratchUsed ≤ b.offset) :
    ∀ c ∈ a.live, Block.Apart a c b := by
  intro c hc
  have hu := h.used
  unfold Block.Apart Block.start
  cases hs : c.scratch with
  | false =>
    have := h.tensor_le hc hs
    simp only [hb, Bool.false_eq_true, ↓reduceIte]
    omega
  | true =>
    have := h.scratch_le hc hs
    simp only [hb, ↓reduceIte]
    omega

theorem Ok.good (h : Ok cfg size a) (hw : size < sizeMod) : Good a where
  apart := h.apart
  inside b hb := by
    have hu := h.used
    have hsu := h.scratchUsed
    cases hs : b.scratch with
    | false =>
      have := h.tensor_le hb hs
      rw [if_neg Bool.noConfusion]
      omega
    | true =>
      have := h.scratch_le hb hs
      rw [if_pos rfl]
      omega
  aligned := h.aligned
  used := by
    have hu := h.used
    have hus := h.usable
    unfold Arena.used
    rw [Nat.mod_eq_of_lt (by omega)]
    exact hu

-- ---------------------------------------------------------------------------
-- Allocations
-- ---------------------------------------------------------------------------

/-- What an allocation at `q` does where nothing wraps. -/
inductive Allocated (a : Arena) (lifetime : Lifetime) (q n : Nat) : Option Nat × Arena → Prop
  | full (h : a.usable < q + n) : Allocated a lifetime q n (none, a)
  | block (a' : Arena) (h : q + n ≤ a.usable)
      (hlive : a'.live = a.live ++ [⟨false, lifetime, q, n⟩])
      (hp : a'.persistentUsed = if lifetime = .persistent then q + n else a.persistentUsed)
      (he : a'.ephemeralUsed =
        if lifetime = .persistent then a.ephemeralUsed else q + n - a.persistentUsed)
      (hu : a'.usable = a.usable) (hs : a'.scratchUsed = a.scratchUsed)
      (hst : a'.scratchTotal = a.scratchTotal) (hi : a'.initialized = a.initialized) :
      Allocated a lifetime q n (some (a.base + q), a')

theorem sub_top {p : Nat} (h1 : p ≤ x) (h2 : x < sizeMod) : (x + sizeMod - p) % sizeMod = x - p := by
  rw [show x + sizeMod - p = x - p + sizeMod by omega, Nat.add_mod_right, Nat.mod_eq_of_lt (by omega)]

theorem Ok.bump_eq (h : Ok cfg size a) (hw : size < sizeMod) (lifetime : Lifetime) :
    a.bump lifetime = if lifetime = .persistent then a.persistentUsed
      else a.persistentUsed + a.ephemeralUsed := by
  have hu := h.used
  have hus := h.usable
  cases lifetime with
  | persistent => rfl
  | _ => exact Nat.mod_eq_of_lt (by omega)

theorem Ok.bump_le (h : Ok cfg size a) (hw : size < sizeMod) (lifetime : Lifetime) :
    a.persistentUsed ≤ a.bump lifetime ∧ a.bump lifetime ≤ a.usable := by
  have hu := h.used
  rw [h.bump_eq hw]
  split <;> omega

theorem allocatedAt (lifetime : Lifetime) (hp : a.persistentUsed ≤ alignUp x)
    (hw : alignUp x + n < sizeMod) :
    Allocated a lifetime (alignUp x) n (arenaAllocAt lifetime x n a) := by
  unfold arenaAllocAt
  generalize alignUp x = q at hp hw ⊢
  have htop : (q + n) % sizeMod = q + n := Nat.mod_eq_of_lt hw
  have hsub := sub_top (x := q + n) (p := a.persistentUsed) (by omega) hw
  dsimp only
  rw [htop, hsub]
  split
  · rename_i hfull
    exact .full hfull
  · rename_i hfit
    cases lifetime with
    | persistent => exact .block _ (Nat.le_of_not_lt hfit) rfl rfl rfl rfl rfl rfl rfl
    | ephemeral => exact .block _ (Nat.le_of_not_lt hfit) rfl rfl rfl rfl rfl rfl rfl
    | shared => exact .block _ (Nat.le_of_not_lt hfit) rfl rfl rfl rfl rfl rfl rfl

theorem Ok.allocated (h : Ok cfg size a) (lifetime : Lifetime) (hw : size + n + 16 ≤ sizeMod) :
    Allocated a lifetime (alignUp (a.bump lifetime)) n (arenaAlloc lifetime n a) := by
  have hus := h.usable
  have hle := h.bump_le (by omega) lifetime
  have hal := alignUp_le (x := a.bump lifetime) (by omega)
  exact allocatedAt lifetime (by omega) (by omega)

/-- A block whose part of the arena has grown, or stayed. -/
theorem Block.Placed.mono (h : b.Placed a) (hb : b.scratch = false → b.lifetime ≠ .persistent →
      a'.persistentUsed = a.persistentUsed)
    (hp : a.persistentUsed ≤ a'.persistentUsed) (he : a.ephemeralUsed ≤ a'.ephemeralUsed)
    (hs : a.scratchUsed ≤ a'.scratchUsed) : b.Placed a' := by
  unfold Block.Placed at h ⊢
  split
  · rename_i hsc
    rw [if_pos hsc] at h
    omega
  · rename_i hsc
    rw [if_neg hsc] at h
    split
    · rename_i hl
      rw [if_pos hl] at h
      omega
    · rename_i hl
      rw [if_neg hl] at h
      have := hb (by simpa using hsc) hl
      omega

theorem apart_congr (hu : a'.usable = a.usable) (h : a.live.Pairwise (Block.Apart a)) :
    a.live.Pairwise (Block.Apart a') := by
  refine h.imp fun {b c} hbc => ?_
  unfold Block.Apart Block.start at hbc ⊢
  rw [hu]
  exact hbc

/-- An allocation that is permitted keeps the invariant. -/
theorem Ok.alloc (h : Ok cfg size a) (lifetime : Lifetime) (hw : size + n + 16 ≤ sizeMod) (hn : 0 < n)
    (hperm : lifetime = .persistent →
      a.ephemeralUsed = 0 ∨ a.usable < alignUp a.persistentUsed + n) :
    Ok cfg size (arenaAlloc lifetime n a).2 := by
  have hu := h.used
  have hus := h.usable
  have hle := h.bump_le (by omega) lifetime
  have hal := alignUp_le (x := a.bump lifetime) (by omega)
  have hbump := h.bump_eq (by omega) lifetime
  have hcases := h.allocated lifetime hw
  generalize arenaAlloc lifetime n a = r at hcases
  cases hcases with
  | full => exact h
  | block a' hfit hlive hp he hu' hs hst hi =>
    -- a persistent block finds no ephemeral ones
    have hnone : lifetime = .persistent → a.ephemeralUsed = 0 := fun hl => by
      rcases hperm hl with h0 | hlt
      · exact h0
      · rw [hl] at hfit
        exact absurd hfit (Nat.not_le_of_lt hlt)
    have hlo : a.persistentUsed + a.ephemeralUsed ≤ alignUp (a.bump lifetime) := by
      rw [hbump] at hal ⊢
      by_cases hl : lifetime = .persistent
      · rw [if_pos hl] at hal ⊢
        have := hnone hl
        omega
      · rw [if_neg hl] at hal ⊢
        omega
    have hpu : a.persistentUsed ≤ a'.persistentUsed := by
      rw [hp]
      split <;> omega
    have heu : a.ephemeralUsed ≤ a'.ephemeralUsed := by
      rw [he]
      split <;> omega
    refine ⟨hi.trans h.initialized, hu'.trans hus, hst.trans h.scratchTotal, ?_, ?_, ?_, ?_, ?_, ?_, ?_⟩
    · rw [hs, hst]
      exact h.scratchUsed
    · rw [hp, he, hu']
      split
      · rename_i hl
        have := hnone hl
        omega
      · omega
    · rw [hlive]
      refine mem_append_one (fun c hc => ?_) ?_
      · refine (h.placed c hc).mono (fun hsc hl => ?_) hpu heu (Nat.le_of_eq hs.symm)
        rw [hp, if_neg fun hpers => hl (h.ephemeral_none (hnone hpers) hc hsc)]
      · unfold Block.Placed
        rw [if_neg Bool.noConfusion]
        dsimp only
        rw [hp, he]
        split
        · omega
        · omega
    · rw [hlive]
      exact mem_append_one h.pos hn
    · rw [hlive]
      exact mem_append_one h.aligned (alignUp_mod _)
    · rw [hlive]
      refine apart_append (apart_congr hu' h.apart) fun c hc => ?_
      have := h.apart_tensor (b := ⟨false, lifetime, alignUp (a.bump lifetime), n⟩) rfl hlo hfit c hc
      unfold Block.Apart Block.start at this ⊢
      rw [hu']
      exact this
    · intro hpos
      rw [hlive]
      have hl : lifetime ≠ .persistent := fun hl => by
        rw [he, if_pos hl, hnone hl] at hpos
        omega
      rw [hp, if_neg hl]
      rcases Nat.eq_zero_or_pos a.ephemeralUsed with h0 | h0
      · refine ⟨_, List.mem_append_right _ (List.mem_singleton_self _), rfl, ?_⟩
        rw [hbump, if_neg hl, h0, Nat.add_zero]
      · obtain ⟨b, hb, hsc, hoff⟩ := h.first h0
        exact ⟨b, List.mem_append_left _ hb, hsc, hoff⟩

/-- A tensor takes the descriptor and the data. -/
theorem tensorAlloc_snd (h : Ok cfg size a) {shape : List Nat} {dtype : Dtype} (lifetime : Lifetime)
    (hw : size + alignUp cfg.descriptor + shape.prod * dtypeSize dtype + 16 ≤ sizeMod) :
    (tensorAlloc cfg shape dtype lifetime a).2 =
      if shape.length = 0 ∨ 4 < shape.length then a
      else (arenaAlloc lifetime (alignUp cfg.descriptor + shape.prod * dtypeSize dtype) a).2 := by
  unfold tensorAlloc
  simp only [h.initialized, Bool.true_eq_false, false_or]
  split
  · rfl
  · rw [dataSize_eq shape dtype (by omega), Nat.mod_eq_of_lt (by omega)]
    split
    · rename_i hr
      rw [hr]
    · rename_i hr
      rw [hr]

theorem Ok.scratch (h : Ok cfg size a) (hw : size + n + 16 ≤ sizeMod) (hs : cfg.scratch < size) :
    Ok cfg size (scratchAcquire n a).2 := by
  have hsu := h.scratchUsed
  have hst := h.scratchTotal
  have hal := alignUp_le (x := a.scratchUsed) (by omega)
  have hmod := alignUp_mod a.scratchUsed
  unfold scratchAcquire
  split
  · exact h
  · rename_i hn
    have hn : n ≠ 0 := fun h0 => hn (.inr h0)
    dsimp only
    generalize alignUp a.scratchUsed = q at hal hmod ⊢
    rw [Nat.mod_eq_of_lt (show q + n < sizeMod by omega)]
    split
    · exact h
    · rename_i hfit
      refine ⟨h.initialized, h.usable, hst, Nat.le_of_not_lt hfit, h.used, ?_, ?_, ?_, ?_, ?_⟩
      · refine mem_append_one (fun c hc => ?_) ?_
        · refine (h.placed c hc).mono (fun _ _ => rfl) (Nat.le_refl _) (Nat.le_refl _) ?_
          show a.scratchUsed ≤ q + n
          omega
        · exact Nat.le_refl (q + n)
      · exact mem_append_one h.pos (Nat.pos_of_ne_zero hn)
      · exact mem_append_one h.aligned hmod
      · exact apart_append (apart_congr rfl h.apart) (h.apart_scratch rfl hal.1)
      · intro hpos
        obtain ⟨b, hb, hsc, hoff⟩ := h.first hpos
        exact ⟨b, List.mem_append_left _ hb, hsc, hoff⟩

theorem Ok.reset (h : Ok cfg size a) : Ok cfg size (resetEphemeral a) := by
  have hu := h.used
  unfold resetEphemeral
  rw [if_pos h.initialized]
  have hmem : ∀ b ∈ a.live.filter (fun b => !b.scratch && decide (b.lifetime = .persistent)),
      b ∈ a.live ∧ b.scratch = false ∧ b.lifetime = .persistent := fun b hb => by
    simpa using hb
  refine ⟨h.initialized, h.usable, h.scratchTotal, Nat.zero_le _, ?_, fun b hb => ?_, fun b hb => ?_,
    fun b hb => ?_, ?_, fun hpos => absurd hpos (Nat.lt_irrefl 0)⟩
  · show a.persistentUsed + 0 ≤ a.usable
    omega
  · obtain ⟨hin, hsc, hl⟩ := hmem b hb
    have hp := h.placed b hin
    unfold Block.Placed at hp ⊢
    simp only [hsc, Bool.false_eq_true, ↓reduceIte, hl] at hp ⊢
    exact hp
  · exact h.pos b (hmem b hb).1
  · exact h.aligned b (hmem b hb).1
  · exact (h.apart.filter _).imp fun hbc => hbc

-- ---------------------------------------------------------------------------
-- Steps
-- ---------------------------------------------------------------------------

theorem ok_step (hs : cfg.scratch < size) (h : Ok cfg size a) (hw : o.Small cfg size)
    (ho : Permitted cfg a o) : Ok cfg size (step cfg a o) := by
  cases o with
  | tensorAlloc shape dtype lifetime =>
    have hw : size + alignUp cfg.descriptor + shape.prod * dtypeSize dtype + 16 ≤ sizeMod := hw
    have hpos := cfg.desc_pos
    show Ok cfg size (tensorAlloc cfg shape dtype lifetime a).2
    rw [tensorAlloc_snd h lifetime hw]
    split
    · exact h
    · rename_i hshape
      refine h.alloc lifetime (by omega) (by omega) fun hl => ?_
      subst hl
      rcases ho with ho | ho | ho | ho
      · exact .inl ho
      · exact absurd (.inl ho) hshape
      · exact absurd (.inr ho) hshape
      · exact .inr ho
  | scratchAcquire n => exact h.scratch hw hs
  | resetEphemeral => exact h.reset

/-- A persistent block that is allocated under ephemeral ones lies where the first
of them lies. -/
theorem Ok.permitted (h : Ok cfg size a) (hw : o.Small cfg size) (hg : Good (step cfg a o)) :
    Permitted cfg a o := by
  by_contra hn
  cases o with
  | tensorAlloc shape dtype lifetime =>
    cases lifetime with
    | persistent =>
      have hw : size + alignUp cfg.descriptor + shape.prod * dtypeSize dtype + 16 ≤ sizeMod := hw
      have hn : ¬(a.ephemeralUsed = 0 ∨ shape.length = 0 ∨ 4 < shape.length ∨ a.usable <
          alignUp a.persistentUsed + (alignUp cfg.descriptor + shape.prod * dtypeSize dtype)) := hn
      have hpos := cfg.desc_pos
      obtain ⟨b, hb, hsc, hoff⟩ := h.first (by omega)
      have hap : Good (tensorAlloc cfg shape dtype .persistent a).2 := hg
      rw [tensorAlloc_snd h .persistent hw, if_neg (by omega)] at hap
      have hcases := h.allocated (n := alignUp cfg.descriptor + shape.prod * dtypeSize dtype)
        .persistent (by omega)
      generalize arenaAlloc .persistent _ a = r at hcases hap
      cases hcases with
      | full hfull =>
        have : a.bump .persistent = a.persistentUsed := rfl
        rw [this] at hfull
        omega
      | block a' hfit hlive =>
        have hap := hap.apart
        rw [hlive, List.pairwise_append] at hap
        have := hap.2.2 b hb _ (List.mem_singleton_self _)
        have hbpos := h.pos b hb
        unfold Block.Apart Block.start at this
        simp only [hsc, Bool.false_eq_true, ↓reduceIte, hoff] at this
        have hbump : a.bump .persistent = a.persistentUsed := rfl
        rw [hbump] at this
        omega
    | _ => exact hn trivial
  | _ => exact hn trivial

-- ---------------------------------------------------------------------------
-- Runs
-- ---------------------------------------------------------------------------

/-- The arena after its initialization. -/
def started (cfg : Cfg) (base size : Nat) : Arena := (memInit cfg base size Arena.zero).2

theorem ok_started {base : Nat} (hb : base ≠ 0) (hs : cfg.scratch < size) :
    Ok cfg size (started cfg base size) := by
  unfold started memInit
  rw [if_neg (by omega), if_neg (by omega)]
  exact ⟨rfl, rfl, rfl, Nat.zero_le _, Nat.zero_le _, fun b hb => (nomatch hb), fun b hb => (nomatch hb),
    fun b hb => (nomatch hb), .nil, fun hpos => absurd hpos (Nat.lt_irrefl 0)⟩

/-- The property holds all along a run exactly if every step is permitted. -/
theorem good_iff (hs : cfg.scratch < size) (hsize : size < sizeMod) {l : List Op}
    (hw : ∀ o ∈ l, o.Small cfg size) (h : Ok cfg size a) :
    (∀ k, Good (run (step cfg) a (l.take k))) ↔ Along (step cfg) (Permitted cfg) a l := by
  induction l generalizing a with
  | nil => exact ⟨fun _ => .nil, fun _ k => by rw [List.take_nil]; exact h.good hsize⟩
  | cons o l ih =>
    have hw' : ∀ x ∈ l, x.Small cfg size := fun x hx => hw x (.tail _ hx)
    constructor
    · intro hg
      have ho := h.permitted (hw o (.head _)) (hg 1)
      have hok := ok_step hs h (hw o (.head _)) ho
      exact .cons ho ((ih hw' hok).mp fun k => hg (k + 1))
    · intro ha k
      cases ha with
      | cons ho ha =>
        have hok := ok_step hs h (hw o (.head _)) ho
        cases k with
        | zero => exact h.good hsize
        | succ k => exact (ih hw' hok).mpr ha k

/-- For every run after the initialization in which no size wraps. -/
theorem arena_blocks (cfg : Cfg) (base size : Nat) (hb : base ≠ 0) (hs : cfg.scratch < size)
    (hsize : size < sizeMod) (l : List Op) (hw : ∀ o ∈ l, o.Small cfg size) :
    (∀ k, Good (run (step cfg) (started cfg base size) (l.take k))) ↔
      Along (step cfg) (Permitted cfg) (started cfg base size) l :=
  good_iff hs hsize hw (ok_started hb hs)

/-- A build with the default sizes. -/
def defaultCfg : Cfg := ⟨36, 16384, by decide, by decide⟩

/-- An ephemeral tensor, and a persistent one after it. -/
def overlapOps : List Op := [.tensorAlloc [16] .int8 .ephemeral, .tensorAlloc [16] .int8 .persistent]

theorem arena_blocks_default :
    (∀ k, Good (run (step defaultCfg) (started defaultCfg 4096 131072) (overlapOps.take k))) ↔
      Along (step defaultCfg) (Permitted defaultCfg) (started defaultCfg 4096 131072) overlapOps :=
  arena_blocks defaultCfg 4096 131072 (by decide) (by decide) (by decide) overlapOps (by decide)

/-- Both tensors lie at the base of the arena. -/
theorem persistent_overlaps : ¬∀ (cfg : Cfg) (base size : Nat), base ≠ 0 → cfg.scratch < size →
    size < sizeMod → ∀ l : List Op, (∀ o ∈ l, o.Small cfg size) →
      ∀ k, Good (run (step cfg) (started cfg base size) (l.take k)) := fun h => by
  have hg := h defaultCfg 4096 131072 (by decide) (by decide) (by decide) overlapOps (by decide)
  have hn : ¬Along (step defaultCfg) (Permitted defaultCfg) (started defaultCfg 4096 131072) overlapOps := by
    decide
  exact hn ((good_iff (by decide) (by decide) (by decide) (ok_started (by decide) (by decide))).mp hg)

end SynapticOS.Memory
