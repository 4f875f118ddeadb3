import SynapticOS.Runs.Images

/-!
# Dimensions

A header has dimensions of 16 bits, a record of 8 bits that saturate, with sizes from a
product that wraps. A staged record describes the tensors of its header if the header's
dimensions have 8 bits, and only then.
-/

namespace SynapticOS

open Lib

variable {cfg : Config} {s s' : Sys}

/-- The product of the dimensions that are there. -/
def volume (dims : List Nat) : Nat := (dims.filter (· ≠ 0)).prod

def dims16 (v : Vector UInt16 4) : List Nat := v.toList.map UInt16.toNat
def dims8 (v : Vector UInt8 4) : List Nat := v.toList.map UInt8.toNat

/-- The sizes of a record are those of the header's tensors, and so are its shapes. -/
structure Describes (hdr : SynmHdr) (info : ModelInfo) : Prop where
  inputSize : info.inputSize.toNat = volume (dims16 hdr.inputShape)
  outputSize : info.outputSize.toNat = volume (dims16 hdr.outputShape)
  inputShape : volume (dims8 info.inputShape) = info.inputSize.toNat
  outputShape : volume (dims8 info.outputShape) = info.outputSize.toNat

/-- A record has room for the dimensions. -/
def Representable (hdr : SynmHdr) : Prop :=
  (∀ d ∈ dims16 hdr.inputShape, d ≤ 255) ∧ ∀ d ∈ dims16 hdr.outputShape, d ≤ 255

instance (hdr : SynmHdr) : Decidable (Representable hdr) := inferInstanceAs (Decidable (_ ∧ _))

-- ---------------------------------------------------------------------------
-- Volumes
-- ---------------------------------------------------------------------------

theorem volume_cons (d : Nat) (dims : List Nat) :
    volume (d :: dims) = (if d = 0 then 1 else d) * volume dims := by
  unfold volume
  by_cases h : d = 0 <;> simp [h]

theorem volume_pos (dims : List Nat) : 0 < volume dims := by
  induction dims with
  | nil => decide
  | cons d dims ih =>
    rw [volume_cons]
    refine Nat.mul_pos ?_ ih
    split <;> omega

theorem volume_le {k : Nat} (hk : 0 < k) {dims : List Nat} (h : ∀ d ∈ dims, d ≤ k) :
    volume dims ≤ k ^ dims.length := by
  induction dims with
  | nil => exact Nat.le_refl 1
  | cons d dims ih =>
    obtain ⟨hd, hdims⟩ := List.forall_mem_cons.mp h
    rw [volume_cons, List.length_cons, Nat.pow_succ, Nat.mul_comm]
    refine Nat.mul_le_mul (ih hdims) ?_
    split <;> omega

theorem volume_clamp_le (k : Nat) (dims : List Nat) :
    volume (dims.map (min · k)) ≤ volume dims ∨ k = 0 := by
  rcases Nat.eq_zero_or_pos k with hk | hk
  · exact .inr hk
  refine .inl ?_
  induction dims with
  | nil => exact Nat.le_refl 1
  | cons d dims ih =>
    rw [List.map_cons, volume_cons, volume_cons]
    refine Nat.mul_le_mul ?_ ih
    split <;> split <;> omega

/-- Saturation keeps a volume only when it keeps every dimension. -/
theorem volume_clamp {k : Nat} (hk : 0 < k) (dims : List Nat) :
    volume (dims.map (min · k)) = volume dims ↔ ∀ d ∈ dims, d ≤ k := by
  induction dims with
  | nil => simp
  | cons d dims ih =>
    rw [List.forall_mem_cons, List.map_cons, volume_cons, volume_cons, ← ih]
    have hle := (volume_clamp_le k dims).resolve_right hk.ne'
    constructor
    · intro h
      have hd : (if min d k = 0 then 1 else min d k) ≤ if d = 0 then 1 else d := by
        split <;> split <;> omega
      have hpos : 0 < if d = 0 then 1 else d := by split <;> omega
      have hvol : volume (dims.map (min · k)) = volume dims := by
        refine Nat.le_antisymm hle (Nat.le_of_mul_le_mul_left ?_ hpos)
        rw [← h]
        exact Nat.mul_le_mul_right _ hd
      rw [hvol] at h
      have hfac := Nat.eq_of_mul_eq_mul_right (volume_pos dims) h
      refine ⟨?_, hvol⟩
      revert hfac
      split <;> split <;> omega
    · rintro ⟨hd, hvol⟩
      rw [hvol, Nat.min_eq_left hd]

-- ---------------------------------------------------------------------------
-- The record of a session
-- ---------------------------------------------------------------------------

theorem foldl_elements (l : List UInt16) (n : UInt32) :
    (l.foldl (fun n d => if d ≠ 0 then n * d.toUInt32 else n) n).toNat =
      n.toNat * volume (l.map UInt16.toNat) % 2 ^ 32 := by
  induction l generalizing n with
  | nil =>
    show n.toNat = n.toNat * 1 % 2 ^ 32
    rw [Nat.mul_one, Nat.mod_eq_of_lt n.toNat_lt]
  | cons d l ih =>
    rw [List.foldl_cons, ih, List.map_cons, volume_cons]
    by_cases hd : d = 0
    · rw [if_neg (not_not.mpr hd), if_pos (by rw [hd]; rfl), Nat.one_mul]
    · have hd' : d.toNat ≠ 0 := fun h => hd (UInt16.toNat_inj.mp h)
      rw [if_pos hd, if_neg hd', UInt32.toNat_mul, UInt16.toNat_toUInt32, Nat.mod_mul_mod,
        Nat.mul_assoc]

theorem elements_toNat (v : Vector UInt16 4) :
    (elements v).toNat = volume (dims16 v) % 2 ^ 32 := by
  unfold elements
  rw [foldl_elements, show (1 : UInt32).toNat = 1 from rfl, Nat.one_mul]
  rfl

theorem dims8_clampShape (v : Vector UInt16 4) :
    dims8 (clampShape v) = (dims16 v).map (min · 255) := by
  unfold dims8 clampShape dims16
  rw [Vector.toList_map, List.map_map, List.map_map]
  refine List.map_congr_left fun d _ => ?_
  show (UInt8.ofNat (min d.toNat 255)).toNat = min d.toNat 255
  exact UInt8.toNat_ofNat_of_lt' (by show _ < 2 ^ 8; omega)

/-- One tensor: its wrapped size is right and its saturated shape has that size. -/
theorem tensor_described (v : Vector UInt16 4) :
    ((elements v).toNat = volume (dims16 v) ∧
      volume (dims8 (clampShape v)) = (elements v).toNat) ↔ ∀ d ∈ dims16 v, d ≤ 255 := by
  rw [dims8_clampShape, ← volume_clamp (by decide) (dims16 v)]
  constructor
  · rintro ⟨h, h'⟩
    exact h'.trans h
  · intro h
    have hle : volume (dims16 v) ≤ 255 ^ 4 := by
      have hlen : (dims16 v).length = 4 := by simp [dims16]
      exact hlen ▸ volume_le (by decide) ((volume_clamp (by decide) (dims16 v)).mp h)
    have hsize : (elements v).toNat = volume (dims16 v) := by
      rw [elements_toNat]
      exact Nat.mod_eq_of_lt (Nat.lt_of_le_of_lt hle (by decide))
    exact ⟨hsize, h.trans hsize.symm⟩

theorem describes_otaRecord (cfg : Config) (o : Ota) :
    Describes (SynmHdr.ofBytes o.hdr) (otaRecord cfg o) ↔
        Representable (SynmHdr.ofBytes o.hdr) := by
  unfold Representable
  rw [← tensor_described, ← tensor_described]
  exact ⟨fun h => ⟨⟨h.1, h.3⟩, h.2, h.4⟩, fun h => ⟨h.1.1, h.2.1, h.1.2, h.2.2⟩⟩

-- ---------------------------------------------------------------------------
-- Staging
-- ---------------------------------------------------------------------------

/-- A session that ends well has staged its own record. -/
theorem staged_record (hv : layoutValid cfg) (hf : Fitting cfg s) {env : Env}
    (h : call cfg s (env, .otaFinish) = (.ok (), s')) :
    s'.store.st.reg.stagedSlot = s.ota.slot ∧
      s'.store.st.reg.record s.ota.slot = otaRecord cfg s.ota := by
  unfold call at h
  dsimp only at h
  split at h
  swap
  · cases h
  obtain ⟨t, hfin⟩ := (otaFinish_spec hv (s := s.enter env) hf.ota hf.store).ok h
  rw [hfin.commits.reg]
  exact ⟨rfl, Function.update_self ..⟩

/-- In every state of every run: if a session ends there, the staged record describes
the tensors of the header if and only if the record has room for their dimensions. -/
theorem staged_describes (hv : layoutValid cfg) (m : Mem) (past : List (Env × Op)) {env : Env}
    (h : call cfg (run (sysStep cfg) (Sys.cold m) past) (env, .otaFinish) = (.ok (), s')) :
    let o := (run (sysStep cfg) (Sys.cold m) past).ota
    s'.store.st.reg.stagedSlot = o.slot ∧
      (Describes (SynmHdr.ofBytes o.hdr) (s'.store.st.reg.record o.slot) ↔
        Representable (SynmHdr.ofBytes o.hdr)) := by
  obtain ⟨hst, hrec⟩ := staged_record hv (fitting_run hv m past) h
  refine ⟨hst, ?_⟩
  rw [hrec]
  exact describes_otaRecord cfg _

/-- A session for two bytes of model whose input has `d` elements. -/
def shapedSession (d : UInt16) : List (Env × Op) :=
  [(quiet, .boot), (quiet, .otaBegin [65] 66), (quiet, .otaWriteChunk (SynmHdr.bytes
    ⟨synmMagic, synmVersion, packName [65], 2, crc32Ieee [1, 2], #v[d, 0, 0, 0],
      Vector.replicate 4 0⟩ ++ [1, 2]))]

def shapedFinish (d : UInt16) : Except Errno Unit × Sys :=
  call smallDevice (run (sysStep smallDevice) (Sys.cold erasedMem) (shapedSession d))
    (quiet, .otaFinish)

theorem shapedFinish_fst : (shapedFinish 10).1 = .ok () ∧ (shapedFinish 300).1 = .ok () := by
  decide +kernel

theorem shapedFinish_ok {d : UInt16} (h : (shapedFinish d).1 = .ok ()) :
    call smallDevice (run (sysStep smallDevice) (Sys.cold erasedMem) (shapedSession d))
      (quiet, .otaFinish) = (.ok (), (shapedFinish d).2) := by
  rw [← h]
  exact (Prod.mk.eta (p := shapedFinish d)).symm

theorem staged_describes_small :
    let o := (run (sysStep smallDevice) (Sys.cold erasedMem) (shapedSession 10)).ota
    Describes (SynmHdr.ofBytes o.hdr) ((shapedFinish 10).2.store.st.reg.record o.slot) :=
  (staged_describes smallDevice_valid erasedMem (shapedSession 10)
    (shapedFinish_ok shapedFinish_fst.1)).2.mpr (by decide +kernel)

/-- An input of 300 elements is staged with a shape of 255. -/
theorem staged_saturates : ¬∀ (cfg : Config) (m : Mem) (past : List (Env × Op)) (env : Env)
    (s' : Sys), layoutValid cfg →
    call cfg (run (sysStep cfg) (Sys.cold m) past) (env, .otaFinish) = (.ok (), s') →
    let o := (run (sysStep cfg) (Sys.cold m) past).ota
    Describes (SynmHdr.ofBytes o.hdr) (s'.store.st.reg.record o.slot) := fun h => by
  have hok := shapedFinish_ok shapedFinish_fst.2
  have hd := h smallDevice erasedMem (shapedSession 300) quiet _ smallDevice_valid hok
  dsimp only at hd
  rw [(staged_record smallDevice_valid (fitting_run smallDevice_valid _ _) hok).2,
    describes_otaRecord] at hd
  revert hd
  decide +kernel

end SynapticOS
