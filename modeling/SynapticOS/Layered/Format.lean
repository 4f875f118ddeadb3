import SynapticOS.Lib.Buffer
import SynapticOS.Lib.Patch
import SynapticOS.Layered.PlanLaws

/-!
# The layered blob format

The builders, `syn_npu_layered_make_model` for chains and `syn_npu_layered_make_dag`,
against the parser: what they build is parsed as it was meant, the parser accepts the
blobs that are well formed, and it reads no byte outside them (`layered_format`).
-/

namespace SynapticOS.Layered

open Lib

variable {lim : Limits} {dag : Bool} {data bytes rest : List UInt8} {p p' : Plan}
    {i k n total : Nat}

-- ---------------------------------------------------------------------------
-- The builders
-- ---------------------------------------------------------------------------

/-- `syn_layered_dag_layer_t`. -/
structure DagLayer where
  outSize : UInt16
  work : UInt16
  srcA : Int16
  srcB : Int16
  deriving DecidableEq

def writeHeader (magic : UInt32) (layerCount inputSize : UInt16) : List UInt8 :=
  le32 magic ++ (le16 layerCount ++ le16 inputSize)

def descSize (dag : Bool) : Nat := if dag then 8 else 4

/-- The checks and the loop that both builders have, around one descriptor. -/
def makeBlob (lim : Limits) (magic : UInt32) (size : Nat) (desc : Nat → Except Errno (List UInt8))
    (inputSize layerCount : UInt16) : Act (List UInt8) Errno Nat := do
  if layerCount = 0 ∨ maxLayers < layerCount.toNat ∨ inputSize = 0 ∨
      lim.actMax < inputSize.toNat then Act.throw .einval
  else
    let total := hdrSize + layerCount.toNat * size
    let buf ← Act.get
    if buf.length < total then Act.throw .enomem
    else do
      Act.modify (patch · 0 (writeHeader magic layerCount inputSize))
      Act.times (fun i _ =>
        match desc i with
        | .error e => Act.throw e
        | .ok d => Act.modify (patch · (hdrSize + i * size) d)) layerCount.toNat ()
      pure total

def chainDesc (lim : Limits) (outSizes : Nat → UInt16) (work : Option (Nat → UInt16)) (i : Nat) :
    Except Errno (List UInt8) :=
  if outSizes i = 0 ∨ lim.actMax < (outSizes i).toNat then .error .einval
  else .ok (le16 (outSizes i) ++ le16 (work.elim 0 (· i)))

def dagDesc (lim : Limits) (layers : Nat → DagLayer) (i : Nat) : Except Errno (List UInt8) :=
  let l := layers i
  if l.outSize = 0 ∨ lim.actMax < l.outSize.toNat then .error .einval
  else
    match resolveSrc l.srcA.toInt i false, resolveSrc l.srcB.toInt i true with
    | .ok _, .ok _ =>
      .ok (le16 l.outSize ++ (le16 l.work ++ (le16 l.srcA.toUInt16 ++ le16 l.srcB.toUInt16)))
    | _, _ => .error .einval

/-- What is returned, and the buffer afterwards; a null pointer is `none`. -/
def makeModel (lim : Limits) (buf : Option (List UInt8)) (inputSize layerCount : UInt16)
    (outSizes work : Option (Nat → UInt16)) : Except Errno Nat × Option (List UInt8) :=
  match buf, outSizes with
  | some b, some outSizes =>
    let r := (makeBlob lim chainMagic (descSize false) (chainDesc lim outSizes work) inputSize
      layerCount).run b
    (r.1, some r.2)
  | _, _ => (.error .einval, buf)

def makeDag (lim : Limits) (buf : Option (List UInt8)) (inputSize layerCount : UInt16)
    (layers : Option (Nat → DagLayer)) : Except Errno Nat × Option (List UInt8) :=
  match buf, layers with
  | some b, some layers =>
    let r := (makeBlob lim dagMagic (descSize true) (dagDesc lim layers) inputSize layerCount).run b
    (r.1, some r.2)
  | _, _ => (.error .einval, buf)

-- ---------------------------------------------------------------------------
-- The parser on checked memory
-- ---------------------------------------------------------------------------

section Checked

/-- `parse_model` on memory where a read outside the blob is a fault. -/
abbrev CheckedM := Act Plan (Stop Errno)

def load16 (data : List UInt8) (off : Nat) : CheckedM Nat :=
  if off + 2 ≤ data.length then pure (rd16 data off) else Act.throw .fault

def load32 (data : List UInt8) (off : Nat) : CheckedM UInt32 :=
  if off + 4 ≤ data.length then pure (u32At data off) else Act.throw .fault

/-- The signed reading of a word. -/
def signed16 (w : Nat) : Int := if w < 2 ^ 15 then w else (w : Int) - 2 ^ 16

/-- A source reference of a graph; a chain has none and reads nothing. -/
def loadSrc (dag : Bool) (data : List UInt8) (off : Nat) (dflt : Int) : CheckedM Int :=
  if dag then do
    let w ← load16 data off
    pure (signed16 w)
  else pure dflt

def checkedLayer (lim : Limits) (dag : Bool) (data : List UInt8) (i : Nat) : CheckedM Layer := do
  let d := hdrSize + i * descSize dag
  let out ← load16 data d
  let work ← load16 data (d + 2)
  if out = 0 ∨ lim.actMax < out then Act.throw (.reject .einval)
  else do
    let rawA ← loadSrc dag data (d + 4) srcPrev
    let rawB ← loadSrc dag data (d + 6) srcNone
    match resolveSrc rawA i false, resolveSrc rawB i true with
    | .ok (some a), .ok b => pure ⟨out, work, a, b⟩
    | _, _ => Act.throw (.reject .einval)

def checkedLayers (lim : Limits) (dag : Bool) (data : List UInt8) : Nat → Nat → CheckedM Unit
  | 0, _ => pure ()
  | k + 1, i => do
    let l ← checkedLayer lim dag data i
    Act.modify fun p => { p with layers := p.layers ++ [l] }
    checkedLayers lim dag data k (i + 1)

def checkedModel (lim : Limits) (data : List UInt8) : CheckedM Unit := do
  if data.length < hdrSize then Act.throw (.reject .enotsup)
  else do
    let magic ← load32 data 0
    let dag : Bool := magic = dagMagic
    if dag = false ∧ magic ≠ chainMagic then Act.throw (.reject .enotsup)
    else do
      let n ← load16 data 4
      let input ← load16 data 6
      if n = 0 ∨ maxLayers < n ∨ input = 0 ∨ lim.actMax < input then Act.throw (.reject .einval)
      else if data.length < hdrSize + n * descSize dag then Act.throw (.reject .einval)
      else do
        Act.modify fun p => { p with model := data, inputSize := input, layers := [] }
        checkedLayers lim dag data n 0

theorem run_load16 (h : off + 2 ≤ data.length) (f : Nat → CheckedM α) (p : Plan) :
    (load16 data off >>= f).run p = (f (rd16 data off)).run p := by
  unfold load16
  rw [if_pos h]
  rfl

theorem run_load32 (h : off + 4 ≤ data.length) (f : UInt32 → CheckedM α) (p : Plan) :
    (load32 data off >>= f).run p = (f (u32At data off)).run p := by
  unfold load32
  rw [if_pos h]
  rfl

theorem run_loadSrc (dflt : Int) (h : dag = true → off + 2 ≤ data.length) (f : Int → CheckedM α)
    (p : Plan) : (loadSrc dag data off dflt >>= f).run p =
      (f (if dag then rds16 data off else dflt)).run p := by
  unfold loadSrc
  cases dag with
  | false => rfl
  | true =>
    rw [if_pos rfl, if_pos rfl, Act.run_bind, run_load16 (h rfl)]
    rfl

/-- A descriptor inside the blob is read without a fault. -/
theorem run_checkedLayer (h : hdrSize + (i + 1) * descSize dag ≤ data.length) (p : Plan) :
    (checkedLayer lim dag data i).run p =
      match parseLayer lim dag data i with
      | .ok l => (.ok l, p)
      | .error e => (.error (.reject e), p) := by
  have hsize : (i + 1) * descSize dag = i * descSize dag + descSize dag := Nat.succ_mul ..
  have hlen : hdrSize + i * descSize dag + descSize dag ≤ data.length := by omega
  have hdesc : 4 ≤ descSize dag := by cases dag <;> decide
  have hdag : dag = true → descSize dag = 8 := fun h => by rw [h]; rfl
  unfold checkedLayer
  dsimp only
  rw [run_load16 (by omega), run_load16 (by omega)]
  by_cases hout : rd16 data (hdrSize + i * descSize dag) = 0 ∨
      lim.actMax < rd16 data (hdrSize + i * descSize dag)
  · have hp : parseLayer lim dag data i = .error .einval := if_pos hout
    rw [if_pos hout, hp]
    rfl
  · unfold parseLayer
    change _ = match (if rd16 data (hdrSize + i * descSize dag) = 0 ∨
      lim.actMax < rd16 data (hdrSize + i * descSize dag) then _ else _ : Except Errno Layer) with
      | .ok l => (Except.ok l, p)
      | .error e => (Except.error (Stop.reject e), p)
    rw [if_neg hout, if_neg hout, run_loadSrc _ fun hd => by have := hdag hd; omega,
      run_loadSrc _ fun hd => by have := hdag hd; omega]
    unfold descSize
    generalize hdrSize + i * (if dag then 8 else 4) = d
    generalize resolveSrc (if dag then rds16 data (d + 4) else srcPrev) i false = ra
    generalize resolveSrc (if dag then rds16 data (d + 6) else srcNone) i true = rb
    rcases ra with _ | _ | _ <;> cases rb <;> rfl

theorem run_checkedLayers (h : hdrSize + (i + k) * descSize dag ≤ data.length) (p : Plan) :
    (checkedLayers lim dag data k i).run p =
      (Act.mapError Stop.reject (parseLayers lim dag data k i)).run p := by
  induction k generalizing i p with
  | zero => rfl
  | succ k ih =>
    have hle : (i + 1) * descSize dag ≤ (i + (k + 1)) * descSize dag :=
      Nat.mul_le_mul_right _ (by omega)
    unfold checkedLayers parseLayers
    rw [Act.run_bind, run_checkedLayer (by omega)]
    cases parseLayer lim dag data i with
    | error e => rfl
    | ok l => exact ih (by rwa [Nat.add_assoc, Nat.add_comm 1 k]) _

/-- The parser reads no byte outside the blob. -/
theorem run_checkedModel (lim : Limits) (data : List UInt8) (p : Plan) :
    (checkedModel lim data).run p = (Act.mapError Stop.reject (parseModel lim data)).run p := by
  unfold checkedModel parseModel parseHeader
  by_cases hlen : data.length < hdrSize
  · rw [if_pos hlen, if_pos hlen]
    rfl
  · rw [if_neg hlen, if_neg hlen]
    unfold hdrSize at hlen
    rw [run_load32 (by omega)]
    dsimp only
    split
    · rfl
    rw [run_load16 (by omega), run_load16 (by omega)]
    split
    · rfl
    generalize decide (u32At data 0 = dagMagic) = dag
    unfold descSize
    by_cases hin : data.length < hdrSize + rd16 data 4 * (if dag = true then 8 else 4)
    · rw [if_pos hin, if_pos hin]
      rfl
    · rw [if_neg hin, if_neg hin]
      exact run_checkedLayers (by rw [Nat.zero_add]; exact Nat.not_lt.mp hin) _

end Checked

-- ---------------------------------------------------------------------------
-- Well-formed blobs
-- ---------------------------------------------------------------------------

/-- A reference that layer `i` may make: to its predecessor, to the input, or to the
output of an earlier layer. -/
def Resolvable (raw : Int) (i : Nat) : Prop :=
  raw = srcPrev ∨ raw = srcInput ∨ 0 ≤ raw ∧ raw.toNat < i

/-- The descriptor of layer `i`; a chain's has no references. -/
structure LayerFormed (lim : Limits) (dag : Bool) (data : List UInt8) (i : Nat) : Prop where
  out : let out := rd16 data (hdrSize + i * descSize dag); 0 < out ∧ out ≤ lim.actMax
  srcA : dag = true → Resolvable (rds16 data (hdrSize + i * descSize dag + 4)) i
  srcB : dag = true → let raw := rds16 data (hdrSize + i * descSize dag + 6)
    raw = srcNone ∨ Resolvable raw i

/-- A blob of the chain format, or of the graph format. -/
structure WellFormed (lim : Limits) (dag : Bool) (data : List UInt8) : Prop where
  header : hdrSize ≤ data.length
  magic : u32At data 0 = if dag then dagMagic else chainMagic
  layers : 0 < rd16 data 4 ∧ rd16 data 4 ≤ maxLayers
  input : 0 < rd16 data 6 ∧ rd16 data 6 ≤ lim.actMax
  inside : hdrSize + rd16 data 4 * descSize dag ≤ data.length
  layer : ∀ i < rd16 data 4, LayerFormed lim dag data i

theorem resolveSrc_iff {raw : Int} {none? : Bool} :
    (∃ b, resolveSrc raw i none? = .ok b) ↔ raw = srcNone ∧ none? = true ∨ Resolvable raw i := by
  have h1 : srcPrev ≠ srcNone := by decide
  have h2 : srcInput ≠ srcNone := by decide
  have h3 : srcNone < 0 := by decide
  unfold resolveSrc Resolvable
  constructor
  · rintro ⟨b, hb⟩
    split_ifs at hb with hn ha hp hi hj
    · exact .inl ⟨hn, ha⟩
    · exact .inr (.inl hp)
    · exact .inr (.inr (.inl hi))
    · exact .inr (.inr (.inr hj))
  · rintro (⟨hn, ha⟩ | hp | hi | hj)
    · exact ⟨none, by rw [if_pos hn, if_pos ha]⟩
    · exact ⟨some i, by rw [if_neg (hp ▸ h1), if_pos hp]⟩
    · refine ⟨some 0, ?_⟩
      rw [if_neg (hi ▸ h2), if_neg (by rw [hi]; decide), if_pos hi]
    · refine ⟨some (raw.toNat + 1), ?_⟩
      have hnone : raw ≠ srcNone := by omega
      have hprev : raw ≠ srcPrev := by unfold srcPrev; omega
      have hinput : raw ≠ srcInput := by unfold srcInput; omega
      rw [if_neg hnone, if_neg hprev, if_neg hinput, if_pos hj]

/-- A layer's own source is a buffer. -/
theorem resolveSrc_some {raw : Int} {b : Option Nat} (h : resolveSrc raw i false = .ok b) :
    ∃ a, b = some a := by
  unfold resolveSrc at h
  rw [if_neg Bool.false_ne_true] at h
  split_ifs at h <;> cases h <;> exact ⟨_, rfl⟩

/-- The references of a descriptor, as they are resolved. -/
def rawA (dag : Bool) (data : List UInt8) (i : Nat) : Int :=
  if dag then rds16 data (hdrSize + i * descSize dag + 4) else srcPrev

def rawB (dag : Bool) (data : List UInt8) (i : Nat) : Int :=
  if dag then rds16 data (hdrSize + i * descSize dag + 6) else srcNone

theorem parseLayer_eq_ok {l : Layer} : parseLayer lim dag data i = .ok l ↔
    (0 < l.outSize ∧ l.outSize ≤ lim.actMax) ∧ l.outSize = rd16 data (hdrSize + i * descSize dag) ∧
      l.work = rd16 data (hdrSize + i * descSize dag + 2) ∧
      resolveSrc (rawA dag data i) i false = .ok (some l.srcA) ∧
      resolveSrc (rawB dag data i) i true = .ok l.srcB := by
  unfold parseLayer rawA rawB descSize
  dsimp only
  generalize hdrSize + i * (if dag then 8 else 4) = d
  generalize resolveSrc (if dag then rds16 data (d + 4) else srcPrev) i false = ra
  generalize resolveSrc (if dag then rds16 data (d + 6) else srcNone) i true = rb
  constructor
  · intro h
    split_ifs at h with hout
    rcases ra with _ | _ | a <;> rcases rb with _ | b <;> cases h
    exact ⟨by dsimp only; omega, rfl, rfl, rfl, rfl⟩
  · rintro ⟨hpos, hout, hwork, rfl, rfl⟩
    rw [if_neg (by omega), ← hout, ← hwork]

theorem parseLayer_iff :
    (∃ l, parseLayer lim dag data i = .ok l) ↔ LayerFormed lim dag data i := by
  have hA : (∃ b, resolveSrc (rawA dag data i) i false = .ok b) ↔
      (dag = true → Resolvable (rds16 data (hdrSize + i * descSize dag + 4)) i) := by
    rw [resolveSrc_iff, rawA]
    cases dag with
    | false => simp [Resolvable]
    | true => simp
  have hB : (∃ b, resolveSrc (rawB dag data i) i true = .ok b) ↔
      (dag = true → rds16 data (hdrSize + i * descSize dag + 6) = srcNone ∨
        Resolvable (rds16 data (hdrSize + i * descSize dag + 6)) i) := by
    rw [resolveSrc_iff, rawB]
    cases dag with
    | false => simp
    | true => simp
  constructor
  · rintro ⟨l, hl⟩
    obtain ⟨hpos, hout, -, ha, hb⟩ := parseLayer_eq_ok.mp hl
    exact ⟨hout ▸ hpos, hA.mp ⟨_, ha⟩, hB.mp ⟨_, hb⟩⟩
  · rintro ⟨hout, ha, hb⟩
    obtain ⟨a', ha⟩ := hA.mpr ha
    obtain ⟨b, hb⟩ := hB.mpr hb
    obtain ⟨a, rfl⟩ := resolveSrc_some ha
    exact ⟨⟨_, _, a, b⟩, parseLayer_eq_ok.mpr ⟨hout, rfl, rfl, ha, hb⟩⟩

/-- The layers that are read, one after the other. -/
theorem run_parseLayers {f : Nat → Layer} (p : Plan)
    (h : ∀ j < k, parseLayer lim dag data (i + j) = .ok (f (i + j))) :
    (parseLayers lim dag data k i).run p =
      (.ok (), { p with layers := p.layers ++ (List.range' i k).map f }) := by
  induction k generalizing i p with
  | zero =>
    show (_, p) = _
    rw [List.range'_zero, List.map_nil, List.append_nil]
  | succ k ih =>
    unfold parseLayers
    have h0 := h 0 (by omega)
    rw [Nat.add_zero] at h0
    rw [h0]
    refine (ih (i := i + 1) _ fun j hj => ?_).trans ?_
    · rw [Nat.add_assoc, Nat.add_comm 1 j]
      exact h (j + 1) (by omega)
    · rw [List.range'_succ, List.map_cons]
      simp

theorem parseLayers_all (h : (parseLayers lim dag data k i).run p = (.ok (), p')) :
    ∀ j < k, ∃ l, parseLayer lim dag data (i + j) = .ok l := by
  induction k generalizing i p with
  | zero => exact fun j hj => absurd hj (Nat.not_lt_zero j)
  | succ k ih =>
    unfold parseLayers at h
    cases hl : parseLayer lim dag data i with
    | error e =>
      rw [hl] at h
      cases h
    | ok l =>
      rw [hl] at h
      rintro (_ | j) hj
      · exact ⟨l, hl⟩
      · obtain ⟨l', hl'⟩ := ih h j (by omega)
        exact ⟨l', by rw [← hl']; congr 1; omega⟩

theorem parseHeader_iff {input : Nat} : parseHeader lim data = .ok (dag, n, input) ↔
    (hdrSize ≤ data.length ∧ u32At data 0 = if dag then dagMagic else chainMagic) ∧
      (n = rd16 data 4 ∧ input = rd16 data 6) ∧ (0 < n ∧ n ≤ maxLayers) ∧
      (0 < input ∧ input ≤ lim.actMax) ∧ hdrSize + n * descSize dag ≤ data.length := by
  have hne : chainMagic ≠ dagMagic := by decide
  have hmagic : ∀ m : UInt32, (¬(decide (m = dagMagic) = false ∧ m ≠ chainMagic) ∧
      decide (m = dagMagic) = dag) ↔ m = if dag then dagMagic else chainMagic := by
    intro m
    cases dag with
    | true => by_cases h : m = dagMagic <;> simp [h]
    | false =>
      by_cases h : m = dagMagic
      · simp [h, hne.symm]
      · simp [h]
  rw [← hmagic]
  unfold parseHeader descSize
  dsimp only
  constructor
  · intro h
    by_cases h1 : data.length < hdrSize
    · rw [if_pos h1] at h
      cases h
    rw [if_neg h1] at h
    by_cases h2 : decide (u32At data 0 = dagMagic) = false ∧ u32At data 0 ≠ chainMagic
    · rw [if_pos h2] at h
      cases h
    rw [if_neg h2] at h
    generalize decide (u32At data 0 = dagMagic) = d at h h2 ⊢
    by_cases h3 : rd16 data 4 = 0 ∨ maxLayers < rd16 data 4 ∨ rd16 data 6 = 0 ∨
        lim.actMax < rd16 data 6
    · rw [if_pos h3] at h
      cases h
    rw [if_neg h3] at h
    by_cases h4 : data.length < hdrSize + rd16 data 4 * (if d then 8 else 4)
    · rw [if_pos h4] at h
      cases h
    rw [if_neg h4] at h
    cases h
    exact ⟨⟨Nat.not_lt.mp h1, h2, rfl⟩, ⟨rfl, rfl⟩, by omega, by omega, Nat.not_lt.mp h4⟩
  · rintro ⟨⟨h1, h2, rfl⟩, ⟨rfl, rfl⟩, h3, h4, h5⟩
    rw [if_neg (Nat.not_lt.mpr h1), if_neg h2, if_neg (by omega), if_neg (Nat.not_lt.mpr h5)]

/-- The parser accepts what is well formed. -/
theorem parseModel_iff (p : Plan) : (∃ p', (parseModel lim data).run p = (.ok (), p')) ↔
    ∃ dag, WellFormed lim dag data := by
  unfold parseModel
  constructor
  · rintro ⟨p', h⟩
    cases hh : parseHeader lim data with
    | error e =>
      rw [hh] at h
      cases h
    | ok r =>
      obtain ⟨dag, n, input⟩ := r
      rw [hh] at h
      obtain ⟨⟨h1, h2⟩, ⟨rfl, rfl⟩, h3, h4, h5⟩ := parseHeader_iff.mp hh
      refine ⟨dag, h1, h2, h3, h4, h5, fun i hi => parseLayer_iff.mp ?_⟩
      have hl := parseLayers_all h i hi
      rwa [Nat.zero_add] at hl
  · rintro ⟨dag, h⟩
    rw [parseHeader_iff.mpr ⟨⟨h.header, h.magic⟩, ⟨rfl, rfl⟩, h.layers, h.input, h.inside⟩]
    have hl : ∀ i, ∃ l, i < rd16 data 4 → parseLayer lim dag data i = .ok l := fun i => by
      by_cases hi : i < rd16 data 4
      · obtain ⟨l, hl⟩ := parseLayer_iff.mpr (h.layer i hi)
        exact ⟨l, fun _ => hl⟩
      · exact ⟨⟨0, 0, 0, none⟩, fun h => absurd h hi⟩
    choose f hf using hl
    exact ⟨_, run_parseLayers (f := f) _ fun j hj => hf _ (by omega)⟩

-- ---------------------------------------------------------------------------
-- What is built
-- ---------------------------------------------------------------------------

/-- The header's fields, the room, and the bytes of a blob that was built. -/
structure Built (lim : Limits) (magic : UInt32) (size : Nat)
    (desc : Nat → Except Errno (List UInt8)) (input count : UInt16) (total : Nat)
    (bytes : List UInt8) : Prop where
  layerCount : 0 < count.toNat ∧ count.toNat ≤ maxLayers
  inputSize : 0 < input.toNat ∧ input.toNat ≤ lim.actMax
  length : total = hdrSize + count.toNat * size
  room : total ≤ bytes.length
  front : ∃ ds : Nat → List UInt8, (∀ i, (ds i).length = size) ∧
    (∀ i < count.toNat, desc i = .ok (ds i)) ∧
    bytes.take total = writeHeader magic count input ++ (List.range count.toNat).flatMap ds

theorem length_writeHeader (magic : UInt32) (count input : UInt16) :
    (writeHeader magic count input).length = hdrSize := by
  simp [writeHeader, hdrSize]

theorem makeBlob_spec {magic : UInt32} {size : Nat} {desc : Nat → Except Errno (List UInt8)}
    {input count : UInt16} {buf : List UInt8}
    (hsize : ∀ i d, desc i = .ok d → d.length = size) :
    Triple (makeBlob lim magic size desc input count) buf
      (fun total bytes => Built lim magic size desc input count total bytes) (fun _ _ => True) := by
  unfold makeBlob
  refine Triple.ite (fun _ => Triple.throw trivial) (fun hc => ?_)
  have hcount : 0 < count.toNat ∧ count.toNat ≤ maxLayers := by
    have h0 : count.toNat ≠ 0 := fun h => hc (.inl (UInt16.toNat_inj.mp h))
    omega
  have hinput : 0 < input.toNat ∧ input.toNat ≤ lim.actMax := by
    have h0 : input.toNat ≠ 0 := fun h => hc (.inr (.inr (.inl (UInt16.toNat_inj.mp h))))
    omega
  refine Triple.get_bind ?_
  refine Triple.ite (fun _ => Triple.throw trivial) (fun hroom => ?_)
  refine Triple.modify_bind ?_
  have hlen := length_writeHeader magic count input
  -- after `i` rounds the header and `i` descriptors stand in front
  refine Triple.bind (Triple.times (fun i _ b => b.length = buf.length ∧
      ∃ ds : Nat → List UInt8, (∀ j, (ds j).length = size) ∧ (∀ j < i, desc j = .ok (ds j)) ∧
        b.take (hdrSize + i * size) = writeHeader magic count input ++ (List.range i).flatMap ds)
    ?_ ?_) ?_
  · rintro i hi _ b ⟨hb, ds, hlens, hds, htake⟩
    have hle : (i + 1) * size ≤ count.toNat * size := Nat.mul_le_mul_right _ hi
    rw [Nat.succ_mul] at hle
    cases hd : desc i with
    | error e => exact Triple.throw trivial
    | ok d =>
      have hdl := hsize i d hd
      refine Triple.modify ⟨?_, Function.update ds i d, fun j => ?_, fun j hj => ?_, ?_⟩
      · rw [length_patch (by omega), hb]
      · rcases eq_or_ne j i with rfl | hj
        · rw [Function.update_self, hdl]
        · rw [Function.update_of_ne hj, hlens]
      · rcases Nat.lt_succ_iff_lt_or_eq.mp hj with hj | rfl
        · rw [Function.update_of_ne (Nat.ne_of_lt hj)]
          exact hds j hj
        · rw [Function.update_self]
          exact hd
      · rw [Nat.succ_mul, ← Nat.add_assoc]
        have hput := take_patch b d (show hdrSize + i * size ≤ b.length by omega)
        rw [hdl] at hput
        rw [hput, htake, List.range_succ, List.flatMap_append,
          List.append_assoc]
        congr 2
        · refine List.flatMap_congr fun j hj => ?_
          rw [Function.update_of_ne (Nat.ne_of_lt (List.mem_range.mp hj))]
        · simp
  · refine ⟨length_patch (by omega), fun _ => List.replicate size 0, fun _ => List.length_replicate,
      fun j hj => absurd hj (Nat.not_lt_zero j), ?_⟩
    rw [Nat.zero_mul, Nat.add_zero]
    have h := take_patch buf (writeHeader magic count input) (Nat.zero_le buf.length)
    rw [Nat.zero_add, hlen] at h
    rw [h]
    rfl
  · rintro _ b ⟨hb, ds, hlens, hds, htake⟩
    exact Triple.pure' ⟨hcount, hinput, rfl, by omega, ds, hlens, hds, htake⟩

theorem slice_slice (b : List UInt8) {off k o n : Nat} (h : o + n ≤ k) :
    slice (slice b off k) o n = slice b (off + o) n := by
  unfold slice
  rw [List.drop_take, List.drop_drop, List.take_take, Nat.min_eq_left (by omega)]

/-- A word of descriptor `i`, behind the header. -/
theorem rd16_desc {hdr : List UInt8} {ds : Nat → List UInt8} {size off : Nat}
    (hh : hdr.length = hdrSize) (hds : ∀ i, (ds i).length = size) (hi : i < n)
    (ho : off + 2 ≤ size) :
    rd16 (hdr ++ ((List.range n).flatMap ds ++ rest)) (hdrSize + i * size + off) =
      rd16 (ds i) off := by
  have hle : (i + 1) * size ≤ n * size := Nat.mul_le_mul_right _ hi
  rw [Nat.succ_mul] at hle
  have hlen : ((List.range n).flatMap ds).length = size * n := by
    rw [length_flatMap_const hds, List.length_range]
  have hblock := slice_flatMap hds (List.range n) (i := i) (by rwa [List.length_range])
  rw [List.getElem_range] at hblock
  unfold rd16 u16At
  rw [Nat.add_assoc, slice_right hh, slice_left (by rw [hlen, Nat.mul_comm size]; omega),
    Nat.mul_comm i, ← slice_slice _ ho, hblock]

theorem rd16_le16 (x : UInt16) (b : List UInt8) : rd16 (le16 x ++ b) 0 = x.toNat :=
  congrArg UInt16.toNat (u16At_le16 x b)

theorem rd16_skip {off : Nat} (h : 2 ≤ off) (x : UInt16) (b : List UInt8) :
    rd16 (le16 x ++ b) off = rd16 b (off - 2) := by
  unfold rd16
  rw [u16At_append (by rw [length_le16]; exact h), length_le16]

theorem rd16_last (x : UInt16) : rd16 (le16 x) 0 = x.toNat := by
  have h := rd16_le16 x []
  rwa [List.append_nil] at h

/-- A signed word is read back. -/
theorem signed16_toUInt16 (x : Int16) : signed16 x.toUInt16.toNat = x.toInt := by
  show (if x.toBitVec.toNat < 2 ^ 15 then (x.toBitVec.toNat : Int) else _ - 2 ^ 16) =
      x.toBitVec.toInt
  rw [BitVec.toInt_eq_toNat_cond]
  split <;> split <;> first | rfl | omega

/-- A built blob is parsed, and so are its descriptors. -/
theorem Built.parses (dag : Bool) {desc : Nat → Except Errno (List UInt8)} {input count : UInt16}
    {P : Nat → Layer → Prop}
    (h : Built lim (if dag then dagMagic else chainMagic)
        (descSize dag) desc input count total bytes)
    (rest : List UInt8)
    (hP : ∀ i d data, desc i = .ok d →
      (∀ o, o + 2 ≤ descSize dag → rd16 data (hdrSize + i * descSize dag + o) = rd16 d o) →
      ∃ l, parseLayer lim dag data i = .ok l ∧ P i l) (p : Plan) :
    ∃ p', (parseModel lim (bytes.take total ++ rest)).run p = (.ok (), p') ∧
      p'.inputSize = input.toNat ∧ p'.layers.length = count.toNat ∧
      ∀ i l, p'.layers[i]? = some l → P i l := by
  obtain ⟨ds, hlens, hds, hfront⟩ := h.front
  have hhdr := length_writeHeader (if dag then dagMagic else chainMagic) count input
  have hlen : (bytes.take total ++ rest).length = total + rest.length := by
    rw [List.length_append, List.length_take_of_le h.room]
  have htotal := h.length
  have hmagic : u32At (bytes.take total ++ rest) 0 = if dag then dagMagic else chainMagic := by
    rw [hfront, List.append_assoc, writeHeader, List.append_assoc]
    exact u32At_le32 _ _
  have hwords : rd16 (bytes.take total ++ rest) 4 = count.toNat ∧
      rd16 (bytes.take total ++ rest) 6 = input.toNat := by
    rw [hfront, List.append_assoc, writeHeader, List.append_assoc, List.append_assoc]
    have hskip : ∀ (b : List UInt8) (o : Nat),
        rd16 (le32 (if dag then dagMagic else chainMagic) ++ b)
        (4 + o) = rd16 b o := fun b o => by
      unfold rd16
      rw [u16At_append (by rw [length_le32]; omega), length_le32, Nat.add_sub_cancel_left]
    exact ⟨(hskip _ 0).trans (rd16_le16 _ _), (hskip _ 2).trans
      ((rd16_skip (Nat.le_refl 2) _ _).trans (rd16_le16 _ _))⟩
  have hparse : parseHeader lim (bytes.take total ++ rest) = .ok (dag, count.toNat, input.toNat) :=
    parseHeader_iff.mpr ⟨⟨by rw [hlen]; omega, hmagic⟩,
        ⟨hwords.1.symm, hwords.2.symm⟩, h.layerCount,
      h.inputSize, by rw [hlen]; omega⟩
  have hlayers : ∀ i, ∃ l, i < count.toNat →
      parseLayer lim dag (bytes.take total ++ rest) i = .ok l ∧ P i l := fun i => by
    by_cases hi : i < count.toNat
    · rw [hfront, List.append_assoc]
      obtain ⟨l, hl⟩ := hP i (ds i) _ (hds i hi) fun o ho => rd16_desc hhdr hlens hi ho
      exact ⟨l, fun _ => hl⟩
    · exact ⟨⟨0, 0, 0, none⟩, fun h => absurd h hi⟩
  choose f hf using hlayers
  unfold parseModel
  rw [hparse]
  refine ⟨_, run_parseLayers (f := f) _ fun i hi => ?_, rfl, ?_, fun i l hl => ?_⟩
  · rw [Nat.zero_add]
    exact (hf i hi).1
  · simp
  · simp only [List.nil_append, List.getElem?_map, Option.map_eq_some_iff] at hl
    obtain ⟨j, hj, rfl⟩ := hl
    rw [← List.range_eq_range'] at hj
    obtain ⟨hi, rfl⟩ := List.getElem?_eq_some_iff.mp hj
    rw [List.getElem_range]
    exact (hf i (by rwa [List.length_range] at hi)).2

/-- A layer of a chain as the parser is to find it. -/
structure ChainLayer (outSizes : Nat → UInt16) (work : Option (Nat → UInt16)) (i : Nat)
    (l : Layer) :
    Prop where
  outSize : l.outSize = (outSizes i).toNat
  work : l.work = (work.elim 0 (· i)).toNat
  srcA : resolveSrc srcPrev i false = .ok (some l.srcA)
  srcB : l.srcB = none

theorem chainDesc_parses {outSizes : Nat → UInt16} {work : Option (Nat → UInt16)} {d : List UInt8}
    (h : chainDesc lim outSizes work i = .ok d)
    (hd : ∀ o, o + 2 ≤ descSize false → rd16 data (hdrSize + i * descSize false + o) = rd16 d o) :
    ∃ l, parseLayer lim false data i = .ok l ∧ ChainLayer outSizes work i l := by
  unfold chainDesc at h
  split_ifs at h with hout
  cases h
  have h0 := hd 0 (by decide)
  have h2 := hd 2 (by decide)
  rw [Nat.add_zero, rd16_le16] at h0
  rw [rd16_skip (Nat.le_refl 2), rd16_last] at h2
  have hpos : (outSizes i).toNat ≠ 0 := fun h => hout (.inl (UInt16.toNat_inj.mp h))
  have hmax : (outSizes i).toNat ≤ lim.actMax := by omega
  exact ⟨⟨(outSizes i).toNat, (work.elim 0 (· i)).toNat, i, none⟩,
    parseLayer_eq_ok.mpr ⟨⟨Nat.pos_of_ne_zero hpos, hmax⟩, h0.symm, h2.symm, rfl, rfl⟩,
    rfl, rfl, rfl, rfl⟩

/-- A layer of a graph as the parser is to find it: its sources are what its references
resolve to. -/
structure DagLayer.Parsed (d : DagLayer) (i : Nat) (l : Layer) : Prop where
  outSize : l.outSize = d.outSize.toNat
  work : l.work = d.work.toNat
  srcA : resolveSrc d.srcA.toInt i false = .ok (some l.srcA)
  srcB : resolveSrc d.srcB.toInt i true = .ok l.srcB

theorem dagDesc_parses {layers : Nat → DagLayer} {d : List UInt8}
    (h : dagDesc lim layers i = .ok d)
    (hd : ∀ o, o + 2 ≤ descSize true → rd16 data (hdrSize + i * descSize true + o) = rd16 d o) :
    ∃ l, parseLayer lim true data i = .ok l ∧ (layers i).Parsed i l := by
  unfold dagDesc at h
  dsimp only at h
  split_ifs at h with hout
  split at h
  swap
  · cases h
  next a' b ha hb =>
  cases h
  obtain ⟨a, rfl⟩ := resolveSrc_some ha
  have h0 := hd 0 (by decide)
  have h2 := hd 2 (by decide)
  have h4 := hd 4 (by decide)
  have h6 := hd 6 (by decide)
  rw [Nat.add_zero, rd16_le16] at h0
  rw [rd16_skip (Nat.le_refl 2), rd16_le16] at h2
  rw [rd16_skip (by decide), rd16_skip (by decide), rd16_le16] at h4
  rw [rd16_skip (by decide), rd16_skip (by decide), rd16_skip (by decide), rd16_last] at h6
  have hrawA : rawA true data i = (layers i).srcA.toInt :=
    (congrArg signed16 h4).trans (signed16_toUInt16 _)
  have hrawB : rawB true data i = (layers i).srcB.toInt :=
    (congrArg signed16 h6).trans (signed16_toUInt16 _)
  have hpos : (layers i).outSize.toNat ≠ 0 := fun h => hout (.inl (UInt16.toNat_inj.mp h))
  have hmax : (layers i).outSize.toNat ≤ lim.actMax := by omega
  exact ⟨⟨(layers i).outSize.toNat, (layers i).work.toNat, a, b⟩,
    parseLayer_eq_ok.mpr ⟨⟨Nat.pos_of_ne_zero hpos, hmax⟩, h0.symm, h2.symm, hrawA ▸ ha,
        hrawB ▸ hb⟩,
    rfl, rfl, ha, hb⟩

-- ---------------------------------------------------------------------------
-- The format
-- ---------------------------------------------------------------------------

theorem makeModel_ok {buf : Option (List UInt8)} {input count : UInt16}
    {outSizes work : Option (Nat → UInt16)}
    (h : makeModel lim buf input count outSizes work = (.ok total, some bytes)) :
    ∃ out, outSizes = some out ∧
      Built lim chainMagic (descSize false) (chainDesc lim out work) input count total bytes := by
  have hsize : ∀ out i d, chainDesc lim out work i = .ok d → d.length = descSize false := by
    intro out i d hd
    unfold chainDesc at hd
    split_ifs at hd
    cases hd
    simp [descSize]
  unfold makeModel at h
  split at h
  swap
  · cases h
  next b out =>
  dsimp only at h
  rw [Prod.mk.injEq, Option.some.injEq] at h
  exact ⟨out, rfl, (makeBlob_spec (hsize out)).ok (Prod.ext h.1 h.2)⟩

theorem makeDag_ok {buf : Option (List UInt8)} {input count : UInt16}
    {layers : Option (Nat → DagLayer)}
    (h : makeDag lim buf input count layers = (.ok total, some bytes)) :
    ∃ ls, layers = some ls ∧
      Built lim dagMagic (descSize true) (dagDesc lim ls) input count total bytes := by
  have hsize : ∀ ls i d, dagDesc lim ls i = .ok d → d.length = descSize true := by
    intro ls i d hd
    unfold dagDesc at hd
    dsimp only at hd
    split_ifs at hd
    split at hd <;> cases hd
    simp [descSize]
  unfold makeDag at h
  split at h
  swap
  · cases h
  next b ls =>
  dsimp only at h
  rw [Prod.mk.injEq, Option.some.injEq] at h
  exact ⟨ls, rfl, (makeBlob_spec (hsize ls)).ok (Prod.ext h.1 h.2)⟩

/-- The sources of the layers that were accepted. -/
theorem parseModel_layersOk (h : (parseModel lim data).run p = (.ok (), p')) :
    LayersOk p'.layers := by
  unfold parseModel at h
  cases hh : parseHeader lim data with
  | error e =>
    rw [hh] at h
    cases h
  | ok r =>
    obtain ⟨dag, n, input⟩ := r
    rw [hh] at h
    have hspec := parseLayers_spec lim dag data n 0
      { p with model := data, inputSize := input, layers := [] } rfl fun i l hl => by cases hl
    exact (hspec.ok h).2.2

/-- What either builder makes is parsed, with any bytes behind it, as it was meant; a
blob is accepted if and only if it is well formed; the parser reads nothing outside the
blob; and a layer that was accepted reads buffers written before it. -/
theorem layered_format (lim : Limits) (p : Plan) :
    (∀ (buf : Option (List UInt8)) (input count : UInt16) (outSizes work : Option (Nat → UInt16))
      (total : Nat) (bytes rest : List UInt8),
      makeModel lim buf input count outSizes work = (.ok total, some bytes) →
      ∃ out p', outSizes = some out ∧
        (parseModel lim (bytes.take total ++ rest)).run p = (.ok (), p') ∧
        p'.inputSize = input.toNat ∧ p'.layers.length = count.toNat ∧
        ∀ i l, p'.layers[i]? = some l → ChainLayer out work i l) ∧
    (∀ (buf : Option (List UInt8)) (input count : UInt16) (layers : Option (Nat → DagLayer))
      (total : Nat) (bytes rest : List UInt8),
      makeDag lim buf input count layers = (.ok total, some bytes) →
      ∃ ls p', layers = some ls ∧
        (parseModel lim (bytes.take total ++ rest)).run p = (.ok (), p') ∧
        p'.inputSize = input.toNat ∧ p'.layers.length = count.toNat ∧
        ∀ i l, p'.layers[i]? = some l → (ls i).Parsed i l) ∧
    ∀ data : List UInt8,
      ((∃ p', (parseModel lim data).run p = (.ok (), p')) ↔ ∃ dag, WellFormed lim dag data) ∧
      (checkedModel lim data).run p = (Act.mapError Stop.reject (parseModel lim data)).run p ∧
      ∀ p' : Plan, (parseModel lim data).run p = (.ok (), p') →
        ∀ i (l : Layer), p'.layers[i]? = some l → l.srcA ≤ i ∧ ∀ b, l.srcB = some b → b ≤ i := by
  refine ⟨?_, ?_, fun data => ⟨parseModel_iff p, run_checkedModel lim data p,
      fun p' hp i l hl => ?_⟩⟩
  · intro buf input count outSizes work total bytes rest h
    obtain ⟨out, rfl, hb⟩ := makeModel_ok h
    obtain ⟨p', hp⟩ := Built.parses false hb rest
      (fun i d data hd hw => chainDesc_parses hd hw) p
    exact ⟨out, p', rfl, hp⟩
  · intro buf input count layers total bytes rest h
    obtain ⟨ls, rfl, hb⟩ := makeDag_ok h
    obtain ⟨p', hp⟩ := Built.parses true hb rest
      (fun i d data hd hw => dagDesc_parses hd hw) p
    exact ⟨ls, p', rfl, hp⟩
  · have hok := parseModel_layersOk hp i l hl
    exact ⟨hok.srcA, hok.srcB⟩

/-- Two layers; the second adds the input to the output of the first. -/
def shortcutLayers : Nat → DagLayer
  | 0 => ⟨4, 1, -1, -3⟩
  | _ => ⟨2, 0, 0, -2⟩

/-- A build with small activations. -/
def tightLimits : Limits := ⟨64, 128, Nat.le_add_right 64 4032, Nat.le_add_right 128 16256⟩

def shortcutBlob : Except Errno Nat × Option (List UInt8) :=
  makeDag tightLimits (some (List.replicate 30 0)) 3 2 (some shortcutLayers)

theorem shortcutBlob_eq : shortcutBlob = (.ok 24, some (shortcutBlob.2.getD [])) := by
  decide +kernel

theorem layered_format_shortcut (p : Plan) : ∃ p',
    (parseModel tightLimits ((shortcutBlob.2.getD []).take 24 ++ [7])).run p = (.ok (), p') ∧
      p'.layers.length = 2 := by
  obtain ⟨-, p', -, hrun, -, hlen, -⟩ :=
      (layered_format tightLimits p).2.1 _ _ _ _ _ _ [7] shortcutBlob_eq
  exact ⟨p', hrun, hlen⟩

end SynapticOS.Layered
