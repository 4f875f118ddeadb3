import SynapticOS.Lib.Patch
import SynapticOS.Npu.Neutron

/-!
# SYNN payloads on the host

`build_synn` and `inspect_synn` of the packing tool, against `syn_synn_parse` on the
device. The tool computes with unbounded numbers and packs them into words of 32 bits.
-/

namespace SynapticOS.Tools

open Lib Npu

/-- The exceptions the tool's functions raise. -/
inductive Exn
  | valueError | structError | indexError | systemExit
  deriving DecidableEq, Repr

-- ---------------------------------------------------------------------------
-- Building
-- ---------------------------------------------------------------------------

def align16 (n : Nat) : Nat := (n + 15) / 16 * 16

/-- An `I` of a packed structure. -/
def packWord (n : Nat) : Except Exn (List UInt8) :=
  if n < 2 ^ 32 then .ok (le32 (UInt32.ofNat n)) else .error .structError

def packWords : List Nat → Except Exn (List UInt8)
  | [] => .ok []
  | n :: rest =>
    match packWord n, packWords rest with
    | .ok b, .ok bs => .ok (b ++ bs)
    | .error e, _ => .error e
    | _, .error e => .error e

/-- Where the three sections begin, and the size of the blob. -/
def synnOffs (microcode weights kernels : List UInt8) : Nat × Nat × Nat × Nat :=
  let microcodeOff := align16 synnHdrSize
  let weightsOff := align16 (microcodeOff + microcode.length)
  let kernelsOff := align16 (weightsOff + weights.length)
  (microcodeOff, weightsOff, kernelsOff, align16 (kernelsOff + kernels.length))

def buildSynn (microcode weights kernels : List UInt8) (inputSize outputSize scratchSize : Nat) :
    Except Exn (List UInt8) :=
  let (microcodeOff, weightsOff, kernelsOff, size) := synnOffs microcode weights kernels
  match packWords [microcodeOff, microcode.length, weightsOff, weights.length, kernelsOff,
      kernels.length, inputSize, outputSize, scratchSize, 0] with
  | .error e => .error e
  | .ok words =>
    let blob := patch (List.replicate size 0) 0 (le32 synnMagic ++ (le32 synnVersion ++ words))
    .ok (patch (patch (patch blob microcodeOff microcode) weightsOff weights) kernelsOff kernels)

-- ---------------------------------------------------------------------------
-- Inspecting
-- ---------------------------------------------------------------------------

/-- What is printed behind a section that is not valid. -/
def sectionBad (payload : List UInt8) (s : Section) : List String :=
  (if s.off % 16 ≠ 0 then ["MISALIGNED"] else []) ++
    if s.off + s.size > payload.length then ["OUT OF BOUNDS"] else []

def inspectSynn (payload : List UInt8) : Bool :=
  if payload.length < synnHdrSize then false
  else
    let d := synnDesc payload
    let ok := [d.microcode, d.weights, d.kernels].foldl
      (fun ok s => ok && (sectionBad payload s).isEmpty) true
    if u32At payload 4 ≠ synnVersion ∨ u32At payload 44 ≠ 0 ∨ d.inputSize = 0 ∨ d.outputSize =
        0 then
      false
    else ok

-- ---------------------------------------------------------------------------
-- The words of the header
-- ---------------------------------------------------------------------------

variable {blob data b bs words u w k : List UInt8} {n off len input output scratch : Nat}
    {l : List Nat}

theorem align16_mod (n : Nat) : align16 n % 16 = 0 := Nat.mul_mod_left ..

theorem le_align16 (n : Nat) : n ≤ align16 n := by
  unfold align16
  omega

theorem packWord_of_lt (h : n < 2 ^ 32) : packWord n = .ok (le32 (UInt32.ofNat n)) := if_pos h

theorem packWords_of_lt (h : ∀ n ∈ l, n < 2 ^ 32) :
    packWords l = .ok (l.flatMap fun n => le32 (UInt32.ofNat n)) := by
  induction l with
  | nil => rfl
  | cons n l ih =>
    obtain ⟨hn, hl⟩ := List.forall_mem_cons.mp h
    rw [packWords, packWord_of_lt hn, ih hl]
    rfl

/-- A packed word is read back. -/
theorem rd32_le32 (h : n < 2 ^ 32) (b : List UInt8) : rd32 (le32 (UInt32.ofNat n) ++ b) 0 = n := by
  unfold rd32
  rw [u32At_le32]
  exact UInt32.toNat_ofNat_of_lt' h

theorem rd32_skip (h : 4 ≤ off) (x : UInt32) (b : List UInt8) :
    rd32 (le32 x ++ b) off = rd32 b (off - 4) := by
  unfold rd32
  rw [u32At_append (by rw [length_le32]; exact h), length_le32]

-- ---------------------------------------------------------------------------
-- Patches
-- ---------------------------------------------------------------------------

theorem u32At_patch (h : off + data.length ≤ blob.length)
    (ha : n + 4 ≤ off ∨ off + data.length ≤ n) : u32At (patch blob off data) n = u32At blob n := by
  unfold u32At
  rw [slice_patch_of_le h ha]

-- ---------------------------------------------------------------------------
-- What is built
-- ---------------------------------------------------------------------------

/-- The offsets of the sections and the end of the blob, each behind the section before. -/
structure OffsOrdered (u w k : List UInt8) (offs : Nat × Nat × Nat × Nat) : Prop where
  header : synnHdrSize ≤ offs.1
  microcode : offs.1 + u.length ≤ offs.2.1
  weights : offs.2.1 + w.length ≤ offs.2.2.1
  kernels : offs.2.2.1 + k.length ≤ offs.2.2.2
  aligned : offs.1 % 16 = 0 ∧ offs.2.1 % 16 = 0 ∧ offs.2.2.1 % 16 = 0

theorem synnOffs_ordered (u w k : List UInt8) : OffsOrdered u w k (synnOffs u w k) :=
  ⟨le_align16 _, le_align16 _, le_align16 _, le_align16 _, align16_mod _, align16_mod _,
    align16_mod _⟩

/-- The words behind the magic and the version. -/
def synnWords (u w k : List UInt8) (offs : Nat × Nat × Nat × Nat) (input output scratch : Nat) :
    List Nat :=
  [offs.1, u.length, offs.2.1, w.length, offs.2.2.1, k.length, input, output, scratch, 0]

def synnHeader (words : List Nat) : List UInt8 :=
  le32 synnMagic ++ (le32 synnVersion ++ words.flatMap fun n => le32 (UInt32.ofNat n))

theorem length_synnHeader (words : List Nat) : (synnHeader words).length =
    8 + 4 * words.length := by
  simp only [synnHeader, List.length_append, length_le32,
    length_flatMap_const (fun n => length_le32 (UInt32.ofNat n))]
  omega

/-- The blob: the header, then the sections, on zeros. -/
def synnBlob (u w k : List UInt8) (input output scratch : Nat) : List UInt8 :=
  let offs := synnOffs u w k
  let blob := patch (List.replicate offs.2.2.2 0) 0
    (synnHeader (synnWords u w k offs input output scratch))
  patch (patch (patch blob offs.1 u) offs.2.1 w) offs.2.2.1 k

/-- The size of a blob. -/
def synnSize (u w k : List UInt8) : Nat := (synnOffs u w k).2.2.2

theorem buildSynn_eq (hs : synnSize u w k < 2 ^ 32) (hi : input < 2 ^ 32) (ho : output < 2 ^ 32)
    (hc : scratch < 2 ^ 32) :
    buildSynn u w k input output scratch = .ok (synnBlob u w k input output scratch) := by
  have hord := synnOffs_ordered u w k
  have hwords : ∀ n ∈ synnWords u w k (synnOffs u w k) input output scratch, n < 2 ^ 32 := by
    have := hord.microcode
    have := hord.weights
    have := hord.kernels
    have hs : (synnOffs u w k).2.2.2 < 2 ^ 32 := hs
    simp only [synnWords, List.forall_mem_cons, List.not_mem_nil, false_implies, implies_true,
      and_true]
    refine ⟨?_, ?_, ?_, ?_, ?_, ?_, hi, ho, hc, by decide⟩ <;> omega
  have hpack := packWords_of_lt hwords
  unfold synnWords at hpack
  unfold buildSynn
  dsimp only
  rw [hpack]
  rfl

section Blob

variable (u w k input output scratch)

theorem synnBlob_lengths : let offs := synnOffs u w k
    let hdr := synnHeader (synnWords u w k offs input output scratch)
    let blob := patch (List.replicate offs.2.2.2 0) 0 hdr
    blob.length = offs.2.2.2 ∧ (patch blob offs.1 u).length = offs.2.2.2 ∧
      (patch (patch blob offs.1 u) offs.2.1 w).length = offs.2.2.2 ∧
      (synnBlob u w k input output scratch).length = offs.2.2.2 := by
  have hord := synnOffs_ordered u w k
  have h0 := hord.header
  have h1 := hord.microcode
  have h2 := hord.weights
  have h3 := hord.kernels
  unfold synnHdrSize at h0
  dsimp only
  have hbase : (patch (List.replicate (synnOffs u w k).2.2.2 0) 0
      (synnHeader (synnWords u w k (synnOffs u w k) input output scratch))).length =
      (synnOffs u w k).2.2.2 := by
    rw [length_patch, List.length_replicate]
    rw [length_synnHeader, List.length_replicate]
    show 0 + (8 + 4 * 10) ≤ _
    omega
  unfold synnBlob
  dsimp only
  generalize patch (List.replicate _ 0) 0 _ = blob at hbase ⊢
  have hu : (patch blob (synnOffs u w k).1 u).length = (synnOffs u w k).2.2.2 :=
    (length_patch (by rw [hbase]; omega)).trans hbase
  have hw : (patch (patch blob (synnOffs u w k).1 u) (synnOffs u w k).2.1 w).length =
      (synnOffs u w k).2.2.2 := (length_patch (by rw [hu]; omega)).trans hu
  exact ⟨hbase, hu, hw, (length_patch (by rw [hw]; omega)).trans hw⟩

theorem length_synnBlob : (synnBlob u w k input output scratch).length = synnSize u w k :=
  (synnBlob_lengths u w k input output scratch).2.2.2

/-- The header stands in front of the sections. -/
theorem u32At_synnBlob (h : n + 4 ≤ synnHdrSize) :
    u32At (synnBlob u w k input output scratch) n =
      u32At (synnHeader (synnWords u w k (synnOffs u w k) input output scratch)) n := by
  have hord := synnOffs_ordered u w k
  have h0 := hord.header
  have h1 := hord.microcode
  have h2 := hord.weights
  have h3 := hord.kernels
  obtain ⟨lb, lu, lw, -⟩ := synnBlob_lengths u w k input output scratch
  have hhdr := length_synnHeader (synnWords u w k (synnOffs u w k) input output scratch)
  replace hhdr : (synnHeader (synnWords u w k (synnOffs u w k) input output scratch)).length = 48 :=
    hhdr
  unfold synnHdrSize at h h0
  unfold synnBlob
  dsimp only
  rw [u32At_patch (by rw [lw]; exact h3) (.inl (by omega)),
    u32At_patch (by rw [lu]; omega) (.inl (by omega)),
    u32At_patch (by rw [lb]; omega) (.inl (by omega))]
  unfold u32At patch
  rw [List.take_zero, List.nil_append, slice_left (by omega)]

/-- Each section stands where the header says. -/
theorem synnBlob_sections :
    slice (synnBlob u w k input output scratch) (synnOffs u w k).1 u.length = u ∧
      slice (synnBlob u w k input output scratch) (synnOffs u w k).2.1 w.length = w ∧
      slice (synnBlob u w k input output scratch) (synnOffs u w k).2.2.1 k.length = k := by
  have hord := synnOffs_ordered u w k
  have h1 := hord.microcode
  have h2 := hord.weights
  have h3 := hord.kernels
  obtain ⟨lb, lu, lw, -⟩ := synnBlob_lengths u w k input output scratch
  unfold synnBlob
  dsimp only
  refine ⟨?_, ?_, ?_⟩
  · rw [slice_patch_of_le (by rw [lw]; exact h3) (.inl (by omega)),
      slice_patch_of_le (by rw [lu]; omega) (.inl h1), slice_patch (by rw [lb]; omega)]
  · rw [slice_patch_of_le (by rw [lw]; exact h3) (.inl h2), slice_patch (by rw [lu]; omega)]
  · exact slice_patch (by rw [lw]; omega)

end Blob

/-- The header of a blob, read by the device. -/
theorem synnDesc_synnBlob (hs : synnSize u w k < 2 ^ 32) (hi : input < 2 ^ 32)
    (ho : output < 2 ^ 32) (hc : scratch < 2 ^ 32) :
    let offs := synnOffs u w k
    synnDesc (synnBlob u w k input output scratch) = ⟨⟨offs.1, u.length⟩, ⟨offs.2.1, w.length⟩,
      ⟨offs.2.2.1, k.length⟩, input, output, scratch⟩ := by
  have hord := synnOffs_ordered u w k
  have h1 := hord.microcode
  have h2 := hord.weights
  have h3 := hord.kernels
  replace hs : (synnOffs u w k).2.2.2 < 2 ^ 32 := hs
  have hread : ∀ n, n + 4 ≤ synnHdrSize → rd32 (synnBlob u w k input output scratch) n =
      rd32 (synnHeader (synnWords u w k (synnOffs u w k) input output scratch)) n := fun n hn =>
    congrArg UInt32.toNat (u32At_synnBlob u w k input output scratch hn)
  rw [synnDesc, hread 8 (by decide), hread 12 (by decide), hread 16 (by decide),
    hread 20 (by decide), hread 24 (by decide), hread 28 (by decide), hread 32 (by decide),
    hread 36 (by decide), hread 40 (by decide)]
  simp only [synnHeader, synnWords, List.flatMap_cons]
  simp (disch := omega) only [rd32_skip, rd32_le32, Nat.reduceSub]

-- ---------------------------------------------------------------------------
-- Host and device
-- ---------------------------------------------------------------------------

/-- The bytes of a section. -/
def Section.view (payload : List UInt8) (s : Section) : List UInt8 := slice payload s.off s.size

/-- The section lies in the payload and begins on a multiple of 16. -/
def Section.Placed (payload : List UInt8) (s : Section) : Prop :=
  s.off + s.size ≤ payload.length ∧ s.off % 16 = 0

/-- What the device checks. -/
structure Parses (payload : List UInt8) (d : Synn) : Prop where
  header : synnHdrSize ≤ payload.length
  magic : u32At payload 0 = synnMagic
  version : u32At payload 4 = synnVersion
  flags : u32At payload 44 = 0
  placed : ∀ s ∈ [d.microcode, d.weights, d.kernels], Section.Placed payload s
  sizes : d.inputSize ≠ 0 ∧ d.outputSize ≠ 0
  desc : d = synnDesc payload

theorem synnParse_iff {payload : List UInt8} {d : Synn} :
    synnParse payload = .ok d ↔ Parses payload d := by
  unfold synnParse
  constructor
  · intro h
    dsimp only at h
    split_ifs at h with h1 h2 h3 h4 h5 h6 h7
    cases h
    simp only [Section.inside, Section.aligned, decide_eq_true_eq] at h5 h6
    push Not at h1 h2 h3 h4 h7
    refine ⟨h1, h2, h3, h4, ?_, h7, rfl⟩
    simp only [List.forall_mem_cons, List.not_mem_nil, false_implies, implies_true, and_true]
    exact ⟨⟨h5.1, h6.1⟩, ⟨h5.2.1, h6.2.1⟩, h5.2.2, h6.2.2⟩
  · intro h
    have hplaced := h.placed
    have hsizes := h.sizes
    cases h.desc
    simp only [List.forall_mem_cons, List.not_mem_nil, false_implies, implies_true,
      and_true] at hplaced
    obtain ⟨⟨hu, hu'⟩, ⟨hw, hw'⟩, hk, hk'⟩ := hplaced
    rw [if_neg (Nat.not_lt.mpr h.header), if_neg (not_not.mpr h.magic),
      if_neg (not_not.mpr h.version), if_neg (not_not.mpr h.flags)]
    dsimp only
    simp only [Section.inside, Section.aligned, decide_eq_true_eq]
    rw [if_neg (not_not.mpr ⟨hu, hw, hk⟩), if_neg (not_not.mpr ⟨hu', hw', hk'⟩),
      if_neg (not_or.mpr hsizes)]

theorem sectionBad_nil {payload : List UInt8} {s : Section} :
    (sectionBad payload s).isEmpty = true ↔ Section.Placed payload s := by
  unfold sectionBad Section.Placed
  by_cases h1 : s.off % 16 = 0 <;> by_cases h2 : s.off + s.size > payload.length <;>
    simp [h1, h2, Nat.not_lt.mp]

/-- The host accepts what the device parses. -/
theorem inspectSynn_iff {payload : List UInt8} (hlen : synnHdrSize ≤ payload.length)
    (hm : u32At payload 0 = synnMagic) :
    inspectSynn payload = true ↔ ∃ d, synnParse payload = .ok d := by
  have hok : ([(synnDesc payload).microcode, (synnDesc payload).weights,
      (synnDesc payload).kernels].foldl (fun ok s => ok && (sectionBad payload s).isEmpty) true) =
      true ↔ ∀ s ∈ [(synnDesc payload).microcode, (synnDesc payload).weights,
        (synnDesc payload).kernels], Section.Placed payload s := by
    simp only [List.foldl_cons, List.foldl_nil, Bool.true_and, Bool.and_eq_true, sectionBad_nil,
      List.forall_mem_cons, List.not_mem_nil, false_implies, implies_true, and_true, and_assoc]
  unfold inspectSynn
  rw [if_neg (Nat.not_lt.mpr hlen)]
  dsimp only
  constructor
  · intro h
    split_ifs at h with hc
    push Not at hc
    exact ⟨_, synnParse_iff.mpr ⟨hlen, hm, hc.1, hc.2.1, hok.mp h, hc.2.2, rfl⟩⟩
  · rintro ⟨d, hd⟩
    have hp := synnParse_iff.mp hd
    have hplaced := hp.placed
    have hsizes := hp.sizes
    cases hp.desc
    have hc : ¬(u32At payload 4 ≠ synnVersion ∨ u32At payload 44 ≠ 0 ∨
        (synnDesc payload).inputSize = 0 ∨ (synnDesc payload).outputSize = 0) := by
      push Not
      exact ⟨hp.version, hp.flags, hsizes.1, hsizes.2⟩
    rw [if_neg hc]
    exact hok.mpr hplaced

/-- The device parses what the host builds, and its views are the sections. -/
theorem synnParse_synnBlob (hs : synnSize u w k < 2 ^ 32) (hi : 0 < input ∧ input < 2 ^ 32)
    (ho : 0 < output ∧ output < 2 ^ 32) (hc : scratch < 2 ^ 32) :
    let blob := synnBlob u w k input output scratch
    ∃ d, synnParse blob = .ok d ∧ Section.view blob d.microcode = u ∧
      Section.view blob d.weights = w ∧ Section.view blob d.kernels = k ∧
      d.inputSize = input ∧ d.outputSize = output ∧ d.scratchSize = scratch := by
  have hord := synnOffs_ordered u w k
  have h0 := hord.header
  have h1 := hord.microcode
  have h2 := hord.weights
  have h3 := hord.kernels
  have hlen := length_synnBlob u w k input output scratch
  have hdesc := synnDesc_synnBlob hs hi.2 ho.2 hc
  obtain ⟨hu, hw, hk⟩ := synnBlob_sections u w k input output scratch
  have hword : ∀ n, n + 4 ≤ synnHdrSize → u32At (synnBlob u w k input output scratch) n =
      u32At (synnHeader (synnWords u w k (synnOffs u w k) input output scratch)) n := fun _ hn =>
    u32At_synnBlob u w k input output scratch hn
  dsimp only at hdesc ⊢
  refine ⟨_, synnParse_iff.mpr ⟨?_, ?_, ?_, ?_, ?_, ?_, hdesc.symm⟩, hu, hw, hk, rfl, rfl, rfl⟩
  · rw [hlen, synnSize]
    omega
  · rw [hword 0 (by decide), synnHeader, u32At_le32]
  · rw [hword 4 (by decide), synnHeader, u32At_append (length_le32 _).le, length_le32, u32At_le32]
  · have hflags : rd32 (synnHeader (synnWords u w k (synnOffs u w k) input output scratch)) 44 =
        0 := by
      simp only [synnHeader, synnWords, List.flatMap_cons]
      simp (disch := omega) only [rd32_skip, rd32_le32, Nat.reduceSub]
    rw [hword 44 (by decide)]
    exact UInt32.toNat_inj.mp hflags
  · rw [synnSize] at hlen
    simp only [List.forall_mem_cons, List.not_mem_nil, false_implies, implies_true, and_true,
      Section.Placed, hlen]
    exact ⟨⟨by omega, hord.aligned.1⟩, ⟨by omega, hord.aligned.2.1⟩, h3, hord.aligned.2.2⟩
  · exact ⟨Nat.ne_of_gt hi.1, Nat.ne_of_gt ho.1⟩

/-- Host and device agree: on what is built, and on every payload with the magic. -/
theorem synn_agree :
    (∀ (u w k : List UInt8) (input output scratch : Nat), synnSize u w k < 2 ^ 32 →
      0 < input ∧ input < 2 ^ 32 → 0 < output ∧ output < 2 ^ 32 → scratch < 2 ^ 32 →
      ∃ blob d, buildSynn u w k input output scratch = .ok blob ∧ blob.length = synnSize u w k ∧
        synnParse blob = .ok d ∧ Section.view blob d.microcode = u ∧
        Section.view blob d.weights = w ∧ Section.view blob d.kernels = k ∧
        d.inputSize = input ∧ d.outputSize = output ∧ d.scratchSize = scratch) ∧
    ∀ payload : List UInt8, synnHdrSize ≤ payload.length → u32At payload 0 = synnMagic →
      (inspectSynn payload = true ↔ ∃ d, synnParse payload = .ok d) ∧
      ∀ d, synnParse payload = .ok d →
        ∀ s ∈ [d.microcode, d.weights, d.kernels], Section.Placed payload s := by
  refine ⟨fun u w k input output scratch hs hi ho hc => ?_, fun payload hlen hm =>
    ⟨inspectSynn_iff hlen hm, fun d hd => (synnParse_iff.mp hd).placed⟩⟩
  obtain ⟨d, hd⟩ := synnParse_synnBlob hs hi ho hc
  exact ⟨_, d, buildSynn_eq hs hi.2 ho.2 hc, length_synnBlob .., hd⟩

theorem synn_agree_small :
    ∃ blob d, buildSynn [1, 2] [] [3] 4 5 6 = .ok blob ∧ synnParse blob = .ok d ∧
      Section.view blob d.microcode = [1, 2] ∧ inspectSynn blob = true := by
  obtain ⟨blob, d, hb, hlen, hd, hu, -⟩ := synn_agree.1 [1, 2] [] [3] 4 5 6 (by decide) (by decide)
    (by decide) (by decide)
  have hp := synnParse_iff.mp hd
  exact ⟨blob, d, hb, hd, hu, (synn_agree.2 blob hp.header hp.magic).1.mpr ⟨d, hd⟩⟩

end SynapticOS.Tools
