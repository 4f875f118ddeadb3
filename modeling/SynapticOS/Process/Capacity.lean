import SynapticOS.Process.StagesLaws

/-!
# The pipeline's capacities

`builtin_stage_capacity` and the stage it is for compute the same size, so a
stage never finds its buffer too small. Both compute it in 32 bits: the stage
stays inside the buffer if and only if the exact size is below `2 ^ 32`. An input
has its size in 32 bits too; the resize of one whose size has wrapped stays inside
it as long as the pixels it interpolates between do.
-/

namespace SynapticOS.Process

open Lib (Act Buffer Stop Exact)
open Memory (Dtype sizeMod)

variable {input : Tensor} {cap : Nat} {p : Platform}

/-- The stage's own checks, up to the comparison of sizes. -/
def Stage.Accepts (input : Tensor) : Stage → Prop
  | .imageResize config => ∃ c, config = some c ∧ c.Accepts input
  | .imageNormalize config => ∃ c, config = some c ∧ c.Accepts input
  | .quantizeInt8 config => ∃ c, config = some c ∧ c.AcceptsFloats input
  | .audioMfcc config => ∃ c, config = some c ∧ c.Accepts input
  | .softmax _ | .argmax => input.HasScores
  | .topK config => ∃ c, config = some c ∧ c.Accepts input
  | .nms config => ∃ c, config = some c ∧ c.Accepts input
  | .dequantize config => ∃ c, config = some c ∧ c.AcceptsBytes input

/-- The exact size of what the stage writes; the NMS writes what there is room
for. -/
def Stage.outputSize (input : Tensor) : Stage → Nat
  | .imageResize (some c) => c.h.toNat * c.w.toNat * (input.shape 3).toNat
  | .imageNormalize _ | .dequantize _ => input.size.toNat * 4
  | .quantizeInt8 _ => input.size.toNat / 4
  | .audioMfcc (some c) => c.frames input * c.numCoeffs.toNat * 4
  | .softmax _ => elementCount input * 4
  | .argmax => classificationSize
  | .topK (some c) => c.emitted (elementCount input) * classificationSize
  | .nms _ | .imageResize none | .audioMfcc none | .topK none => 0

/-- What a resize interpolates between lies in its input. -/
def Stage.SamplesInside (input : Tensor) : Stage → Prop
  | .imageResize (some c) => c.SamplesInside input
  | _ => True

instance (s : Stage) : Decidable (s.SamplesInside input) := by
  unfold Stage.SamplesInside
  split <;> infer_instance

/-- The scratch pool has room for the FFT buffer of an MFCC. -/
def Stage.ScratchFits (p : Platform) : Stage → Prop
  | .audioMfcc (some c) => p.scratch (c.frameLen.toNat * 2 * 4) = true
  | _ => True

/-- The MFCC is configured with frames of no samples. -/
def Stage.ZeroFrame : Stage → Prop
  | .audioMfcc (some c) => c.frameLen = 0
  | _ => False

-- ---------------------------------------------------------------------------
-- The stages
-- ---------------------------------------------------------------------------

theorem Stage.run_rejects {s : Stage} (h : ¬s.Accepts input) : s.run p input = reject .inval := by
  cases s with
  | imageResize config =>
    cases config with
    | none => rfl
    | some c => exact imageResize_rejects fun hc => h ⟨c, rfl, hc⟩
  | imageNormalize config =>
    cases config with
    | none => rfl
    | some c => exact imageNormalize_rejects fun hc => h ⟨c, rfl, hc⟩
  | quantizeInt8 config =>
    cases config with
    | none => rfl
    | some c => exact quantizeInt8_rejects fun hc => h ⟨c, rfl, hc⟩
  | audioMfcc config =>
    cases config with
    | none => rfl
    | some c => exact audioMfcc_rejects fun hc => h ⟨c, rfl, hc⟩
  | softmax config => exact postSoftmax_rejects h
  | argmax => exact postArgmax_rejects h
  | topK config =>
    cases config with
    | none => rfl
    | some c => exact postTopK_rejects fun hc => h ⟨c, rfl, hc⟩
  | nms config =>
    cases config with
    | none => rfl
    | some c => exact postNms_rejects fun hc => h ⟨c, rfl, hc⟩
  | dequantize config =>
    cases config with
    | none => rfl
    | some c => exact postDequantize_rejects fun hc => h ⟨c, rfl, hc⟩

theorem Stage.run_exact {s : Stage} (hw : input.WellSized) (h : s.Accepts input)
    (hp : s.ScratchFits p) (hcap : s.outputSize input % sizeMod ≤ cap) (hlt : cap < sizeMod) :
    Exact cap (s.SamplesInside input ∧ s.outputSize input ≤ cap) (fun _ => True)
      (s.run p input) := by
  have hsize := input.size.toNat_lt
  have htrue {P : Prop} : P ↔ True ∧ P := ⟨fun h => ⟨trivial, h⟩, And.right⟩
  unfold sizeMod at hcap hlt
  cases s with
  | imageResize config =>
    obtain ⟨c, rfl, hc⟩ := h
    exact imageResize_exact hc hcap hlt
  | imageNormalize config =>
    obtain ⟨c, rfl, hc⟩ := h
    exact (imageNormalize_exact hc hcap).of_iff htrue
  | quantizeInt8 config =>
    obtain ⟨c, rfl, hc⟩ := h
    exact (quantizeInt8_exact hc (by simp only [outputSize] at hcap; omega)).of_iff
      htrue
  | audioMfcc config =>
    obtain ⟨c, rfl, hc⟩ := h
    exact (audioMfcc_exact hc hp hcap).of_iff htrue
  | softmax config => exact (postSoftmax_exact hw h hcap).of_iff htrue
  | argmax => exact (postArgmax_exact hw h hcap).of_iff htrue
  | topK config =>
    obtain ⟨c, rfl, hc⟩ := h
    refine (postTopK_exact hc ?_).of_iff htrue
    simp only [outputSize, classificationSize] at hcap ⊢
    have : c.emitted (elementCount input) ≤ 255 := by
      have := c.k.toNat_lt
      unfold TopkConfig.emitted
      split <;> omega
    omega
  | nms config =>
    obtain ⟨c, rfl, hc⟩ := h
    exact (postNms_exact hc).of_iff (by simp [SamplesInside, outputSize])
  | dequantize config =>
    obtain ⟨c, rfl, hc⟩ := h
    exact (postDequantize_exact hc hcap).of_iff htrue

/-- Without its scratch buffer the MFCC ends with the error that says so. -/
theorem Stage.run_noScratch {s : Stage} (h : s.Accepts input) (hp : ¬s.ScratchFits p)
    {b : Buffer} (hcap : s.outputSize input % sizeMod ≤ b.size) :
    ((s.run p input).run b).1 = .error (.reject .scratchTooSmall) := by
  cases s with
  | audioMfcc config =>
    obtain ⟨c, rfl, hc⟩ := h
    simp only [ScratchFits] at hp
    simp only [run, audioMfcc_accepts hc hcap, if_neg hp]
  | _ => exact absurd trivial hp

-- ---------------------------------------------------------------------------
-- The estimate
-- ---------------------------------------------------------------------------

theorem builtinStageCapacity_none {s : Stage} :
    builtinStageCapacity input s = none ↔ s.ZeroFrame := by
  cases s with
  | imageResize config => cases config <;> simp [builtinStageCapacity, Stage.ZeroFrame]
  | audioMfcc config => cases config <;> simp [builtinStageCapacity, Stage.ZeroFrame]
  | topK config => cases config <;> simp [builtinStageCapacity, Stage.ZeroFrame]
  | _ => simp [builtinStageCapacity, Stage.ZeroFrame]

/-- The estimate is the size the stage computes, or more. -/
theorem builtinStageCapacity_ge {s : Stage} (h : s.Accepts input)
    (hc : builtinStageCapacity input s = some cap) : s.outputSize input % sizeMod ≤ cap := by
  have hsize := input.size.toNat_lt
  cases s with
  | imageResize config =>
    obtain ⟨c, rfl, hi, -⟩ := h
    obtain ⟨-, hn, -⟩ := isByteImage_iff.mp hi
    simp only [builtinStageCapacity, hn, if_true, Option.some.injEq] at hc
    rw [← hc, Nat.mul_comm c.w.toNat]
    exact Nat.le_refl _
  | imageNormalize config =>
    simp only [builtinStageCapacity, Option.some.injEq] at hc
    exact hc.le
  | quantizeInt8 config =>
    simp only [builtinStageCapacity, Option.some.injEq] at hc
    exact (Nat.mod_le _ _).trans hc.le
  | audioMfcc config =>
    obtain ⟨c, rfl, hc'⟩ := h
    simp only [builtinStageCapacity] at hc
    split at hc
    · cases hc
    · simp only [Option.some.injEq] at hc
      exact hc.le
  | softmax config =>
    simp only [builtinStageCapacity, Option.some.injEq] at hc
    simp only [Stage.outputSize, elementCount]
    split at hc <;> rename_i hd
    · rw [if_pos hd, ← hc]
      exact (Nat.mod_le _ _).trans (Nat.div_mul_le_self _ _)
    · rw [if_neg hd]
      exact hc.le
  | argmax =>
    simp only [builtinStageCapacity, Option.some.injEq] at hc
    exact (Nat.mod_le _ _).trans hc.le
  | topK config =>
    obtain ⟨c, rfl, -⟩ := h
    simp only [builtinStageCapacity, Option.some.injEq] at hc
    rw [← hc]
    refine (Nat.mod_le _ _).trans (Nat.mul_le_mul_right _ ?_)
    unfold TopkConfig.emitted
    split
    · exact Nat.le_refl _
    · exact (Nat.mod_le _ _).trans (by omega)
  | nms config => exact Nat.zero_le _
  | dequantize config =>
    simp only [builtinStageCapacity, Option.some.injEq] at hc
    exact hc.le

theorem builtinStageCapacity_lt {s : Stage} (hc : builtinStageCapacity input s = some cap) :
    cap < sizeMod := by
  have hsize : input.size.toNat < sizeMod := input.size.toNat_lt
  have hmod (n : Nat) : n % sizeMod < sizeMod := Nat.mod_lt _ (by decide)
  cases s with
  | imageResize config =>
    cases config <;> simp only [builtinStageCapacity, Option.some.injEq] at hc <;> subst hc
    · decide
    · exact hmod _
  | audioMfcc config =>
    cases config <;> simp only [builtinStageCapacity, Option.some.injEq] at hc
    · subst hc
      decide
    · split at hc
      · cases hc
      · simp only [Option.some.injEq] at hc
        exact hc ▸ hmod _
  | softmax config =>
    simp only [builtinStageCapacity, Option.some.injEq] at hc
    split at hc <;> subst hc
    · exact hsize
    · exact hmod _
  | topK config =>
    cases config <;> simp only [builtinStageCapacity, Option.some.injEq] at hc <;> subst hc
    · decide
    · rename_i c
      have := c.k.toNat_lt
      unfold classificationSize sizeMod
      omega
  | quantizeInt8 config =>
    simp only [builtinStageCapacity, Option.some.injEq] at hc
    exact hc ▸ (Nat.div_le_self _ _).trans_lt hsize
  | argmax =>
    simp only [builtinStageCapacity, Option.some.injEq] at hc
    exact hc ▸ (by decide)
  | imageNormalize config | dequantize config =>
    simp only [builtinStageCapacity, Option.some.injEq] at hc
    exact hc ▸ hmod _
  | nms config =>
    simp only [builtinStageCapacity, Option.some.injEq] at hc
    exact hc ▸ hsize

theorem stageCapacity_lt {n : Nat} : stageCapacity n < sizeMod := by
  have : n * 4 % sizeMod < sizeMod := Nat.mod_lt _ (by decide)
  unfold stageCapacity
  dsimp only
  split
  · decide
  · exact this

theorem outputCapacity_spec (input : Tensor) {s : Stage} (hz : ¬s.ZeroFrame) : ∃ cap,
    outputCapacity input s = some cap ∧ cap < sizeMod ∧
      (s.Accepts input → s.outputSize input % sizeMod ≤ cap) := by
  unfold outputCapacity
  cases hc : builtinStageCapacity input s with
  | none => exact absurd (builtinStageCapacity_none.mp hc) hz
  | some cap =>
    refine ⟨_, rfl, ?_, fun h => ?_⟩
    · split
      · exact stageCapacity_lt
      · exact builtinStageCapacity_lt hc
    · have := builtinStageCapacity_ge h hc
      split <;> omega

-- ---------------------------------------------------------------------------
-- Estimate and stage
-- ---------------------------------------------------------------------------

/-- The stage succeeds, or rejects its input for another reason than its
output buffer. A fault is an access outside a buffer. -/
def Settled : Except (Stop Reject) Geometry → Prop
  | .ok _ => True
  | .error (.reject r) => r ≠ .outputTooSmall
  | .error .fault => False

/-- The pipeline computes a capacity, and the stage settles on a buffer of that
capacity with the bytes `byte`. -/
def Stage.Agrees (p : Platform) (input : Tensor) (byte : Nat → UInt8) (s : Stage) : Prop :=
  ∃ cap, outputCapacity input s = some cap ∧ Settled ((s.run p input).run ⟨cap, byte⟩).1

section
variable {s : Stage} {byte : Nat → UInt8}

theorem not_agrees_zeroFrame (hz : s.ZeroFrame) : ¬s.Agrees p input byte := by
  rintro ⟨cap, hc, -⟩
  unfold outputCapacity at hc
  rw [builtinStageCapacity_none.mpr hz] at hc
  cases hc

theorem not_agrees_outside (hw : input.WellSized) (h : s.Accepts input) (hp : s.ScratchFits p)
    (hout : ¬(s.SamplesInside input ∧ s.outputSize input < sizeMod)) : ¬s.Agrees p input byte := by
  by_cases hz : s.ZeroFrame
  · exact not_agrees_zeroFrame hz
  obtain ⟨cap, hcap, hlt, hge⟩ := outputCapacity_spec input hz
  rintro ⟨cap', hc, hs⟩
  cases hcap.symm.trans hc
  have hrun := Stage.run_exact hw h hp (hge h) hlt ⟨cap, byte⟩ rfl
  unfold Lib.Triple at hrun
  split at hrun <;> rename_i hr
  · obtain ⟨-, ⟨hin, hle⟩, -⟩ := hrun
    exact hout ⟨hin, hle.trans_lt hlt⟩
  · rw [hr, hrun.1] at hs
    exact hs

theorem agrees_of_fits (hw : input.WellSized) (hz : ¬s.ZeroFrame)
    (hfit : s.Accepts input → s.ScratchFits p →
      s.SamplesInside input ∧ s.outputSize input < sizeMod) : s.Agrees p input byte := by
  obtain ⟨cap, hcap, hlt, hge⟩ := outputCapacity_spec input hz
  refine ⟨cap, hcap, ?_⟩
  by_cases h : s.Accepts input
  · by_cases hp : s.ScratchFits p
    · obtain ⟨hin, hbelow⟩ := hfit h hp
      have hle : s.outputSize input ≤ cap := by
        have := hge h
        rwa [Nat.mod_eq_of_lt hbelow] at this
      have hrun := Stage.run_exact hw h hp (hge h) hlt ⟨cap, byte⟩ rfl
      unfold Lib.Triple at hrun
      split at hrun <;> rename_i hr
      · rw [hr]
        trivial
      · exact absurd ⟨hin, hle⟩ hrun.2
    · rw [Stage.run_noScratch h hp (hge h)]
      exact fun h => nomatch h
  · rw [Stage.run_rejects h]
    exact fun h => nomatch h

end

/-- Estimate and stage agree, unless the MFCC has frames of no samples, for
which the estimate divides by zero, or the stage goes through its checks and
writes `2 ^ 32` bytes or more, or resizes an image whose size has wrapped and
which lacks a pixel that is asked for. -/
theorem stage_within_capacity (p : Platform) (input : Tensor) (hw : input.WellSized)
    (byte : Nat → UInt8) (s : Stage) :
    s.Agrees p input byte ↔ ¬s.ZeroFrame ∧ (s.Accepts input → s.ScratchFits p →
      s.SamplesInside input ∧ s.outputSize input < 2 ^ 32) := by
  constructor
  · intro ha
    refine ⟨fun hz => not_agrees_zeroFrame hz ha, fun h hp => ?_⟩
    exact Decidable.of_not_not fun hout => not_agrees_outside hw h hp hout ha
  · exact fun ⟨hz, hfit⟩ => agrees_of_fits hw hz hfit

/-- Ten int8 logits. -/
def logits : Tensor := ⟨.int8, 2, ![1, 10, 0, 0], 10, some fun _ => 1⟩

theorem logits_wellSized : logits.WellSized := by decide

/-- The scratch pool has room, and the transform is not looked at. -/
def roomy : Platform := ⟨fun _ => true, fun _ => id⟩

/-- Three rows of two pixels. -/
def thumbnail : Tensor := ⟨.uint8, 4, ![1, 3, 2, 3], 18, some fun _ => 1⟩

theorem stage_within_capacity_small :
    (Stage.softmax none).Agrees roomy logits (fun _ => 0) ∧
      (Stage.imageResize (some ⟨4, 5⟩)).Agrees roomy thumbnail (fun _ => 0) := by
  have hthumb : thumbnail.WellSized := by decide
  refine ⟨(stage_within_capacity roomy logits logits_wellSized _ _).mpr
    ⟨id, fun _ _ => by decide⟩, (stage_within_capacity roomy thumbnail hthumb _ _).mpr
      ⟨id, fun ⟨c, hc, h⟩ _ => ?_⟩⟩
  cases hc
  exact ⟨h.samplesInside hthumb (by decide), by decide⟩

/-- One pixel of four channels. -/
def pixel : Tensor := ⟨.uint8, 4, ![1, 1, 1, 4], 4, some fun _ => 1⟩

/-- An image of `2 ^ 32 + 65536` bytes, as it is allocated. -/
def wrapped : Tensor := ⟨.uint8, 4, ![1, 65536, 65537, 1], 65536, some fun _ => 1⟩

/-- A resize to `2 ^ 32` bytes, for which both sizes wrap to 0, the resize of an image
whose own size has wrapped, and an MFCC with frames of no samples. -/
theorem estimate_and_stage_disagree :
    (∃ p input byte, input.WellSized ∧
      ¬(Stage.imageResize (some ⟨32768, 32768⟩)).Agrees p input byte) ∧
    (∃ p input byte, input.WellSized ∧
      ¬(Stage.imageResize (some ⟨1, 1⟩)).Agrees p input byte) ∧
    ∃ p input byte, input.WellSized ∧
      ¬(Stage.audioMfcc (some ⟨16000, 0, 20, 10⟩)).Agrees p input byte := by
  have hpixel : pixel.WellSized := by decide
  have hwrapped : wrapped.WellSized := by decide
  refine ⟨⟨roomy, pixel, fun _ => 0, hpixel, ?_⟩, ⟨roomy, wrapped, fun _ => 0, hwrapped, ?_⟩,
    ⟨roomy, logits, fun _ => 0, logits_wellSized, ?_⟩⟩
  · refine not_agrees_outside hpixel ⟨_, rfl, ?_⟩ trivial fun h => ?_
    · unfold ResizeConfig.Accepts
      decide
    · exact absurd h.2 (by decide)
  · refine not_agrees_outside hwrapped ⟨_, rfl, ?_⟩ trivial fun h => ?_
    · unfold ResizeConfig.Accepts
      decide
    · exact absurd h.1 (by decide)
  · exact not_agrees_zeroFrame rfl

end SynapticOS.Process
