import Mathlib.Algebra.BigOperators.Fin
import SynapticOS.FlashPort
import SynapticOS.Lib.Index
import SynapticOS.Lib.Buffer
import SynapticOS.Memory.Arena
import SynapticOS.Npu.Outputs

/-!
# Built-in processing stages

The pre- and post-processors of `src/preprocess` and `src/postprocess`, and the
pipeline's estimate of what each of them writes. A stage reads its input tensor
and runs on the output buffer; both are bounds-checked. Sizes are 32-bit
(`size_t` of the target), values are IEEE single-precision, and the coordinates of
the resize are exact. The pipeline hands a stage tensors that exist, so the NULL
checks left are those of the input's data and of the configuration.
-/

namespace SynapticOS.Process

open Lib (Act Buffer Stop)
open Memory (Dtype sizeMod)

structure Tensor where
  dtype : Dtype
  ndim : UInt8
  shape : Fin 4 → UInt32
  size : UInt32
  data : Option (Nat → UInt8)

def Tensor.bytes (t : Tensor) : Buffer := ⟨t.size.toNat, t.data.getD fun _ => 0⟩

/-- What a stage leaves in the output tensor beside its bytes. -/
structure Geometry where
  size : Nat
  dtype : Dtype
  ndim : UInt8
  shape : Fin 4 → UInt32

inductive Reject
  | inval
  | outputTooSmall
  | scratchTooSmall
  deriving DecidableEq, Repr

def Reject.errno : Reject → Errno
  | .inval => .einval
  | .outputTooSmall | .scratchTooSmall => .enomem

abbrev StageM := Act Buffer (Stop Reject)

def reject (r : Reject) : StageM α := Act.throw (.reject r)

/-- What the MFCC stage takes from the platform: whether the scratch pool has so
many bytes left, and the transform behind `syn_hal_dsp_fft_f32`. -/
structure Platform where
  scratch : Nat → Bool
  fft : Nat → List Float32 → List Float32

-- ---------------------------------------------------------------------------
-- Configurations
-- ---------------------------------------------------------------------------

structure ResizeConfig where
  w : UInt16
  h : UInt16

structure NormalizeConfig where
  mean : Fin 4 → Float32
  std : Fin 4 → Float32
  channels : UInt8

/-- `syn_quantize_config_t` and `syn_dequantize_config_t`. -/
structure QuantizeConfig where
  scale : Float32
  zeroPoint : Int32

structure MfccConfig where
  sampleRateHz : UInt32
  frameLen : UInt16
  numMel : UInt8
  numCoeffs : UInt8

structure TopkConfig where
  k : UInt8

structure NmsConfig where
  iouThreshold : Float32
  scoreThreshold : Float32
  maxBoxes : UInt8

-- ---------------------------------------------------------------------------
-- Reading and writing elements
-- ---------------------------------------------------------------------------

def int8ToFloat (q : Int8) : Float32 := .ofModel (.ofInt8 q)

def loadFloat (b : Buffer) (i : Nat) : StageM Float32 := do
  let w ← b.load32 (4 * i)
  return Float32.ofBits w

def loadInt8 (b : Buffer) (i : Nat) : StageM Int8 := do
  let x ← b.load8 i
  return x.toInt8

def storeFloat (i : Nat) (x : Float32) : StageM Unit := Buffer.store32 (4 * i) x.toBits

/-- Elements `start` to `start + n - 1` of the output, computed one by one. -/
def storeFloats (start n : Nat) (item : Nat → StageM Float32) : StageM Unit :=
  Act.times (fun i _ => do
    let x ← item i
    storeFloat (start + i) x) n ()

-- ---------------------------------------------------------------------------
-- Image pre-processors
-- ---------------------------------------------------------------------------

def isByteImage (t : Tensor) : Bool :=
  t.data.isSome && t.ndim == 4 && t.shape 0 == 1 && (t.dtype == .uint8 || t.dtype == .int8)

/-- `floor(i * (src - 1) / (dst - 1))`, the coordinate left of or at output
position `i`, and how far behind it the position is. -/
def coordinate (src dst i : Nat) : Nat × Float32 :=
  if dst > 1 then
    (i * (src - 1) / (dst - 1), Float32.ofNat (i * (src - 1) % (dst - 1)) / Float32.ofNat (dst - 1))
  else (0, 0)

def interpolate (input : Tensor) (dstH dstW y x c : Nat) : StageM UInt8 := do
  let srcH := (input.shape 1).toNat
  let srcW := (input.shape 2).toNat
  let ch := (input.shape 3).toNat
  let pixel (y x : Nat) : StageM Float32 := do
    let b ← input.bytes.load8 (((y * srcW + x) * ch + c) % sizeMod)
    return b.toFloat32
  let y0 := (coordinate srcH dstH y).1
  let y1 := if y0 + 1 < srcH then y0 + 1 else y0
  let fy := (coordinate srcH dstH y).2
  let x0 := (coordinate srcW dstW x).1
  let x1 := if x0 + 1 < srcW then x0 + 1 else x0
  let fx := (coordinate srcW dstW x).2
  let p00 ← pixel y0 x0
  let p01 ← pixel y0 x1
  let p10 ← pixel y1 x0
  let p11 ← pixel y1 x1
  let top := p00 + fx * (p01 - p00)
  let bot := p10 + fx * (p11 - p10)
  let val := top + fy * (bot - top)
  return (val + 0.5).toUInt8

def imageResize (config : Option ResizeConfig) (input : Tensor) : StageM Geometry :=
  match config with
  | none => reject .inval
  | some cfg => do
    if !isByteImage input ∨ cfg.w = 0 ∨ cfg.h = 0 then reject .inval
    else
      let srcH := input.shape 1
      let srcW := input.shape 2
      let ch := input.shape 3
      let dstH := cfg.h.toNat
      let dstW := cfg.w.toNat
      let needed := dstH * dstW * ch.toNat % sizeMod
      if srcH = 0 ∨ srcW = 0 ∨ ch = 0 ∨ ch > 4 then reject .inval
      else
        let out ← Act.get
        if out.size < needed then reject .outputTooSmall
        else
          Act.times (fun y _ =>
            Act.times (fun x _ =>
              Act.times (fun c _ => do
                let v ← interpolate input dstH dstW y x c
                Buffer.store8 (((y * dstW + x) * ch.toNat + c) % sizeMod) v)
              ch.toNat ()) dstW ()) dstH ()
          return ⟨needed, input.dtype, 4, ![1, cfg.h.toUInt32, cfg.w.toUInt32, ch]⟩

def imageNormalize (config : Option NormalizeConfig) (input : Tensor) : StageM Geometry :=
  match config with
  | none => reject .inval
  | some cfg => do
    if !isByteImage input then reject .inval
    else
      let ch := (input.shape 3).toNat
      if ch = 0 ∨ ch > 4 ∨ cfg.channels.toNat ≠ ch then reject .inval
      else if ∃ c : Fin 4, c < ch ∧ cfg.std c == 0 then reject .inval
      else
        let numPx := input.size.toNat
        let needed := numPx * 4 % sizeMod
        let out ← Act.get
        if out.size < needed then reject .outputTooSmall
        else
          storeFloats 0 numPx fun i => do
            let c := Fin.ofNat 4 (i % ch)
            let b ← input.bytes.load8 i
            let val := if input.dtype = .int8 then int8ToFloat b.toInt8 else b.toFloat32
            return (val - cfg.mean c) / cfg.std c
          return ⟨needed, .float32, input.ndim, input.shape⟩

-- ---------------------------------------------------------------------------
-- Quantisation
-- ---------------------------------------------------------------------------

/-- `CLAMP(q, -128, 127)`. -/
def saturate (q : Int32) : Int8 := if q < -128 then -128 else if q > 127 then 127 else q.toInt8

def quantizeInt8 (config : Option QuantizeConfig) (input : Tensor) : StageM Geometry :=
  match config with
  | none => reject .inval
  | some cfg => do
    if !input.data.isSome ∨ cfg.scale == 0 ∨ input.dtype ≠ .float32 then reject .inval
    else
      let count := input.size.toNat / 4
      let out ← Act.get
      if out.size < count then reject .outputTooSmall
      else
        Act.times (fun i _ => do
          let x ← loadFloat input.bytes i
          let q := (x / cfg.scale).round.toInt32 + cfg.zeroPoint
          Buffer.store8 i (saturate q).toUInt8) count ()
        return ⟨count, .int8, input.ndim, input.shape⟩

-- ---------------------------------------------------------------------------
-- Audio pre-processor
-- ---------------------------------------------------------------------------

def mfccMaxFrameLen : Nat := 512
def mfccMaxMel : Nat := 32
def mfccPi : Float32 := 3.14159265358979

def hzToMel (hz : Float32) : Float32 := 2595 * (1 + hz / 700).log10

def melToHz (mel : Float32) : Float32 := 700 * (Float32.pow 10 (mel / 2595) - 1)

/-- `bin_edges`: the mel filters' edges as bins of the transform. -/
def MfccConfig.binEdge (cfg : MfccConfig) (m : Nat) : Float32 :=
  let melMax := hzToMel (cfg.sampleRateHz.toFloat32 / 2)
  let mel := melMax * Float32.ofNat m / Float32.ofNat (cfg.numMel.toNat + 1)
  melToHz mel * cfg.frameLen.toFloat32 / cfg.sampleRateHz.toFloat32

def MfccConfig.weight (cfg : MfccConfig) (m k : Nat) : Float32 :=
  let pos := Float32.ofNat k
  let lo := cfg.binEdge m
  let mid := cfg.binEdge (m + 1)
  let hi := cfg.binEdge (m + 2)
  if pos ≤ mid then if mid > lo then (pos - lo) / (mid - lo) else 0
  else if hi > mid then (hi - pos) / (hi - mid) else 0

/-- `log_mel[m]` over the spectrum of a frame. -/
def MfccConfig.logMel (cfg : MfccConfig) (spectrum : List Float32) (m : Nat) : Float32 :=
  let energy := (List.range (cfg.frameLen.toNat / 2 + 1)).foldl (fun energy k =>
    let pos := Float32.ofNat k
    if pos ≤ cfg.binEdge m ∨ cfg.binEdge (m + 2) ≤ pos then energy
    else
      let re := spectrum.getD (2 * k) 0
      let im := spectrum.getD (2 * k + 1) 0
      energy + cfg.weight m k * (re * re + im * im)) 0
  (energy + 1e-6).log

def MfccConfig.coefficient (cfg : MfccConfig) (spectrum : List Float32) (j : Nat) : Float32 :=
  (List.range cfg.numMel.toNat).foldl (fun acc m =>
    acc + cfg.logMel spectrum m *
      (mfccPi * Float32.ofNat j * (Float32.ofNat m + 0.5) / cfg.numMel.toFloat32).cos) 0

/-- Frame `f` under the Hamming window, as the complex FFT buffer. -/
def window (input : Tensor) (frameLen f : Nat) : StageM (List Float32) :=
  Act.times (fun i buf => do
    let w := 0.54 - 0.46 * (2 * mfccPi * Float32.ofNat i / Float32.ofNat (frameLen - 1)).cos
    let x ← loadFloat input.bytes (f * frameLen + i)
    return buf ++ [x * w, 0]) frameLen []

/-- `syn_hal_dsp_fft_f32`: its check of the length, and the transform. -/
def Platform.fftF32 (p : Platform) (buf : List Float32) (len : Nat) : StageM (List Float32) :=
  if len < 2 ∨ len > 1024 ∨ len &&& (len - 1) ≠ 0 then reject .inval
  else return p.fft len buf

/-- The frames of the input, once `frame_len` is known not to be zero. -/
def MfccConfig.frames (cfg : MfccConfig) (input : Tensor) : Nat :=
  input.size.toNat / 4 / cfg.frameLen.toNat

/-- The part of `audio_mfcc` behind its checks, frame by frame. -/
def mfccFrames (p : Platform) (cfg : MfccConfig) (input : Tensor) : StageM Geometry := do
  let frameLen := cfg.frameLen.toNat
  let numCoeffs := cfg.numCoeffs.toNat
  let numFrames := cfg.frames input
  Act.times (fun f _ => do
    let buf ← window input frameLen f
    let spectrum ← p.fftF32 buf frameLen
    storeFloats (f * numCoeffs) numCoeffs fun j => pure (cfg.coefficient spectrum j)) numFrames ()
  return ⟨numFrames * numCoeffs * 4 % sizeMod, .float32, 2,
    ![UInt32.ofNat numFrames, cfg.numCoeffs.toUInt32, 0, 0]⟩

def audioMfcc (p : Platform) (config : Option MfccConfig) (input : Tensor) : StageM Geometry :=
  match config with
  | none => reject .inval
  | some cfg => do
    if !input.data.isSome ∨ input.dtype ≠ .float32 then reject .inval
    else
      let frameLen := cfg.frameLen.toNat
      let numMel := cfg.numMel.toNat
      let numCoeffs := cfg.numCoeffs.toNat
      if cfg.sampleRateHz = 0 ∨ frameLen < 8 ∨ frameLen > mfccMaxFrameLen ∨
          frameLen &&& (frameLen - 1) ≠ 0 ∨ numMel = 0 ∨ numMel > mfccMaxMel ∨
          numCoeffs = 0 ∨ numCoeffs > numMel then reject .inval
      else if cfg.frames input = 0 then reject .inval
      else
        let needed := cfg.frames input * numCoeffs * 4 % sizeMod
        let out ← Act.get
        if out.size < needed then reject .outputTooSmall
        else if !p.scratch (frameLen * 2 * 4) then reject .scratchTooSmall
        else mfccFrames p cfg input

-- ---------------------------------------------------------------------------
-- Classification
-- ---------------------------------------------------------------------------

def topkMax : Nat := 16

def validPair (input : Tensor) : Bool := input.data.isSome && input.size > 0

def elementCount (t : Tensor) : Nat :=
  if t.dtype = .float32 then t.size.toNat / 4 else t.size.toNat

def getScore (t : Tensor) (i : Nat) (cfg : Option QuantizeConfig) : StageM Float32 :=
  if t.dtype = .float32 then loadFloat t.bytes i
  else do
    let q ← loadInt8 t.bytes i
    match cfg with
    | some cfg => return (int8ToFloat q - cfg.zeroPoint.toFloat32) * cfg.scale
    | none => return int8ToFloat q

/-- `syn_hal_dsp_softmax_f32` in place on the output. -/
def softmaxF32 (len : Nat) : StageM Unit := do
  let dst (i : Nat) : StageM Float32 := do
    let b ← Act.get
    loadFloat b i
  if len = 0 then reject .inval
  else
    let first ← dst 0
    let maxVal ← Act.times (fun i m => do
      let x ← dst (i + 1)
      return if x > m then x else m) (len - 1) first
    let sum ← Act.times (fun i sum => do
      let x ← dst i
      storeFloat i (x - maxVal).exp
      let e ← dst i
      return sum + e) len 0
    if sum > 0 then
      storeFloats 0 len fun i => do
        let x ← dst i
        return x / sum
    else return ()

def postSoftmax (config : Option QuantizeConfig) (input : Tensor) : StageM Geometry := do
  if !validPair input then reject .inval
  else if input.dtype ≠ .int8 ∧ input.dtype ≠ .float32 then reject .inval
  else
    let count := elementCount input
    let needed := count * 4 % sizeMod
    let out ← Act.get
    if out.size < needed then reject .outputTooSmall
    else
      storeFloats 0 count fun i => getScore input i config
      softmaxF32 count
      return ⟨needed, .float32, input.ndim, input.shape⟩

def dspArgmax (b : Buffer) (len : Nat) : StageM Nat :=
  if len = 0 then reject .inval
  else do
    let first ← loadInt8 b 0
    let best ← Act.times (fun i best => do
      let x ← loadInt8 b (i + 1)
      return if x > best.1 then (x, i + 1) else best) (len - 1) (first, 0)
    return best.2

/-- The index of the largest of an array of floats, read twice each round. -/
def floatArgmax (b : Buffer) (count : Nat) : StageM Nat :=
  Act.times (fun i best => do
    let x ← loadFloat b (i + 1)
    let y ← loadFloat b best
    return if x > y then i + 1 else best) (count - 1) 0

def classificationSize : Nat := 8

def storeClassification (i : Nat) (index : UInt32) (score : Float32) : StageM Unit := do
  Buffer.store32 (classificationSize * i) index
  Buffer.store32 (classificationSize * i + 4) score.toBits

def postArgmax (input : Tensor) : StageM Geometry := do
  if !validPair input then reject .inval
  else if input.dtype ≠ .int8 ∧ input.dtype ≠ .float32 then reject .inval
  else
    let out ← Act.get
    if out.size < classificationSize then reject .outputTooSmall
    else
      let count := elementCount input
      let best ← if input.dtype = .int8 then dspArgmax input.bytes count
        else floatArgmax input.bytes count
      let score ← getScore input best none
      storeClassification 0 (UInt32.ofNat best) score
      return ⟨classificationSize, .float32, 1, ![1, 0, 0, 0]⟩

/-- One pass over the scores that are not `chosen` yet. `best` is the source's
`int32_t`, so an index from `2 ^ 31` on is negative there. -/
def bestUnchosen (input : Tensor) (count : Nat) (chosen : List UInt32) : StageM (Int32 × Float32) :=
  Act.times (fun i best => do
    if UInt32.ofNat i ∈ chosen then return best
    else
      let score ← getScore input i none
      return if best.1 < 0 ∨ score > best.2 then (Int32.ofNat i, score) else best) count (-1, 0)

def TopkConfig.emitted (cfg : TopkConfig) (count : Nat) : Nat :=
  if cfg.k.toNat < count then cfg.k.toNat else count % 2 ^ 8

def postTopK (config : Option TopkConfig) (input : Tensor) : StageM Geometry :=
  match config with
  | none => reject .inval
  | some cfg => do
    if !validPair input ∨ cfg.k = 0 ∨ cfg.k.toNat > topkMax then reject .inval
    else if input.dtype ≠ .int8 ∧ input.dtype ≠ .float32 then reject .inval
    else
      let count := elementCount input
      let k := cfg.emitted count
      let out ← Act.get
      if out.size < k * classificationSize then reject .outputTooSmall
      else
        let _ ← Act.times (fun round chosen => do
          let best ← bestUnchosen input count chosen
          storeClassification round best.1.toUInt32 best.2
          return chosen ++ [best.1.toUInt32]) k []
        return ⟨k * classificationSize, .float32, 1, ![UInt32.ofNat k, 0, 0, 0]⟩

def postDequantize (config : Option QuantizeConfig) (input : Tensor) : StageM Geometry :=
  match config with
  | none => reject .inval
  | some cfg => do
    if !validPair input ∨ input.dtype ≠ .int8 then reject .inval
    else
      let count := input.size.toNat
      let needed := count * 4 % sizeMod
      let out ← Act.get
      if out.size < needed then reject .outputTooSmall
      else
        storeFloats 0 count fun i => do
          let q ← loadInt8 input.bytes i
          return (int8ToFloat q - cfg.zeroPoint.toFloat32) * cfg.scale
        return ⟨needed, .float32, input.ndim, input.shape⟩

-- ---------------------------------------------------------------------------
-- Detection
-- ---------------------------------------------------------------------------

def nmsMaxBoxes : Nat := 64
def bboxSize : Nat := 24

structure Bbox where
  x1 : Float32
  y1 : Float32
  x2 : Float32
  y2 : Float32
  score : Float32
  classId : Float32

def loadBoxScore (b : Buffer) (i : Nat) : StageM Float32 := loadFloat b (6 * i + 4)

def loadBox (b : Buffer) (i : Nat) : StageM Bbox := do
  let x1 ← loadFloat b (6 * i)
  let y1 ← loadFloat b (6 * i + 1)
  let x2 ← loadFloat b (6 * i + 2)
  let y2 ← loadFloat b (6 * i + 3)
  let score ← loadFloat b (6 * i + 4)
  let classId ← loadFloat b (6 * i + 5)
  return ⟨x1, y1, x2, y2, score, classId⟩

/-- `kept[i] = box`. -/
def storeBox (i : Nat) (box : Bbox) : StageM Unit :=
  Buffer.store (bboxSize * i) ([box.x1, box.y1, box.x2, box.y2, box.score, box.classId].flatMap
    fun x => Buffer.wordBytes x.toBits)

def boxIou (a b : Bbox) : Float32 :=
  let ix1 := if a.x1 > b.x1 then a.x1 else b.x1
  let iy1 := if a.y1 > b.y1 then a.y1 else b.y1
  let ix2 := if a.x2 < b.x2 then a.x2 else b.x2
  let iy2 := if a.y2 < b.y2 then a.y2 else b.y2
  let iw := ix2 - ix1
  let ih := iy2 - iy1
  if iw ≤ 0 ∨ ih ≤ 0 then 0
  else
    let inter := iw * ih
    let areaA := (a.x2 - a.x1) * (a.y2 - a.y1)
    let areaB := (b.x2 - b.x1) * (b.y2 - b.y1)
    let uni := areaA + areaB - inter
    if uni > 0 then inter / uni else 0

/-- One insertion into `order`, which is kept here from its last place to its
first: places move up while their score is lower. -/
def insertCandidate (b : Buffer) (i : Nat) : List Nat → StageM (List Nat)
  | [] => return [i]
  | last :: rest => do
    let lastScore ← loadBoxScore b last
    let score ← loadBoxScore b i
    if lastScore < score then
      let rest ← insertCandidate b i rest
      return last :: rest
    else return i :: last :: rest

/-- `order[0..num_cand)`. -/
def candidates (b : Buffer) (count : Nat) (cfg : NmsConfig) : StageM (List Nat) := do
  let order ← Act.times (fun i order => do
    let score ← loadBoxScore b i
    if score < cfg.scoreThreshold then return order else insertCandidate b i order) count []
  return order.reverse

/-- Mark the boxes behind place `i` that `cand` suppresses. -/
def suppress (b : Buffer) (cfg : NmsConfig) (order : List Nat) (i : Nat) (cand : Bbox)
    (suppressed : Nat → Bool) : StageM (Nat → Bool) :=
  Act.times (fun n suppressed => do
    let j := i + 1 + n
    if suppressed j then return suppressed
    else
      let other ← loadBox b (order.getD j 0)
      if other.classId == cand.classId && boxIou cand other > cfg.iouThreshold then
        return fun k => k == j || suppressed k
      else return suppressed) (order.length - (i + 1)) suppressed

structure Sweep where
  suppressed : Nat → Bool
  numKept : Nat
  full : Bool

/-- `post_nms`. The sweep ends with `max_boxes` boxes or with the buffer. -/
def postNms (config : Option NmsConfig) (input : Tensor) : StageM Geometry :=
  match config with
  | none => reject .inval
  | some cfg => do
    if !input.data.isSome ∨ cfg.maxBoxes = 0 ∨ input.dtype ≠ .float32 ∨
        input.size.toNat % bboxSize ≠ 0 then reject .inval
    else
      let count := input.size.toNat / bboxSize
      if count > nmsMaxBoxes then reject .inval
      else
        let out ← Act.get
        let order ← candidates input.bytes count cfg
        let sweep ← Act.times (fun i (sw : Sweep) => do
          if sw.full ∨ sw.numKept ≥ cfg.maxBoxes.toNat ∨ sw.suppressed i then return sw
          else if (sw.numKept + 1) * bboxSize > out.size then return { sw with full := true }
          else
            let cand ← loadBox input.bytes (order.getD i 0)
            storeBox sw.numKept cand
            let suppressed ← suppress input.bytes cfg order i cand sw.suppressed
            return { sw with suppressed, numKept := sw.numKept + 1 })
          order.length ⟨fun _ => false, 0, false⟩
        return ⟨sweep.numKept * bboxSize, .float32, 2, ![UInt32.ofNat sweep.numKept, 6, 0, 0]⟩

-- ---------------------------------------------------------------------------
-- The pipeline
-- ---------------------------------------------------------------------------

/-- A built-in stage of a pipeline with its configuration, `none` for NULL. -/
inductive Stage
  | imageResize (config : Option ResizeConfig)
  | imageNormalize (config : Option NormalizeConfig)
  | quantizeInt8 (config : Option QuantizeConfig)
  | audioMfcc (config : Option MfccConfig)
  | softmax (config : Option QuantizeConfig)
  | argmax
  | topK (config : Option TopkConfig)
  | nms (config : Option NmsConfig)
  | dequantize (config : Option QuantizeConfig)

def Stage.run (p : Platform) (input : Tensor) : Stage → StageM Geometry
  | .imageResize config => Process.imageResize config input
  | .imageNormalize config => Process.imageNormalize config input
  | .quantizeInt8 config => Process.quantizeInt8 config input
  | .audioMfcc config => Process.audioMfcc p config input
  | .softmax config => postSoftmax config input
  | .argmax => postArgmax input
  | .topK config => postTopK config input
  | .nms config => postNms config input
  | .dequantize config => postDequantize config input

/-- `builtin_stage_capacity`; `none` is a division by zero. -/
def builtinStageCapacity (input : Tensor) : Stage → Option Nat
  | .imageResize (some c) =>
    let ch := if input.ndim = 4 then (input.shape 3).toNat else 1
    some (c.w.toNat * c.h.toNat * ch % sizeMod)
  | .imageNormalize _ => some (input.size.toNat * 4 % sizeMod)
  | .quantizeInt8 _ => some (input.size.toNat / 4)
  | .audioMfcc (some c) =>
    if c.frameLen = 0 then none
    else some (input.size.toNat / 4 / c.frameLen.toNat * c.numCoeffs.toNat * 4 % sizeMod)
  | .softmax _ =>
    some (if input.dtype = .float32 then input.size.toNat else input.size.toNat * 4 % sizeMod)
  | .argmax => some classificationSize
  | .topK (some c) => some (c.k.toNat * classificationSize)
  | .nms _ => some input.size.toNat
  | .dequantize _ => some (input.size.toNat * 4 % sizeMod)
  | .imageResize none | .audioMfcc none | .topK none => some 0

def stageCapacity (inSize : Nat) : Nat :=
  let cap := inSize * 4 % sizeMod
  if cap < Npu.stageMinCapacity then Npu.stageMinCapacity else cap

def outputCapacity (input : Tensor) (s : Stage) : Option Nat :=
  match builtinStageCapacity input s with
  | none => none
  | some cap => some (if cap = 0 then stageCapacity input.size.toNat else cap)

end SynapticOS.Process
