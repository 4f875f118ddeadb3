import SynapticOS.Process.Stages

/-!
# What the stages ask of their output buffer

For each stage: what it checks before it compares sizes, how much it writes, and
that with a buffer of at least the size it computes (32 bits) it ends well if and
only if what it writes fits.
-/

namespace SynapticOS.Process

open Lib (Act Buffer Stop Exact)
open Memory (Dtype sizeMod dtypeSize)

variable {input : Tensor} {cap : Nat} {p : Platform}

/-- The size is the product of the shape and the element size, in 32 bits as
`syn_mem_tensor_alloc` computes it. -/
def Tensor.WellSized (t : Tensor) : Prop :=
  t.ndim ≤ 4 ∧
    t.size.toNat =
      (∏ i : Fin 4, if i < t.ndim.toNat then (t.shape i).toNat else 1) * dtypeSize t.dtype % sizeMod

instance : DecidablePred Tensor.WellSized := fun _ => inferInstanceAs (Decidable (_ ∧ _))

theorem Tensor.WellSized.floats (h : input.WellSized) (hd : input.dtype = .float32) :
    input.size.toNat % 4 = 0 := by
  rw [h.2, hd, show dtypeSize .float32 = 4 from rfl]
  unfold sizeMod
  omega

theorem isByteImage_iff : isByteImage input = true ↔ input.data.isSome ∧ input.ndim = 4 ∧
    input.shape 0 = 1 ∧ (input.dtype = .uint8 ∨ input.dtype = .int8) := by
  simp only [isByteImage, Bool.and_eq_true, Bool.or_eq_true, beq_iff_eq, and_assoc]

theorem Tensor.WellSized.image (h : input.WellSized) (hi : isByteImage input = true) :
    input.size.toNat =
      (input.shape 1).toNat * (input.shape 2).toNat * (input.shape 3).toNat % sizeMod := by
  obtain ⟨-, hn, h0, hd⟩ := isByteImage_iff.mp hi
  have hsize : dtypeSize input.dtype = 1 := by
    rcases hd with hd | hd <;> rw [hd] <;> rfl
  rw [h.2, hsize, hn, Fin.prod_univ_four, h0]
  simp

-- ---------------------------------------------------------------------------
-- Elements
-- ---------------------------------------------------------------------------

theorem loadFloat_exact {b : Buffer} {i : Nat} (h : 4 * i + 4 ≤ b.size) :
    Exact cap True (fun _ => True) (loadFloat b i) :=
  (Exact.load32 h).after fun _ _ => Exact.pure' trivial

theorem loadInt8_exact {b : Buffer} {i : Nat} (h : i < b.size) :
    Exact cap True (fun _ => True) (loadInt8 b i) :=
  (Exact.load8.known h).after fun _ _ => Exact.pure' trivial

theorem storeFloat_exact {i : Nat} {x : Float32} :
    Exact cap (4 * i + 4 ≤ cap) (fun _ => True) (storeFloat i x) := Exact.store32

theorem storeFloats_exact {start n : Nat} {item : Nat → StageM Float32}
    (h : ∀ i < n, Exact cap True (fun _ => True) (item i)) :
    Exact cap (∀ i < n, 4 * (start + i) + 4 ≤ cap) (fun _ => True)
      (storeFloats start n item) :=
  Exact.times (fun _ _ => True)
    (fun i hi _ _ => (h i hi).after fun _ _ => storeFloat_exact) trivial

/-- A whole output of floats. -/
theorem storeFloats_zero {n : Nat} {item : Nat → StageM Float32}
    (h : ∀ i < n, Exact cap True (fun _ => True) (item i)) :
    Exact cap (n * 4 ≤ cap) (fun _ => True) (storeFloats 0 n item) := by
  refine (storeFloats_exact h).of_iff ⟨fun hall => ?_, fun hn i hi => by omega⟩
  rcases Nat.eq_zero_or_pos n with rfl | hn
  · exact Nat.zero_le _
  · have := hall (n - 1) (by omega)
    omega

theorem getScore_exact {i : Nat} {cfg : Option QuantizeConfig} (h : i < elementCount input) :
    Exact cap True (fun _ => True) (getScore input i cfg) := by
  unfold elementCount at h
  unfold getScore
  by_cases hd : input.dtype = .float32
  · rw [if_pos hd] at h ⊢
    exact loadFloat_exact (by simp only [Tensor.bytes]; omega)
  · rw [if_neg hd] at h ⊢
    refine (loadInt8_exact h).after fun q _ => ?_
    cases cfg <;> exact Exact.pure' trivial

theorem storeClassification_exact {i : Nat} {index : UInt32} {score : Float32} :
    Exact cap ((i + 1) * classificationSize ≤ cap) (fun _ => True)
      (storeClassification i index score) := by
  refine (Exact.store32.bind fun _ _ _ => Exact.store32).of_iff ?_
  unfold classificationSize
  omega

-- ---------------------------------------------------------------------------
-- Image resize
-- ---------------------------------------------------------------------------

theorem index_lt {h w n y x c : Nat} (hy : y < h) (hx : x < w) (hc : c < n) :
    (y * w + x) * n + c < h * w * n := by
  have hyx : y * w + x + 1 ≤ h * w := by
    calc y * w + x + 1 ≤ y * w + w := by omega
      _ = (y + 1) * w := by ring
      _ ≤ h * w := Nat.mul_le_mul_right w hy
  calc (y * w + x) * n + c < (y * w + x) * n + n := by omega
    _ = (y * w + x + 1) * n := by ring
    _ ≤ h * w * n := Nat.mul_le_mul_right n hyx

theorem index_of_lt {h w n j : Nat} (hj : j < h * w * n) :
    ∃ y < h, ∃ x < w, ∃ c < n, (y * w + x) * n + c = j := by
  have hn : 0 < n := Nat.pos_of_ne_zero fun h0 => by simp [h0] at hj
  have hw : 0 < w := Nat.pos_of_ne_zero fun h0 => by simp [h0] at hj
  have hjn : j / n < h * w := Nat.div_lt_of_lt_mul (by rwa [Nat.mul_comm])
  refine ⟨j / n / w, Nat.div_lt_of_lt_mul (by rwa [Nat.mul_comm]), j / n % w, Nat.mod_lt _ hw,
    j % n, Nat.mod_lt _ hn, ?_⟩
  rw [Nat.div_add_mod' (j / n) w, Nat.div_add_mod' j n]

/-- The 32-bit index of the resize stays inside a buffer if and only if the
exact size of the image does: an image of `2 ^ 32` bytes or more sweeps over
every 32-bit index. -/
theorem indices_within {h w n : Nat} (hcap : cap < sizeMod) :
    (∀ y < h, ∀ x < w, ∀ c < n, ((y * w + x) * n + c) % sizeMod < cap) ↔ h * w * n ≤ cap := by
  constructor
  · intro hall
    by_contra hgt
    obtain ⟨y, hy, x, hx, c, hc, hj⟩ := index_of_lt (Nat.lt_of_not_le hgt)
    have := hall y hy x hx c hc
    rw [hj, Nat.mod_eq_of_lt hcap] at this
    exact Nat.lt_irrefl _ this
  · intro hle y hy x hx c hc
    exact (Nat.mod_le _ _).trans_lt ((index_lt hy hx hc).trans_le hle)

theorem coordinate_lt {src dst i : Nat} (hs : 0 < src) (hi : i < dst) :
    (coordinate src dst i).1 < src := by
  unfold coordinate
  split
  · have : i * (src - 1) / (dst - 1) ≤ src - 1 :=
      Nat.div_le_of_le_mul (Nat.mul_le_mul_right _ (by omega))
    dsimp only
    omega
  · exact hs

theorem next_lt {i n : Nat} (h : i < n) : (if i + 1 < n then i + 1 else i) < n := by
  split <;> assumption

/-- Channel `c` of a source pixel lies in the tensor, at its 32-bit index. -/
def Tensor.HasByte (t : Tensor) (y x c : Nat) : Prop :=
  ((y * (t.shape 2).toNat + x) * (t.shape 3).toNat + c) % sizeMod < t.size.toNat

instance (t : Tensor) (y x c : Nat) : Decidable (t.HasByte y x c) := Nat.decLt ..

/-- The four pixels around the source position of output pixel `(y, x)` lie in the
tensor. -/
def Tensor.HasAround (t : Tensor) (dstH dstW y x c : Nat) : Prop :=
  let y0 := (coordinate (t.shape 1).toNat dstH y).1
  let y1 := if y0 + 1 < (t.shape 1).toNat then y0 + 1 else y0
  let x0 := (coordinate (t.shape 2).toNat dstW x).1
  let x1 := if x0 + 1 < (t.shape 2).toNat then x0 + 1 else x0
  t.HasByte y0 x0 c ∧ t.HasByte y0 x1 c ∧ t.HasByte y1 x0 c ∧ t.HasByte y1 x1 c

instance (t : Tensor) (dstH dstW y x c : Nat) : Decidable (t.HasAround dstH dstW y x c) :=
  inferInstanceAs (Decidable (_ ∧ _))

theorem interpolate_exact {dstH dstW y x c : Nat} :
    Exact cap (input.HasAround dstH dstW y x c) (fun _ => True)
      (interpolate input dstH dstW y x c) := by
  have hpixel (y x : Nat) : Exact cap (input.HasByte y x c) (fun _ => True)
      (do
        let b ← input.bytes.load8
          (((y * (input.shape 2).toNat + x) * (input.shape 3).toNat + c) % sizeMod)
        return b.toFloat32 : StageM Float32) :=
    Exact.load8.before fun _ _ _ => Exact.pure' trivial
  unfold interpolate
  refine (hpixel _ _).bind fun _ _ _ => (hpixel _ _).bind fun _ _ _ => ?_
  exact (hpixel _ _).bind fun _ _ _ => (hpixel _ _).before fun _ _ _ => Exact.pure' trivial

/-- The source pixels of a resize lie in the tensor. -/
def ResizeConfig.SamplesInside (cfg : ResizeConfig) (input : Tensor) : Prop :=
  ∀ y < cfg.h.toNat, ∀ x < cfg.w.toNat, ∀ c < (input.shape 3).toNat,
    input.HasAround cfg.h.toNat cfg.w.toNat y x c

instance (cfg : ResizeConfig) (input : Tensor) : Decidable (cfg.SamplesInside input) := by
  unfold ResizeConfig.SamplesInside; infer_instance

/-- What `image_resize` checks before it compares sizes. -/
def ResizeConfig.Accepts (cfg : ResizeConfig) (input : Tensor) : Prop :=
  isByteImage input ∧ cfg.w ≠ 0 ∧ cfg.h ≠ 0 ∧ input.shape 1 ≠ 0 ∧ input.shape 2 ≠ 0 ∧
    input.shape 3 ≠ 0 ∧ input.shape 3 ≤ 4

theorem imageResize_rejects {cfg : ResizeConfig} (h : ¬cfg.Accepts input) :
    imageResize (some cfg) input = reject .inval := by
  unfold imageResize
  dsimp only
  split
  · rfl
  · split
    · rfl
    · rename_i h1 h2
      simp only [not_or, Bool.not_eq_true', Bool.not_eq_false, UInt32.not_lt, ← ne_eq] at h1 h2
      obtain ⟨hi, hcw, hch⟩ := h1
      obtain ⟨hsh, hsw, hch0, hch4⟩ := h2
      exact absurd ⟨hi, hcw, hch, hsh, hsw, hch0, hch4⟩ h

/-- Only an image of `2 ^ 32` bytes or more, whose size has wrapped, can lack them. -/
theorem ResizeConfig.Accepts.samplesInside {cfg : ResizeConfig} (h : cfg.Accepts input)
    (hw : input.WellSized)
    (hsmall : (input.shape 1).toNat * (input.shape 2).toNat * (input.shape 3).toNat < 2 ^ 32) :
    cfg.SamplesInside input := by
  obtain ⟨hi, -, -, hsh, hsw, -, -⟩ := h
  have hH : 0 < (input.shape 1).toNat := Nat.pos_of_ne_zero fun h => hsh (UInt32.toNat_inj.mp h)
  have hW : 0 < (input.shape 2).toNat := Nat.pos_of_ne_zero fun h => hsw (UInt32.toNat_inj.mp h)
  intro y hy x hx c hc
  have hbyte {y x : Nat} (hy : y < (input.shape 1).toNat) (hx : x < (input.shape 2).toNat) :
      input.HasByte y x c := by
    unfold Tensor.HasByte
    rw [hw.image hi, Nat.mod_eq_of_lt hsmall]
    exact (Nat.mod_le _ _).trans_lt (index_lt hy hx hc)
  have hy0 := coordinate_lt hH hy
  have hx0 := coordinate_lt hW hx
  exact ⟨hbyte hy0 hx0, hbyte hy0 (next_lt hx0), hbyte (next_lt hy0) hx0,
    hbyte (next_lt hy0) (next_lt hx0)⟩

theorem imageResize_exact {cfg : ResizeConfig} (h : cfg.Accepts input)
    (hcap : cfg.h.toNat * cfg.w.toNat * (input.shape 3).toNat % sizeMod ≤ cap)
    (hlt : cap < sizeMod) :
    Exact cap (cfg.SamplesInside input ∧ cfg.h.toNat * cfg.w.toNat * (input.shape 3).toNat ≤ cap)
      (fun _ => True) (imageResize (some cfg) input) := by
  obtain ⟨hi, hcw, hch, hsh, hsw, hch0, hch4⟩ := h
  unfold imageResize
  dsimp only
  rw [if_neg (by simp [hi, hcw, hch]), if_neg (by simp [hsh, hsw, hch0, UInt32.not_lt.mpr hch4])]
  refine Exact.get.after fun out hout => ?_
  rw [if_neg (by omega)]
  refine Exact.before (V := fun _ => True) ?_ fun _ _ _ => Exact.pure' trivial
  refine Exact.of_iff ?_ (and_congr_right' (indices_within hlt))
  unfold ResizeConfig.SamplesInside
  simp only [← forall_and]
  refine Exact.times (fun _ _ => True) (fun y hy _ _ => ?_) trivial
  refine Exact.times (fun _ _ => True) (fun x hx _ _ => ?_) trivial
  refine Exact.times (fun _ _ => True) (fun c hc _ _ => ?_) trivial
  exact interpolate_exact.bind fun _ _ _ => Exact.store8

-- ---------------------------------------------------------------------------
-- Element by element
-- ---------------------------------------------------------------------------

/-- What `image_normalize` checks before it compares sizes. -/
def NormalizeConfig.Accepts (cfg : NormalizeConfig) (input : Tensor) : Prop :=
  isByteImage input ∧ input.shape 3 ≠ 0 ∧ input.shape 3 ≤ 4 ∧
    cfg.channels.toNat = (input.shape 3).toNat ∧
    ∀ c : Fin 4, c < (input.shape 3).toNat → (cfg.std c == 0) = false

theorem imageNormalize_rejects {cfg : NormalizeConfig} (h : ¬cfg.Accepts input) :
    imageNormalize (some cfg) input = reject .inval := by
  unfold imageNormalize
  dsimp only
  split
  · rfl
  · split
    · rfl
    · split
      · rfl
      · rename_i h1 h2 h3
        refine absurd ⟨by simpa using h1, ?_, ?_, ?_, ?_⟩ h
        · exact fun h0 => h2 (.inl (by rw [h0]; rfl))
        · exact UInt32.not_lt.mp fun h4 => h2 (.inr (.inl h4))
        · exact Decidable.not_not.mp fun hc => h2 (.inr (.inr hc))
        · exact fun c hc => Bool.eq_false_iff.mpr fun h0 => h3 ⟨c, hc, h0⟩

theorem imageNormalize_exact {cfg : NormalizeConfig} (h : cfg.Accepts input)
    (hcap : input.size.toNat * 4 % sizeMod ≤ cap) :
    Exact cap (input.size.toNat * 4 ≤ cap) (fun _ => True)
      (imageNormalize (some cfg) input) := by
  obtain ⟨hi, hc0, hc4, hch, hstd⟩ := h
  have h2 : ¬((input.shape 3).toNat = 0 ∨ (input.shape 3).toNat > 4 ∨
      cfg.channels.toNat ≠ (input.shape 3).toNat) := by
    rintro (h | h | h)
    · exact hc0 (UInt32.toNat_inj.mp h)
    · exact absurd h (Nat.not_lt.mpr hc4)
    · exact h hch
  have h3 : ¬∃ c : Fin 4, c < (input.shape 3).toNat ∧ (cfg.std c == 0) = true := by
    rintro ⟨c, hc, h0⟩
    rw [hstd c hc] at h0
    cases h0
  unfold imageNormalize
  dsimp only
  rw [if_neg (by simp [hi]), if_neg h2, if_neg h3]
  refine Exact.get.after fun out hout => ?_
  rw [if_neg (by omega)]
  refine Exact.before (storeFloats_zero fun i hin => ?_) fun _ _ _ => Exact.pure' trivial
  exact (Exact.load8.known hin).after fun _ _ => Exact.pure' trivial

/-- What `quantize_int8` checks before it compares sizes. -/
def QuantizeConfig.AcceptsFloats (cfg : QuantizeConfig) (input : Tensor) : Prop :=
  input.data.isSome ∧ (cfg.scale == 0) = false ∧ input.dtype = .float32

theorem quantizeInt8_rejects {cfg : QuantizeConfig} (h : ¬cfg.AcceptsFloats input) :
    quantizeInt8 (some cfg) input = reject .inval := by
  unfold quantizeInt8
  dsimp only
  split
  · rfl
  · rename_i h1
    simp only [not_or, Bool.not_eq_true', Bool.not_eq_false, Bool.not_eq_true, ne_eq, not_not] at h1
    exact absurd h1 h

theorem quantizeInt8_exact {cfg : QuantizeConfig} (h : cfg.AcceptsFloats input)
    (hcap : input.size.toNat / 4 ≤ cap) :
    Exact cap (input.size.toNat / 4 ≤ cap) (fun _ => True) (quantizeInt8 (some cfg) input) := by
  obtain ⟨hd, hs, ht⟩ := h
  unfold quantizeInt8
  dsimp only
  rw [if_neg (by simp [hd, hs, ht])]
  refine Exact.get.after fun out hout => ?_
  rw [if_neg (by omega)]
  refine Exact.before (V := fun _ => True) ?_ fun _ _ _ => Exact.pure' trivial
  refine (Exact.times (R := fun i => i < cap) (fun _ _ => True) (fun i hi _ _ => ?_) trivial).of_iff
    ⟨fun _ => hcap, fun hle i hi => hi.trans_le hle⟩
  refine (loadFloat_exact ?_).after fun _ _ => Exact.store8
  simp only [Tensor.bytes]
  omega

theorem validPair_iff : validPair input = true ↔ input.data.isSome ∧ 0 < input.size.toNat := by
  simp only [validPair, Bool.and_eq_true, decide_eq_true_eq]
  exact Iff.rfl

/-- What `post_dequantize` checks before it compares sizes. -/
def QuantizeConfig.AcceptsBytes (_ : QuantizeConfig) (input : Tensor) : Prop :=
  validPair input ∧ input.dtype = .int8

theorem postDequantize_rejects {cfg : QuantizeConfig} (h : ¬cfg.AcceptsBytes input) :
    postDequantize (some cfg) input = reject .inval := by
  unfold postDequantize
  dsimp only
  split
  · rfl
  · rename_i h1
    simp only [not_or, Bool.not_eq_true', Bool.not_eq_false, ne_eq, not_not] at h1
    exact absurd h1 h

theorem postDequantize_exact {cfg : QuantizeConfig} (h : cfg.AcceptsBytes input)
    (hcap : input.size.toNat * 4 % sizeMod ≤ cap) :
    Exact cap (input.size.toNat * 4 ≤ cap) (fun _ => True)
      (postDequantize (some cfg) input) := by
  obtain ⟨hv, ht⟩ := h
  unfold postDequantize
  dsimp only
  rw [if_neg (by simp [hv, ht])]
  refine Exact.get.after fun out hout => ?_
  rw [if_neg (by omega)]
  refine Exact.before (storeFloats_zero fun i hin => ?_) fun _ _ _ => Exact.pure' trivial
  exact (loadInt8_exact hin).after fun _ _ => Exact.pure' trivial

-- ---------------------------------------------------------------------------
-- Audio
-- ---------------------------------------------------------------------------

/-- What `audio_mfcc` checks before it compares sizes. -/
def MfccConfig.Accepts (cfg : MfccConfig) (input : Tensor) : Prop :=
  input.data.isSome ∧ input.dtype = .float32 ∧ cfg.sampleRateHz ≠ 0 ∧ 8 ≤ cfg.frameLen.toNat ∧
    cfg.frameLen.toNat ≤ mfccMaxFrameLen ∧ cfg.frameLen.toNat &&& (cfg.frameLen.toNat - 1) = 0 ∧
    cfg.numMel.toNat ≠ 0 ∧ cfg.numMel.toNat ≤ mfccMaxMel ∧ cfg.numCoeffs.toNat ≠ 0 ∧
    cfg.numCoeffs.toNat ≤ cfg.numMel.toNat ∧ cfg.frames input ≠ 0

theorem audioMfcc_rejects {cfg : MfccConfig} (h : ¬cfg.Accepts input) :
    audioMfcc p (some cfg) input = reject .inval := by
  unfold audioMfcc
  dsimp only
  split
  · rfl
  · split
    · rfl
    · split
      · rfl
      · rename_i h1 h2 h3
        simp only [not_or, Bool.not_eq_true', Bool.not_eq_false, ne_eq, not_not, not_lt, gt_iff_lt]
          at h1 h2
        obtain ⟨a, b, c, d, e, f, g, i⟩ := h2
        exact absurd ⟨h1.1, h1.2, a, b, c, d, e, f, g, i, h3⟩ h

theorem window_exact {frameLen f : Nat} (h : (f + 1) * frameLen ≤ input.size.toNat / 4) :
    Exact cap True (fun _ => True) (window input frameLen f) := by
  refine Exact.times_true (fun _ _ => True) (fun i hi _ _ => ?_) trivial
  refine (loadFloat_exact ?_).after fun _ _ => Exact.pure' trivial
  have : (f + 1) * frameLen = f * frameLen + frameLen := by ring
  simp only [Tensor.bytes]
  omega

theorem fftF32_exact {buf : List Float32} {len : Nat} (h : 2 ≤ len ∧ len ≤ 1024)
    (h2 : len &&& (len - 1) = 0) : Exact cap True (fun _ => True) (p.fftF32 buf len) := by
  unfold Platform.fftF32
  rw [if_neg (by omega)]
  exact Exact.pure' trivial

theorem coefficients_within {frames n : Nat} (hf : frames ≠ 0) (hn : n ≠ 0) :
    (∀ f < frames, ∀ j < n, 4 * (f * n + j) + 4 ≤ cap) ↔ frames * n * 4 ≤ cap := by
  have hlast : (frames - 1) * n + n = frames * n := by
    calc (frames - 1) * n + n = (frames - 1 + 1) * n := by ring
      _ = frames * n := by rw [Nat.sub_add_cancel (Nat.pos_of_ne_zero hf)]
  constructor
  · intro hall
    have := hall (frames - 1) (by omega) (n - 1) (by omega)
    omega
  · intro hle f hf j hj
    have : f * n + n ≤ frames * n := by
      calc f * n + n = (f + 1) * n := by ring
        _ ≤ frames * n := Nat.mul_le_mul_right n hf
    omega

theorem mfccFrames_exact {cfg : MfccConfig} (h : cfg.Accepts input) :
    Exact cap (cfg.frames input * cfg.numCoeffs.toNat * 4 ≤ cap) (fun _ => True)
      (mfccFrames p cfg input) := by
  obtain ⟨-, -, -, h8, h512, hpow, -, -, hn, -, hf⟩ := h
  have hlen : cfg.frameLen.toNat ≤ 1024 := h512.trans (by decide)
  unfold mfccFrames
  refine Exact.before (V := fun _ => True) ?_ fun _ _ _ => Exact.pure' trivial
  refine Exact.of_iff ?_ (coefficients_within hf hn)
  refine Exact.times (fun _ _ => True) (fun f hlt _ _ => ?_) trivial
  have hin : (f + 1) * cfg.frameLen.toNat ≤ input.size.toNat / 4 :=
    (Nat.mul_le_mul_right _ hlt).trans (Nat.div_mul_le_self _ _)
  refine (window_exact hin).after fun buf _ => ?_
  refine (fftF32_exact ⟨by omega, hlen⟩ hpow).after fun spectrum _ => ?_
  exact storeFloats_exact fun _ _ => Exact.pure' trivial

/-- Behind its checks the stage asks for its scratch buffer. -/
theorem audioMfcc_accepts {cfg : MfccConfig} (h : cfg.Accepts input) {b : Buffer}
    (hcap : cfg.frames input * cfg.numCoeffs.toNat * 4 % sizeMod ≤ b.size) :
    (audioMfcc p (some cfg) input).run b =
      if p.scratch (cfg.frameLen.toNat * 2 * 4) then (mfccFrames p cfg input).run b
      else (.error (.reject .scratchTooSmall), b) := by
  obtain ⟨hd, ht, hr, h8, h512, hpow, hm, hm32, hn, hnm, hf⟩ := h
  have h2 : ¬(cfg.sampleRateHz = 0 ∨ cfg.frameLen.toNat < 8 ∨
      cfg.frameLen.toNat > mfccMaxFrameLen ∨
      cfg.frameLen.toNat &&& (cfg.frameLen.toNat - 1) ≠ 0 ∨ cfg.numMel.toNat = 0 ∨
      cfg.numMel.toNat > mfccMaxMel ∨ cfg.numCoeffs.toNat = 0 ∨
      cfg.numCoeffs.toNat > cfg.numMel.toNat) := by
    simp only [not_or, ne_eq, not_not, not_lt, gt_iff_lt]
    exact ⟨hr, h8, h512, hpow, hm, hm32, hn, hnm⟩
  unfold audioMfcc
  dsimp only
  rw [if_neg (by simp [hd, ht]), if_neg h2, if_neg hf, Act.run_bind_ok Act.run_get,
    if_neg (Nat.not_lt.mpr hcap), Act.run_ite]
  cases p.scratch (cfg.frameLen.toNat * 2 * 4) <;> rfl

theorem audioMfcc_exact {cfg : MfccConfig} (h : cfg.Accepts input)
    (hscratch : p.scratch (cfg.frameLen.toNat * 2 * 4) = true)
    (hcap : cfg.frames input * cfg.numCoeffs.toNat * 4 % sizeMod ≤ cap) :
    Exact cap (cfg.frames input * cfg.numCoeffs.toNat * 4 ≤ cap) (fun _ => True)
      (audioMfcc p (some cfg) input) := by
  intro b hb
  have hrun := audioMfcc_accepts (p := p) h (b := b) (by omega)
  rw [if_pos hscratch] at hrun
  have := mfccFrames_exact (p := p) h b hb
  unfold Lib.Triple at this ⊢
  rwa [hrun]

-- ---------------------------------------------------------------------------
-- Classification
-- ---------------------------------------------------------------------------

/-- What the stages over scores check of their input. -/
def Tensor.HasScores (t : Tensor) : Prop :=
  validPair t ∧ (t.dtype = .int8 ∨ t.dtype = .float32)

theorem not_hasScores (hv : validPair input = true) (h : ¬input.HasScores) :
    input.dtype ≠ .int8 ∧ input.dtype ≠ .float32 :=
  not_or.mp fun hd => h ⟨hv, hd⟩

theorem Tensor.HasScores.dtype (h : input.HasScores) :
    ¬(input.dtype ≠ .int8 ∧ input.dtype ≠ .float32) := fun hn => h.2.elim hn.1 hn.2

theorem elementCount_pos (hw : input.WellSized) (h : input.HasScores) : 0 < elementCount input := by
  have hpos := (validPair_iff.mp h.1).2
  unfold elementCount
  split
  · rename_i hd
    have := hw.floats hd
    omega
  · exact hpos

theorem postSoftmax_rejects {config : Option QuantizeConfig} (h : ¬input.HasScores) :
    postSoftmax config input = reject .inval := by
  unfold postSoftmax
  split
  · rfl
  · rename_i hv
    rw [if_pos (not_hasScores (by simpa using hv) h)]

theorem softmaxF32_exact {len : Nat} (hpos : 0 < len) (hlen : len * 4 ≤ cap) :
    Exact cap True (fun _ => True) (softmaxF32 len) := by
  have hdst {i : Nat} (hi : i < len) : Exact cap True (fun _ => True)
      (do
        let b ← Act.get
        loadFloat b i : StageM Float32) :=
    Exact.get.after fun b hb => loadFloat_exact (by omega)
  unfold softmaxF32
  rw [if_neg (by omega)]
  refine (hdst hpos).after fun first _ => ?_
  refine Exact.after (V := fun _ => True) (Exact.times_true (fun _ _ => True) (fun i hi m _ => ?_)
    trivial) fun maxVal _ => ?_
  · exact (hdst (by omega)).after fun _ _ => Exact.pure' trivial
  refine Exact.after (V := fun _ => True) (Exact.times_true (fun _ _ => True) (fun i hi m _ => ?_)
    trivial) fun sum _ => ?_
  · refine (hdst hi).after fun x _ => ?_
    refine (storeFloat_exact.known (by omega)).after fun _ _ => ?_
    exact (hdst hi).after fun _ _ => Exact.pure' trivial
  refine Exact.ite (fun _ => ?_) fun _ => Exact.pure' trivial
  refine (storeFloats_zero fun i hi => ?_).known hlen
  exact (hdst hi).after fun _ _ => Exact.pure' trivial

theorem postSoftmax_exact {config : Option QuantizeConfig} (hw : input.WellSized)
    (h : input.HasScores) (hcap : elementCount input * 4 % sizeMod ≤ cap) :
    Exact cap (elementCount input * 4 ≤ cap) (fun _ => True) (postSoftmax config input) := by
  unfold postSoftmax
  rw [if_neg (by simp [h.1]), if_neg h.dtype]
  refine Exact.get.after fun out hout => ?_
  rw [if_neg (by omega)]
  refine (storeFloats_zero fun i hi => getScore_exact hi).before fun _ hfit _ => ?_
  exact (softmaxF32_exact (elementCount_pos hw h) hfit).after fun _ _ => Exact.pure' trivial

theorem dspArgmax_exact {b : Buffer} {len : Nat} (hpos : 0 < len) (hlen : len ≤ b.size) :
    Exact cap True (· < len) (dspArgmax b len) := by
  unfold dspArgmax
  rw [if_neg (by omega)]
  refine (loadInt8_exact (by omega)).after fun first _ => ?_
  refine Exact.after (V := fun best : Int8 × Nat => best.2 < len)
    (Exact.times_true (fun _ (best : Int8 × Nat) => best.2 < len) (fun i hi best hb => ?_) hpos) ?_
  · refine (loadInt8_exact (by omega)).after fun x _ => Exact.pure' ?_
    split
    · exact Nat.add_lt_of_lt_sub hi
    · exact hb
  · exact fun best hb => Exact.pure' hb

theorem floatArgmax_exact {b : Buffer} {count : Nat} (hpos : 0 < count)
    (hcount : count * 4 ≤ b.size) : Exact cap True (· < count) (floatArgmax b count) := by
  refine Exact.times_true (fun _ best => best < count) (fun i hi best hb => ?_) hpos
  refine (loadFloat_exact (by omega)).after fun x _ => ?_
  refine (loadFloat_exact (by omega)).after fun y _ => Exact.pure' ?_
  split
  · exact Nat.add_lt_of_lt_sub hi
  · exact hb

theorem postArgmax_rejects (h : ¬input.HasScores) : postArgmax input = reject .inval := by
  unfold postArgmax
  split
  · rfl
  · rename_i hv
    rw [if_pos (not_hasScores (by simpa using hv) h)]

theorem postArgmax_exact (hw : input.WellSized) (h : input.HasScores)
    (hcap : classificationSize ≤ cap) :
    Exact cap (classificationSize ≤ cap) (fun _ => True) (postArgmax input) := by
  have hpos := elementCount_pos hw h
  have hrecord (best : Nat) (hbest : best < elementCount input) :
      Exact cap (classificationSize ≤ cap) (fun _ => True)
        (do
          let score ← getScore input best none
          storeClassification 0 (UInt32.ofNat best) score
          return ⟨classificationSize, .float32, 1, ![1, 0, 0, 0]⟩ : StageM Geometry) := by
    refine (getScore_exact hbest).after fun score _ => ?_
    refine (storeClassification_exact.of_iff ?_).before fun _ _ _ => Exact.pure' trivial
    simp
  unfold postArgmax
  rw [if_neg (by simp [h.1]), if_neg h.dtype]
  refine Exact.get.after fun out hout => ?_
  rw [if_neg (by omega)]
  refine Exact.ite (fun hd => ?_) fun hd => ?_
  · refine (dspArgmax_exact hpos ?_).after hrecord
    simp [elementCount, hd, Tensor.bytes]
  · refine (floatArgmax_exact hpos ?_).after hrecord
    simp only [elementCount, h.2.resolve_left hd, if_true, Tensor.bytes]
    omega

/-- What `post_top_k` checks before it compares sizes. -/
def TopkConfig.Accepts (cfg : TopkConfig) (input : Tensor) : Prop :=
  cfg.k ≠ 0 ∧ cfg.k.toNat ≤ topkMax ∧ input.HasScores

theorem postTopK_rejects {cfg : TopkConfig} (h : ¬cfg.Accepts input) :
    postTopK (some cfg) input = reject .inval := by
  unfold postTopK
  dsimp only
  split
  · rfl
  · rename_i h1
    simp only [not_or, Bool.not_eq_true', Bool.not_eq_false, not_lt, gt_iff_lt] at h1
    obtain ⟨hv, hk, h16⟩ := h1
    rw [if_pos (not_hasScores hv fun hs => h ⟨hk, h16, hs⟩)]

theorem bestUnchosen_exact {chosen : List UInt32} :
    Exact cap True (fun _ => True) (bestUnchosen input (elementCount input) chosen) := by
  refine Exact.times_true (fun _ _ => True) (fun i hi best _ => ?_) trivial
  refine Exact.ite (fun _ => Exact.pure' trivial) fun _ => ?_
  exact (getScore_exact hi).after fun score _ => Exact.pure' trivial

theorem records_within {n size : Nat} :
    (∀ i < n, (i + 1) * size ≤ cap) ↔ n * size ≤ cap := by
  constructor
  · intro hall
    rcases Nat.eq_zero_or_pos n with rfl | hn
    · simp
    · have := hall (n - 1) (by omega)
      rwa [Nat.sub_add_cancel hn] at this
  · exact fun hle i hi => (Nat.mul_le_mul_right size hi).trans hle

theorem postTopK_exact {cfg : TopkConfig} (h : cfg.Accepts input)
    (hcap : cfg.emitted (elementCount input) * classificationSize ≤ cap) :
    Exact cap (cfg.emitted (elementCount input) * classificationSize ≤ cap) (fun _ => True)
      (postTopK (some cfg) input) := by
  obtain ⟨hk, h16, hs⟩ := h
  unfold postTopK
  dsimp only
  rw [if_neg (by simp [hs.1, hk, h16]), if_neg hs.dtype]
  refine Exact.get.after fun out hout => ?_
  rw [if_neg (by omega)]
  refine Exact.before (V := fun _ => True) ?_ fun _ _ _ => Exact.pure' trivial
  refine Exact.of_iff ?_ records_within
  refine Exact.times (fun _ _ => True) (fun round _ chosen _ => ?_) trivial
  refine bestUnchosen_exact.after fun best _ => ?_
  exact storeClassification_exact.before fun _ _ _ => Exact.pure' trivial

-- ---------------------------------------------------------------------------
-- Detection
-- ---------------------------------------------------------------------------

/-- What `post_nms` checks of its input. -/
def NmsConfig.Accepts (cfg : NmsConfig) (input : Tensor) : Prop :=
  input.data.isSome ∧ cfg.maxBoxes ≠ 0 ∧ input.dtype = .float32 ∧
    input.size.toNat % bboxSize = 0 ∧ input.size.toNat / bboxSize ≤ nmsMaxBoxes

theorem postNms_rejects {cfg : NmsConfig} (h : ¬cfg.Accepts input) :
    postNms (some cfg) input = reject .inval := by
  unfold postNms
  dsimp only
  split
  · rfl
  · split
    · rfl
    · rename_i h1 h2
      simp only [not_or, Bool.not_eq_true', Bool.not_eq_false, ne_eq, not_not, not_lt,
        gt_iff_lt] at h1 h2
      exact absurd ⟨h1.1, h1.2.1, h1.2.2.1, h1.2.2.2, h2⟩ h

section
variable {b : Buffer} {count : Nat} {cfg : NmsConfig}

theorem loadBoxScore_exact (hb : count * bboxSize ≤ b.size) {i : Nat} (hi : i < count) :
    Exact cap True (fun _ => True) (loadBoxScore b i) := by
  unfold bboxSize at hb
  exact loadFloat_exact (by omega)

theorem loadBox_exact (hb : count * bboxSize ≤ b.size) {i : Nat} (hi : i < count) :
    Exact cap True (fun _ => True) (loadBox b i) := by
  unfold bboxSize at hb
  have hload {k : Nat} (hk : k ≤ 5) : Exact cap True (fun _ => True) (loadFloat b (6 * i + k)) :=
    loadFloat_exact (by omega)
  refine (hload (k := 0) (by omega)).after fun _ _ => ?_
  refine (hload (by omega)).after fun _ _ => ?_
  refine (hload (by omega)).after fun _ _ => ?_
  refine (hload (by omega)).after fun _ _ => ?_
  refine (hload (by omega)).after fun _ _ => ?_
  refine (hload (by omega)).after fun _ _ => ?_
  exact Exact.pure' trivial

theorem insertCandidate_exact (hb : count * bboxSize ≤ b.size) {i : Nat} (hi : i < count)
    {order : List Nat} (ho : ∀ j ∈ order, j < count) :
    Exact cap True (fun o => ∀ j ∈ o, j < count) (insertCandidate b i order) := by
  induction order with
  | nil => exact Exact.pure' (List.forall_mem_singleton.mpr hi)
  | cons last rest ih =>
    obtain ⟨hlast, hrest⟩ := List.forall_mem_cons.mp ho
    unfold insertCandidate
    refine (loadBoxScore_exact hb hlast).after fun _ _ => ?_
    refine (loadBoxScore_exact hb hi).after fun _ _ => Exact.ite (fun _ => ?_) fun _ => ?_
    · exact (ih hrest).after fun o h => Exact.pure' (List.forall_mem_cons.mpr ⟨hlast, h⟩)
    · exact Exact.pure' (List.forall_mem_cons.mpr ⟨hi, ho⟩)

theorem candidates_exact (hb : count * bboxSize ≤ b.size) :
    Exact cap True (fun o => ∀ j ∈ o, j < count) (candidates b count cfg) := by
  refine Exact.after (Exact.times_true (fun _ (o : List Nat) => ∀ j ∈ o, j < count)
    (fun i hi o ho => ?_) (List.forall_mem_nil _)) fun o ho => ?_
  · refine (loadBoxScore_exact hb hi).after fun _ _ => ?_
    exact Exact.ite (fun _ => Exact.pure' ho) fun _ => insertCandidate_exact hb hi ho
  · exact Exact.pure' fun j hj => ho j (List.mem_reverse.mp hj)

theorem getD_lt {order : List Nat} (ho : ∀ j ∈ order, j < count) {i : Nat}
    (hi : i < order.length) : order.getD i 0 < count := by
  rw [List.getD_eq_getElem?_getD, List.getElem?_eq_getElem hi]
  exact ho _ (List.getElem_mem hi)

theorem suppress_exact (hb : count * bboxSize ≤ b.size) {order : List Nat}
    (ho : ∀ j ∈ order, j < count) {i : Nat} {cand : Bbox} {suppressed : Nat → Bool} :
    Exact cap True (fun _ => True) (suppress b cfg order i cand suppressed) := by
  refine Exact.times_true (fun _ _ => True) (fun n hn s _ => ?_) trivial
  refine Exact.ite (fun _ => Exact.pure' trivial) fun _ => ?_
  refine (loadBox_exact hb (getD_lt ho (by omega))).after fun other _ => ?_
  exact Exact.ite (fun _ => Exact.pure' trivial) fun _ => Exact.pure' trivial

end

theorem postNms_exact {cfg : NmsConfig} (h : cfg.Accepts input) :
    Exact cap True (fun _ => True) (postNms (some cfg) input) := by
  obtain ⟨hd, hm, ht, hsize, hcount⟩ := h
  have hb : input.size.toNat / bboxSize * bboxSize ≤ input.bytes.size := Nat.div_mul_le_self _ _
  unfold postNms
  dsimp only
  rw [if_neg (by simp [hd, hm, ht, hsize]), if_neg (by omega)]
  refine Exact.get.after fun out hout => ?_
  refine (candidates_exact hb).after fun order ho => ?_
  refine Exact.after (V := fun _ => True) ?_ fun _ _ => Exact.pure' trivial
  refine Exact.times_true (fun _ _ => True) (fun i hi sw _ => ?_) trivial
  refine Exact.ite (fun _ => Exact.pure' trivial) fun _ => ?_
  refine Exact.ite (fun _ => Exact.pure' trivial) fun hroom => ?_
  refine (loadBox_exact hb (getD_lt ho hi)).after fun cand _ => ?_
  refine (Exact.store.known ?_).after fun _ _ => ?_
  · simp only [List.length_flatMap, Lib.Buffer.wordBytes_length, List.map_cons, List.map_nil,
      List.sum_cons, List.sum_nil]
    unfold bboxSize at hroom ⊢
    omega
  · exact (suppress_exact hb ho).after fun _ _ => Exact.pure' trivial

end SynapticOS.Process
