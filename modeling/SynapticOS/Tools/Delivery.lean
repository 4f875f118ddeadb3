import SynapticOS.Runs.Images
import SynapticOS.Tools.Tflite

/-!
# From the packing tool to the slot

What `pack` and `pack_neutron` write is accepted by the OTA engine, however it is cut into
chunks, and its payload stands in the slot byte for byte; `inspect` tells for every file
whether the engine accepts it.
-/

namespace SynapticOS.Tools

open Lib Npu

variable {cfg : Config} {s s₁ : Sys} {name payload file hdr : List UInt8}

-- ---------------------------------------------------------------------------
-- The tool
-- ---------------------------------------------------------------------------

/-- The arguments of `pack_neutron`, with the bytes of the three files. -/
structure NeutronArgs where
  name : List UInt8
  microcode : List UInt8
  weights : List UInt8
  kernels : List UInt8
  inputShape : Option (List Int)
  outputShape : Option (List Int)
  inputSize : Option Int
  outputSize : Option Int
  scratchSize : Int

def shapeElements (shape : List Int) : Int := shape.foldl (· * ·) 1

/-- The size that is given, unless it is 0, or the elements of the shape. -/
def sizeOr (size : Option Int) (shape : List Int) : Int :=
  if size.getD 0 ≠ 0 then size.getD 0 else shapeElements shape

/-- What `pack_neutron` writes: the bare payload and the packaged model. A word of the
payload's header that is negative is refused like one that is too large. -/
def packNeutron (args : NeutronArgs) : Except Exn (List UInt8 × List UInt8) := do
  if args.inputShape.isNone ∨ args.outputShape.isNone then .error .systemExit
  else if args.name.length > 31 then .error .systemExit
  else if args.microcode.length = 0 then .error .systemExit
  else
    let inShape := args.inputShape.getD []
    let outShape := args.outputShape.getD []
    let inputSize := sizeOr args.inputSize inShape
    let outputSize := sizeOr args.outputSize outShape
    if inputSize = 0 ∨ outputSize = 0 then .error .systemExit
    else if inputSize < 0 ∨ outputSize < 0 ∨ args.scratchSize < 0 then .error .structError
    else
      let payload ← buildSynn args.microcode args.weights args.kernels inputSize.toNat
        outputSize.toNat args.scratchSize.toNat
      let input ← shape4 inShape
      let output ← shape4 outShape
      let hdr ← packHeader args.name payload input output
      return (payload, hdr ++ payload)

/-- `inspect`: whether it returns 0. -/
def inspect (data : List UInt8) : Except Exn Bool :=
  if data.take 4 = le32 synnMagic then .ok (inspectSynn data)
  else if data.length < synmHdrSize then .error .systemExit
  else
    let hdr := imageHdr data
    let payload := data.drop synmHdrSize
    let okMagic := hdr.magic == synmMagic
    let okVersion := hdr.version == synmVersion
    let okSize := hdr.modelSize.toNat == payload.length
    let okCrc := hdr.crc32 == crc32Ieee payload
    let okPayload := if payload.take 4 = le32 synnMagic then inspectSynn payload else true
    .ok (okMagic && okVersion && okSize && okCrc && okPayload)

-- ---------------------------------------------------------------------------
-- Headers
-- ---------------------------------------------------------------------------

theorem ok_of_bind {ε α β : Type} {x : Except ε α} {f : α → Except ε β} {b : β}
    (h : x >>= f = .ok b) : ∃ a, x = .ok a ∧ f a = .ok b := by
  cases x with
  | error e => cases h
  | ok a => exact ⟨a, rfl, h⟩

theorem shapeAt_append {a b : List UInt8} {off : Nat} (h : a.length ≤ off) :
    SynmHdr.shapeAt (a ++ b) off = SynmHdr.shapeAt b (off - a.length) := by
  unfold SynmHdr.shapeAt
  congr 1
  funext i
  rw [u16At_append (by omega), Nat.sub_add_comm h]

theorem shapeAt_shapeBytes (v : Vector UInt16 4) (b : List UInt8) :
    SynmHdr.shapeAt (SynmHdr.shapeBytes v ++ b) 0 = v := by
  ext i hi
  have hlen : i < v.toList.length := by simpa using hi
  have hslice : slice (SynmHdr.shapeBytes v ++ b) (2 * i) 2 = le16 v[i] := by
    rw [slice_left (by rw [SynmHdr.length_shapeBytes]; omega), SynmHdr.shapeBytes,
      slice_flatMap length_le16 _ hlen]
    simp
  simp [SynmHdr.shapeAt, u16At, hslice, ofNat_ofLe_le16]

theorem ofBytes_synmBytes (h : SynmHdr) : SynmHdr.ofBytes h.bytes = h := by
  have hout := shapeAt_shapeBytes h.outputShape []
  rw [List.append_nil] at hout
  simp [SynmHdr.ofBytes, SynmHdr.bytes, u32At_append, bytesAt_append, u32At_le32, bytesAt_toList,
    shapeAt_append, shapeAt_shapeBytes, hout]

theorem imageHdr_bytes (h : SynmHdr) (payload : List UInt8) :
    imageHdr (h.bytes ++ payload) = h := by
  unfold imageHdr
  rw [List.take_left' (SynmHdr.length_bytes h), ofBytes_synmBytes]

theorem takeWhile_padded {k : Nat} (hz : 0 ∉ name) (hk : 0 < k) :
    (name ++ List.replicate k 0).takeWhile (· ≠ 0) = name := by
  obtain ⟨k, rfl⟩ := Nat.exists_eq_succ_of_ne_zero hk.ne'
  rw [List.replicate_succ, List.takeWhile_append_of_pos]
  · simp
  · intro x hx
    simp only [ne_eq, decide_not, Bool.not_eq_eq_eq_not, Bool.not_true, decide_eq_false_iff_not]
    rintro rfl
    exact hz hx

/-- A header that is packed is one of the device's, and describes the payload. -/
theorem packHeader_ok {input output : List UInt16} (hn : name.length ≤ 31)
    (hi : input.length = 4) (ho : output.length = 4)
    (h : packHeader name payload input output = .ok hdr) :
    payload.length < 2 ^ 32 ∧ ∃ hh : SynmHdr, hdr = hh.bytes ∧ hh.magic = synmMagic ∧
      hh.version = synmVersion ∧ hh.name.toList = name ++ List.replicate (32 - name.length) 0 ∧
      hh.modelSize.toNat = payload.length ∧ hh.crc32 = crc32Ieee payload := by
  unfold packHeader packWord at h
  by_cases hlt : payload.length < 2 ^ 32
  · rw [if_pos hlt] at h
    have h := Except.ok.inj h
    refine ⟨hlt, ⟨synmMagic, synmVersion, ⟨(name ++ List.replicate (32 - name.length) 0).toArray,
      by simp; omega⟩, UInt32.ofNat payload.length, crc32Ieee payload,
          ⟨input.toArray, by simp [hi]⟩,
      ⟨output.toArray, by simp [ho]⟩⟩, ?_, rfl, rfl, by simp, UInt32.toNat_ofNat_of_lt' hlt, rfl⟩
    rw [← h]
    simp [SynmHdr.bytes, SynmHdr.shapeBytes]
  · rw [if_neg hlt] at h
    cases h

theorem shape4_length {shape : List Int} {dims : List UInt16} (h : shape4 shape = .ok dims) :
    dims.length = 4 := by
  unfold shape4 at h
  split_ifs at h with hlen
  obtain rfl := Except.ok.inj h
  simp [padDims]
  omega

-- ---------------------------------------------------------------------------
-- What is written
-- ---------------------------------------------------------------------------

/-- A packaged model of this name and payload, as the tool writes it. -/
structure Packaged (name payload file : List UInt8) : Prop where
  nonempty : payload ≠ []
  name_le : name.length ≤ 31
  header : ∃ input output hdr, input.length = 4 ∧ output.length = 4 ∧
    packHeader name payload input output = .ok hdr ∧ file = hdr ++ payload

theorem pack_packaged {args : PackArgs} (h : pack args payload = .ok file) :
    Packaged args.name payload file := by
  unfold pack at h
  split_ifs at h with hne hn
  obtain ⟨shapes, -, h⟩ := ok_of_bind h
  obtain ⟨input, hin, h⟩ := ok_of_bind h
  obtain ⟨output, hout, h⟩ := ok_of_bind h
  obtain ⟨hdr, hhdr, h⟩ := ok_of_bind h
  exact ⟨fun he => hne (by rw [he]; rfl), Nat.le_of_not_lt hn, input, output, hdr,
    shape4_length hin, shape4_length hout, hhdr, (Except.ok.inj h).symm⟩

/-- The words of a payload that is built are in range. -/
theorem packWords_ok {l : List Nat} {b : List UInt8} (h : packWords l = .ok b) :
    ∀ n ∈ l, n < 2 ^ 32 := by
  induction l generalizing b with
  | nil => exact fun _ hn => absurd hn List.not_mem_nil
  | cons n l ih =>
    unfold packWords packWord at h
    rw [List.forall_mem_cons]
    by_cases hn : n < 2 ^ 32
    · rw [if_pos hn] at h
      cases hl : packWords l with
      | error e =>
        rw [hl] at h
        cases h
      | ok bs => exact ⟨hn, ih hl⟩
    · rw [if_neg hn] at h
      cases h

theorem buildSynn_ok {u w k : List UInt8} {input output scratch : Nat}
    (h : buildSynn u w k input output scratch = .ok payload) :
    payload = synnBlob u w k input output scratch ∧
      input < 2 ^ 32 ∧ output < 2 ^ 32 ∧ scratch < 2 ^ 32 := by
  unfold buildSynn at h
  dsimp only at h
  split at h
  · cases h
  next words hw =>
    have hlt := packWords_ok hw
    rw [packWords_of_lt hlt] at hw
    obtain rfl := Except.ok.inj hw
    simp only [List.forall_mem_cons, List.not_mem_nil, false_implies, implies_true,
      and_true] at hlt
    exact ⟨(Except.ok.inj h).symm, hlt.2.2.2.2.2.2.1, hlt.2.2.2.2.2.2.2.1,
      hlt.2.2.2.2.2.2.2.2.1⟩

/-- The device reads the three sections out of a payload. -/
def Carries (payload : List UInt8) (args : NeutronArgs) : Prop :=
  ∃ d, synnParse payload = .ok d ∧ Section.view payload d.microcode = args.microcode ∧
    Section.view payload d.weights = args.weights ∧
    Section.view payload d.kernels = args.kernels ∧
    (d.inputSize : Int) = sizeOr args.inputSize (args.inputShape.getD []) ∧
    (d.outputSize : Int) = sizeOr args.outputSize (args.outputShape.getD []) ∧
    (d.scratchSize : Int) = args.scratchSize

theorem packNeutron_packaged {args : NeutronArgs} (h : packNeutron args = .ok (payload, file)) :
    Packaged args.name payload file ∧ Carries payload args := by
  unfold packNeutron at h
  dsimp only at h
  split_ifs at h with h1 h2 h3 h4 h5
  obtain ⟨blob, hblob, h⟩ := ok_of_bind h
  obtain ⟨input, hin, h⟩ := ok_of_bind h
  obtain ⟨output, hout, h⟩ := ok_of_bind h
  obtain ⟨hdr, hhdr, h⟩ := ok_of_bind h
  obtain ⟨rfl, rfl⟩ := Prod.mk.inj (Except.ok.inj h)
  obtain ⟨rfl, hi, ho, hc⟩ := buildSynn_ok hblob
  obtain ⟨hlt, -⟩ := packHeader_ok (Nat.le_of_not_lt h2) (shape4_length hin) (shape4_length hout)
    hhdr
  rw [length_synnBlob] at hlt
  obtain ⟨hin0, hout0⟩ := not_or.mp h4
  obtain ⟨hineg, houtneg, hscratch⟩ : ¬_ ∧ ¬_ ∧ ¬_ := by
    rwa [not_or, not_or] at h5
  obtain ⟨d, hd, hu, hw, hk, hdi, hdo, hds⟩ := synnParse_synnBlob hlt
    ⟨by omega, hi⟩ ⟨by omega, ho⟩ hc
  refine ⟨⟨?_, Nat.le_of_not_lt h2, input, output, hdr, shape4_length hin, shape4_length hout,
    hhdr, rfl⟩, d, hd, hu, hw, hk, ?_, ?_, ?_⟩
  · intro he
    have hlen := (synnParse_iff.mp hd).header
    rw [he] at hlen
    cases hlen
  · rw [hdi]
    omega
  · rw [hdo]
    omega
  · rw [hds]
    omega

/-- What the tool writes is an image of the name and of the file's size. -/
theorem Packaged.wellFormed (h : Packaged name payload file) (hz : 0 ∉ name) :
    WellFormed name file.length file ∧ file.drop synmHdrSize = payload ∧
      file.length = synmHdrSize + payload.length := by
  obtain ⟨input, output, hdr, hi, ho, hpack, rfl⟩ := h.header
  obtain ⟨-, hh, rfl, hmagic, hversion, hname, hsize, hcrc⟩ :=
    packHeader_ok h.name_le hi ho hpack
  have hdrop : (hh.bytes ++ payload).drop synmHdrSize = payload :=
    List.drop_left' (SynmHdr.length_bytes hh)
  have hlen : (hh.bytes ++ payload).length = synmHdrSize + payload.length := by
    rw [List.length_append, SynmHdr.length_bytes]
  refine ⟨⟨rfl, ?_, ?_, ?_, ?_, ?_⟩, hdrop, hlen⟩
  · rw [imageHdr_bytes, hmagic]
  · rw [imageHdr_bytes, hversion]
  · rw [imageHdr_bytes, hsize, hlen, Nat.add_sub_cancel_left]
  · have hle := h.name_le
    rw [imageHdr_bytes, SynmHdr.cname, hname]
    exact takeWhile_padded hz (by omega)
  · rw [imageHdr_bytes, hcrc, hdrop]

-- ---------------------------------------------------------------------------
-- On the device
-- ---------------------------------------------------------------------------

/-- The payload of an accepted image stands behind the header of its slot. -/
theorem accepted_payload {image : List UInt8} {slot : Nat} {m : Mem}
    (h : Accepted cfg name image slot m s) (hle : synmHdrSize ≤ image.length) :
    s.store.flash.mem.read (payloadOff cfg slot) (image.length - synmHdrSize) =
      image.drop synmHdrSize := by
  have hpad : image.length ≤ (padded cfg image).length := by
    rw [length_padded]
    exact le_roundUp cfg.port.page_pos
  have hread : s.store.flash.mem.read (cfg.lay.slotOff slot) image.length = image := by
    rw [← Mem.read_take hpad, h.bytes, padded, padTo, List.take_left]
  rw [payloadOff, ← Mem.read_drop hle, hread]

/-- A session that ended with this payload staged in the slot. -/
structure Delivered (cfg : Config) (name payload : List UInt8) (slot : Nat) (s : Sys) : Prop where
  ready : s.ota.state = .ready
  staged : s.store.st.reg.stagedSlot = slot
  recordName : (s.store.st.reg.record slot).cname = name
  flashSize : (s.store.st.reg.record slot).flashSize.toNat = payload.length
  crc32 : (s.store.st.reg.record slot).crc32 = crc32Ieee payload
  bytes : s.store.flash.mem.read (payloadOff cfg slot)
    (s.store.st.reg.record slot).flashSize.toNat = payload

theorem session_outcome {total : Nat} (ho : Opened cfg name total s₁) (hv : layoutValid cfg)
    {fin : Env} (hfin : fin.plan = []) {chunks : List (Env × List UInt8)}
    (hc : ∀ c ∈ chunks, c.1.plan = [] ∧ c.2 ≠ []) {image : List UInt8}
    (himage : (chunks.map Prod.snd).flatten = image) :
    Outcome cfg name total s₁ image (run (sysStep cfg) s₁ (otaSession chunks fin)) := by
  have h := ho.outcome hv hfin chunks hc (.inl ho.start)
  rwa [List.nil_append, himage] at h

/-- In every state of every run: once a session has begun for a file that the tool wrote,
under its name and of its size, any cut of the file into chunks ends in READY with the
payload in the slot and its record staged; of a Neutron pack the device reads the three
sections out of the slot that were packed. -/
theorem packed_delivered (hv : layoutValid cfg) (m : Mem) (past : List (Env × Op))
    (hz : 0 ∉ name) {env fin : Env} {chunks : List (Env × List UInt8)} (hp : env.plan = [])
    (hb : call cfg (run (sysStep cfg) (Sys.cold m) past) (env, .otaBegin name file.length) =
      (.ok (), s₁))
    (hc : ∀ c ∈ chunks, c.1.plan = [] ∧ c.2 ≠ []) (hfin : fin.plan = [])
    (hfile : (chunks.map Prod.snd).flatten = file) :
    let s := run (sysStep cfg) s₁ (otaSession chunks fin)
    let slot := s₁.ota.slot
    (∀ (args : PackArgs) payload, pack args payload = .ok file → args.name = name →
      Delivered cfg name payload slot s) ∧
    ∀ (args : NeutronArgs) payload, packNeutron args = .ok (payload, file) → args.name = name →
      Delivered cfg name payload slot s ∧
      Carries (s.store.flash.mem.read (payloadOff cfg slot)
        (s.store.st.reg.record slot).flashSize.toNat) args := by
  dsimp only
  have hpack : ∀ payload, Packaged name payload file →
      Delivered cfg name payload s₁.ota.slot (run (sysStep cfg) s₁ (otaSession chunks fin)) := by
    intro payload hpk
    obtain ⟨hw, hdrop, hlen⟩ := hpk.wellFormed hz
    have ho := opened hv (fitting_run hv m past) hz hpk.name_le hp hb
    have hle : synmHdrSize ≤ file.length := by omega
    rcases session_outcome ho hv hfin hc hfile with ⟨-, ha⟩ | ⟨hn, -⟩
    · have hsize : ((run (sysStep cfg) s₁ (otaSession chunks fin)).store.st.reg.record
          s₁.ota.slot).flashSize.toNat = payload.length := by
        rw [ha.flashSize]
        omega
      refine ⟨ha.state, ha.staged, ha.recordName, hsize, hdrop ▸ ha.crc32, ?_⟩
      rw [ha.flashSize, accepted_payload ha hle, hdrop]
    · exact absurd hw hn
  refine ⟨?_, ?_⟩
  · rintro args payload h rfl
    exact hpack payload (pack_packaged h)
  · rintro args payload h rfl
    obtain ⟨hpk, hcar⟩ := packNeutron_packaged h
    have hd := hpack payload hpk
    refine ⟨hd, ?_⟩
    rw [hd.bytes]
    exact hcar

/-- A model of two bytes, packed. -/
def smallPack : PackArgs := ⟨[65], some [], some []⟩

theorem smallPack_image : pack smallPack [1, 2] = .ok smallImage := by decide +kernel

/-- Microcode, weights and no kernels, packed for the NPU. -/
def smallNeutron : NeutronArgs :=
  ⟨[66], [1, 2, 3], [4, 5], [], some [1, 4, 4, 1], some [10], none, none, 32⟩

/-- Payload and file. -/
def neutronImage : List UInt8 × List UInt8 := (packNeutron smallNeutron).toOption.getD ([], [])

theorem smallNeutron_image : packNeutron smallNeutron = .ok (neutronImage.1, neutronImage.2) ∧
    neutronImage.2.length = 144 := by decide +kernel

def neutronChunks : List (Env × List UInt8) :=
  [(quiet, neutronImage.2.take 70), (quiet, neutronImage.2.drop 70)]

theorem neutronChunks_ok : ∀ c ∈ neutronChunks, c.1.plan = [] ∧ c.2 ≠ [] := by
  simp only [neutronChunks, List.mem_cons, List.not_mem_nil, or_false, forall_eq_or_imp, forall_eq]
  exact ⟨⟨rfl, by decide +kernel⟩, rfl, by decide +kernel⟩

/-- A session for it after the small one. -/
def neutronPast : List (Env × Op) :=
  [(quiet, .boot), (quiet, .otaBegin [65] 66)] ++ otaSession smallChunks quiet

def neutronBegin : Except Errno Unit × Sys :=
  call smallDevice (run (sysStep smallDevice) (Sys.cold erasedMem) neutronPast)
    (quiet, .otaBegin [66] 144)

theorem neutronBegin_fst : neutronBegin.1 = .ok () := by decide +kernel

theorem packed_delivered_small :
    Delivered smallDevice [65] [1, 2] smallBegin.2.ota.slot
      (run (sysStep smallDevice) smallBegin.2 (otaSession smallChunks quiet)) ∧
    let s := run (sysStep smallDevice) neutronBegin.2 (otaSession neutronChunks quiet)
    let slot := neutronBegin.2.ota.slot
    Delivered smallDevice [66] neutronImage.1 slot s ∧
      Carries (s.store.flash.mem.read (payloadOff smallDevice slot)
        (s.store.st.reg.record slot).flashSize.toNat) smallNeutron := by
  have hlen : smallImage.length = 66 := by decide +kernel
  have hb := smallBegin_ok
  rw [← hlen] at hb
  obtain ⟨hneutron, hsize⟩ := smallNeutron_image
  have hb' : call smallDevice (run (sysStep smallDevice) (Sys.cold erasedMem) neutronPast)
      (quiet, .otaBegin [66] neutronImage.2.length) = (.ok (), neutronBegin.2) := by
    rw [hsize, ← neutronBegin_fst]
    exact (Prod.mk.eta (p := neutronBegin)).symm
  exact ⟨(packed_delivered smallDevice_valid erasedMem [(quiet, .boot)] (by decide) rfl hb
      smallChunks_ok rfl (by decide +kernel)).1 smallPack [1, 2] smallPack_image rfl,
    (packed_delivered smallDevice_valid erasedMem neutronPast (by decide) rfl hb' neutronChunks_ok
      rfl (by decide +kernel)).2 smallNeutron neutronImage.1 hneutron rfl⟩

-- ---------------------------------------------------------------------------
-- What the tool tells of a file
-- ---------------------------------------------------------------------------

theorem u32At_of_take {b : List UInt8} {x : UInt32} (h : b.take 4 = le32 x) : u32At b 0 = x := by
  unfold u32At slice
  rw [List.drop_zero, h, ofNat_ofLe_le32]

/-- `inspect` of a payload that has the magic of a Neutron pack. -/
theorem inspectSynn_parses (h : payload.take 4 = le32 synnMagic) :
    inspectSynn payload = true ↔ ∃ d, synnParse payload = .ok d := by
  by_cases hlen : synnHdrSize ≤ payload.length
  · exact inspectSynn_iff hlen (u32At_of_take h)
  · constructor
    · intro hi
      rw [inspectSynn, if_pos (Nat.lt_of_not_le hlen)] at hi
      cases hi
    · rintro ⟨d, hd⟩
      exact absurd (synnParse_iff.mp hd).header hlen

/-- A payload with the magic of a Neutron pack is one that the device parses. -/
def PayloadFine (payload : List UInt8) : Prop :=
  payload.take 4 = le32 synnMagic → ∃ d, synnParse payload = .ok d

theorem inspect_iff (hns : file.take 4 ≠ le32 synnMagic) (hlen : synmHdrSize ≤ file.length) :
    inspect file = .ok true ↔ WellFormed (imageHdr file).cname file.length file ∧
      PayloadFine (file.drop synmHdrSize) := by
  have hpay : (if (file.drop synmHdrSize).take 4 = le32 synnMagic then
      inspectSynn (file.drop synmHdrSize) else true) = true ↔
        PayloadFine (file.drop synmHdrSize) := by
    unfold PayloadFine
    split
    next h => rw [inspectSynn_parses h, forall_prop_of_true h]
    next h => simp [h]
  unfold inspect
  rw [if_neg hns, if_neg (Nat.not_lt.mpr hlen)]
  dsimp only
  rw [Except.ok.injEq, Bool.and_eq_true, hpay]
  simp only [Bool.and_eq_true, beq_iff_eq, List.length_drop]
  constructor
  · rintro ⟨⟨⟨⟨hmagic, hversion⟩, hsize⟩, hcrc⟩, hfine⟩
    exact ⟨⟨rfl, hmagic, hversion, hsize, rfl, hcrc⟩, hfine⟩
  · rintro ⟨hw, hfine⟩
    exact ⟨⟨⟨⟨hw.magic, hw.version⟩, hw.modelSize⟩, hw.crc⟩, hfine⟩

theorem cname_no_zero (h : SynmHdr) : 0 ∉ h.cname := by
  intro hz
  have := List.mem_takeWhile_imp hz
  simp at this

/-- In every state of every run: once a session has begun for a file, under the name in its
header and of its size, it ends in READY if and only if the tool's checks of the file pass,
those of a Neutron payload apart. -/
theorem inspect_tells (hv : layoutValid cfg) (m : Mem) (past : List (Env × Op))
    (hns : file.take 4 ≠ le32 synnMagic) (hl : (imageHdr file).cname.length ≤ 31)
    {env fin : Env} {chunks : List (Env × List UInt8)} (hp : env.plan = [])
    (hb : call cfg (run (sysStep cfg) (Sys.cold m) past)
      (env, .otaBegin (imageHdr file).cname file.length) = (.ok (), s₁))
    (hc : ∀ c ∈ chunks, c.1.plan = [] ∧ c.2 ≠ []) (hfin : fin.plan = [])
    (hfile : (chunks.map Prod.snd).flatten = file) :
    inspect file = .ok true ↔
      (run (sysStep cfg) s₁ (otaSession chunks fin)).ota.state = .ready ∧
        PayloadFine (file.drop synmHdrSize) := by
  have ho := opened hv (fitting_run hv m past) (cname_no_zero _) hl hp hb
  have hgt := ho.start.books.total_gt
  rw [ho.totalSize] at hgt
  rw [inspect_iff hns (Nat.le_of_lt hgt)]
  refine and_congr_left fun _ => ?_
  rcases session_outcome ho hv hfin hc hfile with ⟨hw, ha⟩ | ⟨hn, herr, -⟩
  · exact ⟨fun _ => ha.state, fun _ => hw⟩
  · constructor
    · exact fun hw => absurd hw hn
    · intro hr
      rw [herr] at hr
      cases hr

theorem inspect_tells_small : inspect smallImage = .ok true ↔
    (run (sysStep smallDevice) smallBegin.2 (otaSession smallChunks quiet)).ota.state = .ready ∧
      PayloadFine (smallImage.drop synmHdrSize) := by
  have hlen : smallImage.length = 66 := by decide +kernel
  have hname : (imageHdr smallImage).cname = [65] := by decide +kernel
  have hb := smallBegin_ok
  rw [← hlen, ← hname] at hb
  exact inspect_tells smallDevice_valid erasedMem [(quiet, .boot)] (by decide +kernel)
    (by rw [hname]; decide) rfl hb smallChunks_ok rfl (by decide +kernel)

end SynapticOS.Tools
