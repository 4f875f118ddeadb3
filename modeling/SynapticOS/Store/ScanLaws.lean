import SynapticOS.System
import SynapticOS.Store.BootLaws

/-!
# Scans whose reads fail

What a scan adopts whatever its reads do (`boot_whole`). The adopted copy is
loaded again for its records; when that load fails, the records are those the
image buffer still has, which can be the other copy's.
-/

namespace SynapticOS

open Lib

variable {cfg : Config} {m : Mem} {c : Copy} {sc : Scan} {fl : Flash} {k : Nat}

-- ---------------------------------------------------------------------------
-- Reads
-- ---------------------------------------------------------------------------

namespace Flash

/-- The next `k` reads succeed. -/
def Fine (k : Nat) (fl : Flash) : Prop := fl.powered = true ∧ ∀ f ∈ fl.plan.take k, f = .none

/-- After `k` reads. -/
def passed (k : Nat) (fl : Flash) : Flash := { fl with plan := fl.plan.drop k }

@[simp] theorem passed_mem (k : Nat) (fl : Flash) : (fl.passed k).mem = fl.mem := rfl

theorem passed_passed (k j : Nat) (fl : Flash) : (fl.passed k).passed j = fl.passed (k + j) := by
  unfold passed
  rw [List.drop_drop]

theorem fine_add (k j : Nat) (fl : Flash) : Fine (k + j) fl ↔ Fine k fl ∧ Fine j (fl.passed k) := by
  unfold Fine passed
  rw [List.take_add]
  simp only [List.mem_append]
  constructor
  · rintro ⟨hp, h⟩
    exact ⟨⟨hp, fun f hf => h f (.inl hf)⟩, hp, fun f hf => h f (.inr hf)⟩
  · rintro ⟨⟨hp, h⟩, -, h'⟩
    exact ⟨hp, fun f hf => hf.elim (h f) (h' f)⟩

/-- A primitive that a fault makes fail and leave everything as it is. -/
theorem prim_fine {op : Option Tear → FlashM α} (h : Fine 1 fl) :
    (prim op).run fl = (op none).run (fl.passed 1) := by
  obtain ⟨mem, powered, plan, trace⟩ := fl
  obtain ⟨hp, hf⟩ := h
  dsimp only at hp
  subst hp
  cases plan with
  | nil => rfl
  | cons f rest =>
    have : f = .none := hf f (by simp)
    subst this
    rfl

theorem prim_faulty {op : Option Tear → FlashM α} (h : ¬Fine 1 fl)
    (hop : ∀ t fl, (op (some t)).run fl = (.error .eio, fl)) :
    ∃ fl', (prim op).run fl = (.error .eio, fl') ∧ fl'.mem = fl.mem := by
  obtain ⟨mem, powered, plan, trace⟩ := fl
  cases powered with
  | false => exact ⟨_, rfl, rfl⟩
  | true =>
    cases plan with
    | nil => exact absurd ⟨rfl, fun f hf => by simp at hf⟩ h
    | cons f rest =>
      cases f with
      | none => exact absurd ⟨rfl, fun f hf => by simpa using hf⟩ h
      | error t => exact ⟨_, hop t _, rfl⟩
      | powerLoss t =>
        refine ⟨⟨mem, false, rest, trace⟩, ?_, rfl⟩
        have := hop t ⟨mem, true, rest, trace⟩
        unfold Act.run at this ⊢
        unfold prim
        dsimp only
        rw [if_pos rfl]
        unfold Act.run
        rw [this]

section
variable {p : Port} {off len : Nat} (hc : checkRange p off len)
include hc

theorem read_fine (h : Fine 1 fl) :
    (read p off len).run fl = (.ok (fl.mem.read off len), fl.passed 1) := by
  rw [read, if_pos hc, prim_fine h]
  rfl

theorem read_faulty (h : ¬Fine 1 fl) :
    ∃ fl', (read p off len).run fl = (.error .eio, fl') ∧ fl'.mem = fl.mem := by
  rw [read, if_pos hc]
  exact prim_faulty h fun _ _ => rfl

theorem isBlank_fine (h : Fine 1 fl) :
    (isBlank p off len).run fl = (.ok (blank fl.mem off len), fl.passed 1) := by
  rw [isBlank, if_pos hc, prim_fine h]
  rfl

theorem isBlank_faulty (h : ¬Fine 1 fl) :
    ∃ fl', (isBlank p off len).run fl = (.error .eio, fl') ∧ fl'.mem = fl.mem := by
  rw [isBlank, if_pos hc]
  exact prim_faulty h fun _ _ => rfl

end

end Flash

open Flash

-- ---------------------------------------------------------------------------
-- Records in the image buffer
-- ---------------------------------------------------------------------------

/-- Reading the front of the buffer leaves the records behind it alone. -/
theorem unpackRecord_front {bs img : List UInt8} {n s : Nat} (hl : bs.length = n)
    (h : n ≤ hdrSize + infoSize * s) : unpackRecord (bs ++ img.drop n) s = unpackRecord img s := by
  obtain ⟨d, hd⟩ := Nat.exists_eq_add_of_le h
  unfold unpackRecord
  rw [hd, slice_right hl, slice, slice, List.drop_drop]

theorem unpackRecord_image {bs img : List UInt8} {slots s : Nat} (hl : bs.length = imgSize slots)
    (h : s < slots) : unpackRecord (bs ++ img) s =
      ModelInfo.ofBytes (slice bs (hdrSize + infoSize * s) infoSize) := by
  unfold unpackRecord
  rw [slice_left (by rw [hl]; exact record_end_le h)]

-- ---------------------------------------------------------------------------
-- Loads
-- ---------------------------------------------------------------------------

def copyHdr (cfg : Config) (m : Mem) (c : Copy) : StoreHdr :=
  StoreHdr.ofBytes (m.read (cfg.lay.registryOff c) hdrSize)

/-- The copy gets as far as the read of its whole image. -/
def Readable (cfg : Config) (m : Mem) (c : Copy) : Prop :=
  blank m (cfg.lay.registryOff c) cfg.port.pageSize = false ∧ (copyHdr cfg m c).accepts cfg

instance (cfg : Config) (m : Mem) (c : Copy) : Decidable (Readable cfg m c) := by
  unfold Readable; infer_instance

theorem copyView_readable (h : copyView cfg m c = some h') :
    Readable cfg m c ∧ h'.slots = (copyHdr cfg m c).slots := by
  unfold copyView at h
  dsimp only at h
  split at h
  · rename_i hc
    cases h
    exact ⟨⟨hc.1, hc.2.1⟩, StoreHdr.slots_normalize _⟩
  · cases h

section
variable {off len : Nat} (hc : checkRange cfg.port off len)
include hc

theorem isBlank_scan_fine (h : Fine 1 sc.flash) :
    (Act.attempt (onScan (Flash.isBlank cfg.port off len)) : ScanM _).run sc =
      (.ok (.ok (blank sc.flash.mem off len)), { sc with flash := sc.flash.passed 1 }) := by
  rw [Act.run_attempt, onScan, Act.run_zoom, isBlank_fine hc h]

theorem isBlank_scan_faulty (h : ¬Fine 1 sc.flash) : ∃ fl,
    (Act.attempt (onScan (Flash.isBlank cfg.port off len)) : ScanM _).run sc =
      (.ok (.error .eio), { sc with flash := fl }) ∧ fl.mem = sc.flash.mem := by
  obtain ⟨fl, hr, hm⟩ := isBlank_faulty hc h
  refine ⟨fl, ?_, hm⟩
  rw [Act.run_attempt, onScan, Act.run_zoom, hr]

theorem readImg_fine (sc : Scan) (h : Fine 1 sc.flash) :
    (Act.attempt (readImg cfg off len) : ScanM _).run sc =
    (.ok (.ok ()), ⟨sc.flash.passed 1, sc.flash.mem.read off len ++ sc.imgBuf.drop len⟩) := by
  have hr : (onScan (Flash.read cfg.port off len)).run sc =
      (.ok (sc.flash.mem.read off len), { sc with flash := sc.flash.passed 1 }) := by
    rw [onScan, Act.run_zoom, read_fine hc h]
  rw [Act.run_attempt, readImg, Act.run_bind_ok hr]
  rfl

theorem readImg_faulty (sc : Scan) (h : ¬Fine 1 sc.flash) : ∃ fl,
    (Act.attempt (readImg cfg off len) : ScanM _).run sc =
      (.ok (.error .eio), { sc with flash := fl }) ∧ fl.mem = sc.flash.mem := by
  obtain ⟨fl, hrun, hm⟩ := read_faulty hc h
  refine ⟨fl, ?_, hm⟩
  have hr : (onScan (Flash.read cfg.port off len)).run sc =
      (.error .eio, { sc with flash := fl }) := by
    rw [onScan, Act.run_zoom, hrun]
  rw [Act.run_attempt, readImg, Act.run_bind_error hr]

end

theorem take_image (m : Mem) (c : Copy) (img : List UInt8) :
    StoreHdr.ofBytes ((m.read (cfg.lay.registryOff c) hdrSize ++ img).take hdrSize) =
      copyHdr cfg m c := by
  rw [List.take_left' Mem.length_read]
  rfl

/-- A load whose reads succeed. -/
theorem copyLoad_fine (hv : layoutValid cfg) (hr : Readable cfg sc.flash.mem c)
    (hf : Fine 3 sc.flash) : ∃ img,
      (copyLoad cfg c).run sc = (.ok (copyView cfg sc.flash.mem c), ⟨sc.flash.passed 3, img⟩) ∧
      ∀ s, unpackRecord img s = if s < (copyHdr cfg sc.flash.mem c).slots
        then copyRecord cfg sc.flash.mem c s else unpackRecord sc.imgBuf s := by
  have hwin := hv.copy_in_window c
  have hpage := hv.page_le_registry
  have hpos := cfg.port.page_pos
  have hhdr : hdrSize ≤ cfg.lay.registrySize :=
    (hdrSize_le_imgSize 0).trans (hv.imgSize_le (Nat.zero_le _))
  have hle := hr.2.imgSize_le hv
  have hpos' := imgSize_pos (copyHdr cfg sc.flash.mem c).slots
  obtain ⟨hf1, hf2⟩ := (fine_add 1 2 _).mp hf
  obtain ⟨hf2, hf3⟩ := (fine_add 1 1 _).mp hf2
  rw [passed_passed] at hf3
  have hc1 : checkRange cfg.port (cfg.lay.registryOff c) cfg.port.pageSize :=
    ⟨by omega, by omega, by omega⟩
  have hc2 : checkRange cfg.port (cfg.lay.registryOff c) hdrSize :=
    ⟨by decide, by omega, by omega⟩
  have hc3 : checkRange cfg.port (cfg.lay.registryOff c)
      (imgSize (copyHdr cfg sc.flash.mem c).slots) := ⟨by omega, by omega, by omega⟩
  have h1 := isBlank_scan_fine hc1 hf1
  have h2 := readImg_fine hc2 { sc with flash := sc.flash.passed 1 } hf2
  have h3 := readImg_fine hc3 ⟨(sc.flash.passed 1).passed 1,
      sc.flash.mem.read (cfg.lay.registryOff c) hdrSize ++ sc.imgBuf.drop hdrSize⟩
    (by rwa [passed_passed])
  unfold copyLoad
  dsimp only
  rw [Act.run_bind_ok h1, hr.1]
  dsimp only
  rw [Act.run_bind_ok h2]
  dsimp only
  rw [Act.run_bind, Act.run_gets]
  dsimp only
  rw [take_image, passed_mem, Act.run_ite, if_neg (not_not.mpr hr.2), Act.run_bind_ok h3]
  dsimp only [passed_mem]
  rw [passed_passed, passed_passed]
  set img := sc.flash.mem.read (cfg.lay.registryOff c)
    (imgSize (copyHdr cfg sc.flash.mem c).slots) with himg
  set rest := (sc.flash.mem.read (cfg.lay.registryOff c) hdrSize ++ sc.imgBuf.drop hdrSize).drop
    (imgSize (copyHdr cfg sc.flash.mem c).slots) with hrest
  have hlen : img.length = imgSize (copyHdr cfg sc.flash.mem c).slots := Mem.length_read
  have hrecords : ∀ s, unpackRecord (img ++ rest) s =
      if s < (copyHdr cfg sc.flash.mem c).slots then copyRecord cfg sc.flash.mem c s
      else unpackRecord sc.imgBuf s := by
    intro s
    split
    · rename_i hs
      rw [unpackRecord_image hlen hs, himg, slice_read _ _ (record_end_le hs), copyRecord,
        Nat.add_assoc]
    · rename_i hs
      rw [hrest, unpackRecord_front hlen, unpackRecord_front Mem.length_read (Nat.le_add_right _ _)]
      have := Nat.mul_le_mul_right infoSize (Nat.not_lt.mp hs)
      rw [Nat.mul_comm infoSize s]
      exact Nat.add_le_add_left this hdrSize
  have hview : copyView cfg sc.flash.mem c = if (copyHdr cfg sc.flash.mem c).rolesInRange ∧
      crc32Ieee (zeroCrc img) = (copyHdr cfg sc.flash.mem c).crc32 then
        some (copyHdr cfg sc.flash.mem c).normalize else none := by
    unfold copyView
    exact if_congr ⟨fun h => ⟨h.2.2.1, h.2.2.2⟩, fun h => ⟨hr.1, hr.2, h⟩⟩ rfl rfl
  rw [Act.run_ite]
  by_cases hro : (copyHdr cfg sc.flash.mem c).rolesInRange
  case neg =>
    rw [if_pos hro, hview, if_neg fun h => hro h.1]
    exact ⟨img ++ rest, rfl, hrecords⟩
  refine ⟨zeroCrc (img ++ rest), ?_, fun s => ?_⟩
  · rw [if_neg (not_not.mpr hro), Act.run_bind, Act.run_modify]
    dsimp only
    rw [Act.run_bind, Act.run_gets]
    dsimp only
    rw [take_zeroCrc (hdrSize_le_imgSize _) (by rw [List.length_append, hlen]; omega),
      List.take_left' hlen, Act.run_ite, hview]
    by_cases hcrc : crc32Ieee (zeroCrc img) = (copyHdr cfg sc.flash.mem c).crc32
    · rw [if_neg (not_not.mpr hcrc), if_pos ⟨hro, hcrc⟩]
      rfl
    · rw [if_pos hcrc, if_neg fun h => hcrc h.2]
      rfl
  · have h24 : 24 ≤ imgSize (copyHdr cfg sc.flash.mem c).slots := hdrSize_le_imgSize _
    rw [unpackRecord_zeroCrc _ (by rw [List.length_append, hlen]; omega), hrecords]

theorem copyLoad_faulty (hv : layoutValid cfg)
    (hno : ¬(Readable cfg sc.flash.mem c ∧ Fine 3 sc.flash)) : ∃ sc',
      (copyLoad cfg c).run sc = (.ok none, sc') ∧ sc'.flash.mem = sc.flash.mem ∧
      ∀ s, unpackRecord sc'.imgBuf s = unpackRecord sc.imgBuf s := by
  have hwin := hv.copy_in_window c
  have hpage := hv.page_le_registry
  have hpos := cfg.port.page_pos
  have hhdr : hdrSize ≤ cfg.lay.registrySize :=
    (hdrSize_le_imgSize 0).trans (hv.imgSize_le (Nat.zero_le _))
  have hc1 : checkRange cfg.port (cfg.lay.registryOff c) cfg.port.pageSize :=
    ⟨by omega, by omega, by omega⟩
  have hc2 : checkRange cfg.port (cfg.lay.registryOff c) hdrSize := ⟨by decide, by omega, by omega⟩
  unfold copyLoad
  dsimp only
  by_cases hf1 : Fine 1 sc.flash
  case neg =>
    obtain ⟨fl, hrun, hm⟩ := isBlank_scan_faulty hc1 hf1
    rw [Act.run_bind_ok hrun]
    exact ⟨_, rfl, hm, fun _ => rfl⟩
  rw [Act.run_bind_ok (isBlank_scan_fine hc1 hf1)]
  by_cases hb : blank sc.flash.mem (cfg.lay.registryOff c) cfg.port.pageSize = true
  · rw [hb]
    exact ⟨_, rfl, rfl, fun _ => rfl⟩
  rw [Bool.eq_false_iff.mpr hb]
  dsimp only
  by_cases hf2 : Fine 1 (sc.flash.passed 1)
  case neg =>
    obtain ⟨fl, hrun, hm⟩ := readImg_faulty hc2 { sc with flash := sc.flash.passed 1 } hf2
    rw [Act.run_bind_ok hrun]
    exact ⟨_, rfl, hm, fun _ => rfl⟩
  rw [Act.run_bind_ok (readImg_fine hc2 { sc with flash := sc.flash.passed 1 } hf2)]
  dsimp only
  have hfront : ∀ s, unpackRecord (sc.flash.mem.read (cfg.lay.registryOff c) hdrSize ++
      sc.imgBuf.drop hdrSize) s = unpackRecord sc.imgBuf s := fun s =>
    unpackRecord_front Mem.length_read (Nat.le_add_right _ _)
  rw [Act.run_bind, Act.run_gets]
  dsimp only
  rw [take_image, passed_mem, Act.run_ite]
  by_cases ha : (copyHdr cfg sc.flash.mem c).accepts cfg
  case neg =>
    rw [if_pos ha]
    exact ⟨_, rfl, rfl, hfront⟩
  have hle := ha.imgSize_le hv
  have hpos' := imgSize_pos (copyHdr cfg sc.flash.mem c).slots
  rw [if_neg (not_not.mpr ha)]
  -- the two reads before have succeeded
  have hf3 : ¬Fine 1 ((sc.flash.passed 1).passed 1) := by
    intro hf3
    refine hno ⟨⟨Bool.eq_false_iff.mpr hb, ha⟩, (fine_add 1 2 _).mpr ⟨hf1, ?_⟩⟩
    exact (fine_add 1 1 _).mpr ⟨hf2, hf3⟩
  have hc3 : checkRange cfg.port (cfg.lay.registryOff c)
      (imgSize (copyHdr cfg sc.flash.mem c).slots) := ⟨by omega, by omega, by omega⟩
  obtain ⟨fl, hrun, hm⟩ := readImg_faulty hc3 ⟨(sc.flash.passed 1).passed 1,
    sc.flash.mem.read (cfg.lay.registryOff c) hdrSize ++ sc.imgBuf.drop hdrSize⟩ hf3
  rw [Act.run_bind_ok hrun]
  exact ⟨_, rfl, hm, hfront⟩

/-- A load of a copy that has passed the checks before: its records are in the
buffer, or a read failed and the buffer has the records it had. -/
theorem copyLoad_again (hv : layoutValid cfg) {h : StoreHdr}
    (hh : copyView cfg sc.flash.mem c = some h) :
    ∃ again sc', (copyLoad cfg c).run sc = (.ok again, sc') ∧ again.getD h = h ∧
      ((Fine 3 sc.flash ∧ ∀ s < h.slots,
        unpackRecord sc'.imgBuf s = copyRecord cfg sc.flash.mem c s) ∨
      (¬Fine 3 sc.flash ∧ ∀ s, unpackRecord sc'.imgBuf s = unpackRecord sc.imgBuf s)) := by
  obtain ⟨hr, hs⟩ := copyView_readable hh
  by_cases hf : Fine 3 sc.flash
  · obtain ⟨img, hrun, himg⟩ := copyLoad_fine hv hr hf
    rw [hh] at hrun
    refine ⟨_, _, hrun, rfl, .inl ⟨hf, fun s hlt => ?_⟩⟩
    rw [himg, if_pos (hs ▸ hlt)]
  · obtain ⟨sc', hrun, -, himg⟩ := copyLoad_faulty hv fun h => hf h.2
    exact ⟨_, _, hrun, rfl, .inr ⟨hf, himg⟩⟩

-- ---------------------------------------------------------------------------
-- The scan
-- ---------------------------------------------------------------------------

/-- The adopted state is what one copy holds that passes the checks; without one
the store is empty. -/
structure Whole (cfg : Config) (m : Mem) (st : St) : Prop where
  adopted : (∃ c, st.copyValid c = true) → copyReg cfg m st.newestCopy = some st.reg
  empty : (∀ c, st.copyValid c = false) → st.reg = Reg.empty

/-- Copy 0 is adopted after the whole image of copy 1 was read, the two differ in a
record that both have, and one of the three reads of the second load fails. -/
def Mixed (cfg : Config) (m : Mem) (fl : Flash) : Prop :=
  ∃ h, copyView cfg m .zero = some h ∧
    (∀ h', copyView cfg m .one = some h' → h'.generation.toNat ≤ h.generation.toNat) ∧
    Readable cfg m .one ∧
    (∃ s < h.slots, s < (copyHdr cfg m .one).slots ∧
      copyRecord cfg m .one s ≠ copyRecord cfg m .zero s) ∧
    Fine 6 fl ∧ ¬Fine 3 (fl.passed 6)

/-- What the scan adopts from a copy whose header it has. -/
def scanned (newest : Copy) (h : StoreHdr) (record : Nat → ModelInfo) (wear : Copy → UInt32)
    (valid : Copy → Bool) : St :=
  { ready := false, reg := h.reg record, wear := wear, copyValid := valid, newestCopy := newest }

theorem whole_scanned {newest : Copy} {h : StoreHdr} {record : Nat → ModelInfo}
    {wear : Copy → UInt32} {valid : Copy → Bool} (hv : valid newest = true)
    (hh : copyView cfg m newest = some h) : Whole cfg m (scanned newest h record wear valid) ↔
      ∀ s < h.slots, record s = copyRecord cfg m newest s := by
  have hreg : copyReg cfg m newest = some (h.reg (copyRecord cfg m newest)) := by
    unfold copyReg
    rw [hh]
    rfl
  constructor
  · intro hw s hs
    have he := hw.adopted ⟨newest, hv⟩
    rw [show (scanned newest h record wear valid).newestCopy = newest from rfl, hreg] at he
    have := congrFun (congrArg Reg.record (Option.some.inj he)) s
    simpa [StoreHdr.reg, scanned, hs] using this.symm
  · intro hs
    refine ⟨fun _ => ?_, fun hn => ?_⟩
    · show copyReg cfg m newest = some (h.reg record)
      rw [hreg, StoreHdr.reg_congr fun i hi => (hs i hi).symm]
    · rw [show valid newest = false from hn newest] at hv
      cases hv

/-- What a load leaves. -/
inductive Load (cfg : Config) (c : Copy) (sc : Scan) (r : Option StoreHdr) (sc' : Scan) : Prop
  | image (hr : Readable cfg sc.flash.mem c) (hf : Fine 3 sc.flash)
    (he : r = copyView cfg sc.flash.mem c) (hfl : sc'.flash = sc.flash.passed 3)
    (hs : ∀ s, unpackRecord sc'.imgBuf s = if s < (copyHdr cfg sc.flash.mem c).slots
      then copyRecord cfg sc.flash.mem c s else unpackRecord sc.imgBuf s)
  | nothing (hno : ¬(Readable cfg sc.flash.mem c ∧ Fine 3 sc.flash)) (he : r = none)
    (hm : sc'.flash.mem = sc.flash.mem)
    (hs : ∀ s, unpackRecord sc'.imgBuf s = unpackRecord sc.imgBuf s)

theorem copyLoad_load (hv : layoutValid cfg) (c : Copy) (sc : Scan) :
    ∃ r sc', (copyLoad cfg c).run sc = (.ok r, sc') ∧ Load cfg c sc r sc' := by
  by_cases h : Readable cfg sc.flash.mem c ∧ Fine 3 sc.flash
  · obtain ⟨img, hrun, himg⟩ := copyLoad_fine hv h.1 h.2
    exact ⟨_, _, hrun, .image h.1 h.2 rfl rfl himg⟩
  · obtain ⟨sc', hrun, hm, himg⟩ := copyLoad_faulty hv h
    exact ⟨_, _, hrun, .nothing h rfl hm himg⟩

theorem Load.mem (h : Load cfg c sc r sc') : sc'.flash.mem = sc.flash.mem := by
  cases h with
  | image hr hf he hfl hs => rw [hfl, passed_mem]
  | nothing hno he hm hs => exact hm

/-- A header that a load reports is the copy's, and the buffer has its records. -/
theorem Load.some (h : Load cfg c sc (some x) sc') : copyView cfg sc.flash.mem c = some x ∧
    Fine 3 sc.flash ∧ sc'.flash = sc.flash.passed 3 ∧
    ∀ s < x.slots, unpackRecord sc'.imgBuf s = copyRecord cfg sc.flash.mem c s := by
  cases h with
  | image hr hf he hfl hs =>
    refine ⟨he.symm, hf, hfl, fun s hlt => ?_⟩
    rw [hs, if_pos ((copyView_readable he.symm).2 ▸ hlt)]
  | nothing hno he hm hs => cases he

/-- A readable copy is loaded as it is where the reads succeed. -/
theorem Load.fine (h : Load cfg c sc r sc') (hr : Readable cfg sc.flash.mem c)
    (hf : Fine 3 sc.flash) : r = copyView cfg sc.flash.mem c ∧ sc'.flash = sc.flash.passed 3 := by
  cases h with
  | image hr hf he hfl hs => exact ⟨he, hfl⟩
  | nothing hno he hm hs => exact absurd ⟨hr, hf⟩ hno

/-- The first two loads of a scan that adopts copy `newest`. -/
structure Loads (cfg : Config) (sc : Scan) (r0 r1 : Option StoreHdr) (sc₁ sc₂ : Scan) : Prop where
  zero : Load cfg .zero sc r0 sc₁
  one : Load cfg .one sc₁ r1 sc₂

namespace Loads

variable {r0 r1 : Option StoreHdr} {sc₁ sc₂ : Scan}

theorem mem (h : Loads cfg sc r0 r1 sc₁ sc₂) : sc₂.flash.mem = sc.flash.mem :=
  h.one.mem.trans h.zero.mem

/-- Where the records could get mixed up, copy 0 and copy 1 are loaded. -/
theorem of_mixed (h : Loads cfg sc r0 r1 sc₁ sc₂) (hm : Mixed cfg sc.flash.mem sc.flash) :
    r0 = copyView cfg sc.flash.mem .zero ∧ r1 = copyView cfg sc.flash.mem .one ∧
      sc₂.flash = sc.flash.passed 6 := by
  obtain ⟨x, hx, -, hr1, -, hf, -⟩ := hm
  obtain ⟨hf0, hf1⟩ := (fine_add 3 3 _).mp hf
  obtain ⟨h0, hp0⟩ := h.zero.fine (copyView_readable hx).1 hf0
  obtain ⟨h1, hp1⟩ := h.one.fine (by rw [h.zero.mem]; exact hr1) (by rw [hp0]; exact hf1)
  rw [h.zero.mem] at h1
  exact ⟨h0, h1, by rw [hp1, hp0, passed_passed]⟩

theorem copyView_of_hdr (h : Loads cfg sc r0 r1 sc₁ sc₂) {newest : Copy} {x : StoreHdr}
    (hx : (match newest with | .zero => r0 | .one => r1) = some x) :
    copyView cfg sc.flash.mem newest = some x := by
  cases newest with
  | zero =>
    dsimp only at hx
    subst hx
    exact h.zero.some.1
  | one =>
    dsimp only at hx
    subst hx
    rw [← h.zero.mem]
    exact h.one.some.1

end Loads

theorem bootScan_whole (hv : layoutValid cfg) (sc : Scan) : ∃ st sc',
    (bootScan cfg).run sc = (.ok st, sc') ∧
      (Whole cfg sc.flash.mem st ↔ ¬Mixed cfg sc.flash.mem sc.flash) := by
  obtain ⟨r0, sc₁, hrun0, hl0⟩ := copyLoad_load hv .zero sc
  obtain ⟨r1, sc₂, hrun1, hl1⟩ := copyLoad_load hv .one sc₁
  have hl : Loads cfg sc r0 r1 sc₁ sc₂ := ⟨hl0, hl1⟩
  unfold bootScan
  rw [Act.run_bind_ok hrun0, Act.run_bind_ok hrun1]
  dsimp only
  cases ha : adopt (fun h => StoreHdr.generation h |>.toNat)
      (fun c : Copy => match c with | .zero => r0 | .one => r1) with
  | none =>
    refine ⟨_, _, rfl, fun _ hm => ?_, fun _ => ⟨fun hc => (nomatch hc), fun _ => rfl⟩⟩
    have h0 := adopt_none ha .zero
    obtain ⟨x, hx, -⟩ := id hm
    rw [← (hl.of_mixed hm).1] at hx
    exact nomatch h0.symm.trans hx
  | some y =>
    obtain ⟨newest, x⟩ := y
    have hx := (adopt_some ha).1
    have hview := hl.copyView_of_hdr hx
    obtain ⟨again, sc₃, hrun, hagain, hrec⟩ :=
      copyLoad_again hv (hl.mem.symm ▸ hview : copyView cfg sc₂.flash.mem newest = some x)
    rw [hl.mem] at hrec
    dsimp only
    rw [Act.run_bind_ok hrun, Act.run_bind, Act.run_gets]
    refine ⟨_, _, rfl, ?_⟩
    refine Iff.trans (whole_scanned (congrArg Option.isSome hx) (hagain.symm ▸ hview)) ?_
    rw [hagain]
    -- records that are the adopted copy's, and no mixing
    cases newest with
    | one =>
      dsimp only at hx
      subst hx
      refine iff_of_true (fun s hs => ?_) fun hm => ?_
      · rcases hrec with ⟨-, h⟩ | ⟨-, h⟩
        · exact h s hs
        · rw [h, hl.one.some.2.2.2 s hs, hl.zero.mem]
      · obtain ⟨h', hh', hgen, -⟩ := id hm
        have h0 := (hl.of_mixed hm).1
        have hle := hgen x hview
        unfold adopt at ha
        dsimp only at ha
        rw [h0, hh'] at ha
        dsimp only at ha
        rw [if_neg (Nat.not_lt.mpr hle)] at ha
        cases ha
    | zero =>
      dsimp only at hx
      subst hx
      obtain ⟨-, hf0, hp0, hs0⟩ := hl.zero.some
      rcases hrec with ⟨hf, h⟩ | ⟨hf, h⟩
      · refine iff_of_true h fun hm => ?_
        obtain ⟨-, -, h2⟩ := hl.of_mixed hm
        obtain ⟨-, -, -, -, -, -, hno⟩ := hm
        exact hno (h2 ▸ hf)
      · cases hl.one with
        | image hr1 hf1 he1 hfl1 hs1 =>
          rw [hl.zero.mem] at hr1 he1 hs1
          have hrec : ∀ s < x.slots, unpackRecord sc₃.imgBuf s =
              if s < (copyHdr cfg sc.flash.mem .one).slots then copyRecord cfg sc.flash.mem .one s
              else copyRecord cfg sc.flash.mem .zero s := by
            intro s hs
            rw [h, hs1, hs0 s hs]
          constructor
          · rintro hall ⟨x', hx', -, -, ⟨s, hs, hlt, hne⟩, -⟩
            cases hview.symm.trans hx'
            refine hne ?_
            rw [← hall s hs, hrec s hs, if_pos hlt]
          · intro hno s hs
            by_contra hne
            rw [hrec s hs] at hne
            by_cases hlt : s < (copyHdr cfg sc.flash.mem .one).slots
            · rw [if_pos hlt] at hne
              refine hno ⟨x, hview, fun h' hh' => (adopt_some ha).2 h' (he1.trans hh'), hr1,
                ⟨s, hs, hlt, hne⟩, (fine_add 3 3 _).mpr ⟨hf0, hp0 ▸ hf1⟩, fun hf6 => hf ?_⟩
              rw [hfl1, hp0, passed_passed]
              exact hf6
            · rw [if_neg hlt] at hne
              exact hne rfl
        | nothing hno1 he1 hm1 hs1 =>
          refine iff_of_true (fun s hs => by rw [h, hs1, hs0 s hs]) ?_
          rintro ⟨-, -, -, hr1, -, hf6, -⟩
          refine hno1 ⟨by rw [hl.zero.mem]; exact hr1, ?_⟩
          rw [hp0]
          exact ((fine_add 3 3 _).mp hf6).2

/-- `syn_store_init` takes its state and the flash from the scan. -/
theorem storeInit_scanned (hv : layoutValid cfg) {t : Store} (hr : t.st.ready = false) {st : St}
    {sc' : Scan}
    (hrun : (bootScan cfg).run ⟨t.flash, List.replicate storeBufSize 0⟩ = (.ok st, sc')) :
    ((storeInit cfg).run t).2.st = { st with ready := true } ∧
      ((storeInit cfg).run t).2.flash = sc'.flash := by
  have hstore : (Store.scan cfg).run t = (.ok st, { t with flash := sc'.flash }) := by
    unfold Store.scan
    rw [Act.run_zoom, hrun]
  unfold storeInit
  rw [Act.run_bind, Act.run_gets]
  dsimp only
  rw [hr, Act.run_ite, if_neg (by decide), Act.run_ite, if_neg (not_not.mpr hv),
    Act.run_bind_ok hstore, Act.run_bind]
  exact ⟨rfl, rfl⟩

/-- `syn_store_init` adopts what its scan does. -/
theorem boot_scanned (hv : layoutValid cfg) (sys : Sys) (env : Env) : ∃ st : St,
    (sysStep cfg sys (env, .boot)).store.st = { st with ready := true } ∧
      (Whole cfg sys.store.flash.mem { st with ready := true } ↔
        ¬Mixed cfg sys.store.flash.mem (sys.restart env).store.flash) := by
  obtain ⟨st, sc', hrun, hw⟩ :=
    bootScan_whole hv ⟨(sys.restart env).store.flash, List.replicate storeBufSize 0⟩
  refine ⟨st, ?_, Iff.trans ⟨fun h => ⟨h.adopted, h.empty⟩, fun h => ⟨h.adopted, h.empty⟩⟩ hw⟩
  exact (storeInit_scanned hv (t := (sys.restart env).store) rfl hrun).1

/-- `syn_store_init` adopts one copy whole, or nothing, exactly where the records of
the two copies do not get mixed up. -/
theorem boot_whole (hv : layoutValid cfg) (sys : Sys) (env : Env) :
    Whole cfg sys.store.flash.mem (sysStep cfg sys (env, .boot)).store.st ↔
      ¬Mixed cfg sys.store.flash.mem (sys.restart env).store.flash := by
  obtain ⟨st, he, hw⟩ := boot_scanned hv sys env
  rw [he]
  exact hw

-- ---------------------------------------------------------------------------
-- Two copies that differ
-- ---------------------------------------------------------------------------

/-- A registry with one model. -/
def soleModel (c : UInt8) : Reg :=
  ⟨0, 0, slotNone, slotNone, 1, fun s => if s = 0 then namedModel c else default⟩

/-- Copy 0 has a newer registry than copy 1, with another model. -/
def twoImages : Mem :=
  Mem.put (Mem.put (fun _ => erasedByte) 0 (imageCore smallDevice (soleModel 65) 2 1)) 256
    (imageCore smallDevice (soleModel 66) 1 1)

theorem boot_whole_quiet : Whole smallDevice (Sys.cold twoImages).store.flash.mem
    (sysStep smallDevice (Sys.cold twoImages) (quiet, .boot)).store.st :=
  (boot_whole smallDevice_valid (Sys.cold twoImages) quiet).mpr
    fun ⟨_, _, _, _, _, _, hno⟩ => hno ⟨rfl, fun _ h => by
      simp [Sys.restart, quiet, Flash.passed] at h⟩

theorem soleModel_fits (c : UInt8) : (soleModel c).Fits smallDevice where
  active := by simp [SlotFits, soleModel, smallDevice]
  prev := .inl rfl
  staged := .inl rfl
  mask s hs := by
    by_contra hge
    have : s ≠ 0 := by
      rintro rfl
      exact hge (by decide)
    simp [Reg.occupied, soleModel, this] at hs
  record s hs := by
    have : s ≠ 0 := by
      rintro rfl
      exact absurd hs (by decide)
    simp [soleModel, this]

theorem twoImages_one : twoImages.read (smallDevice.lay.registryOff .one)
    (imgSize smallDevice.lay.slotCount) = imageCore smallDevice (soleModel 66) 1 1 := by
  have h : smallDevice.lay.registryOff .one = 256 := by decide
  rw [h, twoImages, Mem.read_put_take (Nat.le_of_eq (length_imageCore _ _ _ _).symm),
    List.take_of_length_le (Nat.le_of_eq (length_imageCore _ _ _ _))]

theorem twoImages_zero : twoImages.read (smallDevice.lay.registryOff .zero)
    (imgSize smallDevice.lay.slotCount) = imageCore smallDevice (soleModel 65) 2 1 := by
  have h : smallDevice.lay.registryOff .zero = 0 := by decide
  have hsz : imgSize smallDevice.lay.slotCount ≤ 256 := by decide
  have hkept : Mem.SameOn 0 (0 + imgSize smallDevice.lay.slotCount)
      (Mem.put (fun _ => erasedByte) 0 (imageCore smallDevice (soleModel 65) 2 1)) twoImages := by
    intro a _ h2
    exact Mem.put_of_lt (by omega)
  rw [h, Mem.read_congr hkept, Mem.read_put_take (Nat.le_of_eq (length_imageCore _ _ _ _).symm),
    List.take_of_length_le (Nat.le_of_eq (length_imageCore _ _ _ _))]

/-- The seventh read fails: the first one of the second load. -/
def rereadFault : Env := { quiet with plan := List.replicate 6 .none ++ [.error ⟨0, false⟩] }

/-- The records of the older copy under the newer copy's header. -/
theorem reread_mixes : ¬Whole smallDevice twoImages
    (sysStep smallDevice (Sys.cold twoImages) (rereadFault, .boot)).store.st := by
  have h0 := copyView_of_image smallDevice_valid (soleModel_fits 65) twoImages_zero
  have h1 := copyView_of_image smallDevice_valid (soleModel_fits 66) twoImages_one
  obtain ⟨st, he, hw⟩ := boot_scanned smallDevice_valid (Sys.cold twoImages) rereadFault
  rw [he]
  refine fun h => hw.mp h ⟨_, h0, fun h' hh' => ?_, (copyView_readable h1).1,
    ⟨0, by decide, ?_, ?_⟩, ⟨rfl, by decide⟩, fun hf => absurd (hf.2 _ (.head _)) (by decide)⟩
  · cases h1.symm.trans hh'
    decide
  · show 0 < (copyHdr smallDevice twoImages .one).slots
    rw [← (copyView_readable h1).2]
    decide
  · have hrec0 := copyRecord_of_image (s := 0) (by decide) twoImages_zero
    have hrec1 := copyRecord_of_image (s := 0) (by decide) twoImages_one
    show copyRecord smallDevice twoImages .one 0 ≠ copyRecord smallDevice twoImages .zero 0
    rw [hrec0, hrec1]
    decide

end SynapticOS
