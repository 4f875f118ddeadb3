import SynapticOS.Runs.Isolation
import Mathlib.Data.List.Pairwise
import Mathlib.Data.List.Sort

/-!
# The partition map

`syn_flash_layout.py` checks its table of partitions and generates the map that the flash port
and the store are built on. Whatever the table is, if the tool takes it, the store keeps to its
own four partitions in every run.
-/

namespace SynapticOS.Tools.Partitions

open Lib

-- ---------------------------------------------------------------------------
-- The table
-- ---------------------------------------------------------------------------

def flashTotal : Nat := 0x200000
def bankSize : Nat := 0x100000
def sector : Nat := 0x2000
def page : Nat := 128

/-- The stem of a partition's macros. -/
inductive Ident
  | cpu0Fw | cpu1Img | registryA | registryB | slotA | slotB
  | other (stem : String)
  deriving DecidableEq, Repr, Inhabited

structure Partition where
  ident : Ident
  label : String
  offset : Nat
  size : Nat
  readOnly : Bool
  otaWritable : Bool
  deriving DecidableEq, Repr, Inhabited

def partitions : List Partition :=
  [⟨.cpu0Fw, "cpu0-firmware", 0x000000, 0x100000, true, false⟩,
    ⟨.cpu1Img, "cpu1-image", 0x100000, 0x020000, true, false⟩,
    ⟨.registryA, "syn-registry-a", 0x120000, 0x002000, false, true⟩,
    ⟨.registryB, "syn-registry-b", 0x122000, 0x002000, false, true⟩,
    ⟨.slotA, "syn-model-slot-a", 0x124000, 0x06E000, false, true⟩,
    ⟨.slotB, "syn-model-slot-b", 0x192000, 0x06E000, false, true⟩]

/-- The assertion of `validate` that fails; or a name that is not there. -/
inductive Refusal
  | offsetUnaligned (p : Ident)
  | sizeUnaligned (p : Ident)
  | gapOrOverlap (p : Ident) (cursor : Nat)
  | uncovered
  | cpu1Misplaced
  | belowCpu1 (p : Ident)
  | writableButReadOnly (p : Ident)
  | registrySizes
  | slotSizes
  | missing (p : Ident)
  deriving DecidableEq, Repr

def ensure (c : Prop) [Decidable c] (r : Refusal) : Except Refusal Unit :=
  if c then .ok () else .error r

/-- The loop over the partitions: where it ends. -/
def walk : Nat → List Partition → Except Refusal Nat
  | cursor, [] => .ok cursor
  | cursor, p :: parts => do
    ensure (p.offset % sector = 0) (.offsetUnaligned p.ident)
    ensure (p.size % sector = 0) (.sizeUnaligned p.ident)
    ensure (p.offset = cursor) (.gapOrOverlap p.ident cursor)
    walk (p.offset + p.size) parts

/-- `by[ident]`: of two partitions of one name the later one. -/
def byIdent (parts : List Partition) (ident : Ident) : Except Refusal Partition :=
  match parts.reverse.find? (·.ident = ident) with
  | some p => .ok p
  | none => .error (.missing ident)

def checkWritable (cpu1 p : Partition) : Except Refusal Unit :=
  if p.otaWritable then do
    ensure (cpu1.offset + cpu1.size ≤ p.offset) (.belowCpu1 p.ident)
    ensure (p.readOnly = false) (.writableButReadOnly p.ident)
  else .ok ()

def checkAll (cpu1 : Partition) : List Partition → Except Refusal Unit
  | [] => .ok ()
  | p :: parts => do
    checkWritable cpu1 p
    checkAll cpu1 parts

def sortedByOffset (parts : List Partition) : List Partition :=
  parts.insertionSort fun p q => p.offset ≤ q.offset

def validate (table : List Partition) : Except Refusal Unit := do
  let parts := sortedByOffset table
  let cursor ← walk 0 parts
  ensure (cursor = flashTotal) .uncovered
  let cpu1 ← byIdent parts .cpu1Img
  ensure (cpu1.offset = bankSize) .cpu1Misplaced
  checkAll cpu1 parts
  let registryA ← byIdent parts .registryA
  let registryB ← byIdent parts .registryB
  ensure (registryA.size = registryB.size) .registrySizes
  let slotA ← byIdent parts .slotA
  let slotB ← byIdent parts .slotB
  ensure (slotA.size = slotB.size) .slotSizes

/-- `SYN_FLASH_WRITABLE_BASE` and `SYN_FLASH_WRITABLE_END`; there is none if nothing is
writable. -/
def window (table : List Partition) : Option (Nat × Nat) :=
  let writable := table.filter (·.otaWritable)
  match (writable.map (·.offset)).min?, (writable.map fun p => p.offset + p.size).max? with
  | some lo, some hi => some (lo, hi)
  | _, _ => none

example : validate partitions = .ok () ∧ window partitions = some (0x120000, 0x200000) := by decide

-- ---------------------------------------------------------------------------
-- What `validate` takes
-- ---------------------------------------------------------------------------

variable {c : Prop} [Decidable c] {r : Refusal} {parts table : List Partition} {lo hi : Nat}
  {p q cpu1 : Partition} {ident : Ident}

theorem bind_ok {α β : Type} {x : Except Refusal α} {f : α → Except Refusal β} {b : β} :
    x >>= f = .ok b ↔ ∃ a, x = .ok a ∧ f a = .ok b := by
  cases x <;> simp [bind, Except.bind]

@[simp] theorem ensure_ok {u : Unit} : ensure c r = .ok u ↔ c := by
  unfold ensure
  split <;> simp_all

theorem byIdent_ok (h : byIdent parts ident = .ok p) : p ∈ parts ∧ p.ident = ident := by
  unfold byIdent at h
  split at h
  next hf =>
    cases h
    exact ⟨by simpa using List.mem_of_find?_eq_some hf, by simpa using List.find?_some hf⟩
  next => cases h

/-- A partition lies in front of another. -/
def Before (p q : Partition) : Prop := p.offset + p.size ≤ q.offset

/-- The partitions follow one another from `lo` to `hi`. -/
theorem walk_ok (h : walk lo parts = .ok hi) : lo ≤ hi ∧ parts.Pairwise Before ∧
    ∀ p ∈ parts, sector ∣ p.offset ∧ sector ∣ p.size ∧ lo ≤ p.offset ∧ p.offset + p.size ≤ hi := by
  induction parts generalizing lo with
  | nil =>
    cases h
    simp
  | cons p parts ih =>
    simp only [walk, bind_ok, ensure_ok] at h
    obtain ⟨-, ho, -, hs, -, rfl, h⟩ := h
    obtain ⟨hle, hpair, hall⟩ := ih h
    have hend : p.offset ≤ hi := by omega
    refine ⟨hend, List.pairwise_cons.mpr ⟨fun q hq => (hall q hq).2.2.1, hpair⟩, ?_⟩
    simp only [List.forall_mem_cons]
    refine ⟨⟨Nat.dvd_of_mod_eq_zero ho, Nat.dvd_of_mod_eq_zero hs, Nat.le_refl _, hle⟩, ?_⟩
    intro q hq
    obtain ⟨h1, h2, h3, h4⟩ := hall q hq
    exact ⟨h1, h2, by omega, h4⟩

theorem checkWritable_ok (h : checkWritable cpu1 p = .ok ()) (hw : p.otaWritable = true) :
    Before cpu1 p := by
  simp only [checkWritable, hw, if_true, bind_ok, ensure_ok] at h
  obtain ⟨-, h, -⟩ := h
  exact h

theorem checkAll_ok (h : checkAll cpu1 parts = .ok ()) :
    ∀ p ∈ parts, p.otaWritable = true → Before cpu1 p := by
  induction parts with
  | nil => simp
  | cons p parts ih =>
    simp only [checkAll, bind_ok] at h
    obtain ⟨_, hp, h⟩ := h
    exact List.forall_mem_cons.mpr ⟨checkWritable_ok hp, ih h⟩

/-- What an accepted table guarantees. -/
structure Accepted (table : List Partition) : Prop where
  apart : ∀ p ∈ table, ∀ q ∈ table, p ≠ q → Before p q ∨ Before q p
  within : ∀ p ∈ table, sector ∣ p.offset ∧ sector ∣ p.size ∧ p.offset + p.size ≤ flashTotal
  cpu1 : ∃ cpu1 ∈ table, cpu1.ident = .cpu1Img ∧ cpu1.offset = bankSize ∧
    ∀ p ∈ table, p.otaWritable = true → Before cpu1 p
  registries : ∃ a ∈ table, ∃ b ∈ table, a.ident = .registryA ∧ b.ident = .registryB ∧
    a.size = b.size
  slots : ∃ a ∈ table, ∃ b ∈ table, a.ident = .slotA ∧ b.ident = .slotB ∧ a.size = b.size

theorem accepted (h : validate table = .ok ()) : Accepted table := by
  have hmem : ∀ p, p ∈ sortedByOffset table ↔ p ∈ table := fun p => List.mem_insertionSort _
  simp only [validate, bind_ok, ensure_ok] at h
  obtain ⟨cursor, hwalk, -, rfl, cpu1, hcpu1, -, hbank, _, hwritable, ra, hra, rb, hrb, -, hreg,
    sa, hsa, sb, hsb, hslot⟩ := h
  obtain ⟨-, hpair, hall⟩ := walk_ok hwalk
  obtain ⟨hcpu1, hcpu1i⟩ := byIdent_ok hcpu1
  obtain ⟨hra, hrai⟩ := byIdent_ok hra
  obtain ⟨hrb, hrbi⟩ := byIdent_ok hrb
  obtain ⟨hsa, hsai⟩ := byIdent_ok hsa
  obtain ⟨hsb, hsbi⟩ := byIdent_ok hsb
  simp only [hmem] at hall hcpu1 hra hrb hsa hsb
  refine ⟨?_, ?_, ?_, ?_, ?_⟩
  · intro p hp q hq hne
    have : Std.Symm fun p q => Before p q ∨ Before q p := ⟨fun _ _ h => h.symm⟩
    have hboth := hpair.imp (S := fun p q => Before p q ∨ Before q p) .inl
    exact hboth.forall ((hmem p).mpr hp) ((hmem q).mpr hq) hne
  · intro p hp
    obtain ⟨h1, h2, -, h4⟩ := hall p hp
    exact ⟨h1, h2, h4⟩
  · refine ⟨cpu1, hcpu1, hcpu1i, hbank, fun p hp => ?_⟩
    exact checkAll_ok hwritable p ((hmem p).mpr hp)
  · exact ⟨ra, hra, rb, hrb, hrai, hrbi, hreg⟩
  · exact ⟨sa, hsa, sb, hsb, hsai, hsbi, hslot⟩

-- ---------------------------------------------------------------------------
-- The map
-- ---------------------------------------------------------------------------

def storeIdents : List Ident := [.registryA, .registryB, .slotA, .slotB]

/-- A table that the tool takes; the partitions of the store are writable and not empty. -/
structure FlashMap where
  table : List Partition
  valid : validate table = .ok ()
  distinct : (table.map (·.ident)).Nodup
  store : ∀ p ∈ table, p.ident ∈ storeIdents → p.otaWritable = true ∧ 0 < p.size

def boardMap : FlashMap := ⟨partitions, by decide, by decide, by decide⟩

namespace FlashMap

variable (fm : FlashMap)

/-- `SYN_PART_*`. -/
def part (ident : Ident) : Partition := (fm.table.find? (·.ident = ident)).getD default

def writableBase : Nat := ((window fm.table).getD (0, 0)).1
def writableEnd : Nat := ((window fm.table).getD (0, 0)).2

theorem acc : Accepted fm.table := accepted fm.valid

theorem part_ident (hp : p ∈ fm.table) : fm.part p.ident ∈ fm.table ∧
    (fm.part p.ident).ident = p.ident := by
  unfold part
  cases hf : fm.table.find? (·.ident = p.ident) with
  | none => simpa using List.find?_eq_none.mp hf p hp
  | some q => exact ⟨List.mem_of_find?_eq_some hf, by simpa using List.find?_some hf⟩

theorem part_eq (hp : p ∈ fm.table) : fm.part p.ident = p := by
  obtain ⟨hmem, hi⟩ := fm.part_ident hp
  exact List.inj_on_of_nodup_map fm.distinct hmem hp hi

theorem part_mem {ident : Ident} (h : ident ∈ storeIdents) :
    fm.part ident ∈ fm.table ∧ (fm.part ident).ident = ident := by
  obtain ⟨ra, hra, rb, hrb, hrai, hrbi, -⟩ := fm.acc.registries
  obtain ⟨sa, hsa, sb, hsb, hsai, hsbi, -⟩ := fm.acc.slots
  simp only [storeIdents, List.mem_cons, List.not_mem_nil, or_false] at h
  rcases h with rfl | rfl | rfl | rfl
  · exact hrai ▸ fm.part_ident hra
  · exact hrbi ▸ fm.part_ident hrb
  · exact hsai ▸ fm.part_ident hsa
  · exact hsbi ▸ fm.part_ident hsb

theorem registry_size : (fm.part .registryA).size = (fm.part .registryB).size := by
  obtain ⟨a, ha, b, hb, hai, hbi, h⟩ := fm.acc.registries
  rw [← hai, ← hbi, fm.part_eq ha, fm.part_eq hb, h]

theorem slot_size : (fm.part .slotA).size = (fm.part .slotB).size := by
  obtain ⟨a, ha, b, hb, hai, hbi, h⟩ := fm.acc.slots
  rw [← hai, ← hbi, fm.part_eq ha, fm.part_eq hb, h]

theorem exists_writable : ∃ p ∈ fm.table, p.otaWritable = true := by
  obtain ⟨a, ha, -, -, hai, -⟩ := fm.acc.slots
  exact ⟨a, ha, (fm.store a ha (by simp [storeIdents, hai])).1⟩

theorem window_some : ∃ p ∈ fm.table, ∃ q ∈ fm.table,
    window fm.table = some (p.offset, q.offset + q.size) ∧
    p.otaWritable = true ∧ ∀ w ∈ fm.table, w.otaWritable = true →
      p.offset ≤ w.offset ∧ w.offset + w.size ≤ q.offset + q.size := by
  obtain ⟨w, hmem, hw⟩ := fm.exists_writable
  have hne : fm.table.filter (·.otaWritable) ≠ [] :=
    List.ne_nil_of_mem (List.mem_filter.mpr ⟨hmem, hw⟩)
  unfold window
  dsimp only
  cases hmin : ((fm.table.filter (·.otaWritable)).map (·.offset)).min? with
  | none => simp_all
  | some lo =>
    cases hmax : ((fm.table.filter (·.otaWritable)).map fun p => p.offset + p.size).max? with
    | none => simp_all
    | some hi =>
      rw [List.min?_eq_some_iff] at hmin
      rw [List.max?_eq_some_iff] at hmax
      simp only [List.mem_map, List.mem_filter, forall_exists_index, and_imp] at hmin hmax
      obtain ⟨⟨p, ⟨hp, hpw⟩, rfl⟩, hlo⟩ := hmin
      obtain ⟨⟨q, ⟨hq, -⟩, rfl⟩, hhi⟩ := hmax
      exact ⟨p, hp, q, hq, rfl, hpw, fun w hmw hww =>
        ⟨hlo _ w hmw hww rfl, hhi _ w hmw hww rfl⟩⟩

/-- The window is made of whole sectors of the flash and holds what is writable. -/
theorem window_spec : sector ∣ fm.writableBase ∧ sector ∣ fm.writableEnd ∧
    fm.writableEnd ≤ flashTotal ∧ ∀ w ∈ fm.table, w.otaWritable = true →
      fm.writableBase ≤ w.offset ∧ w.offset + w.size ≤ fm.writableEnd := by
  obtain ⟨p, hp, q, hq, h, -, hall⟩ := fm.window_some
  simp only [writableBase, writableEnd, h, Option.getD_some]
  obtain ⟨hp1, -, -⟩ := fm.acc.within p hp
  obtain ⟨hq1, hq2, hq3⟩ := fm.acc.within q hq
  exact ⟨hp1, Nat.dvd_add hq1 hq2, hq3, hall⟩

/-- `syn_flash_port_mcx_init`. -/
def port : Port where
  base := fm.writableBase
  size := fm.writableEnd - fm.writableBase
  sectorSize := sector
  pageSize := page
  mapped := true
  page_pos := by decide
  sector_pos := by decide
  page_dvd_sector := by decide
  sector_dvd_size := Nat.dvd_sub fm.window_spec.2.1 fm.window_spec.1
  window := by
    have h := fm.window_spec.2.2.1
    have : fm.writableBase ≤ fm.writableEnd := by
      obtain ⟨w, hmem, hw⟩ := fm.exists_writable
      have := fm.window_spec.2.2.2 w hmem hw
      omega
    unfold flashTotal at h
    omega

/-- `map_layout` of `syn_store_auto_init`. -/
def layout : Layout where
  registryOff
    | .zero => (fm.part .registryA).offset - fm.writableBase
    | .one => (fm.part .registryB).offset - fm.writableBase
  registrySize := (fm.part .registryA).size
  slotOff
    | 0 => (fm.part .slotA).offset - fm.writableBase
    | 1 => (fm.part .slotB).offset - fm.writableBase
    | _ => 0
  slotSize := (fm.part .slotA).size
  slotCount := 2

def config (maxSlots maxModels : Nat) (h : maxSlots ≤ 8) : Config :=
  ⟨fm.port, fm.layout, maxSlots, maxModels, h⟩

/-- The address that the port's commands reach at an offset, `p->base + off` in 32 bits,
whatever the offset is. -/
def address (off : Nat) : Nat := (fm.writableBase + off) % 2 ^ 32

/-- The offset at which a command reaches an address. -/
def offsetOf (a : Nat) : Nat := (a + 2 ^ 32 - fm.writableBase) % 2 ^ 32

/-- What the port's commands see of the flash of the chip. -/
def seen (flash : Mem) : Mem := fun off => flash (fm.address off)

/-- The flash of the chip, as commands left it that see it as `m`. -/
def chip (m : Mem) : Mem := fun a => m (fm.offsetOf a)

theorem writableBase_le : fm.writableBase ≤ flashTotal := by
  obtain ⟨w, hmem, hw⟩ := fm.exists_writable
  have := fm.window_spec.2.2.2 w hmem hw
  exact Nat.le_trans (by omega) fm.window_spec.2.2.1

theorem address_offsetOf {a : Nat} (ha : a < 2 ^ 32) : fm.address (fm.offsetOf a) = a := by
  have hb := fm.writableBase_le
  unfold flashTotal at hb
  unfold address offsetOf
  omega

-- ---------------------------------------------------------------------------
-- The store on the map
-- ---------------------------------------------------------------------------

/-- Where a partition is in the window. -/
def region (p : Partition) : Nat × Nat := (p.offset - fm.writableBase, p.size)

theorem regions_eq : fm.layout.regions = (storeIdents.map fm.part).map fm.region := by
  simp [Layout.regions, layout, storeIdents, region, List.range_succ, ← fm.registry_size,
    ← fm.slot_size]

theorem mem_parts (h : p ∈ storeIdents.map fm.part) : p ∈ fm.table ∧ p.ident ∈ storeIdents := by
  obtain ⟨ident, hi, rfl⟩ := List.mem_map.mp h
  obtain ⟨hmem, he⟩ := fm.part_mem hi
  exact ⟨hmem, he.symm ▸ hi⟩

/-- A partition of the store is in the window. -/
theorem store_within (hp : p ∈ fm.table) (hi : p.ident ∈ storeIdents) :
    fm.writableBase ≤ p.offset ∧ p.offset + p.size ≤ fm.writableEnd :=
  fm.window_spec.2.2.2 p hp (fm.store p hp hi).1

theorem parts_apart : (storeIdents.map fm.part).Pairwise fun p q => Before p q ∨ Before q p := by
  have hne : (storeIdents.map fm.part).Pairwise fun p q => p.ident ≠ q.ident := by
    refine List.pairwise_map.mpr (List.Pairwise.imp_of_mem (R := (· ≠ ·)) ?_ (by decide))
    intro i j hi hj hij
    rwa [(fm.part_mem hi).2, (fm.part_mem hj).2]
  refine hne.imp_of_mem fun hp hq hpq => ?_
  exact fm.acc.apart _ (fm.mem_parts hp).1 _ (fm.mem_parts hq).1 fun h => hpq (h ▸ rfl)

theorem sector_le (hi : ident ∈ storeIdents) : sector ≤ (fm.part ident).size := by
  obtain ⟨hmem, he⟩ := fm.part_mem hi
  exact Nat.le_of_dvd (fm.store _ hmem (he.symm ▸ hi)).2 (fm.acc.within _ hmem).2.1

variable {maxSlots maxModels : Nat}

/-- `layout_validate` accepts the map. -/
theorem layout_valid (h2 : 2 ≤ maxSlots) (h8 : maxSlots ≤ 8) :
    layoutValid (fm.config maxSlots maxModels h8) := by
  have hreg : 8192 ≤ (fm.part .registryA).size := fm.sector_le (by simp [storeIdents])
  have hslot : 8192 ≤ (fm.part .slotA).size := fm.sector_le (by simp [storeIdents])
  have himage : roundUp (imgSize 2) page ≤ 8192 := by decide
  have hpage : page ≤ ioBufSize ∧ ioBufSize % page = 0 := by decide
  refine ⟨Nat.le_refl 2, h2, Nat.ne_of_gt (Nat.lt_of_lt_of_le (by decide) hreg),
    Nat.ne_of_gt (Nat.lt_of_lt_of_le (by decide) hslot), himage.trans hreg,
    Nat.lt_of_lt_of_le (by decide) hslot, hpage.1, hpage.2, ?_, ?_⟩
  · intro r hr
    obtain ⟨p, hp, rfl⟩ := List.mem_map.mp (fm.regions_eq ▸ hr)
    obtain ⟨hmem, hi⟩ := fm.mem_parts hp
    obtain ⟨ho, hs, -⟩ := fm.acc.within p hmem
    obtain ⟨hlo, hhi⟩ := fm.store_within hmem hi
    refine ⟨Nat.mod_eq_zero_of_dvd (Nat.dvd_sub ho fm.window_spec.1), Nat.mod_eq_zero_of_dvd hs,
      ?_, ?_⟩
    · show p.offset - fm.writableBase ≤ fm.writableEnd - fm.writableBase
      omega
    · show p.size ≤ fm.writableEnd - fm.writableBase - (p.offset - fm.writableBase)
      omega
  · refine fm.regions_eq ▸ List.pairwise_map.mpr (fm.parts_apart.imp_of_mem ?_)
    intro p q hp hq hpq
    have hp' := fm.store_within (fm.mem_parts hp).1 (fm.mem_parts hp).2
    have hq' := fm.store_within (fm.mem_parts hq).1 (fm.mem_parts hq).2
    have hend := fm.window_spec.2.2.1
    have hno : ∀ x : Partition, x.offset + x.size ≤ fm.writableEnd →
        add32 (x.offset - fm.writableBase) x.size = x.offset - fm.writableBase + x.size := by
      intro x hx
      unfold flashTotal at hend
      exact Nat.mod_eq_of_lt (by omega)
    simp only [region, hno p hp'.2, hno q hq'.2]
    unfold Before at hpq
    omega

end FlashMap

section

variable {cfg : Config} {A : Nat → Prop} {t t' : Store} {a : Nat}

/-- What is outside every region stays as it was. -/
theorem isolated_outside (h : Isolated cfg A t t')
    (ha : ∀ r ∈ cfg.lay.regions, a < r.1 ∨ r.1 + r.2 ≤ a) :
    t'.flash.mem a = t.flash.mem a := by
  induction h with
  | refl => rfl
  | tail _ hp ih =>
    rw [← ih]
    cases hp with
    | quiet h => rw [h.1]
    | commit _ hs => exact hs.within.mem a (ha _ (layoutValid.copy_mem _))
    | slot i hi _ hs => exact hs.within.mem a (ha _ (layoutValid.slot_mem hi))

theorem run_outside (hv : layoutValid cfg) (m : Mem) (l : List (Env × Op))
    (ha : ∀ r ∈ cfg.lay.regions, a < r.1 ∨ r.1 + r.2 ≤ a) :
    (run (sysStep cfg) (Sys.cold m) l).store.flash.mem a = m a := by
  have hstep : ∀ s x, Fitting cfg s ∧ s.store.flash.mem a = m a →
      Fitting cfg (sysStep cfg s x) ∧ (sysStep cfg s x).store.flash.mem a = m a := fun s x h =>
    ⟨fitting_step hv h.1, (isolated_outside (isolated_step hv h.1).1 ha).trans h.2⟩
  exact (run_invariant (I := fun s => Fitting cfg s ∧ s.store.flash.mem a = m a) l
    ⟨fitting_run hv m [], rfl⟩ hstep).2

end

namespace FlashMap

variable (fm : FlashMap) {maxSlots maxModels : Nat} {a : Nat}

/-- An address outside the store's partitions is outside every region of the store; one
in front of the window wraps to an offset far behind it. -/
theorem offsetOf_outside (ha : a < flashTotal)
    (hout : ∀ q ∈ fm.table, q.ident ∈ storeIdents → a < q.offset ∨ q.offset + q.size ≤ a) :
    ∀ r ∈ fm.layout.regions, fm.offsetOf a < r.1 ∨ r.1 + r.2 ≤ fm.offsetOf a := by
  intro r hr
  obtain ⟨q, hq, rfl⟩ := List.mem_map.mp (fm.regions_eq ▸ hr)
  obtain ⟨hqm, hqi⟩ := fm.mem_parts hq
  have hwithin := fm.store_within hqm hqi
  have hend := fm.window_spec.2.2.1
  have hbase := fm.writableBase_le
  have h := hout q hqm hqi
  unfold flashTotal at ha hend hbase
  unfold offsetOf
  simp only [region]
  omega

/-- In every run, what is outside the store's partitions stays as it was. -/
theorem chip_run {h8 : maxSlots ≤ 8} (hv : layoutValid (fm.config maxSlots maxModels h8)) (flash : Mem)
    (l : List (Env × Op)) (ha : a < flashTotal)
    (hout : ∀ q ∈ fm.table, q.ident ∈ storeIdents → a < q.offset ∨ q.offset + q.size ≤ a) :
    fm.chip (run (sysStep (fm.config maxSlots maxModels h8))
      (Sys.cold (fm.seen flash)) l).store.flash.mem a = flash a := by
  have hkept := run_outside hv (fm.seen flash) l (fm.offsetOf_outside ha hout)
  have haddr : fm.address (fm.offsetOf a) = a :=
    fm.address_offsetOf (Nat.lt_trans ha (by decide))
  unfold chip
  rw [hkept, seen, haddr]

end FlashMap

/-- Whatever table of partitions the tool takes: the store accepts the map, and in every run, with
calls, faults of the flash and power cycles in any order, the bytes of all other partitions, the
images of the two cores among them, stay as they are. -/
theorem map_keeps_others (fm : FlashMap) (maxSlots maxModels : Nat) (h2 : 2 ≤ maxSlots)
    (h8 : maxSlots ≤ 8) :
    let cfg := fm.config maxSlots maxModels h8
    layoutValid cfg ∧
    ∀ (flash : Mem) (l : List (Env × Op)), ∀ p ∈ fm.table, p.ident ∉ storeIdents →
      ∀ a, p.offset ≤ a → a < p.offset + p.size →
        fm.chip (run (sysStep cfg) (Sys.cold (fm.seen flash)) l).store.flash.mem a = flash a := by
  have hv : layoutValid (fm.config maxSlots maxModels h8) := fm.layout_valid h2 h8
  refine ⟨hv, fun flash l p hp hi a hlo hhi => fm.chip_run hv flash l ?_ fun q hq hqi => ?_⟩
  · have := (fm.acc.within p hp).2.2
    omega
  · have := fm.acc.apart p hp q hq fun h => hi (h ▸ hqi)
    unfold Before at this
    omega

/-- A log lies between the slots, in the window. -/
def loggedMap : FlashMap where
  table :=
    [⟨.cpu0Fw, "cpu0-firmware", 0x000000, 0x100000, true, false⟩,
      ⟨.cpu1Img, "cpu1-image", 0x100000, 0x020000, true, false⟩,
      ⟨.registryA, "syn-registry-a", 0x120000, 0x002000, false, true⟩,
      ⟨.registryB, "syn-registry-b", 0x122000, 0x002000, false, true⟩,
      ⟨.slotA, "syn-model-slot-a", 0x124000, 0x06A000, false, true⟩,
      ⟨.other "LOG", "log", 0x18E000, 0x008000, false, false⟩,
      ⟨.slotB, "syn-model-slot-b", 0x196000, 0x06A000, false, true⟩]
  valid := by decide
  distinct := by decide
  store := by decide

theorem map_keeps_others_logged :
    (∀ (flash : Mem) (l : List (Env × Op)),
      boardMap.chip (run (sysStep (boardMap.config 2 4 (by decide)))
        (Sys.cold (boardMap.seen flash)) l).store.flash.mem 0x100000 = flash 0x100000) ∧
    loggedMap.writableBase ≤ 0x18E000 ∧ 0x18E000 < loggedMap.writableEnd ∧
    ∀ (flash : Mem) (l : List (Env × Op)),
      loggedMap.chip (run (sysStep (loggedMap.config 2 4 (by decide)))
        (Sys.cold (loggedMap.seen flash)) l).store.flash.mem 0x18E000 = flash 0x18E000 := by
  refine ⟨fun flash l => ?_, by decide, by decide, fun flash l => ?_⟩
  · exact (map_keeps_others boardMap 2 4 (by decide) (by decide)).2 flash l
      ⟨.cpu1Img, "cpu1-image", 0x100000, 0x020000, true, false⟩ (by decide) (by decide) 0x100000
        (by decide) (by decide)
  · exact (map_keeps_others loggedMap 2 4 (by decide) (by decide)).2 flash l
      ⟨.other "LOG", "log", 0x18E000, 0x008000, false, false⟩ (by decide) (by decide) 0x18E000
        (by decide) (by decide)

end SynapticOS.Tools.Partitions
