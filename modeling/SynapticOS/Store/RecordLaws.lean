import SynapticOS.Store.OpsLaws

/-!
# Records and their payloads

`RegOk` says that every occupied slot of a registry holds the payload its record
describes. It depends on the bytes of the occupied slots only, so commits keep
it, and so does filling a slot that is free.
-/

namespace SynapticOS

open Lib

variable {cfg : Config} {m m' : Mem} {r x : Reg} {info : ModelInfo} {slot : Nat}

/-- A slot holds the payload that `info` describes. -/
structure RecordOk (cfg : Config) (m : Mem) (slot : Nat) (info : ModelInfo) : Prop where
  fits : synmHdrSize + info.flashSize.toNat ≤ cfg.lay.slotSize
  crc : PayloadCrc cfg m slot info.flashSize.toNat info.crc32

/-- Every occupied slot holds the payload of its record. -/
def RegOk (cfg : Config) (m : Mem) (r : Reg) : Prop :=
  ∀ slot, r.occupied slot → slot < cfg.lay.slotCount ∧ RecordOk cfg m slot (r.record slot)

theorem RecordOk.congr (h : RecordOk cfg m slot info)
    (hs : Mem.SameOn (cfg.lay.slotOff slot) (cfg.lay.slotOff slot + cfg.lay.slotSize) m m') :
    RecordOk cfg m' slot info where
  fits := h.fits
  crc := by
    have hfit := h.fits
    rw [PayloadCrc, Mem.read_congr (m := m)]
    · exact h.crc
    · exact hs.mono (Nat.le_add_right _ _) (by simp only [payloadOff]; omega)

theorem RegOk.congr (h : RegOk cfg m r) (hs : ∀ slot, slot < cfg.lay.slotCount → r.occupied slot →
    Mem.SameOn (cfg.lay.slotOff slot) (cfg.lay.slotOff slot + cfg.lay.slotSize) m m') :
    RegOk cfg m' r := by
  intro slot ho
  obtain ⟨hlt, hr⟩ := h slot ho
  exact ⟨hlt, hr.congr (hs slot hlt ho)⟩

theorem RegOk.empty (cfg : Config) (m : Mem) : RegOk cfg m Reg.empty := by
  intro slot ho
  simp [Reg.occupied, Reg.empty] at ho

/-- A commit touches no slot. -/
theorem RegOk.commitFrame {s s' : Store} (h : RegOk cfg s.flash.mem r) (hv : layoutValid cfg)
    (hc : CommitFrame cfg s s') : RegOk cfg s'.flash.mem r :=
  h.congr fun _ hlt _ => hc.slot hv hlt

/-- Filling a free slot touches no occupied one. -/
theorem RegOk.filled {s s' : Store} (h : RegOk cfg s.flash.mem r) (hv : layoutValid cfg)
    (hs : slot < cfg.lay.slotCount) (hn : ¬r.occupied slot) (hf : Filled cfg slot s s') :
    RegOk cfg s'.flash.mem r := by
  refine h.congr fun i hlt ho => hf.otherSlot hv hs hlt ?_
  rintro rfl
  exact hn ho

-- ---------------------------------------------------------------------------
-- Updates
-- ---------------------------------------------------------------------------

/-- An update that occupies no new slot and keeps the records of the others. -/
theorem RegOk.of_subset (h : RegOk cfg m r) (ho : ∀ i, x.occupied i → r.occupied i)
    (hrec : x.record = r.record) : RegOk cfg m x := by
  intro i hi
  rw [hrec]
  exact h i (ho i hi)

theorem RegOk.of_generation (h : RegOk cfg m r) (g : UInt32) :
    RegOk cfg m { r with generation := g } := h

/-- An update that puts one record in. -/
theorem RegOk.of_insert (h : RegOk cfg m r) (hs : slot < cfg.lay.slotCount)
    (hr : RecordOk cfg m slot info) (ho : ∀ i, x.occupied i → r.occupied i ∨ i = slot)
    (hrec : x.record = Function.update r.record slot info) : RegOk cfg m x := by
  intro i hi
  rw [hrec]
  by_cases hne : i = slot
  · subst hne
    rw [Function.update_self]
    exact ⟨hs, hr⟩
  · rw [Function.update_of_ne hne]
    exact h i ((ho i hi).resolve_right hne)

theorem RegOk.markStaged (h : RegOk cfg m r) (hv : layoutValid cfg) (hs : slot < cfg.lay.slotCount)
    (hr : RecordOk cfg m slot info) : RegOk cfg m ((Reg.markStaged slot info).apply r) :=
  h.of_insert hs hr (fun _ hi => (Reg.occupied_markStaged (Nat.lt_of_lt_of_le hs hv.count_le)).mp hi) rfl

theorem RegOk.install (h : RegOk cfg m r) (hv : layoutValid cfg) (hs : slot < cfg.lay.slotCount)
    (hr : RecordOk cfg m slot info) : RegOk cfg m ((Reg.install slot info).apply r) :=
  h.of_insert hs hr (fun _ hi => (Reg.occupied_install (Nat.lt_of_lt_of_le hs hv.count_le)).mp hi) rfl

/-- The record of an installation describes the payload that was checked. -/
theorem recordOk_install (hv : layoutValid cfg) (hs : slot < cfg.lay.slotCount)
    {data : List UInt8} (hfit : synmHdrSize + data.length ≤ cfg.lay.slotSize)
    (hcrc : PayloadCrc cfg m slot data.length (crc32Ieee data)) :
    RecordOk cfg m slot (installRecord cfg slot info data) := by
  have hwin := hv.slot_in_window hs
  have hport := cfg.port.window
  have hlen : (UInt32.ofNat data.length).toNat = data.length :=
    UInt32.toNat_ofNat_of_lt' (by show data.length < 2 ^ 32; omega)
  refine ⟨?_, ?_⟩
  · show synmHdrSize + (UInt32.ofNat data.length).toNat ≤ _
    rw [hlen]
    exact hfit
  · show PayloadCrc cfg m slot (UInt32.ofNat data.length).toNat (crc32Ieee data)
    rw [hlen]
    exact hcrc

end SynapticOS
