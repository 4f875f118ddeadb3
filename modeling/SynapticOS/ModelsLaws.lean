import SynapticOS.Models
import SynapticOS.Registry

/-!
# The catalog of the RAM registry

The catalog is the table without the flags of the NPU: which models are
registered, with which payload. Loading and unloading leave it alone
(`SameCat`).
-/

namespace SynapticOS

open Lib

/-- A registered model and its payload. -/
structure Entry where
  info : ModelInfo
  data : Option DataPtr
  dataSize : Nat

def ModelSlot.entry (s : ModelSlot) : Entry := ⟨s.info, s.data, s.dataSize⟩

namespace Models

def cat (m : Models) (i : Nat) : Option Entry := (m.slots i).map ModelSlot.entry

/-- The same models are registered and the same jobs suspended. -/
structure SameCat (m m' : Models) : Prop where
  cat : m'.cat = m.cat
  suspended : m'.suspended = m.suspended

instance : IsPreorder Models SameCat where
  refl _ := ⟨rfl, rfl⟩
  trans _ _ _ h h' := ⟨h'.cat.trans h.cat, h'.suspended.trans h.suspended⟩

variable {m m' : Models} {n h i : Nat} {s : ModelSlot}

theorem cat_setSlot (m : Models) (i : Nat) (s : Option ModelSlot) :
    (m.setSlot i s).cat = Function.update m.cat i (s.map ModelSlot.entry) := by
  funext j
  simp only [cat, setSlot, Function.update_apply]
  split <;> rfl

theorem entry_some (h : m.entry n hd = some (i, s)) : m.slots i = some s ∧ i < n ∧ hd = i + 1 := by
  unfold entry handleToIndex at h
  split at h
  · cases h
  · rename_i hne
    simp only [Option.bind_some, Option.map_eq_some_iff, Prod.mk.injEq] at h
    obtain ⟨t, ht, rfl, rfl⟩ := h
    exact ⟨ht, by omega, by omega⟩

theorem entry_of_slot (hs : m.slots i = some s) (hi : i < n) : m.entry n (i + 1) = some (i, s) := by
  unfold entry handleToIndex
  rw [if_neg (by omega)]
  simp [hs]

theorem entry_of_free (hs : m.slots i = none) : m.entry n (i + 1) = none := by
  unfold entry handleToIndex
  split
  · rfl
  · simp [hs]

/-- Changing the flags of an entry leaves the catalog alone. -/
theorem sameCat_setSlot (hs : m.cat i = some s.entry) : SameCat m (m.setSlot i (some s)) where
  cat := by
    rw [cat_setSlot, Option.map_some]
    exact Function.update_eq_self_iff.mpr hs.symm
  suspended := rfl

theorem cat_of_slot (hs : m.slots i = some s) : m.cat i = some s.entry := by simp [cat, hs]

theorem sameCat_unload (n hd : Nat) : Respects SameCat (unload n hd) := by
  intro m
  unfold unload
  rw [Act.run_bind, Act.run_get]
  dsimp only
  split
  · exact Std.Refl.refl m
  · rename_i i s he
    split
    · exact Std.Refl.refl m
    · split
      · exact Std.Refl.refl m
      · have hset : SameCat m (m.setSlot i (some { s with loaded := false })) :=
          sameCat_setSlot ((cat_of_slot (entry_some he).1).trans rfl)
        rw [Act.run_bind, Act.run_modify]
        dsimp only
        split
        · exact ⟨hset.cat, hset.suspended⟩
        · exact hset

theorem sameCat_halLoadSlot (mem : Mem) (s : ModelSlot) : Respects SameCat (halLoadSlot mem s) := by
  have hhal : Respects SameCat halLoad := by
    intro m
    simp only [Act.run, halLoad]
    split
    · exact Std.Refl.refl m
    · exact ⟨rfl, rfl⟩
  unfold halLoadSlot
  split
  · exact Respects.ite (Respects.bind Respects.get fun m => Respects.ite (Respects.throw _)
      (Respects.bind hhal fun _ => Respects.modify fun _ => ⟨rfl, rfl⟩)) (Respects.pure' ())
  · exact Respects.pure' ()

theorem sameCat_load (n : Nat) (mem : Mem) (hd : Nat) : Respects SameCat (load n mem hd) := by
  intro m
  unfold load
  rw [Act.run_bind, Act.run_get]
  dsimp only
  split
  · exact Std.Refl.refl m
  · rename_i i s he
    split
    · exact Std.Refl.refl m
    · have hhal := sameCat_halLoadSlot mem s m
      rw [Act.run_bind]
      split
      · rename_i m₁ hr
        rw [hr] at hhal
        refine IsTrans.trans _ _ _ hhal (sameCat_setSlot ?_)
        rw [hhal.cat]
        exact (cat_of_slot (entry_some he).1).trans rfl
      · rename_i m₁ hr
        rw [hr] at hhal
        exact hhal

-- ---------------------------------------------------------------------------
-- As a registry
-- ---------------------------------------------------------------------------

def row (s : ModelSlot) : Row (List UInt8) DataPtr := ⟨s.info.cname, s.loaded, s.data⟩

def view (n : Nat) (m : Models) : Registry (List UInt8) DataPtr :=
  ⟨fun h => (m.entry n h).map fun p => row p.2, m.resident⟩

theorem view_some (he : m.entry n h = some (i, s)) : (m.view n).rows h = some (row s) :=
  congrArg (Option.map _) he

theorem view_payload (he : m.entry n h = some (i, s)) : (m.view n).payload h = s.data := by
  unfold Registry.payload
  rw [view_some he]
  rfl

theorem view_none (he : m.entry n h = none) : (m.view n).rows h = none :=
  congrArg (Option.map _) he

theorem view_rows {x : Row (List UInt8) DataPtr} (hx : (m.view n).rows h = some x) :
    ∃ i s, m.slots i = some s ∧ i < n ∧ h = i + 1 ∧ row s = x := by
  obtain ⟨⟨i, s⟩, he, hr⟩ := Option.map_eq_some_iff.mp hx
  obtain ⟨hs, hi, hh⟩ := entry_some he
  exact ⟨i, s, hs, hi, hh, hr⟩

theorem entry_setSlot (m : Models) (hi : i < n) (x : Option ModelSlot) (h : Nat) :
    (m.setSlot i x).entry n h = if h = i + 1 then x.map (i, ·) else m.entry n h := by
  unfold entry handleToIndex
  by_cases hh : h = 0 ∨ n < h
  · rw [if_pos hh, if_neg (by omega)]
    rfl
  · rw [if_neg hh, Option.bind_some, Option.bind_some]
    show (Function.update m.slots i x (h - 1)).map _ = _
    rw [Function.update_apply]
    by_cases he : h = i + 1
    · rw [if_pos he, if_pos (by omega)]
      have hidx : h - 1 = i := by omega
      rw [hidx]
    · rw [if_neg he, if_neg (by omega)]

theorem view_setSlot (m : Models) (hi : i < n) (x : Option ModelSlot) :
    (m.setSlot i x).view n = (m.view n).put (i + 1) (x.map row) := by
  refine Registry.ext (funext fun h => ?_) rfl
  show ((m.setSlot i x).entry n h).map _ = Function.update (m.view n).rows (i + 1) (x.map row) h
  rw [entry_setSlot m hi, Function.update_apply]
  split
  · cases x <;> rfl
  · rfl

/-- Changing an entry is changing its row. -/
theorem view_edit (he : m.entry n h = some (i, s)) {f : ModelSlot → ModelSlot}
    {g : Row (List UInt8) DataPtr → Row (List UInt8) DataPtr} (hg : row (f s) = g (row s)) :
    (m.setSlot i (some (f s))).view n = (m.view n).edit h g := by
  obtain ⟨-, hi, rfl⟩ := entry_some he
  rw [view_setSlot m hi]
  unfold Registry.edit
  rw [view_some he, Option.map_some, Option.map_some, hg]

theorem view_find (n : Nat) (name : List UInt8) (m : Models) :
    (m.view n).find n name = (m.findName n name).map (· + 1) := by
  unfold Registry.find findName
  rw [List.find?_map]
  refine congrArg (Option.map _) (List.find?_congr fun i hi => ?_)
  show ((m.entry n (i + 1)).map _).any _ = _
  cases hs : m.slots i with
  | none => rw [entry_of_free hs]; rfl
  | some s =>
    rw [entry_of_slot hs (List.mem_range.mp hi)]
    rfl

theorem view_free (n : Nat) (m : Models) :
    (m.view n).free n = (m.findFree n).map (· + 1) := by
  unfold Registry.free findFree
  rw [List.find?_map]
  refine congrArg (Option.map _) (List.find?_congr fun i hi => ?_)
  show ((m.entry n (i + 1)).map _).isNone = _
  cases hs : m.slots i with
  | none => rw [entry_of_free hs]; rfl
  | some s =>
    rw [entry_of_slot hs (List.mem_range.mp hi)]
    rfl

theorem view_register (n : Nat) (info : ModelInfo) (m : Models) :
    ((register n info).run m).2.view n = (m.view n).register n info.cname := by
  unfold Registry.register
  rw [view_find, view_free]
  cases hn : m.findName n info.cname with
  | some i => simp [register, Act.run_bind, hn]
  | none =>
    cases hf : m.findFree n with
    | none => simp [register, Act.run_bind, hn, hf]
    | some i =>
      have hi : i < n := List.mem_range.mp (List.mem_of_find?_eq_some hf)
      simp only [register, Act.run_bind, Act.run_get, hn, hf]
      exact view_setSlot m hi _

theorem view_setData (n h : Nat) (data : Option DataPtr) (size : Nat) (m : Models) :
    ((setData n h data size).run m).2.view n =
      if data.isSome ∧ size = 0 then m.view n else (m.view n).setData h data := by
  unfold setData
  rw [Act.run_bind, Act.run_get]
  dsimp only
  cases he : m.entry n h with
  | none =>
    have hset : (m.view n).setData h data = m.view n := Registry.edit_of_none (view_none he) _
    rw [hset, ite_self]
    rfl
  | some p =>
    obtain ⟨i, s⟩ := p
    dsimp only
    rw [Act.run_ite]
    split
    · rfl
    · exact view_edit (f := fun s =>
        { s with data := data, dataSize := if data.isSome then size else 0 }) he rfl

theorem resident_halLoadSlot (mem : Mem) (m : Models) (hs : s.data ≠ none → 0 < s.dataSize) :
    Triple (halLoadSlot mem s) m
      (fun _ m' => m'.slots = m.slots ∧ m'.resident = s.data.or m.resident)
      (fun _ m' => m'.slots = m.slots ∧ m'.resident = m.resident ∧ s.data ≠ none) := by
  have hhal : Ends halLoad m fun m' => m'.slots = m.slots ∧ m'.resident = m.resident := by
    unfold Ends
    simp only [Act.run, halLoad]
    split
    · exact ⟨rfl, rfl⟩
    · exact ⟨rfl, rfl⟩
  unfold halLoadSlot
  cases hd : s.data with
  | none => exact Triple.pure' ⟨rfl, rfl⟩
  | some d =>
    have hne : some d ≠ none := Option.some_ne_none d
    dsimp only
    rw [if_pos (hs (hd ▸ hne))]
    refine Triple.get_bind (Triple.ite (fun _ => Triple.throw ⟨rfl, rfl, hne⟩) fun _ => ?_)
    refine (hhal.triple.mono (fun _ _ h => h) fun _ _ h => ⟨h.1, h.2, hne⟩).bind ?_
    exact fun _ _ h => Triple.modify ⟨h.1, rfl⟩

theorem view_of_slots (hs : m'.slots = m.slots) :
    m'.view n = { m.view n with resident := m'.resident } := by
  unfold view entry
  rw [hs]

/-- A row with a payload has its size, as `setData` sees to. -/
theorem view_load (mem : Mem)
    (hs : ∀ i s, m.entry n h = some (i, s) → s.data ≠ none → 0 < s.dataSize) :
    ∃ ok, ((load n mem h).run m).2.view n = (m.view n).load h ok := by
  unfold Registry.load Registry.bring load
  rw [Act.run_bind, Act.run_get]
  dsimp only
  cases he : m.entry n h with
  | none =>
    refine ⟨true, ?_⟩
    have hset : (m.view n).setLoaded h true = m.view n := Registry.edit_of_none (view_none he) _
    unfold Registry.payload
    rw [view_none he, hset]
    rfl
  | some p =>
    obtain ⟨i, s⟩ := p
    rw [view_some he, view_payload he]
    dsimp only
    rw [Option.any_some]
    unfold row
    cases hl : s.loaded with
    | true => exact ⟨true, rfl⟩
    | false =>
      have hspec := resident_halLoadSlot mem m (hs i s he)
      simp only [Bool.false_eq_true, ↓reduceIte, Act.run_bind]
      cases hr : (halLoadSlot mem s).run m with
      | mk x m' =>
        cases x with
        | error e =>
          obtain ⟨hslots, hres, hne⟩ := hspec.error hr
          obtain ⟨d, hd⟩ := Option.ne_none_iff_exists'.mp hne
          refine ⟨false, ?_⟩
          rw [hd]
          exact (view_of_slots hslots).trans (by rw [hres]; rfl)
        | ok u =>
          obtain ⟨hslots, hres⟩ := hspec.ok hr
          have he' : m'.entry n h = some (i, s) := by rw [← he, entry, entry, hslots]
          have hset : (m'.setSlot i (some { s with loaded := true })).view n =
              (m'.view n).setLoaded h true :=
            view_edit (f := fun s => { s with loaded := true }) he' rfl
          refine ⟨true, hset.trans ?_⟩
          rw [view_of_slots hslots, hres]
          cases s.data with
          | none => rfl
          | some d => rfl

theorem view_unload (n h : Nat) (m : Models) :
    ((unload n h).run m).2.view n = (m.view n).unload h (m.suspended h) := by
  unfold unload
  rw [Act.run_bind, Act.run_get]
  dsimp only
  cases he : m.entry n h with
  | none =>
    have hl : ((m.view n).rows h).any Row.loaded = false := by rw [view_none he]; rfl
    exact (Registry.unload_of_not hl _).symm
  | some p =>
    obtain ⟨i, s⟩ := p
    have hset : (m.setSlot i (some { s with loaded := false })).view n =
        (m.view n).setLoaded h false :=
      view_edit (f := fun s => { s with loaded := false }) he rfl
    have hany : ((m.view n).rows h).any Row.loaded = s.loaded := by rw [view_some he]; rfl
    dsimp only
    rw [Act.run_ite]
    split
    · rename_i hl
      exact (Registry.unload_of_not (hany.trans hl) _).symm
    · rename_i hl
      rw [Act.run_ite]
      split
      · rename_i hb
        rw [hb]
        exact (Registry.unload_of_suspended h _).symm
      · rename_i hb
        have hres : (m.view n).resident = m.resident := rfl
        rw [Bool.not_eq_true] at hb
        rw [Bool.not_eq_false] at hl
        rw [hb, Registry.unload_of_loaded (hany.trans hl), view_payload he, hres, ← hset,
          Act.run_bind, Act.run_modify]
        dsimp only
        rw [Act.run_ite]
        split
        · rfl
        · rfl

theorem view_unregister (n h : Nat) (m : Models) :
    ((unregister n h).run m).2.view n = (m.view n).unregister h (m.suspended h) := by
  unfold Registry.unregister unregister
  rw [Act.run_bind, Act.run_get]
  dsimp only
  cases he : m.entry n h with
  | none =>
    have hl : ((m.view n).rows h).any Row.loaded = false := by rw [view_none he]; rfl
    have hput : (m.view n).put h none = m.view n :=
      Registry.ext (Function.update_eq_self_iff.mpr (view_none he).symm) rfl
    rw [Registry.unload_of_not hl, hput, ite_self]
    rfl
  | some p =>
    obtain ⟨i, s⟩ := p
    obtain ⟨-, hi, rfl⟩ := entry_some he
    have hany : ((m.view n).rows (i + 1)).any Row.loaded = s.loaded := by rw [view_some he]; rfl
    dsimp only
    cases hb : m.suspended (i + 1) with
    | true => rfl
    | false =>
      simp only [Bool.false_eq_true, ↓reduceIte, Act.run_bind, Act.run_attempt, Act.run_modify]
      rw [view_setSlot _ hi]
      refine congrArg (Registry.put (i + 1) none) ?_
      cases hl : s.loaded with
      | true => rw [if_pos rfl, view_unload, hb]
      | false => exact (Registry.unload_of_not (hany.trans hl) _).symm

end Models

end SynapticOS
