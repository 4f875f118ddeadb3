import SynapticOS.Store.Residents

/-!
# Registering the models of the slots

`ram_register` by what it finds: the name, an entry, the jobs of the model that has the
name. No call gives two entries one name, and the flags of the NPU do not matter to a
registration.
-/

namespace SynapticOS

open Lib

-- ---------------------------------------------------------------------------
-- Registering
-- ---------------------------------------------------------------------------

namespace Models

variable {m m' : Models} {n h i : Nat} {e : ModelSlot} {name : List UInt8} {info : ModelInfo}

theorem findName_none : m.findName n name = none ↔
    ∀ i < n, ∀ e, m.slots i = some e → e.info.cname ≠ name := by
  rw [findName, List.find?_eq_none]
  simp only [List.mem_range, Option.any_eq_true, decide_eq_true_eq, not_exists, not_and]

/-- A name that nobody has leads to the entry that takes it. -/
theorem findName_insert (hn : m.findName n name = none) (hi : i < n) (he : e.info.cname = name) :
    (m.setSlot i (some e)).findName n name = some i := by
  rw [findName, List.find?_range_eq_some]
  refine ⟨by simp [setSlot, he], List.mem_range.mpr hi, fun j hj => ?_⟩
  have hfree := findName_none.mp hn j (by omega)
  simp only [setSlot, Function.update_of_ne (Nat.ne_of_lt hj)]
  cases hs : m.slots j with
  | none => rfl
  | some e' => simpa [hs] using hfree e' hs

/-- No two entries have one name. -/
def Distinct (n : Nat) (m : Models) : Prop :=
  ∀ i < n, ∀ j < n, ∀ a b, m.slots i = some a → m.slots j = some b → a.info.cname = b.info.cname →
    i = j

theorem findFree_some (h : m.findFree n = some i) : i < n ∧ m.slots i = none := by
  have hp := List.find?_some h
  exact ⟨List.mem_range.mp (List.mem_of_find?_eq_some h), by simpa using hp⟩

theorem findFree_of_none (hi : i < n) (hs : m.slots i = none) : m.findFree n ≠ none := by
  intro h
  rw [findFree, List.find?_eq_none] at h
  exact h i (List.mem_range.mpr hi) (by simp [hs])

theorem getByName_none (hn : m.findName n name = none) : m.getByName n name = .error .enoent := by
  rw [getByName, hn]

end Models

section
variable {n hd i : Nat} {info : ModelInfo} {m m' : Models} {d : DataPtr} {e : ModelSlot}

theorem slotHandle_of_find (hf : m.findName n info.cname = some i) (he : m.slots i = some e)
    (hi : i < n) (ho : e.info.flashOffset = info.flashOffset) : slotHandle n info m =
        some (i + 1) := by
  rw [slotHandle, Models.getByName, hf]
  dsimp only
  rw [Models.getInfo_ok (Models.entry_of_slot he hi)]
  dsimp only
  rw [if_pos ho]

theorem slotHandle_none (hf : m.findName n info.cname = none) : slotHandle n info m = none := by
  rw [slotHandle, Models.getByName_none hf]

/-- The model of a record is registered with this payload. -/
def Attached (n : Nat) (info : ModelInfo) (d : DataPtr) (m : Models) : Prop :=
  ∃ h e, slotHandle n info m = some h ∧ m.entry n h = some (h - 1, e) ∧ e.data = some d ∧
    e.dataSize = info.flashSize.toNat

/-- The way of a new entry into the table, and of its payload to it. -/
theorem ramInsert_run (hn : m.findName n info.cname = none) (d : DataPtr) :
    (m.findFree n = none ∧ (ramInsert n (some d) info).run m = (.error .enomem, m)) ∨
    ∃ i, m.findFree n = some i ∧ (ramInsert n (some d) info).run m = (.ok (i + 1),
      m.setSlot i (some (if info.flashSize = 0 then ⟨false, info, none, 0⟩
        else ⟨false, info, some d, info.flashSize.toNat⟩))) := by
  unfold ramInsert
  cases hf : m.findFree n with
  | none =>
    have hreg : (Models.register n info).run m = (.error .enomem, m) := by
      unfold Models.register
      rw [Act.run_bind, Act.run_get]
      dsimp only
      rw [hn, hf]
      rfl
    exact .inl ⟨rfl, Act.run_bind_error hreg⟩
  | some i =>
    have hreg : (Models.register n info).run m =
        (.ok (i + 1), m.setSlot i (some ⟨false, info, none, 0⟩)) := by
      unfold Models.register
      rw [Act.run_bind, Act.run_get]
      dsimp only
      rw [hn, hf]
      rfl
    rw [Act.run_bind_ok hreg]
    refine .inr ⟨i, rfl, ?_⟩
    obtain ⟨hi, -⟩ := Models.findFree_some hf
    have he : (m.setSlot i (some ⟨false, info, none, 0⟩)).entry n (i + 1) =
        some (i, ⟨false, info, none, 0⟩) :=
      Models.entry_of_slot (Function.update_self ..) hi
    dsimp only
    rw [Act.run_bind, Act.run_attempt]
    have hdata : ((Models.setData n (i + 1) (some d) info.flashSize.toNat).run
        (m.setSlot i (some ⟨false, info, none, 0⟩))).2 =
          m.setSlot i (some (if info.flashSize = 0 then ⟨false, info, none, 0⟩
            else ⟨false, info, some d, info.flashSize.toNat⟩)) := by
      unfold Models.setData
      rw [Act.run_bind, Act.run_get]
      dsimp only
      rw [he]
      dsimp only
      by_cases h0 : info.flashSize = 0
      · rw [if_pos h0, if_pos ⟨rfl, by rw [h0]; rfl⟩]
        rfl
      · have hne : info.flashSize.toNat ≠ 0 := fun h => h0 (UInt32.toNat_inj.mp h)
        rw [if_neg h0, if_neg (fun h => hne h.2)]
        simp [Models.setSlot]
    rw [hdata]
    rfl

/-- The model that was inserted. -/
theorem inserted_attached (hn : m.findName n info.cname = none) (hf : m.findFree n = some i)
    (d : DataPtr) :
    let m' := m.setSlot i (some (if info.flashSize = 0 then ⟨false, info, none, 0⟩
      else ⟨false, info, some d, info.flashSize.toNat⟩))
    slotHandle n info m' = some (i + 1) ∧ (Attached n info d m' ↔ info.flashSize ≠ 0) := by
  dsimp only
  obtain ⟨hi, -⟩ := Models.findFree_some hf
  generalize he : (if info.flashSize = 0 then (⟨false, info, none, 0⟩ : ModelSlot)
    else ⟨false, info, some d, info.flashSize.toNat⟩) = e
  have hinfo : e.info = info := by
    rw [← he]
    split <;> rfl
  have hslot : (m.setSlot i (some e)).slots i = some e := Function.update_self ..
  have hh : slotHandle n info (m.setSlot i (some e)) = some (i + 1) :=
    slotHandle_of_find (Models.findName_insert hn hi (by rw [hinfo])) hslot hi (by rw [hinfo])
  have hent := Models.entry_of_slot hslot hi
  refine ⟨hh, ?_⟩
  constructor
  · rintro ⟨h, e', hh', he', hd, -⟩ h0
    rw [hh] at hh'
    cases hh'
    rw [hent] at he'
    cases he'
    rw [← he, if_pos h0] at hd
    cases hd
  · intro h0
    refine ⟨i + 1, e, hh, hent, ?_, ?_⟩
    · rw [← he, if_neg h0]
    · rw [← he, if_neg h0]

/-- The registration of a record succeeds and attaches its payload: the name is free
and so is an entry, or its model is there with its payload, or another model has the
name and may go. -/
def Registrable (n : Nat) (info : ModelInfo) (d : DataPtr) (m : Models) : Prop :=
  match m.getByName n info.cname with
  | .error _ => m.findFree n ≠ none ∧ info.flashSize ≠ 0
  | .ok h =>
    if slotHandle n info m = some h then Attached n info d m
    else m.suspended h = false ∧ info.flashSize ≠ 0

/-- A successful or failed `ram_register`, and what became of the model. -/
theorem ramRegister_spec (hdist : Models.Distinct n m) (info : ModelInfo) (d : DataPtr) :
    Triple (ramRegister n (some d) info) m
      (fun h m' => slotHandle n info m' = some h ∧ (Attached n info d m' ↔ Registrable n info d m) ∧
        m'.hal = m.hal ∧ m'.app = m.app)
      (fun _ m' => ¬Attached n info d m' ∧ ¬Registrable n info d m) := by
  have hinsert : ∀ m₁ : Models, m₁.findName n info.cname = none →
      Triple (ramInsert n (some d) info) m₁
        (fun h m' => slotHandle n info m' = some h ∧ m₁.findFree n ≠ none ∧
          (Attached n info d m' ↔ info.flashSize ≠ 0) ∧ m'.hal = m₁.hal ∧ m'.app = m₁.app)
        (fun _ m' => m' = m₁ ∧ m₁.findFree n = none) := by
    intro m₁ hn
    rcases ramInsert_run hn d with ⟨hf, hr⟩ | ⟨i, hf, hr⟩
    · exact Triple.of_run_error hr ⟨rfl, hf⟩
    · obtain ⟨h1, h2⟩ := inserted_attached hn hf d
      exact Triple.of_run hr ⟨h1, by rw [hf]; simp, h2, rfl, rfl⟩
  have hnone : ∀ m₁ : Models, m₁.findName n info.cname = none → ¬Attached n info d m₁ := by
    rintro m₁ hn ⟨h, e, hh, -⟩
    rw [slotHandle_none hn] at hh
    cases hh
  unfold ramRegister Registrable
  refine Triple.get_bind ?_
  cases hg : m.getByName n info.cname with
  | error x =>
    have hn : m.findName n info.cname = none := by
      unfold Models.getByName at hg
      split at hg
      next => cases hg
      next h => exact h
    dsimp only
    refine (hinsert m hn).mono ?_ ?_
    · rintro h m' ⟨h1, h2, h3, h4⟩
      exact ⟨h1, h3.trans (and_iff_right h2).symm, h4⟩
    · rintro _ m' ⟨rfl, hf⟩
      exact ⟨hnone _ hn, fun h => h.1 hf⟩
  | ok h =>
    obtain ⟨e, he, hname⟩ := Models.getByName_ok hg
    obtain ⟨hslot, hlt, hh⟩ := Models.entry_some he
    have hany : ((m.getInfo n h).toOption.any fun held => held.flashOffset = info.flashOffset) =
        true ↔
        slotHandle n info m = some h := by
      rw [slotHandle, hg]
      dsimp only
      rw [Models.getInfo_ok he]
      dsimp only
      rw [Except.toOption, Option.any_some, decide_eq_true_eq]
      constructor
      · intro h
        rw [if_pos h]
      · intro h
        split at h
        next ho => exact ho
        next => cases h
    dsimp only
    by_cases hs : slotHandle n info m = some h
    · rw [if_pos (hany.mpr hs), if_pos hs]
      exact Triple.pure' ⟨hs, Iff.rfl, rfl, rfl⟩
    rw [if_neg (fun h => hs (hany.mp h)), if_neg hs]
    have hdet : ∀ h', slotHandle n info m ≠ some h' := by
      intro h' hh'
      obtain ⟨e', he', -⟩ := slotHandle_some hh'
      have : h' = h := by
        unfold slotHandle at hh'
        rw [hg] at hh'
        dsimp only at hh'
        rw [Models.getInfo_ok he] at hh'
        dsimp only at hh'
        split at hh'
        · exact (Option.some.inj hh').symm
        · cases hh'
      exact hs (this ▸ hh')
    by_cases hb : m.suspended h = true
    · refine Triple.of_run_error (Act.run_bind_error (Models.unregister_busy he hb)) ⟨?_, ?_⟩
      · rintro ⟨h', -, hh', -⟩
        exact hdet h' hh'
      · rintro ⟨hidle, -⟩
        rw [hb] at hidle
        cases hidle
    · obtain ⟨m₁, hr, hrep⟩ := Models.unregister_idle he (by simpa using hb)
      have hn : m₁.findName n info.cname = none := by
        rw [Models.findName_none]
        intro i hi e' hs' hname'
        rw [hrep.slots] at hs'
        by_cases hih : i = h - 1
        · rw [hih, Function.update_self] at hs'
          cases hs'
        · rw [Function.update_of_ne hih] at hs'
          exact hih (hdist i hi (h - 1) hlt e' e hs' hslot (hname'.trans hname.symm))
      have hfree : m₁.findFree n ≠ none :=
        Models.findFree_of_none hlt (by rw [hrep.slots, Function.update_self])
      refine Triple.bind (Q := fun _ m' => m' = m₁) (Triple.of_run hr rfl) ?_
      rintro _ m₂ rfl
      refine (hinsert m₂ hn).mono ?_ ?_
      · rintro h' m' ⟨h1, -, h3, h4, h5⟩
        refine ⟨h1, h3.trans ?_, h4.trans hrep.hal, h5.trans hrep.app⟩
        exact ⟨fun h0 => ⟨by simpa using hb, h0⟩, fun h => h.2⟩
      · rintro _ m' ⟨-, hf⟩
        exact absurd hf hfree

end

-- ---------------------------------------------------------------------------
-- Names stay distinct
-- ---------------------------------------------------------------------------

namespace Models

variable {m m' : Models} {n h i : Nat} {e e' : ModelSlot} {info : ModelInfo}

theorem Distinct.of_infos (hd : Distinct n m) (h : ∀ i a, m'.slots i = some a →
    ∃ b, m.slots i = some b ∧ b.info = a.info) : Distinct n m' := by
  intro i hi j hj a b ha hb hab
  obtain ⟨a', ha', hia⟩ := h i a ha
  obtain ⟨b', hb', hib⟩ := h j b hb
  exact hd i hi j hj a' b' ha' hb' (by rw [hia, hib]; exact hab)

theorem Distinct.sameCat (hd : Distinct n m) (h : SameCat m m') : Distinct n m' := by
  refine hd.of_infos fun i a ha => ?_
  have hc := congrFun h.cat i
  rw [cat, cat, ha, Option.map_some, eq_comm, Option.map_eq_some_iff] at hc
  obtain ⟨b, hb, hba⟩ := hc
  exact ⟨b, hb, congrArg Entry.info hba⟩

theorem distinct_iff : Distinct n m ↔ (m.view n).Distinct := by
  constructor
  · intro hd h h' x x' hx hx' he
    obtain ⟨i, s, hs, hi, rfl, rfl⟩ := view_rows hx
    obtain ⟨j, s', hs', hj, rfl, rfl⟩ := view_rows hx'
    rw [hd i hi j hj s s' hs hs' he]
  · intro hd i hi j hj a b ha hb he
    have hij := hd _ _ _ _ (view_some (entry_of_slot ha hi)) (view_some (entry_of_slot hb hj)) he
    omega

theorem distinct_register (hd : Distinct n m) (info : ModelInfo) :
    Ends (register n info) m (Distinct n) := by
  refine distinct_iff.mpr ?_
  rw [view_register]
  refine Registry.distinct_register (distinct_iff.mp hd) (fun h x hx => ?_) info.cname
  obtain ⟨i, s, -, hi, rfl, -⟩ := view_rows hx
  omega

theorem distinct_unregister (hd : Distinct n m) (h : Nat) :
    Ends (unregister n h) m (Distinct n) := by
  refine distinct_iff.mpr ?_
  rw [view_unregister]
  exact (distinct_iff.mp hd).named (Registry.named_unregister _ _ _)

theorem distinct_setData (hd : Distinct n m) (h : Nat) (data : Option DataPtr) (size : Nat) :
    Ends (setData n h data size) m (Distinct n) := by
  refine distinct_iff.mpr ?_
  rw [view_setData]
  split
  · exact distinct_iff.mp hd
  · exact (distinct_iff.mp hd).named (Registry.named_setData _ _ _)

end Models

section
variable {cfg : Config} {n : Nat} {m : Models}

theorem distinct_ramUnregister (hd : Models.Distinct n m) (info : ModelInfo) :
    Ends (ramUnregister n info) m (Models.Distinct n) := by
  unfold ramUnregister
  refine Ends.get_bind ?_
  split
  · exact Ends.pure' hd
  · exact Models.distinct_unregister hd _

theorem distinct_ramInsert (hd : Models.Distinct n m) (data : Option DataPtr) (info : ModelInfo) :
    Ends (ramInsert n data info) m (Models.Distinct n) := by
  unfold ramInsert
  refine Ends.bind (Models.distinct_register hd info) fun h m' hd' => ?_
  split
  · exact Ends.pure' hd'
  · exact Ends.bind (Ends.attempt (Models.distinct_setData hd' _ _ _)) fun _ _ h => Ends.pure' h

theorem distinct_ramRegister (hd : Models.Distinct n m) (data : Option DataPtr) (info : ModelInfo) :
    Ends (ramRegister n data info) m (Models.Distinct n) := by
  unfold ramRegister
  refine Ends.get_bind ?_
  split
  · exact distinct_ramInsert hd _ _
  · refine Ends.ite (fun _ => Ends.pure' hd) fun _ => ?_
    exact Ends.bind (Models.distinct_unregister hd _) fun _ _ h => distinct_ramInsert h _ _

theorem distinct_registerSlots (cfg : Config) (reg : Reg) (l : List Nat)
    (hd : Models.Distinct cfg.maxModels m) :
    Ends (registerSlots cfg reg l) m (Models.Distinct cfg.maxModels) := by
  induction l generalizing m with
  | nil => exact Ends.pure' hd
  | cons slot rest ih =>
    unfold registerSlots
    refine Ends.get_bind (Ends.ite (fun _ => ih hd) fun _ => ?_)
    split
    · exact ih hd
    · exact Ends.bind (Ends.attempt (distinct_ramRegister hd _ _)) fun _ _ h => ih h

theorem distinct_registerResidents (cfg : Config) (reg : Reg)
    (hd : Models.Distinct cfg.maxModels m) :
    Ends (registerResidents cfg reg) m (Models.Distinct cfg.maxModels) := by
  unfold registerResidents
  refine Ends.bind (Ends.attempt (Ends.ite (fun _ => distinct_ramRegister hd _ _)
    fun _ => Ends.pure' hd)) fun _ _ h => distinct_registerSlots cfg reg _ h

end

-- ---------------------------------------------------------------------------
-- Flags do not matter to a registration
-- ---------------------------------------------------------------------------

section
variable {n h : Nat} {m m' : Models} {info : ModelInfo} {d : DataPtr}

namespace Models

theorem findName_cat (n : Nat) (name : List UInt8) (m : Models) :
    m.findName n name = (List.range n).find? fun i =>
        (m.cat i).any fun e => e.info.cname = name := by
  unfold findName cat
  congr 1
  funext i
  cases m.slots i <;> rfl

theorem findFree_cat (n : Nat) (m : Models) :
    m.findFree n = (List.range n).find? fun i => (m.cat i).isNone := by
  unfold findFree cat
  congr 1
  funext i
  cases m.slots i <;> rfl

theorem SameCat.entry (h : SameCat m m') (n hd : Nat) :
    (m'.entry n hd).map (fun p => (p.1, p.2.entry)) = (m.entry n hd).map fun p =>
        (p.1, p.2.entry) := by
  unfold Models.entry
  cases handleToIndex n hd with
  | none => rfl
  | some i =>
    have hp := congrArg (Option.map fun e => (i, e)) (congrFun h.cat i)
    rw [Models.cat, Models.cat, Option.map_map, Option.map_map] at hp
    rw [Option.bind_some, Option.bind_some, Option.map_map, Option.map_map]
    exact hp

theorem SameCat.getByName (h : SameCat m m') (n : Nat) (name : List UInt8) :
    m'.getByName n name = m.getByName n name := by
  unfold Models.getByName
  rw [findName_cat, findName_cat, h.cat]

theorem SameCat.getInfo (h : SameCat m m') (n hd : Nat) : m'.getInfo n hd = m.getInfo n hd := by
  have he := h.entry n hd
  unfold Models.getInfo
  have hi := congrArg (Option.map fun p : Nat × Entry => p.2.info) he
  rw [Option.map_map, Option.map_map] at hi
  cases h1 : m'.entry n hd with
  | none =>
    cases h2 : m.entry n hd with
    | none => rfl
    | some _ => simp [h1, h2] at hi
  | some _ =>
    cases h2 : m.entry n hd with
    | none => simp [h1, h2] at hi
    | some _ => simpa [h1, h2, ModelSlot.entry] using hi

theorem SameCat.slotHandle (h : SameCat m m') (n : Nat) (info : ModelInfo) :
    SynapticOS.slotHandle n info m' = SynapticOS.slotHandle n info m := by
  unfold SynapticOS.slotHandle
  rw [h.getByName]
  split
  · rfl
  · rw [h.getInfo]

theorem SameCat.symm (h : SameCat m m') : SameCat m' m := ⟨h.cat.symm, h.suspended.symm⟩

theorem SameCat.attached (h : SameCat m m') (ha : Attached n info d m) : Attached n info d m' := by
  obtain ⟨hd, e, hh, he, hdata, hsize⟩ := ha
  have hent := h.entry n hd
  rw [he] at hent
  obtain ⟨⟨i, e'⟩, he', heq⟩ := Option.map_eq_some_iff.mp hent
  simp only [ModelSlot.entry, Prod.mk.injEq, Entry.mk.injEq] at heq
  obtain ⟨rfl, -, hd', hs'⟩ := heq
  exact ⟨hd, e', (h.slotHandle n info).trans hh, he', hd'.trans hdata, hs'.trans hsize⟩

theorem SameCat.registrable (h : SameCat m m') :
    Registrable n info d m' ↔ Registrable n info d m := by
  unfold Registrable
  rw [h.getByName, h.slotHandle, findFree_cat, findFree_cat, h.cat, h.suspended]
  split
  · exact Iff.rfl
  · rw [show Attached n info d m' ↔ Attached n info d m from ⟨h.symm.attached, h.attached⟩]

end Models

theorem Released.sameCat {held : Option Nat} (h : Released n held m m') : Models.SameCat m m' := by
  cases held with
  | none =>
    rw [show m' = m from h]
    exact Std.Refl.refl m
  | some hd =>
    obtain ⟨e, he, -, hm⟩ := h
    refine ⟨?_, hm.suspended⟩
    funext i
    rw [Models.cat, Models.cat, hm.slots, Function.update_apply]
    split
    next hi =>
      rw [hi, (Models.entry_some he).1]
      rfl
    next => rfl

theorem Released.halApp {held : Option Nat} (h : Released n held m m') :
    m'.hal = m.hal ∧ m'.app = m.app := by
  cases held with
  | none => rw [show m' = m from h]; exact ⟨rfl, rfl⟩
  | some hd =>
    obtain ⟨e, -, -, hm⟩ := h
    exact ⟨hm.hal, hm.app⟩

theorem reloaded_sameCat (n : Nat) (mem : Mem) (held : Option Nat) (m : Models) :
    Models.SameCat m (reloaded n mem held m) := by
  cases held with
  | none => exact Std.Refl.refl m
  | some hd => exact Models.sameCat_load n mem hd m

/-- A model that the NPU takes is loaded after the load. -/
theorem reloaded_loaded {mem : Mem} {hd : Nat} {e : ModelSlot}
    (he : (reloaded n mem (some hd) m).entry n hd = some (hd - 1, e))
    (ht : ∀ e₀, e₀.entry = e.entry → Models.NpuTakes mem e₀ m) : e.loaded = true := by
  have hcat := reloaded_sameCat n mem (some hd) m
  have hent := hcat.symm.entry n hd
  rw [he] at hent
  obtain ⟨⟨i, e₀⟩, he₀, heq⟩ := Option.map_eq_some_iff.mp hent
  simp only [Prod.mk.injEq] at heq
  obtain ⟨rfl, heq⟩ := heq
  obtain ⟨hslot, hlt, hhd⟩ := Models.entry_some he
  cases hl : e₀.loaded with
  | true =>
    have hrun : (Models.load n mem hd).run m = (.error .ealready, m) := by
      unfold Models.load
      rw [Act.run_bind, Act.run_get]
      simp [he₀, hl]
    have hsame : reloaded n mem (some hd) m = m := congrArg Prod.snd hrun
    rw [hsame, he₀] at he
    cases he
    exact hl
  | false =>
    have hload := (@Models.load_slots _ _ _ _ mem he₀ hl).1 (ht e₀ heq)
    have hsl : (reloaded n mem (some hd) m).slots (hd - 1) = some { e₀ with loaded := true } := by
      show ((Models.load n mem hd).run m).2.slots (hd - 1) = _
      rw [hload, Function.update_self]
    rw [hslot] at hsl
    cases hsl
    rfl

end

end SynapticOS
