import SynapticOS.Lib.Run
import SynapticOS.Npu.Residency
import SynapticOS.Registry

/-!
# The registry over the backends

`Rig` as a registry of models (`Rig.view`): its calls are those of the store's registry,
and a job asks for its model as the scheduler does. Whether a load succeeds is up to the
CRC gate, the driver and the planner.
-/

namespace SynapticOS.Npu

open Lib

variable {b : Board} {drv : Driver} {s s' : Rig} {h i : Nat} {x : ModelSlot}

def ModelSlot.row (x : ModelSlot) : Row (List UInt8) Nat := ⟨x.name, x.loaded, x.data⟩

def Rig.view (b : Board) (s : Rig) : Registry (List UInt8) Nat :=
  ⟨fun h => (s.index b h).map fun i => (s.slots i).row, s.resident⟩

/-- A payload has a size, as `setData` sees to. -/
def Sized (s : Rig) : Prop := ∀ i, (s.slots i).data ≠ none → (s.slots i).size ≠ 0

-- ---------------------------------------------------------------------------
-- Rows
-- ---------------------------------------------------------------------------

theorem index_some (hi : s.index b h = some i) :
    h = i + 1 ∧ i < b.models ∧ (s.slots i).active = true := by
  unfold Rig.index at hi
  split at hi
  · rename_i hc
    cases hi
    exact ⟨by omega, by omega, hc.2.2⟩
  · cases hi

theorem index_of_range (hi : i < b.models) (s : Rig) :
    s.index b (i + 1) = if (s.slots i).active then some i else none := by
  unfold Rig.index
  exact if_congr ⟨fun hc => hc.2.2, fun ha => ⟨Nat.succ_pos i, hi, ha⟩⟩ rfl rfl

theorem view_rows (hi : s.index b h = some i) : (s.view b).rows h = some (s.slots i).row :=
  congrArg (Option.map _) hi

theorem view_rows_none (hi : s.index b h = none) : (s.view b).rows h = none :=
  congrArg (Option.map _) hi

theorem view_payload (hi : s.index b h = some i) : (s.view b).payload h = (s.slots i).data := by
  unfold Registry.payload
  rw [view_rows hi]
  rfl

theorem view_of_slots (hs : s'.slots = s.slots) :
    s'.view b = { s.view b with resident := s'.resident } := by
  unfold Rig.view Rig.index
  rw [hs]

theorem view_setSlot (hi : i < b.models) (x : ModelSlot) (s : Rig) :
    (s.setSlot i x).view b = (s.view b).put (i + 1) (if x.active then some x.row else none) := by
  refine Registry.ext (funext fun h => ?_) rfl
  show ((s.setSlot i x).index b h).map (fun k => (Function.update s.slots i x k).row) =
    Function.update (s.view b).rows (i + 1) (if x.active then some x.row else none) h
  rw [Function.update_apply]
  split
  · rename_i he
    rw [he, index_of_range hi]
    show (if (Function.update s.slots i x i).active then some i else none).map _ = _
    rw [Function.update_self]
    split
    · rw [Option.map_some, Function.update_self]
    · rfl
  · rename_i he
    show _ = (s.index b h).map fun k => (s.slots k).row
    by_cases hr : 0 < h ∧ h ≤ b.models
    · obtain ⟨k, rfl⟩ : ∃ k, h = k + 1 := ⟨h - 1, by omega⟩
      have hk : (s.setSlot i x).slots k = s.slots k := Function.update_of_ne (by omega) ..
      rw [index_of_range (by omega), index_of_range (by omega), hk]
      split
      · exact congrArg (fun y => some (ModelSlot.row y)) hk
      · rfl
    · unfold Rig.index
      rw [if_neg fun hc => hr ⟨hc.1, hc.2.1⟩, if_neg fun hc => hr ⟨hc.1, hc.2.1⟩]
      rfl

/-- Changing an entry is changing its row. -/
theorem view_edit (hi : s.index b h = some i) {g : Row (List UInt8) Nat → Row (List UInt8) Nat}
    (ha : x.active = (s.slots i).active) (hg : x.row = g (s.slots i).row) :
    (s.setSlot i x).view b = (s.view b).edit h g := by
  obtain ⟨rfl, hlt, hact⟩ := index_some hi
  rw [view_setSlot hlt, if_pos (ha.trans hact), hg]
  unfold Registry.edit
  rw [view_rows hi]
  rfl

theorem view_setLoaded (hi : s.index b h = some i) (f : Bool) :
    (s.setSlot i { s.slots i with loaded := f }).view b = (s.view b).setLoaded h f :=
  view_edit hi (g := fun r => { r with loaded := f }) rfl rfl

-- ---------------------------------------------------------------------------
-- The calls
-- ---------------------------------------------------------------------------

theorem view_find (name : List UInt8) (s : Rig) : (s.view b).find b.models name =
    ((List.range b.models).find? fun i =>
      (s.slots i).active && decide ((s.slots i).name = name)).map (· + 1) := by
  unfold Registry.find
  rw [List.find?_map]
  refine congrArg (Option.map _) (List.find?_congr fun i hi => ?_)
  show ((s.index b (i + 1)).map _).any _ = _
  rw [index_of_range (List.mem_range.mp hi)]
  cases (s.slots i).active <;> rfl

theorem view_free (s : Rig) : (s.view b).free b.models =
    ((List.range b.models).find? fun i => !(s.slots i).active).map (· + 1) := by
  unfold Registry.free
  rw [List.find?_map]
  refine congrArg (Option.map _) (List.find?_congr fun i hi => ?_)
  show ((s.index b (i + 1)).map _).isNone = _
  rw [index_of_range (List.mem_range.mp hi)]
  cases (s.slots i).active <;> rfl

theorem view_register (name : List UInt8) (crc32 : UInt32) (s : Rig) :
    (register b name crc32 s).view b = (s.view b).register b.models name := by
  have hany : ((List.range b.models).any fun i =>
      (s.slots i).active && decide ((s.slots i).name = name)) = true ↔
      ((s.view b).find b.models name).isSome = true := by
    rw [view_find, Option.isSome_map, List.find?_isSome, List.any_eq_true]
  unfold register Registry.register
  rw [view_free]
  cases hf : (s.view b).find b.models name with
  | some h =>
    rw [hf] at hany
    exact congrArg (Rig.view b) (if_pos (hany.mpr rfl))
  | none =>
    rw [hf] at hany
    rw [if_neg fun hc => nomatch hany.mp hc]
    cases hh : (List.range b.models).find? fun i => !(s.slots i).active with
    | none => rfl
    | some i => exact view_setSlot (List.mem_range.mp (List.mem_of_find?_eq_some hh)) _ s

theorem view_setData (h : Nat) (data : Option Nat) (size : Nat) (s : Rig) :
    (setData b h data size s).view b =
      if data ≠ none ∧ size = 0 then s.view b else (s.view b).setData h data := by
  unfold setData
  cases hi : s.index b h with
  | none =>
    have hset : (s.view b).setData h data = s.view b := Registry.edit_of_none (view_rows_none hi) _
    rw [hset, ite_self]
  | some i =>
    dsimp only
    split
    · rfl
    · exact view_edit hi (g := fun r => { r with data := data }) rfl rfl

/-- What loading an entry does, by what it hands to the HAL. -/
theorem halLoad_cases (b : Board) (drv : Driver) (s : Rig) (hx : x.data ≠ none → x.size ≠ 0) :
    (halLoad b drv x s).2.slots = s.slots ∧
      ((halLoad b drv x s).1 = .ok () ∧ (halLoad b drv x s).2.resident = x.data.or s.resident ∨
        (∃ e, (halLoad b drv x s).1 = .error e) ∧ (halLoad b drv x s).2.resident = s.resident ∧
          x.data ≠ none) := by
  unfold halLoad ModelSlot.toLoad
  cases hd : x.data with
  | none => exact ⟨rfl, .inl ⟨rfl, rfl⟩⟩
  | some addr =>
    have hne : some addr ≠ none := Option.some_ne_none addr
    dsimp only
    rw [if_neg (hx (hd ▸ hne))]
    dsimp only
    split
    · exact ⟨rfl, .inr ⟨⟨_, rfl⟩, rfl, hne⟩⟩
    · split
      · exact ⟨rfl, .inl ⟨rfl, rfl⟩⟩
      · exact ⟨rfl, .inr ⟨⟨_, rfl⟩, rfl, hne⟩⟩

theorem index_of_slots (hs : s'.slots = s.slots) : s'.index b h = s.index b h := by
  unfold Rig.index
  rw [hs]

theorem view_doLoad (hz : Sized s) (drv : Driver) (hi : s.index b h = some i) :
    ∃ ok, (doLoad b drv i s).view b = (s.view b).bring h ok := by
  obtain ⟨hslots, hends⟩ := halLoad_cases b drv s (hz i)
  unfold doLoad Registry.bring
  rw [view_payload hi]
  cases hl : halLoad b drv (s.slots i) s with
  | mk r s' =>
    rw [hl] at hslots hends
    rcases hends with ⟨rfl, hres⟩ | ⟨⟨e, rfl⟩, hres, hne⟩
    · refine ⟨true, (view_setLoaded ((index_of_slots hslots).trans hi) true).trans ?_⟩
      rw [view_of_slots hslots, hres]
      cases (s.slots i).data with
      | none => rfl
      | some d => rfl
    · obtain ⟨d, hd⟩ := Option.ne_none_iff_exists'.mp hne
      refine ⟨false, ?_⟩
      rw [hd]
      exact (view_of_slots hslots).trans (by rw [hres]; rfl)

theorem view_reload (hz : Sized s) (drv : Driver) (hi : s.index b h = some i) :
    ∃ ok, (if (s.slots i).loaded then s else doLoad b drv i s).view b = (s.view b).load h ok := by
  obtain ⟨ok, hok⟩ := view_doLoad hz drv hi
  refine ⟨ok, ?_⟩
  unfold Registry.load
  rw [view_rows hi, ← hok]
  split
  · rename_i hl
    exact (if_pos hl).symm
  · rename_i hl
    exact (if_neg hl).symm

theorem view_load (hz : Sized s) (h : Nat) (drv : Driver) :
    ∃ ok, (load b h drv s).view b = (s.view b).load h ok := by
  unfold load
  cases hi : s.index b h with
  | none =>
    have hset : (s.view b).setLoaded h true = s.view b := Registry.edit_of_none (view_rows_none hi) _
    refine ⟨true, ?_⟩
    unfold Registry.load Registry.bring Registry.payload
    rw [view_rows_none hi, hset]
    rfl
  | some i => exact view_reload hz drv hi

theorem Sized.setSlot (hz : Sized s) (i : Nat) (hx : x.data ≠ none → x.size ≠ 0) :
    Sized (s.setSlot i x) := by
  intro k
  show (Function.update s.slots i x k).data ≠ none → (Function.update s.slots i x k).size ≠ 0
  rw [Function.update_apply]
  split
  · exact hx
  · exact hz k

theorem view_swap (hz : Sized s) (old new : Nat) (drv : Driver) :
    ∃ ok, (swap b old new drv s).view b = (s.view b).swap old new ok := by
  unfold swap Registry.swap
  cases ho : s.index b old with
  | none => exact ⟨true, (if_pos (.inl (by rw [view_rows_none ho]; rfl))).symm⟩
  | some o =>
    cases hn : s.index b new with
    | none => exact ⟨true, (if_pos (.inr (.inl (by rw [view_rows_none hn]; rfl)))).symm⟩
    | some n =>
      have hon : o = n ↔ old = new := by
        obtain ⟨rfl, -, -⟩ := index_some ho
        obtain ⟨rfl, -, -⟩ := index_some hn
        omega
      dsimp only
      by_cases heq : o = n
      · exact ⟨true, by rw [if_pos heq, if_pos (.inr (.inr (hon.mp heq)))]⟩
      · have hkept : (s.setSlot o { s.slots o with loaded := false }).slots n = s.slots n :=
          Function.update_of_ne (Ne.symm heq) ..
        have hn' : (s.setSlot o { s.slots o with loaded := false }).index b new = some n := by
          obtain ⟨rfl, hlt, hact⟩ := index_some hn
          rw [index_of_range hlt, hkept, if_pos hact]
        have hz' : Sized (s.setSlot o { s.slots o with loaded := false }) := hz.setSlot o (hz o)
        obtain ⟨ok, hok⟩ := view_reload hz' drv hn'
        refine ⟨ok, ?_⟩
        rw [if_neg heq, hok, view_rows ho, view_rows hn,
          if_neg (by simpa using fun hc => heq (hon.mpr hc)), view_setLoaded ho]
        rfl

theorem view_unloadSlot (hi : s.index b h = some i) (drv : Driver) :
    (unloadSlot b i drv s).view b = (s.view b).unload h false := by
  have hany : ((s.view b).rows h).any Row.loaded = (s.slots i).loaded := by rw [view_rows hi]; rfl
  have hset := view_setLoaded hi false
  unfold unloadSlot
  split
  · rename_i hl
    exact (Registry.unload_of_not (hany.trans hl) false).symm
  · rename_i hl
    rw [Registry.unload_of_loaded (hany.trans (by simpa using hl)), view_payload hi, ← hset]
    have hdata : ((s.setSlot i { s.slots i with loaded := false }).slots i).data =
        (s.slots i).data := by
      show (Function.update s.slots i _ i).data = _
      rw [Function.update_self]
    dsimp only
    rw [hdata]
    split
    · rename_i hc
      exact (if_pos hc).symm
    · rename_i hc
      exact (if_neg hc).symm

theorem view_unload (h : Nat) (suspended : Bool) (drv : Driver) (s : Rig) :
    (unload b h suspended drv s).view b = (s.view b).unload h suspended := by
  unfold unload
  cases hi : s.index b h with
  | none =>
    exact (Registry.unload_of_not (by rw [view_rows_none hi]; rfl) suspended).symm
  | some i =>
    cases suspended with
    | true => exact (Registry.unload_of_suspended h _).symm
    | false => exact view_unloadSlot hi drv

theorem view_unregister (h : Nat) (suspended : Bool) (drv : Driver) (s : Rig) :
    (unregister b h suspended drv s).view b = (s.view b).unregister h suspended := by
  unfold unregister Registry.unregister
  cases hi : s.index b h with
  | none =>
    have hput : (s.view b).put h none = s.view b :=
      Registry.ext (Function.update_eq_self_iff.mpr (view_rows_none hi).symm) rfl
    rw [Registry.unload_of_not (by rw [view_rows_none hi]; rfl), hput, ite_self]
  | some i =>
    obtain ⟨rfl, hlt, -⟩ := index_some hi
    cases suspended with
    | true => rfl
    | false =>
      dsimp only
      rw [if_neg Bool.false_ne_true, if_neg Bool.false_ne_true, view_setSlot hlt, view_unloadSlot hi]
      rfl

theorem view_ensureResident (hz : Sized s) (drv : Driver) (hi : s.index b h = some i) :
    ∃ ok, (ensureResident b drv i s).2.view b = (s.view b).ensureResident h ok := by
  unfold ensureResident Registry.ensureResident
  rw [view_rows hi]
  dsimp only
  by_cases hl : (s.slots i).loaded = false
  · exact ⟨true, by rw [if_pos hl, if_pos (.inl hl)]⟩
  · rw [if_neg hl]
    by_cases hd : (s.slots i).data = none ∨ (s.slots i).data = s.resident
    · refine ⟨true, ?_⟩
      rw [if_pos hd]
      split
      · rfl
      · rename_i hc
        rcases hd with hd | hd
        · exact absurd (.inr (.inl hd)) hc
        · exact (congrArg (Registry.mk _) hd).symm
    · rw [if_neg hd]
      rw [not_or] at hd
      obtain ⟨hslots, hends⟩ := halLoad_cases b drv s (hz i)
      obtain ⟨d, hsome⟩ := Option.ne_none_iff_exists'.mp hd.1
      rcases hends with ⟨-, hres⟩ | ⟨-, hres, -⟩
      · refine ⟨true, ?_⟩
        rw [view_of_slots hslots, hres, if_neg (by simpa [ModelSlot.row, hd.1] using hl)]
        show _ = { s.view b with resident := (s.slots i).data }
        rw [hsome]
        rfl
      · refine ⟨false, ?_⟩
        rw [view_of_slots hslots, hres, if_pos (.inr (.inr rfl))]
        rfl

/-- A job asks for its model; what it runs does not touch the registry. -/
theorem view_job (hz : Sized s) (h : Nat) (input : List UInt8) (drv : Driver) (st : Stage) :
    ∃ ok, (job b h input drv st s).view b = (s.view b).ensureResident h ok := by
  unfold job
  cases hi : s.index b h with
  | none =>
    refine ⟨true, ?_⟩
    unfold Registry.ensureResident
    rw [view_rows_none hi]
  | some i =>
    obtain ⟨ok, hok⟩ := view_ensureResident hz drv hi
    refine ⟨ok, ?_⟩
    rw [← hok]
    dsimp only
    cases ensureResident b drv i s with
    | mk r s' =>
      cases r with
      | error e => rfl
      | ok u =>
        dsimp only
        cases s'.hal.stage b drv st input with
        | mk r hal => cases r <;> rfl

-- ---------------------------------------------------------------------------
-- Runs
-- ---------------------------------------------------------------------------

theorem Sized.of_slots (hz : Sized s) (hs : s'.slots = s.slots) : Sized s' := by
  intro i
  rw [hs]
  exact hz i

theorem Sized.doLoad (hz : Sized s) (drv : Driver) (i : Nat) : Sized (doLoad b drv i s) := by
  obtain ⟨hslots, -⟩ := halLoad_cases b drv s (hz i)
  unfold Npu.doLoad
  cases hl : halLoad b drv (s.slots i) s with
  | mk r s' =>
    rw [hl] at hslots
    have hz' : Sized s' := hz.of_slots hslots
    cases r with
    | error e => exact hz'
    | ok u => exact hz'.setSlot i (hz' i)

theorem Sized.unloadSlot (hz : Sized s) (drv : Driver) (i : Nat) : Sized (unloadSlot b i drv s) := by
  have hset : Sized (s.setSlot i { s.slots i with loaded := false }) := hz.setSlot i (hz i)
  unfold Npu.unloadSlot
  split
  · exact hz
  · dsimp only
    split
    · exact hset.of_slots rfl
    · exact hset

theorem slots_ensureResident (hz : Sized s) (drv : Driver) (i : Nat) :
    (ensureResident b drv i s).2.slots = s.slots := by
  unfold ensureResident
  dsimp only
  repeat' split
  all_goals first | rfl | exact (halLoad_cases b drv s (hz i)).1

theorem sized_step (hz : Sized s) (o : Op) : Sized (step b s o) := by
  cases o with
  | register name crc32 =>
    unfold step register
    dsimp only
    repeat' split
    · exact hz
    · exact hz
    · exact hz.setSlot _ fun hd => absurd rfl hd
  | setData h data size =>
    unfold step setData
    dsimp only
    split
    · exact hz
    split
    · exact hz
    · rename_i hc
      refine hz.setSlot _ fun hd => ?_
      dsimp only at hd ⊢
      rw [if_neg hd]
      exact fun h0 => hc ⟨hd, h0⟩
  | load h drv =>
    unfold step load
    dsimp only
    repeat' split
    · exact hz
    · exact hz
    · exact hz.doLoad drv _
  | unload h suspended drv =>
    unfold step unload
    dsimp only
    repeat' split
    · exact hz
    · exact hz
    · exact hz.unloadSlot drv _
  | unregister h suspended drv =>
    unfold step unregister
    dsimp only
    repeat' split
    · exact hz
    · exact hz
    · exact (hz.unloadSlot drv _).setSlot _ fun hd => absurd rfl hd
  | swap old new drv =>
    unfold step swap
    dsimp only
    split
    · rename_i o n _ _
      have hset : Sized (s.setSlot o { s.slots o with loaded := false }) := hz.setSlot o (hz o)
      repeat' split
      · exact hz
      · exact hset
      · exact hset.doLoad drv n
    · exact hz
  | job h input drv st =>
    unfold step job
    dsimp only
    split
    · exact hz
    · rename_i i _
      have hslots := slots_ensureResident (b := b) hz drv i
      cases he : ensureResident b drv i s with
      | mk r s' =>
        rw [he] at hslots
        have hz' : Sized s' := hz.of_slots hslots
        cases r with
        | error e => exact hz'
        | ok u =>
          dsimp only
          cases s'.hal.stage b drv st input with
          | mk r hal => cases r <;> exact hz'.of_slots rfl
  | resume slot st => exact hz.of_slots rfl

theorem distinct_step (hz : Sized s) (hd : (s.view b).Distinct) (o : Op) :
    ((step b s o).view b).Distinct := by
  cases o with
  | register name crc32 =>
    show ((register b name crc32 s).view b).Distinct
    rw [view_register]
    refine Registry.distinct_register hd (fun h x hx => ?_) name
    obtain ⟨i, hi, -⟩ := Option.map_eq_some_iff.mp hx
    obtain ⟨rfl, hlt, -⟩ := index_some hi
    omega
  | setData h data size =>
    show ((setData b h data size s).view b).Distinct
    rw [view_setData]
    split
    · exact hd
    · exact hd.named (Registry.named_setData _ _ _)
  | load h drv =>
    obtain ⟨ok, hok⟩ := view_load (b := b) hz h drv
    show ((load b h drv s).view b).Distinct
    rw [hok]
    exact hd.named (Registry.named_load _ _ _)
  | unload h suspended drv =>
    show ((unload b h suspended drv s).view b).Distinct
    rw [view_unload]
    exact hd.named (Registry.named_unload _ _ _)
  | unregister h suspended drv =>
    show ((unregister b h suspended drv s).view b).Distinct
    rw [view_unregister]
    exact hd.named (Registry.named_unregister _ _ _)
  | swap old new drv =>
    obtain ⟨ok, hok⟩ := view_swap (b := b) hz old new drv
    show ((swap b old new drv s).view b).Distinct
    rw [hok]
    exact hd.named (Registry.named_swap _ _ _ _)
  | job h input drv st =>
    obtain ⟨ok, hok⟩ := view_job (b := b) hz h input drv st
    show ((job b h input drv st s).view b).Distinct
    rw [hok]
    exact hd.named (Registry.named_ensureResident _ _ _)
  | resume slot st => exact hd

/-- One name, one handle, over every run. -/
theorem distinct_run (b : Board) (ops : List Op) : ((run (step b) Rig.init ops).view b).Distinct := by
  have hz : Sized Rig.init := fun _ hd => absurd rfl hd
  have hd : (Rig.init.view b).Distinct := by
    intro h h' x x' hx
    have hnone : Rig.init.index b h = none := if_neg fun hc => nomatch hc.2.2
    rw [view_rows_none hnone] at hx
    cases hx
  have hinv : Sized (run (step b) Rig.init ops) ∧ ((run (step b) Rig.init ops).view b).Distinct :=
    run_invariant (I := fun s => Sized s ∧ (s.view b).Distinct) ops ⟨hz, hd⟩ fun s o hi =>
      ⟨sized_step hi.1 o, distinct_step hi.1 hi.2 o⟩
  exact hinv.2

end SynapticOS.Npu
