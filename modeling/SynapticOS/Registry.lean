import Mathlib.Data.List.Find
import Mathlib.Logic.Function.Basic

/-!
# The registry of models

What `syn_model.c` keeps: rows under handles, each with a name of its own, and the one
payload that the NPU holds. A flag says which rows were loaded; loading a row brings its
payload in, and whether the NPU takes it is not the registry's to say (`ok`). The
registry of the store (`Models.view`), the one over the backends (`Npu.Rig.view`) and the
one under the scheduler (`Infer.Sched.view`) are three embeddings of these calls.
-/

namespace SynapticOS

structure Row (ν δ : Type) where
  name : ν
  loaded : Bool
  data : Option δ

/-- The rows by handle, and what is in the NPU. -/
@[ext] structure Registry (ν δ : Type) where
  rows : Nat → Option (Row ν δ)
  resident : Option δ

namespace Registry

variable {ν δ : Type} {r r' : Registry ν δ} {n h : Nat} {name : ν} {x : Row ν δ}

def put (h : Nat) (x : Option (Row ν δ)) (r : Registry ν δ) : Registry ν δ :=
  { r with rows := Function.update r.rows h x }

def edit (h : Nat) (f : Row ν δ → Row ν δ) (r : Registry ν δ) : Registry ν δ :=
  r.put h ((r.rows h).map f)

theorem edit_of_none (h0 : r.rows h = none) (f : Row ν δ → Row ν δ) : r.edit h f = r := by
  refine Registry.ext ?_ rfl
  show Function.update r.rows h ((r.rows h).map f) = r.rows
  rw [h0]
  exact Function.update_eq_self_iff.mpr h0.symm

-- ---------------------------------------------------------------------------
-- The calls
-- ---------------------------------------------------------------------------

def find [DecidableEq ν] (n : Nat) (name : ν) (r : Registry ν δ) : Option Nat :=
  ((List.range n).map (· + 1)).find? fun h => (r.rows h).any fun x => decide (x.name = name)

/-- The first of the handles `1` to `n` that nobody has. -/
def free (n : Nat) (r : Registry ν δ) : Option Nat :=
  ((List.range n).map (· + 1)).find? fun h => (r.rows h).isNone

def register [DecidableEq ν] (n : Nat) (name : ν) (r : Registry ν δ) : Registry ν δ :=
  match r.find n name, r.free n with
  | none, some h => r.put h (some ⟨name, false, none⟩)
  | _, _ => r

def setData (h : Nat) (data : Option δ) (r : Registry ν δ) : Registry ν δ :=
  r.edit h fun x => { x with data := data }

def setLoaded (h : Nat) (b : Bool) (r : Registry ν δ) : Registry ν δ :=
  r.edit h fun x => { x with loaded := b }

def payload (h : Nat) (r : Registry ν δ) : Option δ := (r.rows h).bind Row.data

/-- `model_do_load`. -/
def bring (h : Nat) (ok : Bool) (r : Registry ν δ) : Registry ν δ :=
  match r.payload h with
  | none => r.setLoaded h true
  | some d => if ok then { r.setLoaded h true with resident := some d } else r

def load (h : Nat) (ok : Bool) (r : Registry ν δ) : Registry ν δ :=
  if (r.rows h).any Row.loaded then r else r.bring h ok

/-- The locked part of a swap. -/
def exchange (old new : Nat) (ok : Bool) (r : Registry ν δ) : Registry ν δ :=
  (r.setLoaded old false).load new ok

def swap (old new : Nat) (ok : Bool) (r : Registry ν δ) : Registry ν δ :=
  if (r.rows old).isNone ∨ (r.rows new).isNone ∨ old = new then r else r.exchange old new ok

def release (r : Registry ν δ) : Registry ν δ := { r with resident := none }

/-- The first half of an unload: the flag goes, unless a job of the model is suspended. -/
def unflag (h : Nat) (suspended : Bool) (r : Registry ν δ) : Registry ν δ :=
  if !(r.rows h).any Row.loaded || suspended then r else r.setLoaded h false

/-- The unload goes on to the NPU, behind the gate. -/
def Frees (h : Nat) (suspended : Bool) (r : Registry ν δ) : Prop :=
  (r.rows h).any Row.loaded = true ∧ suspended = false ∧ r.payload h ≠ none ∧ r.payload h = r.resident

instance [DecidableEq δ] (h : Nat) (suspended : Bool) (r : Registry ν δ) :
    Decidable (r.Frees h suspended) :=
  inferInstanceAs (Decidable (_ ∧ _))

def unload [DecidableEq δ] (h : Nat) (suspended : Bool) (r : Registry ν δ) : Registry ν δ :=
  if r.Frees h suspended then (r.unflag h suspended).release else r.unflag h suspended

def unregister [DecidableEq δ] (h : Nat) (suspended : Bool) (r : Registry ν δ) : Registry ν δ :=
  if suspended then r else (r.unload h false).put h none

/-- `syn_model_ensure_resident`. -/
def ensureResident (h : Nat) (ok : Bool) (r : Registry ν δ) : Registry ν δ :=
  match r.rows h with
  | none => r
  | some x =>
    if x.loaded = false ∨ x.data = none ∨ ok = false then r else { r with resident := x.data }

/-- What a build with a scheduler does to its registry between two points where another
thread can run. -/
inductive Call (ν δ : Type)
  | register (name : ν)
  | setData (h : Nat) (data : Option δ)
  | unflag (h : Nat) (suspended : Bool)
  | release
  | drop (h : Nat)
  | bring (h : Nat) (ok : Bool)
  | exchange (old new : Nat) (ok : Bool)
  | ensureResident (h : Nat) (ok : Bool)

def step [DecidableEq ν] (n : Nat) (r : Registry ν δ) : Call ν δ → Registry ν δ
  | .register name => r.register n name
  | .setData h data => r.setData h data
  | .unflag h suspended => r.unflag h suspended
  | .release => r.release
  | .drop h => r.put h none
  | .bring h ok => r.bring h ok
  | .exchange old new ok => r.exchange old new ok
  | .ensureResident h ok => r.ensureResident h ok

/-- What is not there, or not loaded, is not unloaded. -/
theorem unload_of_not [DecidableEq δ] (hl : (r.rows h).any Row.loaded = false) (suspended : Bool) :
    r.unload h suspended = r := by
  have hf : ¬r.Frees h suspended := fun hf => by
    have hany := hf.1
    rw [hl] at hany
    cases hany
  unfold unload unflag
  rw [if_neg hf, hl]
  rfl

theorem unload_of_suspended [DecidableEq δ] (h : Nat) (r : Registry ν δ) : r.unload h true = r := by
  have hf : ¬r.Frees h true := fun hf => nomatch hf.2.1
  unfold unload unflag
  rw [if_neg hf, Bool.or_true]
  rfl

theorem unload_of_loaded [DecidableEq δ] (hl : (r.rows h).any Row.loaded = true) :
    r.unload h false = if r.payload h ≠ none ∧ r.payload h = r.resident then
      (r.setLoaded h false).release else r.setLoaded h false := by
  have hf : r.Frees h false ↔ r.payload h ≠ none ∧ r.payload h = r.resident :=
    ⟨fun hf => hf.2.2, fun hp => ⟨hl, rfl, hp⟩⟩
  have hflag : r.unflag h false = r.setLoaded h false := by
    unfold unflag
    rw [hl]
    rfl
  unfold unload
  rw [hflag]
  exact if_congr hf rfl rfl

-- ---------------------------------------------------------------------------
-- Names
-- ---------------------------------------------------------------------------

/-- No two handles stand for models of one name. -/
def Distinct (r : Registry ν δ) : Prop :=
  ∀ h h' x x', r.rows h = some x → r.rows h' = some x' → x.name = x'.name → h = h'

/-- What stands in the second table stood under the same name in the first. -/
def Named (r r' : Registry ν δ) : Prop :=
  ∀ h x', r'.rows h = some x' → ∃ x, r.rows h = some x ∧ x.name = x'.name

theorem Named.of_rows (h : r'.rows = r.rows) : Named r r' := fun i x' hx =>
  ⟨x', by rw [← h]; exact hx, rfl⟩

theorem Named.trans {r'' : Registry ν δ} (h : Named r r') (h' : Named r' r'') : Named r r'' := by
  intro i x'' hx
  obtain ⟨x', hx', hn'⟩ := h' i x'' hx
  obtain ⟨x, hx, hn⟩ := h i x' hx'
  exact ⟨x, hx, hn.trans hn'⟩

theorem Distinct.named (hd : r.Distinct) (h : Named r r') : r'.Distinct := by
  intro i j x' y' hx hy he
  obtain ⟨x, hx, hxn⟩ := h i x' hx
  obtain ⟨y, hy, hyn⟩ := h j y' hy
  exact hd i j x y hx hy (hxn.trans (he.trans hyn.symm))

theorem named_drop (h : Nat) (r : Registry ν δ) : Named r (r.put h none) := by
  intro i x' hx
  change Function.update r.rows h none i = some x' at hx
  rw [Function.update_apply] at hx
  split at hx
  · cases hx
  · exact ⟨x', hx, rfl⟩

theorem named_edit (h : Nat) {f : Row ν δ → Row ν δ} (hf : ∀ x, (f x).name = x.name)
    (r : Registry ν δ) : Named r (r.edit h f) := by
  intro i x' hx
  change Function.update r.rows h _ i = some x' at hx
  rw [Function.update_apply] at hx
  split at hx
  · rename_i he
    rw [← he, Option.map_eq_some_iff] at hx
    obtain ⟨x, hx, rfl⟩ := hx
    exact ⟨x, hx, (hf x).symm⟩
  · exact ⟨x', hx, rfl⟩

theorem named_setLoaded (h : Nat) (b : Bool) (r : Registry ν δ) : Named r (r.setLoaded h b) :=
  named_edit h (f := fun x => { x with loaded := b }) (fun _ => rfl) r

theorem named_setData (h : Nat) (data : Option δ) (r : Registry ν δ) : Named r (r.setData h data) :=
  named_edit h (f := fun x => { x with data := data }) (fun _ => rfl) r

theorem named_bring (h : Nat) (ok : Bool) (r : Registry ν δ) : Named r (r.bring h ok) := by
  have hset := named_setLoaded h true r
  unfold bring
  split
  · exact hset
  · split
    · exact hset.trans (.of_rows rfl)
    · exact .of_rows rfl

theorem named_load (h : Nat) (ok : Bool) (r : Registry ν δ) : Named r (r.load h ok) := by
  unfold load
  split
  · exact .of_rows rfl
  · exact named_bring h ok r

theorem named_swap (old new : Nat) (ok : Bool) (r : Registry ν δ) : Named r (r.swap old new ok) := by
  unfold swap
  split
  · exact .of_rows rfl
  · exact (named_setLoaded old false r).trans (named_load new ok _)

theorem named_unload [DecidableEq δ] (h : Nat) (suspended : Bool) (r : Registry ν δ) :
    Named r (r.unload h suspended) := by
  have hflag : Named r (r.unflag h suspended) := by
    unfold unflag
    split
    · exact .of_rows rfl
    · exact named_setLoaded h false r
  unfold unload
  split
  · exact hflag.trans (.of_rows rfl)
  · exact hflag

theorem named_unregister [DecidableEq δ] (h : Nat) (suspended : Bool) (r : Registry ν δ) :
    Named r (r.unregister h suspended) := by
  unfold unregister
  split
  · exact .of_rows rfl
  · exact (named_unload h false r).trans (named_drop h _)

theorem named_ensureResident (h : Nat) (ok : Bool) (r : Registry ν δ) :
    Named r (r.ensureResident h ok) := by
  unfold ensureResident
  split
  · exact .of_rows rfl
  · split
    · exact .of_rows rfl
    · exact .of_rows rfl

theorem distinct_register [DecidableEq ν] (hd : r.Distinct)
    (hr : ∀ h x, r.rows h = some x → 0 < h ∧ h ≤ n) (name : ν) : (r.register n name).Distinct := by
  unfold register
  split
  · rename_i h hfind hfree
    have hnew : ∀ i x, r.rows i = some x → x.name ≠ name := by
      intro i x hx hn
      obtain ⟨h0, hle⟩ := hr i x hx
      unfold find at hfind
      rw [List.find?_eq_none] at hfind
      refine hfind i (List.mem_map.mpr ⟨i - 1, List.mem_range.mpr (by omega), by omega⟩) ?_
      rw [hx]
      simp [hn]
    intro i j x y hx hy he
    change Function.update r.rows h _ i = some x at hx
    change Function.update r.rows h _ j = some y at hy
    rw [Function.update_apply] at hx hy
    split at hx <;> split at hy
    · omega
    · cases hx
      exact absurd he.symm (hnew j y hy)
    · cases hy
      exact absurd he (hnew i x hx)
    · exact hd i j x y hx hy he
  · exact hd

end Registry

end SynapticOS
