import SynapticOS.Store.OpsLaws

/-!
# The models of the slots in the RAM registry

How the calls that take a slot's model from the RAM registry or from the NPU end, by
what is registered and which jobs are suspended.
-/

namespace SynapticOS

open Lib

-- ---------------------------------------------------------------------------
-- Entries
-- ---------------------------------------------------------------------------

namespace Models

variable {m m' : Models} {n h i : Nat} {s : ModelSlot} {name : List UInt8}

theorem findName_some (h : m.findName n name = some i) :
    ∃ s, m.slots i = some s ∧ i < n ∧ s.info.cname = name := by
  have hp := List.find?_some h
  have hm := List.mem_of_find?_eq_some h
  cases hs : m.slots i with
  | none => simp [hs] at hp
  | some s => exact ⟨s, rfl, List.mem_range.mp hm, by simpa [hs] using hp⟩

theorem getByName_ok (hg : m.getByName n name = .ok h) :
    ∃ s, m.entry n h = some (h - 1, s) ∧ s.info.cname = name := by
  unfold getByName at hg
  split at hg
  next i hi =>
    cases hg
    obtain ⟨s, hs, hlt, hn⟩ := findName_some hi
    exact ⟨s, entry_of_slot hs hlt, hn⟩
  next => cases hg

theorem getInfo_ok (he : m.entry n h = some (i, s)) : m.getInfo n h = .ok s.info := by
  rw [getInfo, he]

theorem entry_index (he : m.entry n h = some (i, s)) : i = h - 1 := by
  obtain ⟨-, -, rfl⟩ := entry_some he
  rfl

/-- An entry of the table was replaced. -/
structure Replaced (h : Nat) (s : Option ModelSlot) (m m' : Models) : Prop where
  slots : m'.slots = Function.update m.slots (h - 1) s
  suspended : m'.suspended = m.suspended
  hal : m'.hal = m.hal
  app : m'.app = m.app

theorem unload_busy (he : m.entry n h = some (i, s)) (hl : s.loaded = true)
    (hs : m.suspended h = true) : (unload n h).run m = (.error .ebusy, m) := by
  simp [unload, Act.run_bind, he, hl, hs]

theorem unload_idle (he : m.entry n h = some (i, s)) (hl : s.loaded = true)
    (hs : m.suspended h = false) :
    ∃ m', (unload n h).run m = (.ok (), m') ∧
        Replaced h (some { s with loaded := false }) m m' := by
  obtain rfl := entry_index he
  unfold unload
  rw [Act.run_bind, Act.run_get]
  simp only [he, hl, hs, Bool.true_eq_false, Bool.false_eq_true, ↓reduceIte, Act.run_bind,
    Act.run_modify, Act.run_ite]
  split
  · exact ⟨_, rfl, rfl, rfl, rfl, rfl⟩
  · exact ⟨_, rfl, rfl, rfl, rfl, rfl⟩

theorem unregister_busy (he : m.entry n h = some (i, s)) (hs : m.suspended h = true) :
    (unregister n h).run m = (.error .ebusy, m) := by
  simp [unregister, Act.run_bind, he, hs]

/-- Without a suspended job the entry goes, loaded or not. -/
theorem unregister_idle (he : m.entry n h = some (i, s)) (hs : m.suspended h = false) :
    ∃ m', (unregister n h).run m = (.ok (), m') ∧ Replaced h none m m' := by
  obtain rfl := entry_index he
  unfold unregister
  rw [Act.run_bind, Act.run_get]
  simp only [he, hs, Bool.false_eq_true, ↓reduceIte, Act.run_bind, Act.run_attempt, Act.run_modify]
  refine ⟨_, rfl, ?_⟩
  cases hl : s.loaded with
  | false => exact ⟨rfl, rfl, rfl, rfl⟩
  | true =>
    obtain ⟨m₁, hr, hm⟩ := unload_idle he hl hs
    rw [if_pos rfl, hr]
    exact ⟨by simp [setSlot, hm.slots], hm.suspended, hm.hal, hm.app⟩

end Models

-- ---------------------------------------------------------------------------
-- The handle of a record
-- ---------------------------------------------------------------------------

section
variable {n hd : Nat} {info : ModelInfo} {m m' : Models}

/-- The entry behind the handle of a record has its name and its payload's place. -/
theorem slotHandle_some (h : slotHandle n info m = some hd) :
    ∃ s, m.entry n hd = some (hd - 1, s) ∧ s.info.cname = info.cname ∧
      s.info.flashOffset = info.flashOffset := by
  unfold slotHandle at h
  split at h
  next => cases h
  next g hg =>
    obtain ⟨s, he, hn⟩ := Models.getByName_ok hg
    rw [Models.getInfo_ok he] at h
    dsimp only at h
    split at h
    next heq =>
      cases h
      exact ⟨s, he, hn, heq⟩
    next => cases h

/-- `ram_unregister` refuses for a suspended job only. -/
theorem ramUnregister_run (n : Nat) (info : ModelInfo) (m : Models) :
    match slotHandle n info m with
    | none => (ramUnregister n info).run m = (.ok (), m)
    | some hd => if m.suspended hd then (ramUnregister n info).run m = (.error .ebusy, m)
      else ∃ m', (ramUnregister n info).run m = (.ok (), m') ∧ Models.Replaced hd none m m' := by
  have hrun : (ramUnregister n info).run m = (match slotHandle n info m with
      | none => (pure () : ModelsM Unit)
      | some h => Models.unregister n h).run m := rfl
  rw [hrun]
  cases hh : slotHandle n info m with
  | none => rfl
  | some hd =>
    obtain ⟨s, he, -⟩ := slotHandle_some hh
    dsimp only
    split
    next hs => exact Models.unregister_busy he hs
    next hs => exact Models.unregister_idle he (by simpa using hs)

/-- The loaded entry behind a handle. -/
theorem isLoaded_entry (h : m.isLoaded n hd = true) :
    ∃ s, m.entry n hd = some (hd - 1, s) ∧ s.loaded = true := by
  unfold Models.isLoaded at h
  cases he : m.entry n hd with
  | none => simp [he] at h
  | some p =>
    obtain ⟨i, s⟩ := p
    obtain rfl := Models.entry_index he
    exact ⟨s, rfl, by simpa [he] using h⟩

/-- The model of a record that the NPU holds. -/
def holds (n : Nat) (info : ModelInfo) (m : Models) : Option Nat :=
  (slotHandle n info m).filter fun h => m.isLoaded n h

/-- `releaseNpu` refuses for a suspended job only. -/
theorem releaseNpu_run (n : Nat) (info : ModelInfo) (m : Models) :
    match holds n info m with
    | none => (releaseNpu n info).run m = (.ok none, m)
    | some hd => if m.suspended hd then (releaseNpu n info).run m = (.error .ebusy, m)
      else ∃ s m', m.entry n hd = some (hd - 1, s) ∧ s.loaded = true ∧
        (releaseNpu n info).run m = (.ok (some hd), m') ∧
        Models.Replaced hd (some { s with loaded := false }) m m' := by
  unfold releaseNpu
  rw [Act.run_bind, Act.run_get]
  dsimp only
  cases hh : slotHandle n info m with
  | none =>
    simp only [holds, hh, Option.filter_none]
    rfl
  | some hd =>
    by_cases hl : m.isLoaded n hd = true
    · obtain ⟨s, he, hsl⟩ := isLoaded_entry hl
      have hholds : holds n info m = some hd := by simp [holds, hh, hl, Option.filter]
      rw [hholds]
      dsimp only
      rw [if_pos hl]
      split
      next hs =>
        rw [Act.run_bind, Act.run_attempt, Models.unload_busy he hsl hs]
        rfl
      next hs =>
        obtain ⟨m', hr, hm⟩ := Models.unload_idle he hsl (by simpa using hs)
        refine ⟨s, m', he, hsl, ?_, hm⟩
        rw [Act.run_bind, Act.run_attempt, hr]
        rfl
    · have hholds : holds n info m = none := by simp [holds, hh, hl, Option.filter]
      rw [hholds]
      dsimp only
      rw [if_neg hl]
      rfl

end

-- ---------------------------------------------------------------------------
-- Loading
-- ---------------------------------------------------------------------------

namespace Models

variable {m m' : Models} {n h : Nat} {e e' : ModelSlot} {mem mem' : Mem}

/-- The NPU takes an entry: its payload passes the CRC gate, and the HAL loads it. -/
def NpuTakes (mem : Mem) (e : ModelSlot) (m : Models) : Prop :=
  ∀ d, e.data = some d → 0 < e.dataSize →
    (e.info.crc32 = 0 ∨ crc32Ieee (m.payload mem d e.dataSize) = e.info.crc32) ∧
      ∀ x, m.hal.head? ≠ some (.error x)

theorem halLoad_spec (m : Models) :
    Triple halLoad m (fun _ m' => (∀ x, m.hal.head? ≠ some (.error x)) ∧ m'.slots = m.slots)
      (fun x m' => m.hal.head? = some (.error x) ∧ m'.slots = m.slots) := by
  unfold Triple
  simp only [Act.run, halLoad]
  cases hh : m.hal with
  | nil => simp
  | cons r rest =>
    cases r <;> simp

theorem halLoadSlot_spec (mem : Mem) (e : ModelSlot) (m : Models) :
    Triple (halLoadSlot mem e) m (fun _ m' => NpuTakes mem e m ∧ m'.slots = m.slots)
      (fun _ m' => ¬NpuTakes mem e m ∧ m'.slots = m.slots) := by
  unfold halLoadSlot NpuTakes
  cases hd : e.data with
  | none => exact Triple.pure' ⟨fun _ h => (nomatch h), rfl⟩
  | some d =>
    dsimp only
    refine Triple.ite (fun hs => Triple.get_bind ?_)
        (fun hs => Triple.pure' ⟨fun _ _ h => absurd h hs, rfl⟩)
    refine Triple.ite (fun hc => Triple.throw ⟨fun h => ?_, rfl⟩) (fun hc => ?_)
    · exact (h d rfl hs).1.elim hc.1 hc.2
    refine Triple.bind ((halLoad_spec m).mono (fun _ _ h => h) ?_) ?_
    · rintro x m' ⟨hx, hm⟩
      exact ⟨fun h => (h d rfl hs).2 x hx, hm⟩
    · rintro _ m' ⟨hx, hm⟩
      refine Triple.modify ⟨?_, hm⟩
      rintro _ ⟨⟩ -
      refine ⟨?_, hx⟩
      by_contra hn
      exact hc (not_or.mp hn)

/-- A load that the NPU takes sets the flag; any other leaves the table alone. -/
theorem load_slots (he : m.entry n h = some (h - 1, e)) (hl : e.loaded = false) :
    (NpuTakes mem e m → ((load n mem h).run m).2.slots =
      Function.update m.slots (h - 1) (some { e with loaded := true })) ∧
    (¬NpuTakes mem e m → ((load n mem h).run m).2.slots = m.slots) := by
  have hx : Ends (load n mem h) m fun m' => (NpuTakes mem e m → m'.slots =
      Function.update m.slots (h - 1) (some { e with loaded := true })) ∧
      (¬NpuTakes mem e m → m'.slots = m.slots) := by
    unfold load
    refine Ends.get_bind ?_
    simp only [he, hl, Bool.false_eq_true, ↓reduceIte]
    refine Ends.bind_triple ((halLoadSlot_spec mem e m).mono (fun _ _ h => h) ?_) ?_
    · rintro _ m' ⟨hn, hm⟩
      exact ⟨fun h => absurd h hn, fun _ => hm⟩
    · rintro _ m' ⟨ht, hm⟩
      refine Ends.modify ⟨fun _ => ?_, fun h => absurd ht h⟩
      show Function.update m'.slots _ _ = _
      rw [hm]
  exact hx

end Models

theorem NpuTakes.congr {m m' : Models} {mem mem' : Mem} {e e' : ModelSlot} (hal : m'.hal = m.hal)
    (app : m'.app = m.app) (he : e'.entry = e.entry)
    (hmem : ∀ off, e.data = some (.window off) → mem'.read off e.dataSize = mem.read off e.dataSize)
    (h : Models.NpuTakes mem e m) : Models.NpuTakes mem' e' m' := by
  simp only [ModelSlot.entry, Entry.mk.injEq] at he
  obtain ⟨hi, hd, hs⟩ := he
  intro d hd' hs'
  rw [hd] at hd'
  rw [hs] at hs' ⊢
  rw [hi, hal]
  obtain ⟨hc, hh⟩ := h d hd' hs'
  refine ⟨hc.imp_right fun hcrc => ?_, hh⟩
  rw [← hcrc]
  cases d with
  | window off =>
    show crc32Ieee (mem'.read off e.dataSize) = crc32Ieee (mem.read off e.dataSize)
    rw [hmem off hd']
  | app addr =>
    show crc32Ieee (m'.app.read addr e.dataSize) = crc32Ieee (m.app.read addr e.dataSize)
    rw [app]

-- ---------------------------------------------------------------------------
-- Moving the NPU
-- ---------------------------------------------------------------------------

section
variable {cfg : Config} {s s' : Store} {cur next slot : Nat}

/-- The handle of the outgoing model, when the NPU holds it. -/
def outgoing (cfg : Config) (cur : Nat) (s : Store) : Option Nat :=
  if cur = slotNone then none else holds cfg.maxModels (s.st.reg.record cur) s.models

/-- The outgoing model has a suspended job. -/
def NpuBusy (cfg : Config) (cur : Nat) (s : Store) : Prop :=
  ∃ hd, outgoing cfg cur s = some hd ∧ s.models.suspended hd = true

/-- The outgoing model left the NPU. -/
def Released (n : Nat) (held : Option Nat) (m m' : Models) : Prop :=
  match held with
  | none => m' = m
  | some hd => ∃ e, m.entry n hd = some (hd - 1, e) ∧ e.loaded = true ∧
    Models.Replaced hd (some { e with loaded := false }) m m'

/-- The RAM registry after `reload`. -/
def reloaded (n : Nat) (mem : Mem) (held : Option Nat) (m : Models) : Models :=
  held.elim m fun h => ((Models.load n mem h).run m).2

theorem reload_run (cfg : Config) (held : Option Nat) (s : Store) :
    (reload cfg held).run s =
      (.ok (), { s with models := reloaded cfg.maxModels s.flash.mem held s.models }) := by
  cases held <;> rfl

theorem release_run (cfg : Config) (cur : Nat) (s : Store) :
    (NpuBusy cfg cur s ∧ (if cur = slotNone then pure none
        else releaseNpu cfg.maxModels (s.st.reg.record cur) : ModelsM (Option Nat)).run s.models =
          (.error .ebusy, s.models)) ∨
    ¬NpuBusy cfg cur s ∧ ∃ m', Released cfg.maxModels (outgoing cfg cur s) s.models m' ∧
      (if cur = slotNone then pure none
        else releaseNpu cfg.maxModels (s.st.reg.record cur) : ModelsM (Option Nat)).run s.models =
          (.ok (outgoing cfg cur s), m') := by
  unfold NpuBusy outgoing
  by_cases hc : cur = slotNone
  · right
    simp only [hc, ↓reduceIte]
    exact ⟨fun ⟨_, h, _⟩ => (nomatch h), s.models, rfl, rfl⟩
  simp only [hc, ↓reduceIte]
  have h := releaseNpu_run cfg.maxModels (s.st.reg.record cur) s.models
  cases ho : holds cfg.maxModels (s.st.reg.record cur) s.models with
  | none =>
    rw [ho] at h
    exact .inr ⟨fun ⟨_, h, _⟩ => (nomatch h), s.models, rfl, h⟩
  | some hd =>
    rw [ho] at h
    dsimp only at h
    split at h
    next hs => exact .inl ⟨⟨hd, rfl, hs⟩, h⟩
    next hs =>
      obtain ⟨e, m', he, hl, hr, hm⟩ := h
      refine .inr ⟨?_, m', ⟨e, he, hl, hm⟩, hr⟩
      rintro ⟨_, h, hs'⟩
      cases h
      exact hs hs'

/-- The move of the NPU refuses for a suspended job, with nothing changed; a commit
that fails gives the NPU back, as far as the HAL loads the model again. -/
theorem switchActive_exact (hv : layoutValid cfg) (cur next : Nat) (u : RegUpdate)
    (hf : (u.apply s.st.reg).Fits cfg) :
    Triple (switchActive cfg cur next u) s
      (fun _ s' => ¬NpuBusy cfg cur s ∧ Committed cfg (u.apply s.st.reg) s s' ∧
        ∃ m r m', Released cfg.maxModels (outgoing cfg cur s) s.models m ∧
          Registers cfg next s'.st.reg m r m' ∧ s'.models = reloaded cfg.maxModels s'.flash.mem
            (if (outgoing cfg cur s).isSome then r.toOption else none) m')
      (fun _ s' => NpuBusy cfg cur s ∧ s' = s ∨ ¬NpuBusy cfg cur s ∧
        Aborted cfg (u.apply s.st.reg) s s' ∧
        ∃ m, Released cfg.maxModels (outgoing cfg cur s) s.models m ∧
          s'.models = reloaded cfg.maxModels s'.flash.mem (outgoing cfg cur s) m) := by
  unfold switchActive
  refine Triple.gets_bind ?_
  rcases release_run cfg cur s with ⟨hb, hrun⟩ | ⟨hb, m, hrel, hrun⟩
  · have hstop : (Store.onModels (if cur = slotNone then pure none
        else releaseNpu cfg.maxModels (s.st.reg.record cur))).run s = (.error .ebusy, s) := by
      rw [Store.onModels, Act.run_zoom, hrun]
    exact Triple.of_run_error (Act.run_bind_error hstop) (.inl ⟨hb, rfl⟩)
  generalize outgoing cfg cur s = held at hrel hrun
  have hgo : (Store.onModels (if cur = slotNone then pure none
      else releaseNpu cfg.maxModels (s.st.reg.record cur))).run s =
        (.ok held, { s with models := m }) := by
    rw [Store.onModels, Act.run_zoom, hrun]
  refine Triple.bind (Q := fun a s₁ => a = held ∧ s₁ = { s with models := m })
    (Triple.of_run hgo ⟨rfl, rfl⟩) ?_
  rintro _ s₁ ⟨rfl, hs₁⟩
  have hst : s₁.st = s.st := by rw [hs₁]
  have hd : SameDisk s s₁ := ⟨by rw [hs₁], hst⟩
  refine Triple.attempt_bind (commitUpdate_spec hv u (hst ▸ hf)) ?_ ?_
  · rintro _ s₂ ⟨h, hm⟩
    rw [hst] at h
    have hc := h.of_sameDisk hd
    have hm₂ : s₂.models = m := by rw [hm, hs₁]
    dsimp only
    refine Triple.attempt_bind (registerSlot_spec cfg next s₂) ?_ ?_
    all_goals
      rintro r s₃ ⟨hd₃, hreg⟩
      refine Triple.of_run (reload_run cfg _ s₃) ⟨hb, ?_, ?_⟩
      · exact (hc.then_sameDisk hd₃).then_sameDisk ⟨rfl, rfl⟩
      · rw [hm₂, ← hd₃.st] at hreg
        exact ⟨m, _, s₃.models, hrel, hreg, rfl⟩
  · rintro e s₂ ⟨h, hm⟩
    rw [hst] at h
    have hc := h.of_sameDisk hd
    have hm₂ : s₂.models = m := by rw [hm, hs₁]
    refine Triple.of_run_error (e := e) (Act.run_bind_ok (reload_run cfg _ s₂))
        (.inr ⟨hb, ?_, m, hrel, ?_⟩)
    · exact hc.then_sameDisk ⟨rfl, rfl⟩
    · show reloaded _ _ _ s₂.models = _
      rw [hm₂]

end

end SynapticOS
