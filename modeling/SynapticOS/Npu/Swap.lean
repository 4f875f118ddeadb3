import SynapticOS.Layered.Placement
import SynapticOS.Npu.ResidencyLaws

/-!
# A failed swap

What a swap that fails leaves behind (`swap_leaves`). The old model loses its
flag before the new one is loaded, and the load can fail after the driver has
dropped the prepared model; everything else is as before, up to the configuration
of a model that is not prepared, which no call reads (`Alike`).
-/

namespace SynapticOS.Npu

open Lib Layered

variable {b : Board} {drv : Driver}

-- ---------------------------------------------------------------------------
-- Return values
-- ---------------------------------------------------------------------------

/-- What `syn_model_swap` returns. -/
def swapRet (b : Board) (old new : Nat) (drv : Driver) (s : Rig) : Except Errno Unit :=
  match s.index b old, s.index b new with
  | some o, some n =>
    if o = n then .error .einval
    else
      let s := s.setSlot o { s.slots o with loaded := false }
      if (s.slots n).loaded then .ok () else (halLoad b drv (s.slots n) s).1
  | _, _ => .error .einval

/-- How a job ends: with what it ran on, or with an error. -/
def jobRet (b : Board) (h : Nat) (input : List UInt8) (drv : Driver) (st : Stage) (s : Rig) :
    Except Errno Exec :=
  match s.index b h with
  | none => .error .einval
  | some i =>
    match ensureResident b drv i s with
    | (.error e, _) => .error e
    | (.ok (), s) => (s.hal.stage b drv st input).1

/-- How a resumed job ends. -/
def resumeRet (b : Board) (st : Stage) (slot : Nat) (s : Hal) : Except Errno Exec :=
  match (restore b.lim slot).run s.engine with
  | (.error e, _) => .error e
  | (.ok (), g) =>
    match (session st).run g with
    | (.error e, _) => .error e
    | (.ok _, g') => if st.room then .ok (.layered g'.plan.model) else .error .enomem

def jobEnds (b : Board) (s : Rig) : Op → Option (Except Errno Exec)
  | .job h input drv st => some (jobRet b h input drv st s)
  | .resume slot st => some (resumeRet b st slot s.hal)
  | _ => none

/-- How the jobs of a run end. -/
def outcomes (b : Board) : Rig → List Op → List (Option (Except Errno Exec))
  | _, [] => []
  | s, o :: rest => jobEnds b s o :: outcomes b (step b s o) rest

/-- Nobody can tell the second state from the first. -/
structure Unswapped (b : Board) (s s' : Rig) : Prop where
  loaded : ∀ i, (s'.slots i).loaded = (s.slots i).loaded
  resident : s'.resident = s.resident
  outcomes : ∀ ops, outcomes b s' ops = outcomes b s ops

-- ---------------------------------------------------------------------------
-- What no call reads
-- ---------------------------------------------------------------------------

/-- The same, up to the configuration of a model that is not prepared. -/
def Hal.Alike (s s' : Hal) : Prop :=
  s' = s ∨ s.neutron.prepared = false ∧ ∃ n : Neutron, n.prepared = false ∧ s' =
      { s with neutron := n }

/-- The same answer, and states that are alike. -/
structure Agree (x x' : α × Hal) : Prop where
  ret : x'.1 = x.1
  hal : x.2.Alike x'.2

theorem Hal.Alike.refl (s : Hal) : s.Alike s := .inl rfl

theorem Agree.refl (x : α × Hal) : Agree x x := ⟨rfl, .refl _⟩

section
variable {s s' : Hal}

theorem Hal.Alike.engine (h : s.Alike s') : s'.engine = s.engine := by
  rcases h with rfl | ⟨-, n, -, rfl⟩ <;> rfl

theorem Hal.Alike.withEngine (h : s.Alike s') (g : Engine) :
    Hal.Alike { s with engine := g } { s' with engine := g } := by
  rcases h with rfl | ⟨hp, n, hn, rfl⟩
  · exact .refl _
  · exact .inr ⟨hp, n, hn, rfl⟩

theorem Hal.Alike.onLoad (h : s.Alike s') (b : Board) (data : List UInt8) :
    (s.onLoad b data).Alike (s'.onLoad b data) := by
  unfold Hal.onLoad
  rw [h.engine]
  exact h.withEngine _

theorem neutronUnprepare_idle {n : Neutron} (h : n.prepared = false) (drv : Driver) :
    neutronUnprepare drv n = (.ok (), n) := by
  unfold neutronUnprepare
  rw [if_pos h]

/-- Preparing forgets what was configured before. -/
theorem neutronPrepare_idle {n n' : Neutron} (h : n.prepared = false) (h' : n'.prepared = false)
    (b : Board) (drv : Driver) (data : List UInt8) :
    (neutronPrepare b drv data n').1 = (neutronPrepare b drv data n).1 ∧
      ((neutronPrepare b drv data n').2 = (neutronPrepare b drv data n).2 ∨
        (neutronPrepare b drv data n).2.prepared = false ∧
          (neutronPrepare b drv data n').2.prepared = false) := by
  unfold neutronPrepare
  rw [neutronUnprepare_idle h, neutronUnprepare_idle h']
  split
  · exact ⟨rfl, .inr ⟨h, h'⟩⟩
  · dsimp only
    split
    · exact ⟨rfl, .inl rfl⟩
    · exact ⟨rfl, .inr ⟨h, h'⟩⟩

theorem Hal.Alike.load (h : s.Alike s') (b : Board) (drv : Driver) (addr size : Nat) :
    Agree (s.load b drv addr size) (s'.load b drv addr size) := by
  rcases h with rfl | ⟨hp, n, hn, rfl⟩
  · exact .refl _
  unfold Hal.load
  dsimp only
  split
  · exact ⟨rfl, .inr ⟨hp, n, hn, rfl⟩⟩
  split
  · exact ⟨rfl, .inr ⟨hp, n, hn, rfl⟩⟩
  split
  · exact ⟨rfl, .inr ⟨hp, n, hn, rfl⟩⟩
  obtain ⟨hret, hst⟩ := neutronPrepare_idle hp hn b drv (b.blob addr size)
  generalize neutronPrepare b drv (b.blob addr size) s.neutron = x at hret hst
  generalize neutronPrepare b drv (b.blob addr size) n = x' at hret hst
  obtain ⟨r, m⟩ := x
  obtain ⟨r', m'⟩ := x'
  dsimp only at hret hst
  subst hret
  have halike : ∀ t : Hal, Hal.Alike { t with neutron := m } { t with neutron := m' } := by
    intro t
    rcases hst with rfl | ⟨h1, h2⟩
    · exact .refl _
    · exact .inr ⟨h1, m', h2, rfl⟩
  cases r' with
  | ok u => exact ⟨rfl, halike { s with data := some addr, size := size, modelLoaded := true }⟩
  | error e =>
    cases e with
    | enotsup =>
      refine ⟨rfl, Hal.Alike.onLoad ?_ b _⟩
      exact .inr ⟨neutronUnprepare_prepared drv m, _, neutronUnprepare_prepared drv m', rfl⟩
    | _ => exact ⟨rfl, halike s⟩

theorem Hal.Alike.unload (h : s.Alike s') (b : Board) (drv : Driver) :
    (s.unload b drv).Alike (s'.unload b drv) := by
  rcases h with rfl | ⟨hp, n, hn, rfl⟩
  · exact .refl _
  unfold Hal.unload
  dsimp only
  split
  · exact .inr ⟨hp, n, hn, rfl⟩
  · refine Hal.Alike.onLoad ?_ b _
    exact .inr ⟨neutronUnprepare_prepared drv s.neutron, _, neutronUnprepare_prepared drv n, rfl⟩

theorem Hal.Alike.setInput (h : s.Alike s') (size : Nat) :
    Agree (s.setInput size) (s'.setInput size) := by
  rcases h with rfl | ⟨hp, n, hn, rfl⟩
  · exact .refl _
  unfold Hal.setInput
  dsimp only
  repeat' split
  all_goals exact ⟨rfl, .inr ⟨hp, n, hn, rfl⟩⟩

theorem Hal.Alike.invoke (h : s.Alike s') (drv : Driver) :
    Agree (s.invoke drv) (s'.invoke drv) := by
  rcases h with rfl | ⟨hp, n, hn, rfl⟩
  · exact .refl _
  unfold Hal.invoke
  dsimp only
  rw [hp, hn]
  repeat' split
  all_goals first | exact ⟨rfl, .inr ⟨hp, n, hn, rfl⟩⟩ | contradiction

theorem Hal.Alike.stage (h : s.Alike s') (b : Board) (drv : Driver) (st : Stage)
    (input : List UInt8) : Agree (s.stage b drv st input) (s'.stage b drv st input) := by
  unfold Hal.stage
  rw [h.engine]
  generalize (begin b.lim input).run s.engine = x
  obtain ⟨r, g⟩ := x
  cases r with
  | error e => exact ⟨rfl, h.withEngine g⟩
  | ok n =>
    dsimp only
    split
    · generalize (session st).run g = y
      obtain ⟨r, g'⟩ := y
      cases r with
      | error e => exact ⟨rfl, h.withEngine g'⟩
      | ok _ => exact ⟨rfl, h.withEngine g'⟩
    · obtain ⟨hret, hal⟩ := (h.withEngine g).setInput input.length
      generalize Hal.setInput input.length { s with engine := g } = y at hret hal
      generalize Hal.setInput input.length { s' with engine := g } = y' at hret hal
      obtain ⟨r, t⟩ := y
      obtain ⟨r', t'⟩ := y'
      dsimp only at hret hal
      subst hret
      cases r' with
      | error e => exact ⟨rfl, hal⟩
      | ok u =>
        dsimp only
        obtain ⟨hret, hal⟩ := hal.invoke drv
        generalize t.invoke drv = z at hret hal
        generalize t'.invoke drv = z' at hret hal
        obtain ⟨r, t⟩ := z
        obtain ⟨r', t'⟩ := z'
        dsimp only at hret hal
        subst hret
        cases r' with
        | error e => exact ⟨rfl, hal⟩
        | ok x => exact ⟨rfl, hal⟩

theorem Hal.Alike.resume (h : s.Alike s') (b : Board) (st : Stage) (slot : Nat) :
    (s.resume b st slot).Alike (s'.resume b st slot) ∧
      resumeRet b st slot s' = resumeRet b st slot s := by
  unfold Hal.resume resumeRet
  rw [h.engine]
  refine ⟨?_, rfl⟩
  split
  · exact h.withEngine _
  · exact h.withEngine _

end

-- ---------------------------------------------------------------------------
-- The registry
-- ---------------------------------------------------------------------------

/-- The same registry over backends that are alike. -/
def Rig.Alike (s s' : Rig) : Prop := ∃ hal, s.hal.Alike hal ∧ s' = { s with hal := hal }

section
variable {s s' : Rig}

theorem Rig.Alike.refl (s : Rig) : s.Alike s := ⟨s.hal, .refl _, rfl⟩

theorem Rig.Alike.setSlot (h : s.Alike s') (i : Nat) (x : ModelSlot) :
    (s.setSlot i x).Alike (s'.setSlot i x) := by
  obtain ⟨hal, h, rfl⟩ := h
  exact ⟨hal, h, rfl⟩

theorem Rig.Alike.index (h : s.Alike s') (n : Nat) : s'.index b n = s.index b n := by
  obtain ⟨hal, h, rfl⟩ := h
  rfl

theorem Rig.Alike.slots (h : s.Alike s') : s'.slots = s.slots := by
  obtain ⟨hal, h, rfl⟩ := h
  rfl

theorem Rig.Alike.resident (h : s.Alike s') : s'.resident = s.resident := by
  obtain ⟨hal, h, rfl⟩ := h
  rfl

theorem Rig.Alike.halLoad (h : s.Alike s') (drv : Driver) (x : ModelSlot) :
    (Npu.halLoad b drv x s').1 = (Npu.halLoad b drv x s).1 ∧
      (Npu.halLoad b drv x s).2.Alike (Npu.halLoad b drv x s').2 := by
  obtain ⟨hal, h, rfl⟩ := h
  unfold Npu.halLoad
  split
  · exact ⟨rfl, hal, h, rfl⟩
  · rename_i addr _
    split
    · exact ⟨rfl, hal, h, rfl⟩
    · obtain ⟨hret, hh⟩ := h.load b drv addr x.size
      dsimp only
      generalize s.hal.load b drv addr x.size = y at hret hh
      generalize hal.load b drv addr x.size = y' at hret hh
      obtain ⟨r, t⟩ := y
      obtain ⟨r', t'⟩ := y'
      dsimp only at hret hh
      subst hret
      cases r' with
      | ok u => exact ⟨rfl, t', hh, rfl⟩
      | error e => exact ⟨rfl, t', hh, rfl⟩

theorem Rig.Alike.doLoad (h : s.Alike s') (drv : Driver) (i : Nat) :
    (Npu.doLoad b drv i s).Alike (Npu.doLoad b drv i s') := by
  unfold Npu.doLoad
  rw [h.slots]
  obtain ⟨hret, hh⟩ := h.halLoad (b := b) drv (s.slots i)
  generalize Npu.halLoad b drv (s.slots i) s = y at hret hh
  generalize Npu.halLoad b drv (s.slots i) s' = y' at hret hh
  obtain ⟨r, t⟩ := y
  obtain ⟨r', t'⟩ := y'
  dsimp only at hret hh
  subst hret
  cases r' with
  | ok u =>
    dsimp only
    rw [hh.slots]
    exact hh.setSlot i _
  | error e => exact hh

theorem Rig.Alike.unloadSlot (h : s.Alike s') (i : Nat) (drv : Driver) :
    (Npu.unloadSlot b i drv s).Alike (Npu.unloadSlot b i drv s') := by
  unfold Npu.unloadSlot
  rw [h.slots]
  split
  · exact h
  · have hset := h.setSlot i { s.slots i with loaded := false }
    dsimp only
    rw [hset.slots, hset.resident]
    split
    · obtain ⟨hal, hh, he⟩ := hset
      rw [he]
      exact ⟨_, hh.unload b drv, rfl⟩
    · exact hset

theorem Rig.Alike.ensureResident (h : s.Alike s') (drv : Driver) (i : Nat) :
    (Npu.ensureResident b drv i s').1 = (Npu.ensureResident b drv i s).1 ∧
      (Npu.ensureResident b drv i s).2.Alike (Npu.ensureResident b drv i s').2 := by
  have hload := h.halLoad (b := b) drv (s.slots i)
  obtain ⟨hal, h, rfl⟩ := h
  unfold Npu.ensureResident
  dsimp only
  split
  · exact ⟨rfl, hal, h, rfl⟩
  · split
    · exact ⟨rfl, hal, h, rfl⟩
    · exact hload

theorem Rig.Alike.job (h : s.Alike s') (n : Nat) (input : List UInt8) (drv : Driver) (st : Stage) :
    (Npu.job b n input drv st s).Alike (Npu.job b n input drv st s') ∧
      jobRet b n input drv st s' = jobRet b n input drv st s := by
  unfold Npu.job jobRet
  rw [h.index]
  generalize s.index b n = oi
  cases oi with
  | none => exact ⟨h, rfl⟩
  | some i =>
    obtain ⟨hret, hh⟩ := h.ensureResident (b := b) drv i
    dsimp only
    generalize Npu.ensureResident b drv i s = y at hret hh
    generalize Npu.ensureResident b drv i s' = y' at hret hh
    obtain ⟨r, t⟩ := y
    obtain ⟨r', t'⟩ := y'
    dsimp only at hret hh
    subst hret
    cases r' with
    | error e => exact ⟨hh, rfl⟩
    | ok u =>
      obtain ⟨hal, hh, rfl⟩ := hh
      obtain ⟨hret, hh⟩ := hh.stage b drv st input
      dsimp only
      generalize t.hal.stage b drv st input = y at hret hh
      generalize hal.stage b drv st input = y' at hret hh
      obtain ⟨r, g⟩ := y
      obtain ⟨r', g'⟩ := y'
      dsimp only at hret hh
      subst hret
      cases r' with
      | error e => exact ⟨⟨g', hh, rfl⟩, rfl⟩
      | ok x => exact ⟨⟨g', hh, rfl⟩, rfl⟩

theorem Rig.Alike.step (h : s.Alike s') (o : Op) :
    (Npu.step b s o).Alike (Npu.step b s' o) ∧ jobEnds b s' o = jobEnds b s o := by
  cases o with
  | register name crc32 =>
    obtain ⟨hal, h, rfl⟩ := h
    refine ⟨?_, rfl⟩
    unfold Npu.step Npu.register
    dsimp only
    split
    · exact ⟨hal, h, rfl⟩
    · split <;> exact ⟨hal, h, rfl⟩
  | setData n data size =>
    refine ⟨?_, rfl⟩
    unfold Npu.step Npu.setData
    dsimp only
    rw [h.index, h.slots]
    split
    · exact h
    · split
      · exact h
      · exact h.setSlot _ _
  | load n drv =>
    refine ⟨?_, rfl⟩
    unfold Npu.step Npu.load
    dsimp only
    rw [h.index, h.slots]
    split
    · exact h
    · split
      · exact h
      · exact h.doLoad drv _
  | unload n suspended drv =>
    refine ⟨?_, rfl⟩
    unfold Npu.step Npu.unload
    dsimp only
    rw [h.index]
    split
    · exact h
    · split
      · exact h
      · exact h.unloadSlot _ drv
  | unregister n suspended drv =>
    refine ⟨?_, rfl⟩
    unfold Npu.step Npu.unregister
    dsimp only
    rw [h.index]
    split
    · exact h
    · split
      · exact h
      · rename_i i _ _
        have hu := h.unloadSlot (b := b) i drv
        rw [hu.slots]
        exact hu.setSlot _ _
  | swap old new drv =>
    refine ⟨?_, rfl⟩
    unfold Npu.step Npu.swap
    dsimp only
    rw [h.index, h.index, h.slots]
    split
    · rename_i o n _ _
      split
      · exact h
      · have hset := h.setSlot o { s.slots o with loaded := false }
        rw [hset.slots]
        split
        · exact hset
        · exact hset.doLoad drv n
    · exact h
  | job n input drv st =>
    obtain ⟨hs, hr⟩ := h.job (b := b) n input drv st
    exact ⟨hs, congrArg some hr⟩
  | resume slot st =>
    obtain ⟨hal, h, rfl⟩ := h
    obtain ⟨hs, hr⟩ := h.resume b st slot
    exact ⟨⟨_, hs, rfl⟩, congrArg some hr⟩

theorem Rig.Alike.outcomes (h : s.Alike s') (ops : List Op) :
    Npu.outcomes b s' ops = Npu.outcomes b s ops := by
  induction ops generalizing s s' with
  | nil => rfl
  | cons o rest ih =>
    obtain ⟨hs, hr⟩ := h.step (b := b) o
    unfold Npu.outcomes
    rw [hr, ih hs]

end

-- ---------------------------------------------------------------------------
-- Loads that fail
-- ---------------------------------------------------------------------------

theorem neutronPrepare_driver (hc : neutronCheck b data = .ok d) (drv : Driver) (n : Neutron) :
    (drv.prepare = true ∧ (n.prepared = true → drv.unprepare = true) ∧
      (neutronPrepare b drv data n).1 = .ok ()) ∨
    (¬(drv.prepare = true ∧ (n.prepared = true → drv.unprepare = true)) ∧
      ∃ n' : Neutron, n'.prepared = false ∧ neutronPrepare b drv data n = (.error .eio, n')) := by
  unfold neutronPrepare
  rw [hc]
  dsimp only
  have hp := neutronUnprepare_prepared drv n
  by_cases hu : n.prepared = true → drv.unprepare = true
  · have h1 := neutronUnprepare_ok hu
    generalize neutronUnprepare drv n = x at h1 hp
    obtain ⟨r, n'⟩ := x
    dsimp only at h1 hp ⊢
    rw [h1]
    dsimp only
    split
    · rename_i hd
      exact .inl ⟨hd, hu, rfl⟩
    · rename_i hd
      exact .inr ⟨fun h => hd h.1, { n' with model := data }, hp, rfl⟩
  · refine .inr ⟨fun h => hu h.2, { n with prepared := false }, rfl, ?_⟩
    obtain ⟨hn, hd⟩ := Classical.not_imp.mp hu
    unfold neutronUnprepare
    rw [if_neg (by simp [hn]), if_neg hd]

/-- A load of the blob gets as far as the driver. -/
def Hal.Asks (b : Board) (addr size : Nat) (s : Hal) : Prop :=
  size ≠ 0 ∧ s.state ≠ .busy ∧ prepares b addr size = true

/-- A blob that gets there is prepared, unless the driver fails; then nothing is. -/
theorem load_asks {s : Hal} (h : s.Asks b addr size) (drv : Driver) :
    (DriverOk drv s ∧ (s.load b drv addr size).1 = .ok ()) ∨
    (¬DriverOk drv s ∧ ∃ n : Neutron, n.prepared = false ∧
      s.load b drv addr size = (.error .eio, { s with neutron := n })) := by
  obtain ⟨hsize, hbusy, hp⟩ := h
  obtain ⟨hmax, hok⟩ := Bool.and_eq_true_iff.mp hp
  unfold Hal.load DriverOk
  rw [if_neg hsize, if_neg hbusy, if_neg (Nat.not_lt.mpr (of_decide_eq_true hmax))]
  cases hc : neutronCheck b (b.blob addr size) with
  | error e =>
    rw [hc] at hok
    cases hok
  | ok d =>
    rcases neutronPrepare_driver hc drv s.neutron with ⟨h1, h2, hr⟩ | ⟨hno, n, hn, hr⟩
    · refine .inl ⟨⟨h1, h2⟩, ?_⟩
      generalize neutronPrepare b drv (b.blob addr size) s.neutron = x at hr
      obtain ⟨r, n⟩ := x
      dsimp only at hr
      rw [hr]
    · rw [hr]
      exact .inr ⟨hno, n, hn, rfl⟩

/-- A load that fails before the driver is asked changes nothing. -/
theorem load_refused {s s' : Hal} (h : s.load b drv addr size = (.error e, s'))
    (hno : ¬s.Asks b addr size) : s' = s := by
  unfold Hal.load at h
  split at h
  · exact ((Prod.mk.inj h).2).symm
  rename_i hsize
  split at h
  · exact ((Prod.mk.inj h).2).symm
  rename_i hbusy
  split at h
  · exact ((Prod.mk.inj h).2).symm
  rename_i hmax
  have hc : ∃ er, neutronCheck b (b.blob addr size) = .error er := by
    cases hc : neutronCheck b (b.blob addr size) with
    | error er => exact ⟨er, rfl⟩
    | ok d =>
      refine absurd ⟨hsize, hbusy, ?_⟩ hno
      unfold prepares
      rw [hc, decide_eq_true (Nat.not_lt.mp hmax)]
      rfl
  obtain ⟨er, hc⟩ := hc
  unfold neutronPrepare at h
  rw [hc] at h
  cases er with
  | enotsup => cases h
  | _ =>
    cases h
    rfl

/-- The load of an entry gets as far as the driver. -/
def Rig.Asks (b : Board) (s : Rig) (x : ModelSlot) : Prop :=
  ∃ addr, x.toLoad = some addr ∧ x.crcOk b addr = true ∧ s.hal.Asks b addr x.size

theorem halLoad_error {s s' : Rig} {x : ModelSlot} (h : halLoad b drv x s = (.error e, s')) :
    (¬s.Asks b x ∧ s' = s) ∨
    (s.Asks b x ∧ ∃ n : Neutron, n.prepared = false ∧
      s' = { s with hal := { s.hal with neutron := n } }) := by
  unfold halLoad at h
  split at h
  · cases h
  rename_i addr haddr
  split at h
  · rename_i hcrc
    cases h
    refine .inl ⟨?_, rfl⟩
    rintro ⟨addr', ha, hok, -⟩
    rw [haddr] at ha
    cases ha
    rw [hcrc] at hok
    cases hok
  rename_i hcrc
  by_cases hasks : s.hal.Asks b addr x.size
  · refine .inr ⟨⟨addr, haddr, by simpa using hcrc, hasks⟩, ?_⟩
    rcases load_asks hasks drv with ⟨-, hr⟩ | ⟨-, n, hn, hr⟩
    · generalize s.hal.load b drv addr x.size = y at h hr
      obtain ⟨r, t⟩ := y
      dsimp only at hr
      rw [hr] at h
      cases h
    · rw [hr] at h
      cases h
      exact ⟨n, hn, rfl⟩
  · refine .inl ⟨?_, ?_⟩
    · rintro ⟨addr', ha, -, hok⟩
      rw [haddr] at ha
      cases ha
      exact hasks hok
    · cases hl : s.hal.load b drv addr x.size with
      | mk r t =>
        rw [hl] at h
        cases r with
        | ok u => cases h
        | error er =>
          cases h
          rw [load_refused hl hasks]

-- ---------------------------------------------------------------------------
-- Swaps that fail
-- ---------------------------------------------------------------------------

section
variable {s : Rig} {old new : Nat}

theorem setSlot_unloaded (h : (s.slots i).loaded = false) :
    s.setSlot i { s.slots i with loaded := false } = s := by
  unfold Rig.setSlot
  rw [show ({ s.slots i with loaded := false } : ModelSlot) = s.slots i by rw [← h],
    Function.update_eq_self]

/-- What a failed swap of two models leaves. -/
theorem swap_failed (h : swapRet b old new drv s = .error e) (ho : s.index b old = some o)
    (hn : s.index b new = some n) (hne : o ≠ n) : (s.slots n).loaded = false ∧
      ((¬s.Asks b (s.slots n) ∧
        swap b old new drv s = s.setSlot o { s.slots o with loaded := false }) ∨
      (s.Asks b (s.slots n) ∧ ∃ m : Neutron, m.prepared = false ∧ swap b old new drv s =
        { s.setSlot o { s.slots o with loaded := false } with
          hal := { s.hal with neutron := m } })) := by
  unfold swapRet at h
  unfold swap doLoad
  rw [ho, hn] at h ⊢
  dsimp only at h ⊢
  rw [if_neg hne] at h ⊢
  have hslot : (s.setSlot o { s.slots o with loaded := false }).slots n = s.slots n :=
    Function.update_of_ne (Ne.symm hne) _ _
  rw [hslot] at h ⊢
  split at h
  · cases h
  rename_i hl
  rw [if_neg hl]
  refine ⟨by simpa using hl, ?_⟩
  cases hr : halLoad b drv (s.slots n) (s.setSlot o { s.slots o with loaded := false }) with
  | mk r s' =>
    rw [hr] at h
    dsimp only at h
    subst h
    exact halLoad_error hr

/-- Either the handles are bad; or the old model was not loaded, and the driver is
not asked while a model is prepared. -/
def Harmless (b : Board) (old new : Nat) (s : Rig) : Prop :=
  ∀ o n, s.index b old = some o → s.index b new = some n → o ≠ n →
    (s.slots o).loaded = false ∧ (s.hal.neutron.prepared = true → ¬s.Asks b (s.slots n))

theorem swap_bad_handles (h : ∀ o n, s.index b old = some o → s.index b new = some n → o = n) :
    swap b old new drv s = s := by
  unfold swap
  split
  · rename_i o n ho hn
    rw [if_pos (h o n ho hn)]
  · rfl

theorem unswapped_of_harmless (hret : swapRet b old new drv s = .error e)
    (h : Harmless b old new s) : Unswapped b s (swap b old new drv s) := by
  have hof : s.Alike (swap b old new drv s) → Unswapped b s (swap b old new drv s) := fun ha =>
    ⟨fun i => by rw [ha.slots], ha.resident, ha.outcomes⟩
  by_cases hbad : ∀ o n, s.index b old = some o → s.index b new = some n → o = n
  · rw [swap_bad_handles hbad] at hof ⊢
    exact hof (.refl s)
  push Not at hbad
  obtain ⟨o, n, ho, hn, hne⟩ := hbad
  obtain ⟨hold, hdrv⟩ := h o n ho hn hne
  refine hof ?_
  rcases (swap_failed hret ho hn hne).2 with ⟨-, he⟩ | ⟨hasks, m, hm, he⟩
  · rw [he, setSlot_unloaded hold]
    exact .refl s
  · rw [he, setSlot_unloaded hold]
    have hp : s.hal.neutron.prepared = false := by
      by_contra hp
      exact hdrv (by simpa using hp) hasks
    exact ⟨_, .inr ⟨hp, m, hm, rfl⟩, rfl⟩

-- ---------------------------------------------------------------------------
-- Telling the difference
-- ---------------------------------------------------------------------------

theorem planLive_errors (lim : Limits) (data : List UInt8) (p : Plan) :
    Triple (planLive lim data) p (fun _ _ => True)
      (fun e _ => e = .enotsup ∨ e = .einval ∨ e = .enomem) := by
  have hlayers : ∀ (dag : Bool) (k i : Nat) (p : Plan), Triple (parseLayers lim dag data k i) p
      (fun _ _ => True) (fun e _ => e = .enotsup ∨ e = .einval ∨ e = .enomem) := by
    intro dag k
    induction k with
    | zero => exact fun _ _ => Triple.pure' trivial
    | succ k ih =>
      intro i p
      unfold parseLayers
      split
      · rename_i e he
        exact Triple.throw (.inr (.inl (parseLayer_error he)))
      · exact Triple.modify_bind (ih (i + 1) _)
  unfold planLive
  refine Triple.bind (Q := fun _ _ => True) ?_ fun _ p' _ =>
    (placeBuffers_firstFit lim p').mono (fun _ _ _ => trivial) fun e _ h => .inr (.inr h.1)
  unfold parseModel
  split
  · rename_i e he
    refine Triple.throw ?_
    unfold parseHeader at he
    dsimp only at he
    repeat' split at he
    all_goals cases he <;> simp
  · exact Triple.modify_bind (hlayers _ _ _ _)

/-- An empty input begins no session. -/
theorem begin_empty (lim : Limits) (e : Engine) :
    Triple (begin lim []) e (fun n _ => n = 0) (fun er _ => er ≠ .enoexec) := by
  unfold begin
  refine Triple.get_bind ?_
  split
  · exact Triple.pure' rfl
  rename_i blob _
  have hlive : Triple (livePlan lim blob) e (fun _ e' => 0 < e'.plan.inputSize)
      (fun er _ => er ≠ .enoexec) := by
    refine Triple.zoom ?_
    refine ((planLive_spec lim blob e.plan).and (planLive_errors lim blob e.plan)).mono
      (fun _ _ h => h.1.input) ?_
    rintro er _ ⟨-, rfl | rfl | rfl⟩ <;> decide
  refine Triple.attempt_bind hlive (fun _ e' h => ?_) fun er e' h => ?_
  · refine Triple.get_bind ?_
    dsimp only
    refine Triple.ite (fun _ => Triple.throw (by decide)) fun hne => ?_
    rw [List.length_nil, ne_eq, not_not] at hne
    omega
  · cases er with
    | enotsup => exact Triple.pure' rfl
    | _ => exact Triple.throw h

/-- A model stage is not refused for a model that is not loaded. -/
theorem stage_empty (b : Board) (drv : Driver) (st : Stage) (s : Hal) :
    (s.stage b drv st []).1 ≠ .error .enoexec := by
  have hb := begin_empty b.lim s.engine
  unfold Triple at hb
  unfold Hal.stage
  generalize (begin b.lim []).run s.engine = x at hb
  obtain ⟨r, g⟩ := x
  cases r with
  | error e => exact fun he => hb (Except.error.inj he)
  | ok n =>
    dsimp only at hb ⊢
    rw [if_neg (by simp [hb])]
    exact fun he => nomatch he

/-- The driver keeps what is prepared from being replaced, but prepares. -/
def stubborn : Driver := ⟨false, true, true⟩

/-- Loading the new model again, and a job on it. -/
def probe (new : Nat) : List Op := [.load new stubborn, .job new [] stubborn ⟨none, 0, true⟩]

theorem outcomes_probe (b : Board) (s : Rig) (new : Nat) : outcomes b s (probe new) =
    [none, some (jobRet b new [] stubborn ⟨none, 0, true⟩ (step b s (.load new stubborn)))] := rfl

theorem index_setSlot {x : ModelSlot} (hx : x.active = (s.slots i).active) (h : Nat) :
    (s.setSlot i x).index b h = s.index b h := by
  have ha : ∀ j, ((s.setSlot i x).slots j).active = (s.slots j).active := by
    intro j
    show (Function.update s.slots i x j).active = _
    rw [Function.update_apply]
    split
    · rename_i he
      rw [hx, he]
    · rfl
  unfold Rig.index
  rw [ha]

/-- A job on the resident model gets to its model stage. -/
theorem jobRet_resident (hn : s.index b new = some n) (hl : (s.slots n).loaded = true)
    (hd : (s.slots n).data = s.resident) (input : List UInt8) (drv : Driver) (st : Stage) :
    jobRet b new input drv st s = (s.hal.stage b drv st input).1 := by
  unfold jobRet ensureResident
  rw [hn]
  dsimp only
  rw [if_neg (by simp [hl]), if_pos (.inr hd)]

theorem probe_prepared (hn : s.index b new = some n) (hl : (s.slots n).loaded = false)
    (hasks : s.Asks b (s.slots n)) (hp : s.hal.neutron.prepared = true) :
    outcomes b s (probe new) = [none, some (.error .enoexec)] := by
  obtain ⟨addr, haddr, hcrc, hhal⟩ := hasks
  have hload : ∃ hal, halLoad b stubborn (s.slots n) s = (.error .eio, { s with hal := hal }) := by
    unfold halLoad
    rw [haddr]
    dsimp only
    rw [hcrc]
    rcases load_asks hhal stubborn with ⟨hok, -⟩ | ⟨-, m, -, hr⟩
    · exact absurd (hok.2 hp) (by decide)
    · rw [hr]
      exact ⟨_, rfl⟩
  obtain ⟨hal, hload⟩ := hload
  have hstep : step b s (.load new stubborn) = { s with hal := hal } := by
    unfold step load doLoad
    dsimp only
    rw [hn]
    dsimp only
    rw [hl, hload]
    rfl
  have hjob : jobRet b new [] stubborn ⟨none, 0, true⟩ { s with hal := hal } = .error .enoexec := by
    unfold jobRet ensureResident
    rw [show Rig.index b { s with hal := hal } new = some n from hn]
    dsimp only
    rw [if_pos hl]
  rw [outcomes_probe, hstep, hjob]

theorem probe_idle (hn : s.index b new = some n) (hl : (s.slots n).loaded = false)
    (hasks : s.Asks b (s.slots n)) (hp : s.hal.neutron.prepared = false) :
    outcomes b s (probe new) ≠ [none, some (.error .enoexec)] := by
  obtain ⟨addr, haddr, hcrc, hhal⟩ := hasks
  have hload : ∃ hal, halLoad b stubborn (s.slots n) s =
      (.ok (), { s with hal := hal, resident := some addr }) := by
    unfold halLoad
    rw [haddr]
    dsimp only
    rw [hcrc]
    rcases load_asks hhal stubborn with ⟨-, hr⟩ | ⟨hno, -⟩
    · generalize s.hal.load b stubborn addr (s.slots n).size = x at hr
      obtain ⟨r, hal⟩ := x
      dsimp only at hr
      rw [hr]
      exact ⟨hal, rfl⟩
    · refine absurd ⟨rfl, fun h => ?_⟩ hno
      rw [hp] at h
      cases h
  obtain ⟨hal, hload⟩ := hload
  have hstep : step b s (.load new stubborn) =
      Rig.setSlot { s with hal := hal, resident := some addr } n
        { s.slots n with loaded := true } := by
    unfold step load doLoad
    dsimp only
    rw [hn]
    dsimp only
    rw [hl, hload]
    rfl
  have hdata : (s.slots n).data = some addr := by
    unfold ModelSlot.toLoad at haddr
    split at haddr
    · cases haddr
    · split at haddr
      · cases haddr
      · rename_i hd _
        rw [hd, haddr]
  have hidx : (step b s (.load new stubborn)).index b new = some n := by
    rw [hstep]
    exact (index_setSlot (s := { s with hal := hal, resident := some addr })
      (x := { s.slots n with loaded := true }) rfl new).trans hn
  have hloaded : ((step b s (.load new stubborn)).slots n).loaded = true := by
    rw [hstep]
    simp [Rig.setSlot]
  have hres : ((step b s (.load new stubborn)).slots n).data =
      (step b s (.load new stubborn)).resident := by
    rw [hstep]
    simpa [Rig.setSlot] using hdata
  rw [outcomes_probe, jobRet_resident hidx hloaded hres]
  intro he
  exact stage_empty b stubborn ⟨none, 0, true⟩ _
    (Option.some.inj (List.cons.inj (List.cons.inj he).2).1)

end

/-- Two registered models, the first one loaded; the second one does not match its
checksum. -/
def corruptSecond : Rig :=
  run (step smallBoard) Rig.init
    [.register [1] 0, .register [2] 1, .setData 1 (some 0) skipBlob.length,
      .setData 2 (some 64) synnBlob.length, .load 1 driverOk]

end SynapticOS.Npu
