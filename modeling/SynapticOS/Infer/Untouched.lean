import SynapticOS.Infer.StoreCalls

/-!
# A suspended job's model is not taken away

A slot with a registered model is occupied and holds its payload (`Stocked`). What a
thread in the store knows about its slot, it knows because it has the lock
(`CallOk`); what was checked before the lock, `ShopSafe` has to ask for again.
-/

namespace SynapticOS.Infer

open Lib

variable {cfg : Cfg} {count : Nat} {s s' : Shop cfg count} {t : Fin cfg.threads} {k : Fin count}

/-- The thread has the store's lock. -/
def StoreCall.locked : StoreCall count → Bool
  | .dropping _ _ | .clearing _ _ | .cleared _ _ _ | .writing _ _ | .installed _ _ | .releasing _ _ _
  | .switched _ _ _ | .registering _ _ | .replacing _ _ | .inserting _ _ | .attaching _ _ _
  | .reloading _ | .leaving => true
  | _ => false

/-- No registered model is of this slot. -/
def Shop.Bare (s : Shop cfg count) (k : Fin count) : Prop :=
  ∀ n m, s.sched.info n = some m → s.origin n ≠ some k

/-- A failed commit may put `old` back, which differs at slot `k` only. -/
structure Restores (s : Shop cfg count) (k : Fin count) (old : StoreReg count) : Prop where
  written : ∀ i, old.occupied i = true → s.written i = true
  others : ∀ i, i ≠ k → old.occupied i = s.reg.occupied i ∧ old.name i = s.reg.name i

/-- What a thread that has the lock knows about its slot. -/
def CallOk (s : Shop cfg count) (t : Fin cfg.threads) : StoreCall count → Prop
  | .dropping k _ => ∀ n m, s.sched.info n = some m → s.origin n = some k →
    (s.sched.threads t).takes = some n
  | .clearing k _ => s.Bare k
  | .cleared k _ old => s.Bare k ∧ Restores s k old
  | .writing k _ => s.Bare k ∧ s.reg.occupied k = false
  | .installed k old => s.Bare k ∧ Restores s k old ∧ s.reg.occupied k = true
  | .releasing k _ _ | .registering k _ | .replacing k _ | .inserting k _ => s.reg.occupied k = true
  | .switched k _ old => s.reg.occupied k = true ∧ old.occupied = s.reg.occupied ∧
    old.name = s.reg.name
  | _ => True

/-- Every registered model of a slot is the one that the slot holds. -/
structure Stocked (s : Shop cfg count) : Prop where
  standing : Standing s.sched
  oneName : OneName s.sched
  origins : ∀ n m k, s.sched.info n = some m → s.origin n = some k →
    s.reg.occupied k = true ∧ m.name = s.reg.name k
  written : ∀ k, s.reg.occupied k = true → s.written k = true

structure ShopOk (s : Shop cfg count) : Prop extends Stocked s where
  lock : ∀ t, (s.calls t).locked = true → s.lock = true ∧ ∀ i, (s.calls i).locked = true → i = t
  calls : ∀ t, CallOk s t (s.calls t)

theorem CallOk.of_unlocked {c : StoreCall count} (h : c.locked = false) : CallOk s t c := by
  cases c <;> trivial

-- ---------------------------------------------------------------------------
-- The registered models of the slots
-- ---------------------------------------------------------------------------

/-- The models of the slots that are registered after a step were registered before it. -/
def Retains (s s' : Shop cfg count) : Prop :=
  ∀ n m k, s'.sched.info n = some m → s'.origin n = some k →
    s.origin n = some k ∧ ∃ m₀, s.sched.info n = some m₀ ∧ m₀.name = m.name

theorem Stocked.of_retains (h : Stocked s) (hst : Standing s'.sched) (hone : OneName s'.sched)
    (hr : s'.reg = s.reg) (hw : s'.written = s.written) (hi : Retains s s') : Stocked s' := by
  refine ⟨hst, hone, fun n m k hn ho => ?_, fun k => ?_⟩
  · obtain ⟨ho', m₀, hm₀, hname⟩ := hi n m k hn ho
    rw [hr, ← hname]
    exact h.origins n m₀ k hm₀ ho'
  · rw [hr, hw]
    exact h.written k

theorem Retains.of_same (hs : s'.sched = s.sched) (ho : s'.origin = s.origin) : Retains s s' := by
  intro n m k hn hk
  rw [hs] at hn
  rw [ho] at hk
  exact ⟨hk, m, hn, rfl⟩

theorem Shop.Bare.of_retains (h : s.Bare k) (hi : Retains s s') : s'.Bare k := by
  intro n m hn ho
  obtain ⟨ho', m₀, hm₀, -⟩ := hi n m k hn ho
  exact h n m₀ hm₀ ho'

theorem CallOk.of_retains {c : StoreCall count} (h : CallOk s t c) (hr : s'.reg = s.reg)
    (hw : s'.written = s.written) (hi : Retains s s')
    (ht : ∀ n, (s.sched.threads t).takes = some n →
      (s'.sched.threads t).takes = some n ∨ s'.sched.info n = none) : CallOk s' t c := by
  have hrest : ∀ {k old}, Restores s k old → Restores s' k old := fun h =>
    ⟨by rw [hw]; exact h.written, by rw [hr]; exact h.others⟩
  cases c with
  | dropping k next =>
    intro n m hn ho
    obtain ⟨ho', m₀, hm₀, -⟩ := hi n m k hn ho
    rcases ht n (h n m₀ hm₀ ho') with h' | h'
    · exact h'
    · rw [hn] at h'
      cases h'
  | clearing k next => exact Shop.Bare.of_retains h hi
  | cleared k next old => exact ⟨h.1.of_retains hi, hrest h.2⟩
  | writing k name => exact ⟨h.1.of_retains hi, by rw [hr]; exact h.2⟩
  | installed k old => exact ⟨h.1.of_retains hi, hrest h.2.1, by rw [hr]; exact h.2.2⟩
  | switched k held old =>
    unfold CallOk
    rw [hr]
    exact h
  | releasing | registering | replacing | inserting =>
    unfold CallOk
    rw [hr]
    exact h
  | _ => trivial

theorem CallOk.congr {c : StoreCall count} (h : CallOk s t c) (hs : s'.sched = s.sched)
    (hr : s'.reg = s.reg) (hw : s'.written = s.written) (ho : s'.origin = s.origin) :
    CallOk s' t c :=
  h.of_retains hr hw (.of_same hs ho) fun n hn => .inl (by rw [hs]; exact hn)

theorem Stocked.congr (h : Stocked s) (hs : s'.sched = s.sched) (hr : s'.reg = s.reg)
    (hw : s'.written = s.written) (ho : s'.origin = s.origin) : Stocked s' :=
  h.of_retains (by rw [hs]; exact h.standing) (by rw [hs]; exact h.oneName) hr hw (.of_same hs ho)

-- ---------------------------------------------------------------------------
-- Who has the lock
-- ---------------------------------------------------------------------------

/-- The other threads do not have the lock. -/
def Others (s : Shop cfg count) (t : Fin cfg.threads) : Prop := ∀ i, i ≠ t → (s.calls i).locked = false

theorem ShopOk.others_of_locked (h : ShopOk s) (ht : (s.calls t).locked = true) : Others s t := by
  intro i hne
  by_contra hi
  rw [Bool.not_eq_false] at hi
  exact hne ((h.lock t ht).2 i hi)

theorem ShopOk.others_of_free (h : ShopOk s) (hl : s.lock = false) : Others s t := by
  intro i _
  by_contra hi
  rw [Bool.not_eq_false] at hi
  rw [(h.lock i hi).1] at hl
  cases hl

/-- The thread that has the lock, or takes it, goes on. -/
theorem ShopOk.of_holder (ho : Others s t) (hs : Stocked s') {c : StoreCall count}
    (hcalls : s'.calls = Function.update s.calls t c) (hl : c.locked = true → s'.lock = true)
    (hc : CallOk s' t c) : ShopOk s' := by
  refine ⟨hs, fun i hi => ?_, fun i => ?_⟩
  · rw [hcalls, Function.update_apply] at hi
    split at hi
    · rename_i he
      refine ⟨hl hi, fun n hn => ?_⟩
      rw [hcalls, Function.update_apply] at hn
      split at hn
      · rename_i hnt
        rw [hnt, he]
      · rename_i hnt
        rw [ho n hnt] at hn
        cases hn
    · rename_i hne
      rw [ho i hne] at hi
      cases hi
  · rw [hcalls, Function.update_apply]
    split
    · rename_i he
      rw [he]
      exact hc
    · rename_i hne
      exact CallOk.of_unlocked (ho i hne)

/-- A thread without the lock goes on. -/
theorem ShopOk.goto_unlocked (h : ShopOk s) (t : Fin cfg.threads) {c : StoreCall count}
    (hc : c.locked = false) : ShopOk (s.goto t c) := by
  have hstill : ∀ i, ((s.goto t c).calls i).locked = true → (s.calls i).locked = true := by
    intro i hi
    change (Function.update s.calls t c i).locked = true at hi
    rw [Function.update_apply] at hi
    split at hi
    · rw [hc] at hi
      cases hi
    · exact hi
  refine ⟨h.toStocked.congr rfl rfl rfl rfl, fun i hi => ?_, fun i => ?_⟩
  · obtain ⟨hl, hone⟩ := h.lock i (hstill i hi)
    exact ⟨hl, fun n hn => hone n (hstill n hn)⟩
  · show CallOk (s.goto t c) i (Function.update s.calls t c i)
    rw [Function.update_apply]
    split
    · exact CallOk.of_unlocked hc
    · exact (h.calls i).congr rfl rfl rfl rfl

-- ---------------------------------------------------------------------------
-- The registry
-- ---------------------------------------------------------------------------

/-- One operation of the registry or the scheduler. -/
theorem ShopOk.moved (h : ShopOk s) (o : Op cfg) (hs : TakeSafe s.sched o)
    {origin : Handle → Option (Fin count)}
    (hi : Retains s { s with sched := step s.sched o, origin := origin }) :
    ShopOk { s with sched := step s.sched o, origin := origin } := by
  refine ⟨h.toStocked.of_retains ?_ ?_ rfl rfl hi, h.lock, fun i => ?_⟩
  · exact standing_step h.standing o hs
  · exact oneName_step h.oneName o
  · exact (h.calls i).of_retains rfl rfl hi fun n hn => takes_kept s.sched o i hn

theorem ShopOk.call (h : ShopOk s) (o : Op cfg) (hs : TakeSafe s.sched o)
    (ho : ∀ name, o ≠ .register name) : ShopOk { s with sched := step s.sched o } := by
  refine h.moved o hs fun n m k hn hk => ⟨hk, ?_⟩
  rcases info_step s.sched o hn with ⟨name, rfl, -, -⟩ | h'
  · exact absurd rfl (ho name)
  · exact h'

/-- The thread that has the lock makes a call. -/
theorem ShopOk.of_call (h : ShopOk s) (ho : Others s t) (hlock : s.lock = true) (o : Op cfg)
    (hs : TakeSafe s.sched o) (hne : ∀ name, o ≠ .register name) {c : StoreCall count}
    (hc : CallOk { s with sched := step s.sched o } t c) : ShopOk (s.call t o c) :=
  .of_holder ho ((h.call o hs hne).toStocked.congr rfl rfl rfl rfl) rfl (fun _ => hlock)
    (hc.congr rfl rfl rfl rfl)

-- ---------------------------------------------------------------------------
-- The slot's own model
-- ---------------------------------------------------------------------------

/-- Without a handle of its own, a slot has no registered model. -/
theorem bare_of_slotHandle (h : Stocked s) (hn : s.slotHandle k = none) : s.Bare k := by
  intro n m hi ho
  have hname := (h.origins n m k hi ho).2
  obtain ⟨n', hn'⟩ := Option.isSome_iff_exists.mp (hname ▸ getByName_isSome hi)
  obtain ⟨m', hi', hm'⟩ := getByName_some hn'
  have he : n' = n := h.oneName n' n m' m hi' hi (hm'.trans hname.symm)
  unfold Shop.slotHandle at hn
  rw [hn'] at hn
  dsimp only at hn
  rw [if_pos (by rw [he]; exact ho)] at hn
  cases hn

/-- A slot's only registered model is the one behind its handle. -/
theorem eq_slotHandle (h : Stocked s) (hk : s.slotHandle k = some n) (hi : s.sched.info n' = some m)
    (ho : s.origin n' = some k) : n' = n := by
  have hname := (h.origins n' m k hi ho).2
  unfold Shop.slotHandle at hk
  split at hk
  · cases hk
  · rename_i x hx
    split at hk
    · cases hk
      obtain ⟨m', hi', hm'⟩ := getByName_some hx
      exact h.oneName n' n m m' hi hi' (hname.trans hm'.symm)
    · cases hk

theorem takes_unregisterEnter (ht : σ.threads t = .idle) (hi : (σ.info n).isSome = true)
    (hs : σ.modelSuspended n = false) :
    ((step σ (.unregisterEnter t n)).threads t).takes = some n := by
  obtain ⟨m, hm⟩ := Option.isSome_iff_exists.mp hi
  unfold step unregisterEnter
  dsimp only
  rw [ht, hm]
  dsimp only
  rw [if_neg (by rw [hs]; decide)]
  show (Function.update σ.threads t _ t).takes = some n
  rw [Function.update_self]
  rfl

theorem ShopOk.leave (h : ShopOk s) (ho : Others s t) : ShopOk (s.leave t) :=
  .of_holder ho (h.toStocked.congr rfl rfl rfl rfl) rfl (fun hl => nomatch hl) trivial

/-- The thread that has the lock goes on and changes nothing else. -/
theorem ShopOk.goto (h : ShopOk s) (ho : Others s t) (hlock : s.lock = true) {c : StoreCall count}
    (hc : CallOk s t c) : ShopOk (s.goto t c) :=
  .of_holder ho (h.toStocked.congr rfl rfl rfl rfl) rfl (fun _ => hlock) (hc.congr rfl rfl rfl rfl)

/-- Taking the lock alone keeps what is known. -/
theorem ShopOk.take (h : ShopOk s) (hl : s.lock = false) : ShopOk { s with lock := true } := by
  have hno : ∀ i, (s.calls i).locked = false := by
    intro i
    by_contra hi
    rw [Bool.not_eq_false] at hi
    rw [(h.lock i hi).1] at hl
    cases hl
  refine ⟨h.toStocked.congr rfl rfl rfl rfl, fun i hi => ?_, fun i => ?_⟩
  · change (s.calls i).locked = true at hi
    rw [hno i] at hi
    cases hi
  · exact (h.calls i).congr rfl rfl rfl rfl

theorem ShopOk.unregister (h : ShopOk s) (ho : Others s t) (hlock : s.lock = true) (n : Handle)
    {c : StoreCall count}
    (hc : (s.sched.info n).isSome = true → s.sched.modelSuspended n = false →
      CallOk { s with sched := step s.sched (.unregisterEnter t n) } t c) :
    ShopOk (s.unregister t n c) := by
  unfold Shop.unregister
  split
  · rename_i hok
    exact h.of_call ho hlock (.unregisterEnter t n) ⟨trivial, trivial⟩ (fun _ he => nomatch he)
      (hc hok.1 hok.2)
  · exact h.leave ho

-- ---------------------------------------------------------------------------
-- Staging
-- ---------------------------------------------------------------------------

theorem afterStaging_unlocked (k : Fin count) (next : Option Nat) :
    (Shop.afterStaging k next).locked = false := by
  cases next <;> rfl

theorem shopOk_beginStaging (h : ShopOk s) (t : Fin cfg.threads) (k : Fin count) (next : Option Nat) :
    ShopOk (s.beginStaging t k next) := by
  unfold Shop.beginStaging
  split
  · exact h.goto_unlocked t rfl
  · split
    · exact h.goto_unlocked t (afterStaging_unlocked k next)
    · exact h.goto_unlocked t rfl

theorem shopOk_evictLock (h : ShopOk s) (hidle : s.sched.threads t = .idle) (k : Fin count)
    (next : Option Nat) : ShopOk (s.evictLock t k next) := by
  unfold Shop.evictLock
  split
  · exact h
  · rename_i hl
    have hl : s.lock = false := by simpa using hl
    have ho : Others s t := h.others_of_free hl
    have htake := h.take hl
    cases hk : s.slotHandle k with
    | none => exact htake.goto ho rfl (bare_of_slotHandle htake.toStocked hk)
    | some n =>
      refine htake.unregister ho rfl n fun hi hsus n' m hn' ho' => ?_
      -- the slot's only model is the one that is taken
      rcases info_step s.sched _ hn' with ⟨name, hne, -, -⟩ | ⟨m₀, hm₀, -⟩
      · cases hne
      · have he : n' = n := eq_slotHandle htake.toStocked hk hm₀ ho'
        rw [he]
        exact takes_unregisterEnter hidle hi hsus

/-- A slot without a registered model may change. -/
theorem Stocked.of_slot (h : Stocked s) (hb : s.Bare k) (hs : s'.sched = s.sched)
    (ho : s'.origin = s.origin)
    (hr : ∀ i, i ≠ k → s'.reg.occupied i = s.reg.occupied i ∧ s'.reg.name i = s.reg.name i)
    (hw : ∀ i, s'.reg.occupied i = true → s'.written i = true) : Stocked s' := by
  refine ⟨by rw [hs]; exact h.standing, by rw [hs]; exact h.oneName, fun n m i hn hi => ?_, hw⟩
  rw [hs] at hn
  rw [ho] at hi
  have hne : i ≠ k := fun he => hb n m hn (by rw [← he]; exact hi)
  rw [(hr i hne).1, (hr i hne).2]
  exact h.origins n m i hn hi

theorem shopOk_clear (h : ShopOk s) (ht : s.calls t = .clearing k next) :
    ShopOk (s.clear t k next) := by
  have hb : s.Bare k := by
    have := h.calls t
    rw [ht] at this
    exact this
  have hlt : (s.calls t).locked = true := by rw [ht]; rfl
  have hocc : ∀ i, i ≠ k → (s.reg.evict k).occupied i = s.reg.occupied i :=
    fun i hi => Function.update_of_ne hi _ _
  unfold Shop.clear
  refine .of_holder (h.others_of_locked hlt) ?_ rfl (fun _ => (h.lock t hlt).1) ?_
  · refine h.toStocked.of_slot hb rfl rfl (fun i hi => ⟨hocc i hi, rfl⟩) fun i hi => ?_
    change Function.update s.reg.occupied k false i = true at hi
    rw [Function.update_apply] at hi
    split at hi
    · cases hi
    · exact h.written i hi
  · exact ⟨hb.of_retains (.of_same rfl rfl), h.written, fun i hi => ⟨(hocc i hi).symm, rfl⟩⟩

/-- A commit failed: what was changed for slot `k` is put back. -/
theorem ShopOk.restore (h : ShopOk s) (ho : Others s t) (hb : s.Bare k) {old : StoreReg count}
    (hr : Restores s k old) : ShopOk ({ s with reg := old }.leave t) :=
  .of_holder ho (h.toStocked.of_slot hb rfl rfl hr.others hr.written) rfl (fun hl => nomatch hl) trivial

theorem shopOk_evictCommit (h : ShopOk s) (ht : s.calls t = .cleared k next old) (ok : Bool) :
    ShopOk (s.evictCommit t k next old ok) := by
  have hlt : (s.calls t).locked = true := by rw [ht]; rfl
  have hk : s.Bare k ∧ Restores s k old := by
    have := h.calls t
    rw [ht] at this
    exact this
  have ho := h.others_of_locked hlt
  unfold Shop.evictCommit
  split
  · have hc := afterStaging_unlocked k next
    exact .of_holder ho (h.toStocked.congr rfl rfl rfl rfl) rfl (fun hl => by rw [hc] at hl; cases hl)
      (.of_unlocked hc)
  · exact h.restore ho hk.1 hk.2

-- ---------------------------------------------------------------------------
-- Installation
-- ---------------------------------------------------------------------------

theorem shopOk_erase (h : ShopOk s) (k : Fin count) (name : Nat)
    (hs : s.lock = false → s.reg.occupied k = false) : ShopOk (s.erase t k name) := by
  unfold Shop.erase
  split
  · exact h
  · rename_i hl
    have hl : s.lock = false := by simpa using hl
    have hb : s.Bare k := by
      intro n m hn ho
      have := (h.origins n m k hn ho).1
      rw [hs hl] at this
      cases this
    refine .of_holder (h.others_of_free hl) ?_ rfl (fun _ => rfl) ?_
    · refine h.toStocked.of_slot hb rfl rfl (fun _ _ => ⟨rfl, rfl⟩) fun i hi => ?_
      show Function.update s.written k false i = true
      rw [Function.update_of_ne]
      · exact h.written i hi
      · rintro rfl
        rw [show s.reg.occupied i = true from hi] at hs
        exact absurd (hs hl) (by decide)
    · exact ⟨hb.of_retains (.of_same rfl rfl), hs hl⟩

theorem shopOk_write (h : ShopOk s) (ht : s.calls t = .writing k name) (ok : Bool) :
    ShopOk (s.write t k name ok) := by
  have hlt : (s.calls t).locked = true := by rw [ht]; rfl
  have hk : s.Bare k ∧ s.reg.occupied k = false := by
    have := h.calls t
    rw [ht] at this
    exact this
  have ho := h.others_of_locked hlt
  have hothers : ∀ i, i ≠ k → (s.reg.install k name).occupied i = s.reg.occupied i ∧
      (s.reg.install k name).name i = s.reg.name i :=
    fun i hi => ⟨Function.update_of_ne hi _ _, Function.update_of_ne hi _ _⟩
  have hwritten : ∀ i, s.written i = true → Function.update s.written k true i = true := by
    intro i hi
    rw [Function.update_apply]
    split
    · rfl
    · exact hi
  unfold Shop.write
  split
  · refine .of_holder ho ?_ rfl (fun _ => (h.lock t hlt).1) ?_
    · refine h.toStocked.of_slot hk.1 rfl rfl hothers fun i hi => ?_
      by_cases he : i = k
      · rw [he]
        exact Function.update_self ..
      · change Function.update s.reg.occupied k true i = true at hi
        rw [Function.update_of_ne he] at hi
        exact hwritten i (h.written i hi)
    · refine ⟨hk.1.of_retains (.of_same rfl rfl), ⟨fun i hi => hwritten i (h.written i hi), ?_⟩, ?_⟩
      · exact fun i hi => ⟨(hothers i hi).1.symm, (hothers i hi).2.symm⟩
      · exact Function.update_self ..
  · exact h.leave ho

theorem shopOk_installCommit (h : ShopOk s) (ht : s.calls t = .installed k old) (ok : Bool) :
    ShopOk (s.installCommit t k old ok) := by
  have hlt : (s.calls t).locked = true := by rw [ht]; rfl
  have hk : s.Bare k ∧ Restores s k old ∧ s.reg.occupied k = true := by
    have := h.calls t
    rw [ht] at this
    exact this
  have ho := h.others_of_locked hlt
  unfold Shop.installCommit
  split
  · exact h.goto ho (h.lock t hlt).1 hk.2.2
  · exact h.restore ho hk.1 hk.2.1

-- ---------------------------------------------------------------------------
-- Activation and rollback
-- ---------------------------------------------------------------------------

theorem shopOk_release (h : ShopOk s) (ho : Others s t) (hlock : s.lock = true) (sw : Switch)
    (hk : s.reg.occupied k = true) : ShopOk (s.release t k sw) := by
  unfold Shop.release
  split
  · exact h.goto ho hlock hk
  · rename_i n _
    split
    · exact h.goto ho hlock hk
    · split
      · exact h.leave ho
      · exact h.of_call ho hlock (.unloadEnter t n) ⟨trivial, trivial⟩ (fun _ he => nomatch he) hk

theorem shopOk_activateLock (h : ShopOk s) (k : Fin count)
    (hs : s.lock = false → s.reg.occupied k = true) : ShopOk (s.activateLock t k) := by
  unfold Shop.activateLock
  split
  · exact h
  · rename_i hl
    have hl : s.lock = false := by simpa using hl
    have ho : Others s t := h.others_of_free hl
    exact shopOk_release (h.take hl) ho rfl _ (hs hl)

theorem rollbackTarget_occupied {r : StoreReg count} (h : r.rollbackTarget = some k) :
    r.occupied k = true := by
  have hscan : ∀ k, ((List.finRange count).filter fun k =>
      r.occupied k ∧ r.active ≠ some k ∧ r.staged ≠ some k).getLast? = some k →
      r.occupied k = true := by
    intro k hk
    have := (List.mem_filter.mp (List.mem_of_getLast? hk)).2
    exact (of_decide_eq_true this).1
  unfold StoreReg.rollbackTarget at h
  dsimp only at h
  split at h
  · exact hscan k h
  · split at h
    · rename_i hc
      cases h
      exact hc.2
    · exact hscan k h

theorem shopOk_rollbackLock (h : ShopOk s) (t : Fin cfg.threads) : ShopOk (s.rollbackLock t) := by
  unfold Shop.rollbackLock
  split
  · exact h
  · rename_i hl
    have hl : s.lock = false := by simpa using hl
    have ho : Others s t := h.others_of_free hl
    split
    · exact h.goto_unlocked t rfl
    · rename_i k hk
      exact shopOk_release (h.take hl) ho rfl _ (rollbackTarget_occupied hk)

/-- The roles of the slots may change. -/
theorem Stocked.of_roles (h : Stocked s) (hs : s'.sched = s.sched) (ho : s'.origin = s.origin)
    (hw : s'.written = s.written) (hocc : s'.reg.occupied = s.reg.occupied)
    (hname : s'.reg.name = s.reg.name) : Stocked s' := by
  refine ⟨by rw [hs]; exact h.standing, by rw [hs]; exact h.oneName, ?_, ?_⟩
  · rw [hs, ho, hocc, hname]
    exact h.origins
  · rw [hocc, hw]
    exact h.written

theorem switch_slots (r : StoreReg count) (k : Fin count) (sw : Switch) :
    (r.switch k sw).occupied = r.occupied ∧ (r.switch k sw).name = r.name := by
  cases sw <;> exact ⟨rfl, rfl⟩

theorem shopOk_switchReg (h : ShopOk s) (ht : s.calls t = .releasing k sw held) :
    ShopOk (s.switchReg t k sw held) := by
  have hlt : (s.calls t).locked = true := by rw [ht]; rfl
  have hk : s.reg.occupied k = true := by
    have := h.calls t
    rw [ht] at this
    exact this
  obtain ⟨hocc, hname⟩ := switch_slots s.reg k sw
  unfold Shop.switchReg
  refine .of_holder (h.others_of_locked hlt) ?_ rfl (fun _ => (h.lock t hlt).1) ?_
  · exact h.toStocked.of_roles rfl rfl rfl hocc hname
  · exact ⟨(congrFun hocc k).trans hk, hocc.symm, hname.symm⟩

theorem shopOk_switchCommit (h : ShopOk s) (ht : s.calls t = .switched k held old) (ok : Bool) :
    ShopOk (s.switchCommit t k held old ok) := by
  have hlt : (s.calls t).locked = true := by rw [ht]; rfl
  obtain ⟨hk, hocc, hname⟩ : s.reg.occupied k = true ∧ old.occupied = s.reg.occupied ∧
      old.name = s.reg.name := by
    have := h.calls t
    rw [ht] at this
    exact this
  have ho := h.others_of_locked hlt
  have hold : Stocked { s with reg := old } := h.toStocked.of_roles rfl rfl rfl hocc hname
  unfold Shop.switchCommit
  split
  · exact h.goto ho (h.lock t hlt).1 hk
  · split
    · exact .of_holder ho (hold.congr rfl rfl rfl rfl) rfl (fun hl => nomatch hl) trivial
    · exact .of_holder ho (hold.congr rfl rfl rfl rfl) rfl (fun _ => (h.lock t hlt).1) trivial

-- ---------------------------------------------------------------------------
-- Registration
-- ---------------------------------------------------------------------------

theorem shopOk_reloadNext (h : ShopOk s) (ho : Others s t) (hlock : s.lock = true) (n : Handle)
    (reload : Bool) : ShopOk (s.reloadNext t n reload) := by
  unfold Shop.reloadNext
  split
  · exact h.goto ho hlock trivial
  · exact h.leave ho

theorem shopOk_ramRegister (h : ShopOk s) (ht : s.calls t = .registering k reload) :
    ShopOk (s.ramRegister t k reload) := by
  have hlt : (s.calls t).locked = true := by rw [ht]; rfl
  have hk : s.reg.occupied k = true := by
    have := h.calls t
    rw [ht] at this
    exact this
  have ho := h.others_of_locked hlt
  have hlock := (h.lock t hlt).1
  unfold Shop.ramRegister
  split
  · exact h.goto ho hlock hk
  · rename_i n hn
    split
    · exact shopOk_reloadNext h ho hlock n reload
    · exact h.unregister ho hlock n fun _ _ => hk

/-- The model of an occupied slot is registered. -/
theorem Stocked.inserted (h : Stocked s) (hn : nextHandle (s.reg.name k) s.sched = some n)
    (hk : s.reg.occupied k = true) :
    Stocked { s with
      sched := step s.sched (.register (s.reg.name k))
      origin := Function.update s.origin n (some k) } := by
  refine ⟨standing_step h.standing (.register (s.reg.name k)) ⟨trivial, trivial⟩, oneName_step h.oneName _,
    fun n' m k' hi ho => ?_, h.written⟩
  change Function.update s.origin n (some k) n' = some k' at ho
  rw [Function.update_apply] at ho
  split at ho
  · rename_i he
    cases ho
    refine ⟨hk, ?_⟩
    rcases info_register (show (register (s.reg.name k) s.sched).info n' = some m from hi) with
      ⟨-, hm⟩ | ⟨m₀, hm₀, -⟩
    · exact hm
    · rw [he] at hm₀
      exact absurd (nextHandle_free hn) (by rw [hm₀]; exact fun h' => nomatch h')
  · rename_i he
    rcases info_register (show (register (s.reg.name k) s.sched).info n' = some m from hi) with
      ⟨hn', -⟩ | ⟨m₀, hm₀, hm⟩
    · rw [hn] at hn'
      exact absurd (Option.some.inj hn').symm he
    · rw [← hm]
      exact h.origins n' m₀ k' hm₀ ho

theorem shopOk_ramInsert (h : ShopOk s) (ht : s.calls t = .inserting k reload) :
    ShopOk (s.ramInsert t k reload) := by
  have hlt : (s.calls t).locked = true := by rw [ht]; rfl
  have hk : s.reg.occupied k = true := by
    have := h.calls t
    rw [ht] at this
    exact this
  have ho := h.others_of_locked hlt
  unfold Shop.ramInsert
  split
  · exact h.leave ho
  · rename_i n hn
    exact .of_holder ho ((h.toStocked.inserted hn hk).congr rfl rfl rfl rfl) rfl
      (fun _ => (h.lock t hlt).1) trivial

theorem shopOk_attach (h : ShopOk s) (ht : s.calls t = .attaching k n reload) :
    ShopOk (s.attach t k n reload) := by
  have hlt : (s.calls t).locked = true := by rw [ht]; rfl
  have ho := h.others_of_locked hlt
  have hset := h.call (.setData n (some k)) ⟨trivial, trivial⟩ fun _ he => nomatch he
  exact shopOk_reloadNext hset ho (h.lock t hlt).1 n reload

-- ---------------------------------------------------------------------------
-- Steps
-- ---------------------------------------------------------------------------

theorem shopOk_next (h : ShopOk s) (t : Fin cfg.threads) (ok : Bool)
    (hs : ShopSafe s (.next t ok)) : ShopOk (s.next t ok) := by
  unfold Shop.next
  split
  · exact h
  · rename_i hback
    have hidle : s.sched.threads t = .idle := by simpa using hback
    have hlocked : ∀ {c}, s.calls t = c → c.locked = true → Others s t ∧ s.lock = true :=
      fun hc hl => ⟨h.others_of_locked (by rw [hc]; exact hl), (h.lock t (by rw [hc]; exact hl)).1⟩
    have hok := h.calls t
    split
    · exact h
    · exact shopOk_beginStaging h t _ _
    · rename_i k next ht
      exact shopOk_evictLock h hidle k next
    · rename_i k next ht
      obtain ⟨ho, hlock⟩ := hlocked ht rfl
      rw [ht] at hok
      -- the unregistration is over
      refine h.goto ho hlock fun n m hn hk => ?_
      have := hok n m hn hk
      rw [hidle] at this
      cases this
    · rename_i ht
      exact shopOk_clear h ht
    · rename_i ht
      exact shopOk_evictCommit h ht ok
    · rename_i k name ht
      refine shopOk_erase h k name fun hl => hs (k, false) ?_
      unfold Shop.expects
      rw [ht, hl]
      rfl
    · rename_i ht
      exact shopOk_write h ht ok
    · rename_i ht
      exact shopOk_installCommit h ht ok
    · rename_i k ht
      refine shopOk_activateLock h k fun hl => hs (k, true) ?_
      unfold Shop.expects
      rw [ht, hl]
      rfl
    · exact shopOk_rollbackLock h t
    · rename_i ht
      exact shopOk_switchReg h ht
    · rename_i ht
      exact shopOk_switchCommit h ht ok
    · rename_i k reload ht
      exact shopOk_ramRegister h ht
    · rename_i k reload ht
      obtain ⟨ho, hlock⟩ := hlocked ht rfl
      rw [ht] at hok
      exact h.goto ho hlock hok
    · rename_i ht
      exact shopOk_ramInsert h ht
    · rename_i ht
      exact shopOk_attach h ht
    · rename_i n ht
      obtain ⟨ho, hlock⟩ := hlocked ht rfl
      exact h.of_call ho hlock (.loadEnter t n) ⟨trivial, trivial⟩ (fun _ he => nomatch he) trivial
    · rename_i ht
      exact h.leave (hlocked ht rfl).1

theorem retains_api (s : Shop cfg count) (o : Op cfg) :
    Retains s { s with sched := step s.sched o, origin := s.originAfter o } := by
  intro n m k hn ho
  change s.originAfter o n = some k at ho
  rcases info_step s.sched o hn with ⟨name, rfl, hh, -⟩ | ⟨m₀, hm₀, hname⟩
  · unfold Shop.originAfter at ho
    dsimp only at ho
    rw [hh] at ho
    dsimp only at ho
    rw [Function.update_self] at ho
    cases ho
  · refine ⟨?_, m₀, hm₀, hname⟩
    cases o with
    | register name =>
      unfold Shop.originAfter at ho
      dsimp only at ho
      cases hh : nextHandle name s.sched with
      | none =>
        rw [hh] at ho
        exact ho
      | some hd =>
        rw [hh] at ho
        dsimp only at ho
        rw [Function.update_apply] at ho
        split at ho
        · cases ho
        · exact ho
    | _ => exact ho

theorem shopOk_step (h : ShopOk s) (o : ShopOp cfg count) (hs : ShopSafe s o) : ShopOk (s.step o) := by
  cases o with
  | api o =>
    unfold Shop.step
    dsimp only
    split
    · exact h
    · rename_i hb
      exact h.moved o (hs (by simpa using hb)) (retains_api s o)
  | beginStaging t k =>
    unfold Shop.step
    dsimp only
    split
    · exact shopOk_beginStaging h t k none
    · exact h
  | install t name =>
    unfold Shop.step Shop.installEnter
    dsimp only
    split
    · split
      · exact h
      · exact h.goto_unlocked t rfl
    · exact h
  | activate t k =>
    unfold Shop.step Shop.activateEnter
    dsimp only
    split
    · split
      · exact h
      · exact h.goto_unlocked t rfl
    · exact h
  | rollback t =>
    unfold Shop.step
    dsimp only
    split
    · exact h.goto_unlocked t rfl
    · exact h
  | next t ok => exact shopOk_next h t ok hs

-- ---------------------------------------------------------------------------
-- Runs
-- ---------------------------------------------------------------------------

theorem Stocked.bootSlot (h : Stocked s) (hk : s.reg.occupied k = true) : Stocked (s.bootSlot k) := by
  unfold Shop.bootSlot
  split
  · rename_i n _ hn
    have hins := h.inserted hn hk
    refine hins.of_retains ?_ ?_ rfl rfl fun n' m k' hi ho => ⟨ho, ?_⟩
    · exact standing_step hins.standing (.setData n (some k)) ⟨trivial, trivial⟩
    · exact oneName_step hins.oneName _
    · rcases info_step _ _ hi with ⟨name, hne, -, -⟩ | h'
      · cases hne
      · exact h'
  · exact h

theorem bootSlot_reg (s : Shop cfg count) (k : Fin count) :
    (s.bootSlot k).reg = s.reg ∧ (s.bootSlot k).calls = s.calls := by
  unfold Shop.bootSlot
  split <;> exact ⟨rfl, rfl⟩

theorem Stocked.foldl_bootSlot (h : Stocked s) (l : List (Fin count))
    (hl : ∀ k ∈ l, s.reg.occupied k = true) :
    Stocked (l.foldl Shop.bootSlot s) ∧ (l.foldl Shop.bootSlot s).calls = s.calls := by
  induction l generalizing s with
  | nil => exact ⟨h, rfl⟩
  | cons k l ih =>
    obtain ⟨hreg, hcalls⟩ := bootSlot_reg s k
    have hstep := ih (h.bootSlot (hl k (List.mem_cons_self ..))) fun i hi => by
      rw [hreg]
      exact hl i (List.mem_cons_of_mem k hi)
    exact ⟨hstep.1, hstep.2.trans hcalls⟩

/-- The store boots where its active slot is occupied. -/
theorem ShopOk.boot (cfg : Cfg) (r : StoreReg count)
    (hr : ∀ k, r.active = some k → r.occupied k = true) : ShopOk (Shop.boot cfg r) := by
  have hinit : Stocked (⟨Sched.init cfg, r, r.occupied, fun _ => none, false, fun _ => .idle⟩ :
      Shop cfg count) := by
    refine ⟨Standing.init, fun n n' m m' hn _ _ => ?_, fun _ _ _ _ ho => (nomatch ho), fun _ h => h⟩
    cases (info_active hn).1.2.2
  have hslots : ∀ k ∈ Shop.bootSlots r, r.occupied k = true := by
    intro k hk
    rcases List.mem_append.mp hk with hk | hk
    · exact hr k (Option.mem_toList.mp hk)
    · exact (of_decide_eq_true (List.mem_filter.mp hk).2).1
  obtain ⟨hs, hcalls⟩ := hinit.foldl_bootSlot (Shop.bootSlots r) hslots
  refine ⟨hs, fun t ht => ?_, fun t => ?_⟩
  · unfold Shop.boot at ht
    rw [hcalls] at ht
    cases ht
  · unfold Shop.boot
    rw [hcalls]
    trivial

theorem ShopOk.untouched (h : ShopOk s) : Untouched s := by
  intro j hj
  have hi := h.standing.suspended j hj
  refine ⟨hi, fun k hk => ?_⟩
  obtain ⟨m, hm⟩ := Option.isSome_iff_exists.mp hi
  have hocc := (h.origins _ m k hm hk).1
  exact ⟨hocc, h.written k hocc⟩

/-- No model is taken from a suspended job. -/
theorem suspended_keep_models (r : StoreReg count) (ops : List (ShopOp cfg count))
    (hr : ∀ k, r.active = some k → r.occupied k = true)
    (h : Along Shop.step ShopSafe (Shop.boot cfg r) ops) :
    Untouched (run Shop.step (Shop.boot cfg r) ops) :=
  (h.invariant (ShopOk.boot cfg r hr) fun _ o hi hs => shopOk_step hi o hs).untouched

def noSlots : StoreReg 2 := ⟨fun _ => false, fun _ => 0, none, none, none⟩

/-- An installation in which nothing fails. -/
def installOps (t : Fin twoJobs.threads) (name : Nat) : List (ShopOp twoJobs 2) :=
  .install t name :: List.replicate 7 (.next t true)

/-- Job 0 of model 1 is suspended, job 1 is queued. -/
def preemptOps : List (Op twoJobs) :=
  pipeOps 0 1 ++ pipeOps 1 1 ++ submitOps 0 ⟨0, 0, true⟩ ++
    .dispatch :: scheduleOps 2 3 ++ submitOps 1 ⟨2, 0, false⟩ ++ scheduleOps 4 0

def loadOps (h : Handle) : List (Op twoJobs) := [.loadEnter 0 h, .quiesce 0, .change 0 0]

/-- Job 0 of model 1 is suspended; the unregistration of model 2 waits for job 1, which is past
its check and runs to its end. -/
def endOps : List (Op twoJobs) :=
  [.register 7, .setData 1 (some 5)] ++ loadOps 1 ++ [.register 8, .setData 2 (some 6)] ++
    loadOps 2 ++ pipeOps 0 1 ++ pipeOps 1 2 ++ submitOps 0 ⟨0, 0, true⟩ ++
    .dispatch :: scheduleOps 2 3 ++ submitOps 1 ⟨2, 0, false⟩ ++ scheduleOps 4 0 ++
    .dispatch :: scheduleOps 1 0 ++ [.unregisterEnter 1 2, .unregisterUnload 1, .quiesce 1] ++
    scheduleOps 5 0 ++ [.drained 1, .change 1 0, .unregisterRemove 1]

/-- The slot of a suspended job's model is not staged, and another model goes. -/
theorem suspended_keep_models_staging :
    Untouched (run Shop.step (Shop.boot twoJobs noSlots)
      (installOps 0 7 ++ (loadOps 1 ++ preemptOps).map .api ++ installOps 1 8 ++
        [.beginStaging 1 0, .next 1 true])) ∧
      Untouched (run Shop.step (Shop.boot twoJobs noSlots) (endOps.map .api)) ∧
      (run Shop.step (Shop.boot twoJobs noSlots) (endOps.map .api)).sched.info 2 = none :=
  ⟨suspended_keep_models noSlots _ (fun _ h => nomatch h) (by decide +kernel),
    suspended_keep_models noSlots _ (fun _ h => nomatch h) (by decide +kernel), by decide +kernel⟩

/-- The running job of a model is suspended while its unregistration waits for it. -/
def drainOps : List (Op twoJobs) :=
  [.register 7, .setData 1 (some 5)] ++ loadOps 1 ++ pipeOps 0 1 ++ pipeOps 1 1 ++
    submitOps 0 ⟨0, 0, true⟩ ++ .dispatch :: scheduleOps 2 3 ++ submitOps 1 ⟨2, 0, false⟩ ++
    [.unregisterEnter 1 1, .unregisterUnload 1, .quiesce 1] ++ scheduleOps 4 0 ++
    [.drained 1, .change 1 0, .unregisterRemove 1]

theorem drain_takes_model :
    ¬Untouched (run Shop.step (Shop.boot twoJobs noSlots) (drainOps.map .api)) := by
  intro h
  have := (h 0 (by decide +kernel)).1
  revert this
  decide +kernel

/-- Two installations choose the same slot; the second erases what the first has put
there, under a suspended job. -/
def eraseOps : List (ShopOp twoJobs 2) :=
  [.install 1 8, .next 1 true] ++ installOps 0 7 ++ (loadOps 1 ++ preemptOps).map .api ++
    [.next 1 true]

theorem install_erases :
    ¬Untouched (run Shop.step (Shop.boot twoJobs noSlots) eraseOps) := by
  intro h
  have := ((h 0 (by decide +kernel)).2 0 (by decide +kernel)).2
  revert this
  decide +kernel

end SynapticOS.Infer
