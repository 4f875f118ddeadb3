import SynapticOS.Infer.RunSync

/-!
# What synchronous runs leave behind

A run that has returned has given its pipeline back, and its job too, where the
result is fetched when there is one (`run_sync_leaves_nothing`). A run that times out
fetches before that; its job is cancelled with the pipeline, and nobody fetches it.
-/

namespace SynapticOS.Infer

open Lib

variable {cfg : Cfg} {s s' : Sched cfg}

-- ---------------------------------------------------------------------------
-- One operation of the scheduler
-- ---------------------------------------------------------------------------

/-- The submission's job is gone. -/
def Freed (s : Sched cfg) (k : Nat) : Prop := ∀ j, (s.jobs j).ticket = k → (s.jobs j).state = .free

theorem life_congr {job job' : Job} (h : job'.life = job.life) :
    job'.state = job.state ∧ job'.ticket = job.ticket :=
  ⟨congrArg Prod.fst h, congrArg (fun x => x.2.1) h⟩

theorem Freed.moved {j : Fin cfg.jobs} {st : JobState} (h : Freed s k) (hm : Moved s s' j st)
    (hj : (s.jobs j).state ≠ .free) : Freed s' k := by
  intro i hi
  by_cases he : i = j
  · subst he
    have htk : (s'.jobs i).ticket = (s.jobs i).ticket := congrArg (fun x => x.2.1) hm.life
    exact absurd (h i (htk ▸ hi)) hj
  · obtain ⟨hst, htk⟩ := life_congr (hm.other i he)
    rw [hst]
    exact h i (htk ▸ hi)

/-- No operation brings a submission's job back. -/
theorem Freed.step (h : Freed s k) (hr : RunningOk s) (hk : k < s.tickets) (o : Op cfg) :
    Freed (step s o) k := by
  have hd := done_step hr o
  cases hdeed : deed s o with
  | still =>
    rw [hdeed] at hd
    intro i hi
    obtain ⟨hst, htk⟩ := life_congr (hd.life i)
    rw [hst]
    exact h i (htk ▸ hi)
  | submit j =>
    rw [hdeed] at hd
    intro i hi
    by_cases he : i = j
    · subst he
      have htk : ((Infer.step s o).jobs i).ticket = s.tickets := congrArg (fun x => x.2.1) hd.life
      exact absurd (hi ▸ htk) (Nat.ne_of_lt hk)
    · obtain ⟨hst, htk⟩ := life_congr (hd.other i he)
      rw [hst]
      exact h i (htk ▸ hi)
  | cancel j | pick j =>
    rw [hdeed] at hd
    refine h.moved hd.2 fun hf => ?_
    have hrun := hd.1
    simp [Entry.runnable, hf] at hrun
  | deliver j =>
    rw [hdeed] at hd
    refine h.moved hd.2 fun hf => ?_
    have he := hd.1
    rw [hf] at he
    cases he
  | settle j ret =>
    rw [hdeed] at hd
    refine h.moved hd.2 fun hf => ?_
    have he := hf.symm.trans hd.1
    cases he
  | destroy p =>
    rw [hdeed] at hd
    intro i hi
    rw [hd.2 i] at hi ⊢
    have htk : (destroyJob p (s.jobs i)).ticket = (s.jobs i).ticket := by
      unfold destroyJob
      dsimp only
      repeat' split
      all_goals rfl
    have hst := h i (htk ▸ hi)
    unfold destroyJob
    simp [hst]

/-- Fetching the result of a job that has ended takes it out. -/
theorem freed_getResult {n : Nat} (hc : ∀ j, (s.jobs j).ticket = k → (s.jobs j).state ≠ .free →
    (s.jobs j).state.active = false ∧ findJob s n = some j) : Freed (getResult n s) k := by
  have hd := done_getResult s n
  unfold deed at hd
  dsimp only at hd
  intro j hj
  cases hfind : findJob s n with
  | none =>
    rw [hfind] at hd
    obtain ⟨hst, htk⟩ := life_congr (hd.life j)
    rw [hst]
    by_contra hf
    exact nomatch hfind.symm.trans (hc j (htk ▸ hj) hf).2
  | some i =>
    rw [hfind] at hd
    dsimp only at hd
    by_cases he : (s.jobs i).state.ended = true
    · rw [if_pos he] at hd
      by_cases hji : j = i
      · subst hji
        exact congrArg Prod.fst hd.2.life
      · obtain ⟨hst, htk⟩ := life_congr (hd.2.other j hji)
        rw [hst]
        by_contra hf
        exact hji (Option.some.inj ((hc j (htk ▸ hj) hf).2.symm.trans hfind))
    · rw [if_neg he] at hd
      obtain ⟨hst, htk⟩ := life_congr (hd.life j)
      rw [hst]
      by_contra hf
      obtain ⟨ha, hfj⟩ := hc j (htk ▸ hj) hf
      cases hfj.symm.trans hfind
      cases hs : (s.jobs j).state <;> simp_all [JobState.ended, JobState.active]

/-- Only `syn_pipeline_create` takes a pipeline. -/
theorem inUse_step (s : Sched cfg) (o : Op cfg) (hp : (s.pipes p).inUse = false) :
    ((step s o).pipes p).inUse = false ∨ o = .create ∧ s.freePipe = some p := by
  cases o with
  | create =>
    unfold step create
    cases hf : s.freePipe with
    | none =>
      unfold Sched.freePipe at hf
      dsimp only
      rw [hf]
      exact .inl hp
    | some q =>
      unfold Sched.freePipe at hf
      dsimp only
      rw [hf]
      by_cases he : q = p
      · exact .inr ⟨rfl, congrArg some he⟩
      · refine .inl ?_
        show (Function.update s.pipes q _ p).inUse = false
        rw [Function.update_of_ne (Ne.symm he)]
        exact hp
  | destroyLock t =>
    refine .inl ?_
    unfold step destroyLock
    dsimp only
    split
    · show (Function.update s.pipes _ _ p).inUse = false
      rw [Function.update_apply]
      split
      · rfl
      · exact hp
    · exact hp
  | addWrite t =>
    refine .inl ?_
    unfold step addWrite
    dsimp only
    split
    · show (Function.update s.pipes _ _ p).inUse = false
      rw [Function.update_apply]
      split
      · rename_i he
        rw [← he]
        exact hp
      · exact hp
    · exact hp
  | buildWrite t =>
    refine .inl ?_
    unfold step buildWrite
    dsimp only
    split
    · show (Function.update s.pipes _ _ p).inUse = false
      rw [Function.update_apply]
      split
      · rename_i he
        rw [← he]
        exact hp
      · exact hp
    · exact hp
  | _ => exact .inl (by rw [pipes_step s _ rfl]; exact hp)

/-- The threads inside `syn_pipeline_destroy` stay there. -/
def KeepsDestroying (s s' : Sched cfg) : Prop :=
  ∀ t p, s.threads t = .destroying p → s'.threads t = .destroying p

theorem KeepsDestroying.of_threads (h : s'.threads = s.threads) : KeepsDestroying s s' :=
  fun t _ ht => by rw [h, ht]

theorem KeepsDestroying.of_update {i : Fin cfg.threads} {x y : Thread cfg}
    (h : s'.threads = Function.update s.threads i x) (hi : s.threads i = y)
    (hy : ∀ p, y ≠ .destroying p) : KeepsDestroying s s' := by
  intro t p ht
  have hne : t ≠ i := by
    rintro rfl
    exact hy p (hi.symm.trans ht)
  rw [h, Function.update_of_ne hne, ht]

theorem keepsDestroying_unloadChecks {i : Fin cfg.threads} (hd : Handle) (last : Bool)
    (next : Thread cfg) {y : Thread cfg} (hi : s.threads i = y) (hy : ∀ p, y ≠ .destroying p) :
    KeepsDestroying s (unloadChecks i hd last next s) := by
  unfold unloadChecks
  split
  · exact .of_update rfl hi hy
  · split
    · exact .of_update rfl hi hy
    · dsimp only
      split <;> exact .of_update rfl hi hy

theorem keepsDestroying_submitLock (i : Fin cfg.threads) (now : Nat) (s : Sched cfg) :
    KeepsDestroying s (submitLock i now s) := by
  unfold submitLock
  split
  · rename_i p params hi
    split
    · exact .of_update rfl hi fun _ => nofun
    · rename_i j _
      intro t q ht
      have hne : t ≠ i := by
        rintro rfl
        exact nomatch hi.symm.trans ht
      show Function.update (fun t => abort j (s.threads t)) i _ t = _
      rw [Function.update_of_ne hne, ht]
      rfl
  · exact .of_threads rfl

theorem keepsDestroying_change (i : Fin cfg.threads) (res : Ret) (s : Sched cfg) :
    KeepsDestroying s (change i res s) := by
  unfold change
  split
  · rename_i c hi
    refine .of_update (x := c.next) ?_ hi fun _ => nofun
    show Function.update (c.apply res s).threads i _ = _
    rw [threads_apply]
  · exact .of_threads rfl

theorem keepsDestroying_step (s : Sched cfg) (o : Op cfg) (ho : ∀ t, o ≠ .destroyLock t) :
    KeepsDestroying s (step s o) := by
  cases o with
  | destroyLock t => exact absurd rfl (ho t)
  | submitLock t now => exact keepsDestroying_submitLock t now s
  | change t res => exact keepsDestroying_change t res s
  | unloadEnter i h =>
    unfold step unloadEnter
    dsimp only
    split
    · exact keepsDestroying_unloadChecks h false .idle ‹s.threads i = _› fun _ h => by cases h
    · exact .of_threads rfl
  | unregisterUnload i =>
    unfold step unregisterUnload
    dsimp only
    split
    · split
      · exact keepsDestroying_unloadChecks _ true _ ‹s.threads i = _› fun _ h => by cases h
      · exact .of_update rfl ‹s.threads i = _› fun _ h => by cases h
    · exact .of_threads rfl
  | loadEnter i | swapEnter i | unregisterEnter i | unregisterRemove i | quiesce i | drained i
  | addEnter i | addWrite i | buildEnter i | buildWrite i | destroyEnter i | submitEnter i
  | waitEnter i | waitTimeout i | waitStep i =>
    simp only [step, loadEnter, swapEnter, unregisterEnter, unregisterRemove, quiesce, drained,
      addEnter, addWrite, buildEnter, buildWrite, destroyEnter, submitEnter, waitEnter,
      waitTimeout, waitStep]
    repeat' split
    all_goals first
      | exact .of_threads rfl
      | exact .of_update rfl ‹s.threads i = _› fun _ h => by cases h
  | register name =>
    unfold step
    dsimp only
    rw [register_eq]
    split <;> exact .of_threads rfl
  | setData | create | cancel | getResult | setMaxConcurrent =>
    simp only [step, setData, create, cancel, getResult, setMaxConcurrent]
    repeat' split
    all_goals exact .of_threads rfl
  | dispatch => exact .of_threads (aside_dispatch s).threads
  | schedule res layers => exact .of_threads (aside_schedule s res layers).threads

/-- A pipeline whose destruction has begun is in it until it is not in use. -/
theorem destroying_step {t : Fin cfg.threads} (o : Op cfg) (h : s.threads t = .destroying p) :
    (step s o).threads t = .destroying p ∨ ((step s o).pipes p).inUse = false := by
  by_cases ho : o = .destroyLock t
  · subst ho
    refine .inr ?_
    unfold step destroyLock
    dsimp only
    rw [h]
    show (Function.update s.pipes p _ p).inUse = false
    rw [Function.update_self]
  · refine .inl ?_
    by_cases hl : ∃ i, o = .destroyLock i
    · obtain ⟨i, rfl⟩ := hl
      have hne : t ≠ i := fun he => ho (he ▸ rfl)
      unfold step destroyLock
      dsimp only
      split
      · show Function.update s.threads i _ t = _
        rw [Function.update_of_ne hne, h]
      · exact h
    · exact keepsDestroying_step s o (fun i he => hl ⟨i, he⟩) t p h

-- ---------------------------------------------------------------------------
-- The invariant
-- ---------------------------------------------------------------------------

def SyncPc.pipe : SyncPc → Option (Fin maxPipelines)
  | .checking | .creating => none
  | .adding p | .building p | .submitting p | .submitted p | .waiting p _ _ | .waits p _ _
  | .fetching p _ _ _ | .destroying p _ | .leaving p _ => some p

def SyncPc.ticket : SyncPc → Option Nat
  | .waiting _ _ k | .waits _ _ k | .fetching _ _ k _ => some k
  | _ => none

/-- A run in progress that `q` holds for. -/
def Syncs.has (m : Syncs cfg) (n : Nat) (q : SyncPc → Prop) : Prop :=
  ∃ t r, m.runs t = some r ∧ r.number = n ∧ q r.pc

/-- The jobs and the pipelines that the runs use are gone, or their runs know them. -/
structure SyncOk (m : Syncs cfg) : Prop where
  running : RunningOk m.sched
  below : ∀ t r, m.runs t = some r → r.number < m.count
  apart : ∀ t t' r r', m.runs t = some r → m.runs t' = some r' → r.number = r'.number → t = t'
  sent : ∀ k n, m.sent k = some n →
    k < m.sched.tickets ∧ (Freed m.sched k ∨ m.has n fun pc => pc.ticket = some k)
  made : ∀ p n, m.made p = some n →
    (m.sched.pipes p).inUse = false ∨ m.has n fun pc => pc.pipe = some p
  leaving : ∀ t r p ret, m.runs t = some r → r.pc = .leaving p ret →
    m.sched.threads t = .destroying p ∨
      (m.made p = some r.number → (m.sched.pipes p).inUse = false)

theorem LeavesNothing.of_ok {m : Syncs cfg} (h : SyncOk m) : LeavesNothing m where
  jobs j n hs hn := by
    obtain ⟨-, hf | ⟨t, r, hr, he, -⟩⟩ := h.sent _ n hs
    · exact .inr (hf j rfl)
    · exact absurd ⟨t, by rw [hr]; exact congrArg some he⟩ hn
  pipes p n hm hn := by
    obtain hu | ⟨t, r, hr, he, -⟩ := h.made p n hm
    · exact hu
    · exact absurd ⟨t, by rw [hr]; exact congrArg some he⟩ hn

section
variable {m : Syncs cfg} {t : Fin cfg.threads} {r : SyncRun}

theorem Syncs.runs_goto (m : Syncs cfg) (t : Fin cfg.threads) (r : SyncRun) (pc : SyncPc)
    (i : Fin cfg.threads) :
    (m.goto t r pc).runs i = if i = t then some { r with pc := pc } else m.runs i :=
  Function.update_apply ..

/-- A run that moves on still has what it had, or it is another one. -/
theorem Syncs.has.goto {n : Nat} {q : SyncPc → Prop} (h : m.has n q) (hr : m.runs t = some r)
    {pc : SyncPc} (hq : q r.pc → q pc) : (m.goto t r pc).has n q := by
  obtain ⟨i, x, hx, hn, hqx⟩ := h
  by_cases hi : i = t
  · subst hi
    cases hr.symm.trans hx
    exact ⟨i, { r with pc := pc }, by rw [Syncs.runs_goto, if_pos rfl], hn, hq hqx⟩
  · exact ⟨i, x, by rw [Syncs.runs_goto, if_neg hi]; exact hx, hn, hqx⟩

theorem Syncs.has.self (m : Syncs cfg) (t : Fin cfg.threads) (r : SyncRun) {pc : SyncPc}
    {q : SyncPc → Prop} (hq : q pc) : (m.goto t r pc).has r.number q :=
  ⟨t, { r with pc := pc }, by rw [Syncs.runs_goto, if_pos rfl], rfl, hq⟩

/-- What an operation may do to what the runs use. -/
structure Mild (m : Syncs cfg) (s' : Sched cfg) : Prop where
  running : RunningOk s'
  tickets : m.sched.tickets ≤ s'.tickets
  freed : ∀ k < m.sched.tickets, Freed m.sched k → Freed s' k
  pipes : ∀ p, (m.sched.pipes p).inUse = false → (s'.pipes p).inUse = false
  destroying : ∀ t p, m.sched.threads t = .destroying p →
    s'.threads t = .destroying p ∨ (s'.pipes p).inUse = false

theorem Mild.step (h : SyncOk m) {o : Op cfg} (ho : o ≠ .create) :
    Mild m (Infer.step m.sched o) where
  running := runningOk_step h.running o
  tickets := (done_step h.running o).tickets
  freed _ hk hf := hf.step h.running hk o
  pipes _ hp := (inUse_step m.sched o hp).resolve_right fun hc => ho hc.1
  destroying _ _ ht := destroying_step o ht

/-- An operation while no run moves on. -/
theorem SyncOk.sched (h : SyncOk m) {s' : Sched cfg} (hs : Mild m s') :
    SyncOk { m with sched := s' } where
  running := hs.running
  below := h.below
  apart := h.apart
  sent k n hk := by
    obtain ⟨hlt, hf⟩ := h.sent k n hk
    exact ⟨hlt.trans_le hs.tickets, hf.imp_left (hs.freed k hlt)⟩
  made p n hp := (h.made p n hp).imp_left (hs.pipes p)
  leaving t r p ret hr hpc := by
    obtain ht | hu := h.leaving t r p ret hr hpc
    · exact (hs.destroying t p ht).imp_right fun hu _ => hu
    · exact .inr fun hm => hs.pipes p (hu hm)

/-- A run moves on with what it has, or its job is gone. -/
theorem SyncOk.goto (h : SyncOk m) (hr : m.runs t = some r) {pc : SyncPc}
    (hpipe : ∀ p, r.pc.pipe = some p → pc.pipe = some p)
    (hticket : ∀ k, r.pc.ticket = some k → pc.ticket = some k ∨ Freed m.sched k)
    (hleave : ∀ p ret, pc = .leaving p ret → m.sched.threads t = .destroying p) :
    SyncOk (m.goto t r pc) where
  running := h.running
  below i x hx := by
    rw [Syncs.runs_goto] at hx
    split at hx
    · cases hx
      exact h.below t r hr
    · exact h.below i x hx
  apart i i' x x' hx hx' he := by
    rw [Syncs.runs_goto] at hx hx'
    split at hx
    · rename_i hi
      cases hx
      split at hx'
      · rename_i hi'
        rw [hi, hi']
      · exact hi ▸ h.apart t i' r x' hr hx' he
    · split at hx'
      · rename_i hi'
        cases hx'
        exact hi' ▸ h.apart i t x r hx hr he
      · exact h.apart i i' x x' hx hx' he
  sent k n hk := by
    obtain ⟨hlt, hf⟩ := h.sent k n hk
    refine ⟨hlt, ?_⟩
    by_cases hfreed : Freed m.sched k
    · exact .inl hfreed
    · exact .inr ((hf.resolve_left hfreed).goto hr fun hq => (hticket k hq).resolve_right hfreed)
  made p n hp := (h.made p n hp).imp_right fun hh => hh.goto hr (hpipe p)
  leaving i x p ret hx hpc := by
    rw [Syncs.runs_goto] at hx
    split at hx
    · rename_i hi
      cases hx
      exact .inl (hi ▸ hleave p ret hpc)
    · exact h.leaving i x p ret hx hpc

/-- A run returns when its pipeline is not in use. -/
theorem SyncOk.leave (h : SyncOk m) (hr : m.runs t = some r) (hticket : r.pc.ticket = none)
    (hpipe : ∀ p, r.pc.pipe = some p → m.made p = some r.number →
      (m.sched.pipes p).inUse = false) (ret : Ret) : SyncOk (m.leave t r ret) := by
  have hruns : ∀ i x, (m.leave t r ret).runs i = some x → i ≠ t ∧ m.runs i = some x := by
    intro i x hx
    change Function.update m.runs t none i = some x at hx
    rw [Function.update_apply] at hx
    split at hx
    · cases hx
    · exact ⟨‹_›, hx⟩
  have hhas : ∀ n (q : SyncPc → Prop), m.has n q → (¬q r.pc ∨ n ≠ r.number) →
      (m.leave t r ret).has n q := by
    rintro n q ⟨i, x, hx, hn, hq⟩ hno
    refine ⟨i, x, ?_, hn, hq⟩
    show Function.update m.runs t none i = some x
    rw [Function.update_of_ne]
    · exact hx
    · rintro rfl
      cases hr.symm.trans hx
      exact hno.elim (fun h => h hq) fun h => h hn.symm
  constructor
  · exact h.running
  · exact fun i x hx => h.below i x (hruns i x hx).2
  · exact fun i i' x x' hx hx' => h.apart i i' x x' (hruns i x hx).2 (hruns i' x' hx').2
  · intro k n hk
    obtain ⟨hlt, hf⟩ := h.sent k n hk
    exact ⟨hlt, hf.imp_right fun hh => hhas n _ hh (.inl (by rw [hticket]; nofun))⟩
  · intro p n hp
    by_cases hcase : r.pc.pipe = some p ∧ n = r.number
    · exact .inl (hpipe p hcase.1 (hcase.2 ▸ hp))
    · refine (h.made p n hp).imp_right fun hh => hhas n _ hh ?_
      exact not_and_or.mp hcase
  · exact fun i x p ret' hx hpc => h.leaving i x p ret' (hruns i x hx).2 hpc

end

section
variable {m : Syncs cfg} {t : Fin cfg.threads} {r : SyncRun}

/-- A run makes an operation and moves on. -/
theorem SyncOk.call (h : SyncOk m) (hr : m.runs t = some r) {o : Op cfg} (ho : o ≠ .create)
    {pc : SyncPc} (hpipe : ∀ p, r.pc.pipe = some p → pc.pipe = some p)
    (hticket : ∀ k, r.pc.ticket = some k →
      pc.ticket = some k ∨ Freed (Infer.step m.sched o) k)
    (hleave : ∀ p ret, pc = .leaving p ret → (Infer.step m.sched o).threads t = .destroying p) :
    SyncOk (m.call t r o pc) :=
  (h.sched (Mild.step h ho)).goto hr hpipe hticket hleave

/-- A pipeline is created, for no run yet. -/
theorem SyncOk.create (h : SyncOk m) (hp : m.sched.freePipe = some p) :
    SyncOk { m with
      sched := Infer.step m.sched .create, made := Function.update m.made p none } := by
  have hpipes : ∀ q, q ≠ p → (m.sched.pipes q).inUse = false →
      ((Infer.step m.sched .create).pipes q).inUse = false := fun q hq hu =>
    (inUse_step m.sched .create hu).resolve_right fun hc =>
      hq (Option.some.inj (hc.2.symm.trans hp))
  have hmade : ∀ q n, Function.update m.made p none q = some n → q ≠ p ∧ m.made q = some n := by
    intro q n hq
    rw [Function.update_apply] at hq
    split at hq
    · cases hq
    · exact ⟨‹_›, hq⟩
  constructor
  · exact runningOk_step h.running _
  · exact h.below
  · exact h.apart
  · intro k n hk
    obtain ⟨hlt, hf⟩ := h.sent k n hk
    exact ⟨hlt.trans_le (done_step h.running _).tickets,
      hf.imp_left fun hf => hf.step h.running hlt _⟩
  · intro q n hq
    obtain ⟨hne, hq⟩ := hmade q n hq
    exact (h.made q n hq).imp_left (hpipes q hne)
  · intro i x q ret hx hpc
    obtain ht | hu := h.leaving i x q ret hx hpc
    · exact (destroying_step .create ht).imp_right fun hu _ => hu
    · refine .inr fun hm => ?_
      obtain ⟨hne, hm⟩ := hmade q x.number hm
      exact hpipes q hne (hu hm)

/-- The pipeline is the run's. -/
theorem SyncOk.own (h : SyncOk m) (hr : m.runs t = some r) (hpc : r.pc = .adding p) :
    SyncOk { m with made := Function.update m.made p (some r.number) } where
  running := h.running
  below := h.below
  apart := h.apart
  sent := h.sent
  made q n hq := by
    change Function.update m.made p (some r.number) q = some n at hq
    rw [Function.update_apply] at hq
    split at hq
    · rename_i he
      cases hq
      exact .inr ⟨t, r, hr, rfl, by rw [hpc, he]; rfl⟩
    · exact h.made q n hq
  leaving i x q ret hx hxpc := by
    refine (h.leaving i x q ret hx hxpc).imp_right fun hu hm => ?_
    change Function.update m.made p (some r.number) q = some x.number at hm
    rw [Function.update_apply] at hm
    split at hm
    · have hti := h.apart t i r x hr hx (Option.some.inj hm)
      subst hti
      cases hr.symm.trans hx
      cases hpc.symm.trans hxpc
    · exact hu hm

/-- A submission that went through, of a run that will wait for it. -/
theorem SyncOk.submitted (h : SyncOk m) (hr : m.runs t = some r) (hpc : r.pc = .submitted p)
    {n : Nat} (o : Op cfg) (ho : o ≠ .create)
    (htk : (Infer.step m.sched o).tickets = m.sched.tickets + 1) :
    SyncOk ({ m with
      sched := Infer.step m.sched o
      sent := Function.update m.sent m.sched.tickets (some r.number) }.goto t r
        (.waiting p n m.sched.tickets)) := by
  have hg : SyncOk ({ m with sched := Infer.step m.sched o }.goto t r
      (.waiting p n m.sched.tickets)) :=
    (h.sched (Mild.step h ho)).goto hr (fun q hq => by rw [hpc] at hq; exact hq)
      (fun k hk => by rw [hpc] at hk; cases hk) nofun
  refine { hg with sent := fun k n hk => ?_ }
  change Function.update m.sent m.sched.tickets (some r.number) k = some n at hk
  rw [Function.update_apply] at hk
  split at hk
  · rename_i he
    cases hk
    exact ⟨by rw [he]; exact htk ▸ Nat.lt_succ_self _,
      .inr (Syncs.has.self _ t r (by rw [he]; rfl))⟩
  · exact hg.sent k n hk

-- ---------------------------------------------------------------------------
-- Steps
-- ---------------------------------------------------------------------------

theorem syncOk_next (h : SyncOk m) (hc : Collects m (.next t)) : SyncOk (m.next t) := by
  unfold Syncs.next
  split
  · exact h
  rename_i r hr
  dsimp only
  split
  · exact h
  rename_i hidle
  have hidle := not_not.mp hidle
  split
  · -- checking
    rename_i hpc
    split
    · exact h.goto hr (by rw [hpc]; nofun) (by rw [hpc]; nofun) (by nofun)
    · exact h.leave hr (by rw [hpc]; rfl) (by rw [hpc]; nofun) _
  · -- creating
    rename_i hpc
    split
    · exact h.leave hr (by rw [hpc]; rfl) (by rw [hpc]; nofun) _
    · rename_i p hp
      have hcreate : SyncOk (Syncs.goto _ t r (.adding p)) :=
        (h.create hp).goto hr (by rw [hpc]; nofun) (by rw [hpc]; nofun) (by nofun)
      have hown := hcreate.own (t := t) (r := { r with pc := .adding p })
        (by rw [Syncs.runs_goto, if_pos rfl]) rfl
      change SyncOk { (Syncs.goto _ t r (.adding p)) with
        made := Function.update (Function.update m.made p none) p (some r.number) } at hown
      rw [Function.update_idem] at hown
      exact hown
  · -- adding
    rename_i p hpc
    split
    · exact h.goto hr (by rw [hpc]; exact fun _ => id) (by rw [hpc]; nofun) (by nofun)
    · exact h.call hr (by nofun) (by rw [hpc]; exact fun _ => id) (by rw [hpc]; nofun) (by nofun)
  · -- building
    rename_i p hpc
    split
    · exact h.goto hr (by rw [hpc]; exact fun _ => id) (by rw [hpc]; nofun) (by nofun)
    · exact h.call hr (by nofun) (by rw [hpc]; exact fun _ => id) (by rw [hpc]; nofun) (by nofun)
  · -- submitting
    rename_i p hpc
    split
    · exact h.call hr (by nofun) (by rw [hpc]; exact fun _ => id) (by rw [hpc]; nofun) (by nofun)
    · exact h.goto hr (by rw [hpc]; exact fun _ => id) (by rw [hpc]; nofun) (by nofun)
  · exact h
  · -- waiting
    rename_i p n k hpc
    split
    · exact h.goto hr (by rw [hpc]; exact fun _ => id) (by rw [hpc]; exact fun _ => .inl) (by nofun)
    · split
      · exact h.call hr (by nofun) (by rw [hpc]; exact fun _ => id)
          (by rw [hpc]; exact fun _ => .inl) (by nofun)
      · exact h.call hr (by nofun) (by rw [hpc]; exact fun _ => id)
          (by rw [hpc]; exact fun _ => .inl) (by nofun)
  · -- waits
    rename_i p n k hpc
    exact h.goto hr (by rw [hpc]; exact fun _ => id) (by rw [hpc]; exact fun _ => .inl) (by nofun)
  · -- fetching
    rename_i p n k ret hpc
    refine h.call hr (by nofun) (by rw [hpc]; exact fun _ => id) (fun k' hk' => .inr ?_) (by nofun)
    rw [hpc] at hk'
    cases hk'
    refine freed_getResult (hc (n, k) ?_)
    unfold Syncs.fetches
    dsimp only
    rw [hr, hidle]
    dsimp only
    rw [hpc]
  · -- destroying
    rename_i p ret hpc
    split
    · rename_i hu
      refine h.call hr (by nofun) (by rw [hpc]; exact fun _ => id) (by rw [hpc]; nofun) ?_
      intro q ret' he
      cases he
      unfold step destroyEnter
      dsimp only
      rw [hidle]
      dsimp only
      rw [if_pos hu]
      exact Function.update_self ..
    · rename_i hu
      refine h.leave hr (by rw [hpc]; rfl) (fun q hq _ => ?_) _
      rw [hpc] at hq
      cases hq
      exact Bool.eq_false_iff.mpr hu
  · -- leaving
    rename_i p ret hpc
    refine h.leave hr (by rw [hpc]; rfl) (fun q hq hm => ?_) _
    rw [hpc] at hq
    cases hq
    exact (h.leaving t r p ret hr hpc).resolve_left (by rw [hidle]; nofun) hm

/-- A run learns that its wait is over. -/
theorem syncOk_waited (h : SyncOk m) (i : Fin cfg.threads) (o : Op cfg) (ho : o ≠ .create) :
    SyncOk { (match m.runs i, newReturn m.sched (Infer.step m.sched o) with
      | some r, some ret =>
        match r.pc with
        | .waits p id ticket => m.goto i r (.fetching p id ticket ret)
        | _ => m
      | _, _ => m) with sched := Infer.step m.sched o } := by
  have hs := h.sched (Mild.step h ho)
  split
  · rename_i r ret hr _
    split
    · rename_i p n k hpc
      exact hs.goto hr (by rw [hpc]; exact fun _ => id) (by rw [hpc]; exact fun _ => .inl)
        (by nofun)
    · exact hs
  · exact hs

theorem syncOk_learn (h : SyncOk m) (o : Op cfg) :
    SyncOk { m.learn o with sched := Infer.step m.sched o } := by
  cases o with
  | create =>
    unfold Syncs.learn
    dsimp only
    split
    · rename_i hp
      have hs : Infer.step m.sched .create = m.sched := by
        unfold step create
        unfold Sched.freePipe at hp
        dsimp only
        rw [hp]
      rw [hs]
      exact h
    · rename_i p hp
      exact h.create hp
  | submitLock i now =>
    have hs := h.sched (Mild.step h (o := .submitLock i now) (by nofun))
    unfold Syncs.learn
    dsimp only
    split
    · rename_i r q params hr hth
      split
      · rename_i p hpc _
        exact hs.goto hr (by rw [hpc]; exact fun _ => id) (by rw [hpc]; nofun) (by nofun)
      · rename_i p j hpc hj
        refine h.submitted hr hpc (.submitLock i now) (by nofun) ?_
        unfold step submitLock
        dsimp only
        rw [hth]
        dsimp only
        rw [hj]
        rfl
      · exact hs
    · exact hs
  | waitStep i => exact syncOk_waited h i (.waitStep i) (by nofun)
  | waitTimeout i => exact syncOk_waited h i (.waitTimeout i) (by nofun)
  | _ => exact h.sched (Mild.step h (by nofun))

/-- A call that is refused for its arguments. -/
theorem SyncOk.refused (h : SyncOk m) (ret : Ret) :
    SyncOk { m with count := m.count + 1, returns := m.returns ++ [(m.count, ret)] } where
  running := h.running
  below i x hx := Nat.lt_succ_of_lt (h.below i x hx)
  apart := h.apart
  sent := h.sent
  made := h.made
  leaving := h.leaving

theorem syncOk_enter (h : SyncOk m) (t : Fin cfg.threads) (model : Handle) (priority : Nat)
    (input : Option Bool) (output : Bool) : SyncOk (m.enter t model priority input output) := by
  unfold Syncs.enter
  split
  case h_2 => exact h
  rename_i hnone hidle
  split
  · exact h.refused einval
  dsimp only
  set pc : SyncPc := if (m.sched.info model).isSome then .checking else .creating with hpc
  have hstart : pc.pipe = none ∧ pc.ticket = none ∧ ∀ p ret, pc ≠ .leaving p ret := by
    rw [hpc]
    split
    · exact ⟨rfl, rfl, by nofun⟩
    · exact ⟨rfl, rfl, by nofun⟩
  have hhas : ∀ n q, m.has n q → Syncs.has { m with
      runs := Function.update m.runs t (some ⟨m.count, model, priority, input.getD false, pc⟩)
      count := m.count + 1 } n q := by
    rintro n q ⟨i, x, hx, hn, hq⟩
    refine ⟨i, x, ?_, hn, hq⟩
    show Function.update m.runs t _ i = some x
    rw [Function.update_of_ne]
    · exact hx
    · rintro rfl
      cases hnone.symm.trans hx
  have hruns : ∀ i x, Function.update m.runs t
      (some ⟨m.count, model, priority, input.getD false, pc⟩) i = some x →
      i = t ∧ x = ⟨m.count, model, priority, input.getD false, pc⟩ ∨ m.runs i = some x := by
    intro i x hx
    rw [Function.update_apply] at hx
    split at hx
    · cases hx
      exact .inl ⟨‹_›, rfl⟩
    · exact .inr hx
  constructor
  · exact h.running
  · intro i x hx
    obtain ⟨-, rfl⟩ | hx := hruns i x hx
    · exact Nat.lt_succ_self _
    · exact Nat.lt_succ_of_lt (h.below i x hx)
  · intro i i' x x' hx hx' he
    rcases hruns i x hx with ⟨rfl, rfl⟩ | hold
    · rcases hruns i' x' hx' with ⟨rfl, -⟩ | hold'
      · rfl
      · exact absurd he.symm (Nat.ne_of_lt (h.below i' x' hold'))
    · rcases hruns i' x' hx' with ⟨rfl, rfl⟩ | hold'
      · exact absurd he (Nat.ne_of_lt (h.below i x hold))
      · exact h.apart i i' x x' hold hold' he
  · intro k n hk
    obtain ⟨hlt, hf⟩ := h.sent k n hk
    exact ⟨hlt, hf.imp_right (hhas n _)⟩
  · exact fun p n hp => (h.made p n hp).imp_right (hhas n _)
  · intro i x p ret hx hxpc
    obtain ⟨-, rfl⟩ | hx := hruns i x hx
    · exact absurd hxpc (hstart.2.2 p ret)
    · exact h.leaving i x p ret hx hxpc

theorem syncOk_step (h : SyncOk m) (o : SyncOp cfg) (hc : Collects m o) : SyncOk (m.step o) := by
  cases o with
  | api o =>
    unfold Syncs.step
    dsimp only
    split
    · exact h
    · exact syncOk_learn h o
  | runSync t model priority input output => exact syncOk_enter h t model priority input output
  | next t => exact syncOk_next h hc

end

theorem SyncOk.init : SyncOk (Syncs.init cfg) where
  running := RunningOk.init
  below := nofun
  apart := nofun
  sent := nofun
  made := nofun
  leaving := nofun

/-- Where every result that is fetched is there to be fetched, no run that has returned
keeps its pipeline or its job. -/
theorem run_sync_leaves_nothing (ops : List (SyncOp cfg))
    (h : Along Syncs.step Collects (Syncs.init cfg) ops) :
    LeavesNothing (run Syncs.step (Syncs.init cfg) ops) :=
  .of_ok (h.invariant SyncOk.init fun _ o hi hc => syncOk_step hi o hc)

/-- A run of model 1 up to the wait. -/
def syncOps : List (SyncOp twoJobs) :=
  (modelOps 7 1).map .api ++
    [.runSync 0 1 0 (some true) true, .next 0, .next 0, .next 0, .api (.addWrite 0), .next 0, .api (.buildWrite 0),
      .next 0, .api (.submitLock 0 0), .next 0]

/-- The scheduler runs the job before the thread waits for it. -/
theorem run_sync_leaves_nothing_done : LeavesNothing (run Syncs.step (Syncs.init twoJobs)
    (syncOps ++ .api .dispatch :: (scheduleOps 6 0).map .api ++
      [.api (.waitStep 0), .api (.waitStep 0), .api (.waitStep 0), .api (.waitStep 0),
        .next 0, .next 0, .api (.destroyLock 0), .next 0])) :=
  run_sync_leaves_nothing _ (by decide +kernel)

/-- The wait times out while the job is queued; its slot is never free again. -/
def syncTimeoutOps : List (SyncOp twoJobs) :=
  syncOps ++ [.api (.waitStep 0), .api (.waitTimeout 0), .next 0, .next 0, .api (.destroyLock 0),
    .next 0]

theorem timeout_keeps_job :
    ¬LeavesNothing (run Syncs.step (Syncs.init twoJobs) syncTimeoutOps) := by
  intro h
  have hj := h.jobs 0 0 (by decide +kernel) (by decide +kernel)
  revert hj
  decide +kernel

end SynapticOS.Infer
