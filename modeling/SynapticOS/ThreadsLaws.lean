import SynapticOS.Threads

/-!
# Sequential orders of concurrent calls

Every call that fails leaves its section before it enters its error. Where nobody does
anything under the lock in between, what the threads show is what their calls show one
after the other (`calls_serial`); where a session begins in between, the error of the
call before it ends that session (`calls_clash`).
-/

namespace SynapticOS

open Lib

variable {cfg : Config} {τ : Type}

-- ---------------------------------------------------------------------------
-- Calls one after the other
-- ---------------------------------------------------------------------------

/-- The two differ in what a step's surroundings replace. -/
def SameSys (s s' : Sys) : Prop := ∀ env, s.enter env = s'.enter env

namespace SameSys

variable {s s' s'' : Sys}

theorem refl (s : Sys) : SameSys s s := fun _ => rfl

theorem trans (h : SameSys s s') (h' : SameSys s' s'') : SameSys s s'' := fun env =>
  (h env).trans (h' env)

theorem symm (h : SameSys s s') : SameSys s' s := fun env => (h env).symm

theorem enter (s : Sys) (env : Env) : SameSys (s.enter env) s := fun _ => rfl

theorem ota (h : SameSys s s') : s.ota = s'.ota :=
  show (s.enter quiet).ota = (s'.enter quiet).ota by rw [h]

theorem st (h : SameSys s s') : s.store.st = s'.store.st :=
  show (s.enter quiet).store.st = (s'.enter quiet).store.st by rw [h]

theorem seen (h : SameSys s s') : s.seen = s'.seen := by
  have hacts : s.cpu.acts = s'.cpu.acts :=
    show (s.enter quiet).cpu.acts = (s'.enter quiet).cpu.acts by rw [h]
  unfold Sys.seen
  rw [h.ota, hacts]

theorem checks (h : SameSys s s') (c : OtaCall) : c.checks s = c.checks s' := by
  cases c with
  | begin name totalSize =>
    unfold OtaCall.checks
    rw [h.st]
  | writeChunk | finish | activate | rollback => rfl

end SameSys

theorem checks_keepsReady {s s' : Sys} (h : KeepsReady s s') (c : OtaCall) :
    c.checks s' = c.checks s := by
  cases c with
  | begin name totalSize =>
    unfold OtaCall.checks
    rw [show s'.store.st.ready = s.store.st.ready from h]
  | writeChunk | finish | activate | rollback => rfl

section
variable [DecidableEq τ] {s s' s₁ s₂ : Sys} {t : τ} {c : OtaCall} {env env' : Env} {e : Errno}
variable {l l' : List (τ × ThreadStep)} {o o' : List (OtaState × Option Errno × List CpuAct)}

/-- `l` takes the calls of its threads one after the other, from `s` to `s'`. -/
structure Serial (cfg : Config) (s : Sys) (l : List (τ × ThreadStep)) (s' : Sys)
    (o : List (OtaState × Option Errno × List CpuAct)) : Prop where
  alone : Along (Threads.step cfg) Threads.Alone (Threads.start τ s) l
  ends : run (Threads.step cfg) (Threads.start τ s) l = Threads.start τ s'
  shows : observations cfg (Threads.start τ s) l = o

theorem observations_append (w : Threads τ) : observations cfg w (l ++ l') =
    observations cfg w l ++ observations cfg (run (Threads.step cfg) w l) l' := by
  induction l generalizing w with
  | nil => rfl
  | cons x l ih =>
    show _ ++ observations cfg (w.step cfg x) (l ++ l') = _
    rw [ih, ← List.append_assoc]
    rfl

theorem Serial.nil (cfg : Config) (τ : Type) [DecidableEq τ] (s : Sys) :
    Serial cfg s ([] : List (τ × ThreadStep)) s [] := ⟨.nil, rfl, rfl⟩

theorem Serial.append (h : Serial cfg s l s₁ o) (h' : Serial cfg s₁ l' s₂ o') :
    Serial cfg s (l ++ l') s₂ (o ++ o') where
  alone := by
    refine h.alone.append ?_
    rw [h.ends]
    exact h'.alone
  ends := by rw [run_append, h.ends, h'.ends]
  shows := by rw [observations_append, h.ends, h.shows, h'.shows]

theorem Threads.put_put (w : Threads τ) (p p' : Phase) :
    (w.put t p s).put t p' s' = w.put t p' s' := by
  unfold put
  rw [Function.update_idem]

theorem Threads.put_start (t : τ) (s s' : Sys) : (start τ s).put t .outside s' = start τ s' := by
  unfold put start
  rw [Function.update_eq_self_iff.mpr rfl]

theorem Threads.step_call_refused {w : Threads τ} (hp : w.phase t = .outside)
    (h : c.checks w.sys = .error e) : w.step cfg (t, .call c) = w := by
  unfold step
  dsimp only
  rw [hp]
  dsimp only
  rw [h]

theorem Threads.step_call {w : Threads τ} (hp : w.phase t = .outside)
    (h : c.checks w.sys = .ok ()) :
    w.step cfg (t, .call c) = w.put t (.waiting c) w.sys := by
  unfold step
  dsimp only
  rw [hp]
  dsimp only
  rw [h]

theorem Threads.step_fails {w : Threads τ} (hp : w.phase t = .waiting c)
    (h : (c.locked cfg).run (w.sys.enter env) = (.error (.fail e), s')) :
    w.step cfg (t, .lock env) = w.put t (.failing e) s' := by
  unfold step
  dsimp only
  rw [hp]
  dsimp only
  rw [h]

theorem Threads.step_done {w : Threads τ} (hp : w.phase t = .waiting c)
    {r : Except Exit Unit} (h : (c.locked cfg).run (w.sys.enter env) = (r, s'))
    (hr : ∀ e, r ≠ .error (.fail e)) :
    w.step cfg (t, .lock env) = w.put t .outside s' := by
  unfold step
  dsimp only
  rw [hp]
  dsimp only
  rw [h]
  split
  · rename_i heq
    cases heq
    exact absurd rfl (hr _)
  · rename_i heq
    cases heq
    rfl

theorem Threads.step_exit {w : Threads τ} (hp : w.phase t = .failing e) :
    w.step cfg (t, .exit env) =
      w.put t .outside ((enterError e : SysM Unit).run (w.sys.enter env)).2 := by
  unfold step
  dsimp only
  rw [hp]

theorem Serial.refused (t : τ) (h : c.checks s = .error e) :
    Serial cfg s [(t, .call c)] s [] := by
  have hstep : (Threads.start τ s).step cfg (t, .call c) = Threads.start τ s :=
    Threads.step_call_refused rfl h
  refine ⟨.cons ⟨trivial, fun _ _ => rfl⟩ .nil, hstep, ?_⟩
  unfold observations shown
  rw [hstep, if_pos rfl]
  rfl

theorem Threads.phase_put (w : Threads τ) (t : τ) (p : Phase) (s : Sys) :
    (w.put t p s).phase t = p :=
  show Function.update w.phase t p t = p from Function.update_self ..

theorem Threads.phase_put_of_ne (w : Threads τ) {t u : τ} (h : u ≠ t) (p : Phase) (s : Sys) :
    (w.put t p s).phase u = w.phase u :=
  show Function.update w.phase t p u = w.phase u from Function.update_of_ne h ..

/-- The thread of the one call under way goes on. -/
theorem Threads.alone_put (t : τ) (s s' : Sys) {p : Phase} {m : ThreadStep} (h : p.Takes m) :
    ((start τ s).put t p s').Alone (t, m) := by
  constructor
  · unfold Enabled
    rw [phase_put]
    exact h
  · intro u hu
    exact phase_put_of_ne _ hu p s'

/-- A call on its own, up to what it leaves under the lock. -/
theorem Threads.call_lock (t : τ) (hc : c.checks s = .ok ()) {w : Threads τ}
    (hlock : ((start τ s).put t (.waiting c) s).step cfg (t, .lock env) = w) :
    Along (step cfg) Alone (start τ s) [(t, .call c), (t, .lock env)] ∧
      run (step cfg) (start τ s) [(t, .call c), (t, .lock env)] = w ∧
      observations cfg (start τ s) [(t, .call c), (t, .lock env)] = shown s w.sys := by
  have hcall : (start τ s).step cfg (t, .call c) = (start τ s).put t (.waiting c) s :=
    step_call rfl hc
  have hself : shown s s = [] := if_pos rfl
  refine ⟨.cons ⟨trivial, fun _ _ => rfl⟩ ?_, ?_, ?_⟩
  · rw [hcall]
    exact .cons (alone_put t s s trivial) .nil
  · rw [run_cons, run_cons, hcall, hlock, run_nil]
  · unfold observations observations observations
    rw [hcall, hlock, List.append_nil]
    exact (congrArg (· ++ shown s w.sys) hself).trans (List.nil_append _)

theorem Serial.done (t : τ) (hc : c.checks s = .ok ()) {x : Except Exit Unit}
    (h : (c.locked cfg).run (s.enter env) = (x, s')) (hx : ∀ e, x ≠ .error (.fail e)) :
    Serial cfg s [(t, .call c), (t, .lock env)] s' (shown s s') := by
  have hlock : ((Threads.start τ s).put t (.waiting c) s).step cfg (t, .lock env) =
      Threads.start τ s' := by
    rw [Threads.step_done (Threads.phase_put _ _ _ _) h hx, Threads.put_put, Threads.put_start]
  obtain ⟨halone, hends, hshows⟩ := Threads.call_lock t hc hlock
  exact ⟨halone, hends, hshows⟩

/-- A failing call on its own owes its error after the lock. -/
theorem Threads.call_fails (t : τ) (hc : c.checks s = .ok ())
    (h : (c.locked cfg).run (s.enter env) = (.error (.fail e), s')) :
    Along (step cfg) Alone (start τ s) [(t, .call c), (t, .lock env)] ∧
      run (step cfg) (start τ s) [(t, .call c), (t, .lock env)] =
        (start τ s).put t (.failing e) s' ∧
      observations cfg (start τ s) [(t, .call c), (t, .lock env)] = shown s s' := by
  refine call_lock t hc ?_
  rw [step_fails (phase_put _ _ _ _) h, put_put]

theorem Serial.fails (t : τ) (hc : c.checks s = .ok ())
    (h : (c.locked cfg).run (s.enter env) = (.error (.fail e), s₁))
    (he : ((enterError e : SysM Unit).run (s₁.enter env')).2 = s₂) :
    Serial cfg s ([(t, .call c), (t, .lock env)] ++ [(t, .exit env')]) s₂
      (shown s s₁ ++ shown s₁ s₂) := by
  obtain ⟨halone, hends, hshows⟩ := Threads.call_fails t hc h
  have hexit : ((Threads.start τ s).put t (.failing e) s₁).step cfg (t, .exit env') =
      Threads.start τ s₂ := by
    rw [Threads.step_exit (Threads.phase_put _ _ _ _), Threads.put_put]
    exact (congrArg _ he).trans (Threads.put_start t s s₂)
  refine ⟨halone.append ?_, ?_, ?_⟩
  · rw [hends]
    exact .cons (Threads.alone_put t s s₁ trivial) .nil
  · rw [run_append, hends, run_cons, hexit, run_nil]
  · rw [observations_append, hends, hshows]
    unfold observations observations
    rw [hexit, List.append_nil]
    rfl

/-- The surroundings the system is in. -/
def Sys.surroundings (s : Sys) : Env where
  plan := s.store.flash.plan
  suspended := s.store.models.suspended
  hal := s.store.models.hal
  app := s.store.models.app
  dualCore := s.cpu.dualCore
  linked := s.cpu.linked
  stopOk := s.cpu.stopOk
  drainOk := s.cpu.drainOk

theorem Sys.enter_surroundings (s : Sys) : s.enter s.surroundings = s := rfl

theorem enterError_throw (e : Errno) (s : Sys) :
    ((do enterError e; Act.throw e : SysM Unit).run s).2 = ((enterError e : SysM Unit).run s).2 := by
  rw [Act.run_bind]
  cases (enterError e : SysM Unit).run s with
  | mk r s' => cases r <;> rfl

/-- On its own, a thread's call is the call of the sequential engine. -/
theorem Threads.call_alone (cfg : Config) (t : τ) (c : OtaCall) (env : Env) (s : Sys) :
    ∃ l s', Along (step cfg) Alone (start τ s) ((.call c :: l).map (t, ·)) ∧
      run (step cfg) (start τ s) ((.call c :: l).map (t, ·)) = start τ s' ∧
      SameSys s' ((exec cfg c.op).run (s.enter env)).2 := by
  have hsame : SameSys s (s.enter env) := (SameSys.enter s env).symm
  have hexec : (exec cfg c.op).run (s.enter env) = _ := c.exec_op (s.enter env)
  rw [← hsame.checks c] at hexec
  cases hc : c.checks s with
  | error e =>
    rw [hc] at hexec
    have h : Serial cfg s [(t, .call c)] s [] := Serial.refused t hc
    exact ⟨[], s, h.alone, h.ends, by rw [hexec]; exact hsame⟩
  | ok u =>
    rw [hc] at hexec
    replace hexec : (exec cfg c.op).run (s.enter env) = _ := hexec.trans Act.run_bind
    rw [Act.run_attempt] at hexec
    cases hl : (c.locked cfg).run (s.enter env) with
    | mk r s₁ =>
      rw [hl] at hexec
      rcases r with (e | e) | _
      · have h := Serial.done t hc hl nofun
        refine ⟨[.lock env], s₁, h.alone, h.ends, ?_⟩
        rw [hexec]
        exact .refl _
      · have h := Serial.fails t hc hl (congrArg Prod.snd (congrArg _ s₁.enter_surroundings))
        refine ⟨[.lock env, .exit s₁.surroundings], _, h.alone, h.ends, ?_⟩
        rw [hexec]
        exact fun env => congrArg (Sys.enter env) (enterError_throw e s₁).symm
      · have h := Serial.done t hc hl nofun
        refine ⟨[.lock env], s₁, h.alone, h.ends, ?_⟩
        rw [hexec]
        exact .refl _

end

-- ---------------------------------------------------------------------------
-- Refused calls
-- ---------------------------------------------------------------------------

section
variable {s s' : Sys} {c : OtaCall} {env : Env}

theorem OtaCall.Refused.run (h : c.Refused cfg s) :
    ∃ e, (c.locked cfg).run s = (.error (.refuse e), s) := by
  cases c with
  | begin name totalSize =>
    refine ⟨.efbig, ?_⟩
    show (beginLocked cfg name totalSize).run s = _
    unfold beginLocked beginPrepare
    refine Act.run_bind_error ?_
    rw [Act.run_bind, Act.run_get]
    dsimp only
    rw [if_pos (show cfg.lay.slotSize < totalSize from h), Act.run_throw]
  | writeChunk data =>
    refine ⟨.eperm, ?_⟩
    show (writeChunkLocked cfg data).run s = _
    unfold writeChunkLocked
    rw [Act.run_bind, Act.run_gets]
    dsimp only
    rw [if_pos (show s.ota.state ≠ .downloading from h), Act.run_throw]
  | finish =>
    refine ⟨.eperm, ?_⟩
    show (finishLocked cfg).run s = _
    unfold finishLocked
    rw [Act.run_bind, Act.run_gets]
    dsimp only
    rw [if_pos (show s.ota.state ≠ .downloading from h), Act.run_throw]
  | activate =>
    refine ⟨.eperm, ?_⟩
    show (otaActivateLocked cfg).run s = _
    unfold otaActivateLocked
    rw [Act.run_bind, Act.run_get]
    dsimp only
    rw [show activateTarget s = none from h]
    rfl
  | rollback => exact h.elim

theorem OtaCall.Refused.enter (h : c.Refused cfg s) (env : Env) : c.Refused cfg (s.enter env) := by
  cases c with
  | begin | writeChunk | finish | activate => exact h
  | rollback => exact h.elim

/-- The checks that refuse a call still do in ERROR. -/
theorem OtaCall.Refused.in_error (h : c.Refused cfg s) (he : s'.ota.state = .error) :
    c.Refused cfg s' := by
  cases c with
  | begin => exact h
  | writeChunk | finish =>
    show s'.ota.state ≠ .downloading
    rw [he]
    decide
  | activate =>
    show activateTarget s' = none
    unfold activateTarget
    rw [he, if_neg (by decide), if_pos (.inl (by decide))]
  | rollback => exact h.elim

theorem cpu1Unpark_state (s : Sys) :
    ((cpu1Unpark : SysM Unit).run s).2.ota.state = s.ota.state := by
  have h : Respects (fun a b : Sys => b.ota.state = a.ota.state) (cpu1Unpark : SysM Unit) := by
    have : IsPreorder Sys (fun a b : Sys => b.ota.state = a.ota.state) :=
      { refl := fun _ => rfl, trans := fun _ _ _ h h' => h'.trans h }
    exact Respects.bind Respects.get fun _ => Respects.ite (Respects.bind (fun _ => rfl) fun _ =>
      Respects.ite (Respects.bind (fun _ => rfl) fun _ => fun _ => rfl) (Respects.pure' _))
        (Respects.pure' _)
  exact h s

theorem enterError_state (e : Errno) (s : Sys) :
    ((enterError e : SysM Unit).run s).2.ota.state = .error := cpu1Unpark_state _

end

-- ---------------------------------------------------------------------------
-- The serial order
-- ---------------------------------------------------------------------------

section
variable [DecidableEq τ] {s s' s₀ : Sys} {t u : τ} {c : OtaCall} {env : Env} {e : Errno}
variable {l l' r r' : List (τ × ThreadStep)} {w : Threads τ} {ready : Bool}

/-- The steps of a thread. -/
def thread (t : τ) (l : List (τ × ThreadStep)) : List (τ × ThreadStep) := l.filter (·.1 = t)

theorem thread_append (t : τ) (l l' : List (τ × ThreadStep)) :
    thread t (l ++ l') = thread t l ++ thread t l' := List.filter_append ..

theorem thread_self {m : ThreadStep} : thread t [(t, m)] = [(t, m)] := by simp [thread]

theorem thread_other {m : ThreadStep} (h : t ≠ u) : thread u [(t, m)] = [] := by simp [thread, h]

theorem Phase.owes_iff {p : Phase} : p.owes = true ↔ ∃ e, p = .failing e := by
  cases p <;> simp [owes]

/-- Calls that ERROR refuses. -/
def Harmless (cfg : Config) (ready : Bool) (r : List (τ × ThreadStep)) : Prop :=
  ∀ s : Sys, s.ota.state = .error → s.store.st.ready = ready →
    ∃ s', Serial cfg s r s' [] ∧ SameSys s' s

theorem Harmless.nil : Harmless cfg ready ([] : List (τ × ThreadStep)) := fun s _ _ =>
  ⟨s, .nil cfg τ s, .refl s⟩

theorem Harmless.append (h : Harmless cfg ready r) (h' : Harmless cfg ready r') :
    Harmless cfg ready (r ++ r') := by
  intro s he hready
  obtain ⟨s₁, hser, hs⟩ := h s he hready
  obtain ⟨s₂, hser', hs'⟩ := h' s₁ (by rw [hs.ota]; exact he) (by rw [hs.st]; exact hready)
  exact ⟨s₂, hser.append hser', hs'.trans hs⟩

theorem Harmless.unchecked (t : τ) (h : c.checks s = .error e) :
    Harmless cfg s.store.st.ready [(t, .call c)] := by
  intro s' _ hready
  exact ⟨s', .refused t ((checks_keepsReady hready c).trans h), .refl s'⟩

theorem shown_same (h : s'.seen = s.seen) : shown s s' = [] := if_pos h

theorem Harmless.refused (t : τ) (env : Env) (hc : c.checks s = .ok ()) (h : c.Refused cfg s) :
    Harmless cfg s.store.st.ready [(t, .call c), (t, .lock env)] := by
  intro s' he hready
  obtain ⟨e, hrun⟩ := ((h.in_error he).enter env).run
  have hser := Serial.done t ((checks_keepsReady hready c).trans hc) hrun
    (fun _ hf => by cases hf)
  rw [shown_same (SameSys.enter s' env).seen] at hser
  exact ⟨_, hser, .enter s' env⟩

/-- The call that a thread has not taken to the lock yet. -/
def pending (t : τ) : Phase → List (τ × ThreadStep)
  | .waiting c => [(t, .call c)]
  | _ => []

/-- A run in which the threads have taken the steps `f`, seen as `o`, follows a serial
run of its calls: while a call owes its error, the calls refused since come after it. -/
inductive Follows (cfg : Config) (s₀ : Sys) (f : τ → List (τ × ThreadStep))
    (o : List (OtaState × Option Errno × List CpuAct)) (w : Threads τ) : Prop
  | settled (l : List (τ × ThreadStep)) (s : Sys) (serial : Serial cfg s₀ l s o)
      (same : SameSys s w.sys) (steps : ∀ t, f t = thread t l ++ pending t (w.phase t))
      (none : ∀ t e, w.phase t ≠ .failing e)
  | owing (l r : List (τ × ThreadStep)) (t : τ) (c : OtaCall) (env : Env) (e : Errno) (s s₁ : Sys)
      (o' : List (OtaState × Option Errno × List CpuAct)) (serial : Serial cfg s₀ l s o')
      (checks : c.checks s = .ok ())
      (fails : (c.locked cfg).run (s.enter env) = (.error (.fail e), s₁))
      (same : SameSys s₁ w.sys) (shows : o = o' ++ shown s s₁) (phase : w.phase t = .failing e)
      (others : ∀ u, u ≠ t → ∀ e, w.phase u ≠ .failing e)
      (harmless : Harmless cfg w.sys.store.st.ready r) (apart : thread t r = [])
      (steps : f t = thread t l ++ [(t, .call c), (t, .lock env)])
      (rest : ∀ u, u ≠ t → f u = thread u l ++ (thread u r ++ pending u (w.phase u)))

/-- The steps taken after one more. -/
def taken (f : τ → List (τ × ThreadStep)) (x : τ × ThreadStep) : τ → List (τ × ThreadStep) :=
  Function.update f x.1 (f x.1 ++ [x])

theorem taken_self (f : τ → List (τ × ThreadStep)) (t : τ) (m : ThreadStep) :
    taken f (t, m) t = f t ++ [(t, m)] := Function.update_self ..

theorem taken_of_ne (f : τ → List (τ × ThreadStep)) (h : u ≠ t) (m : ThreadStep) :
    taken f (t, m) u = f u := Function.update_of_ne h ..

/-- What waits passed its checks. -/
def Admitted (w : Threads τ) : Prop := ∀ t c, w.phase t = .waiting c → c.checks w.sys = .ok ()

variable {f : τ → List (τ × ThreadStep)} {o : List (OtaState × Option Errno × List CpuAct)}

theorem shown_congr {a a' : Sys} (h : s.seen = a.seen) (h' : s'.seen = a'.seen) :
    shown s s' = shown a a' := by
  unfold shown
  rw [h, h']

theorem shown_self (s : Sys) : shown s s = [] := shown_same rfl

theorem Follows.call_refused (h : Follows cfg s₀ f o w) (hp : w.phase t = .outside)
    (hc : c.checks w.sys = .error e) : Follows cfg s₀ (taken f (t, .call c)) o w := by
  cases h with
  | settled l s serial same steps none =>
    have hser := serial.append (Serial.refused t ((same.checks c).trans hc))
    rw [List.append_nil] at hser
    refine .settled _ s hser same (fun u => ?_) none
    by_cases hu : u = t
    · subst hu
      rw [taken_self, steps, thread_append, thread_self, hp]
      simp only [pending, List.append_nil]
    · rw [taken_of_ne f hu, steps, thread_append, thread_other (Ne.symm hu), List.append_nil]
  | owing l r t' c' env e' s s₁ o' serial checks fails same shows phase others harmless apart steps
      rest =>
    have ht : t ≠ t' := by
      rintro rfl
      rw [phase] at hp
      cases hp
    refine .owing l (r ++ [(t, .call c)]) t' c' env e' s s₁ o' serial checks fails same shows phase
      others (harmless.append (.unchecked t hc)) ?_ ?_ fun u hu => ?_
    · rw [thread_append, apart, thread_other ht, List.append_nil]
    · rw [taken_of_ne f (Ne.symm ht), steps]
    · by_cases hut : u = t
      · subst hut
        rw [taken_self, rest u hu, thread_append, thread_self, hp]
        simp only [pending, List.append_nil, List.append_assoc]
      · rw [taken_of_ne f hut, rest u hu, thread_append, thread_other (Ne.symm hut),
            List.append_nil]

theorem Follows.call (h : Follows cfg s₀ f o w) (hp : w.phase t = .outside) :
    Follows cfg s₀ (taken f (t, .call c)) o (w.put t (.waiting c) w.sys) := by
  cases h with
  | settled l s serial same steps none =>
    refine .settled l s serial same (fun u => ?_) fun u e => ?_
    · by_cases hu : u = t
      · subst hu
        rw [taken_self, steps, hp, Threads.phase_put]
        simp only [pending, List.append_nil]
      · rw [taken_of_ne f hu, steps, Threads.phase_put_of_ne w hu]
    · by_cases hu : u = t
      · subst hu
        rw [Threads.phase_put]
        exact fun hf => by cases hf
      · rw [Threads.phase_put_of_ne w hu]
        exact none u e
  | owing l r t' c' env e' s s₁ o' serial checks fails same shows phase others harmless apart steps
      rest =>
    have ht : t ≠ t' := by
      rintro rfl
      rw [phase] at hp
      cases hp
    refine .owing l r t' c' env e' s s₁ o' serial checks fails same shows ?_ (fun u hu e => ?_)
      harmless apart ?_ fun u hu => ?_
    · rw [Threads.phase_put_of_ne w (Ne.symm ht), phase]
    · by_cases hut : u = t
      · subst hut
        rw [Threads.phase_put]
        exact fun hf => by cases hf
      · rw [Threads.phase_put_of_ne w hut]
        exact others u hu e
    · rw [taken_of_ne f (Ne.symm ht), steps]
    · by_cases hut : u = t
      · subst hut
        rw [taken_self, rest u hu, hp, Threads.phase_put]
        simp only [pending, List.append_nil, List.append_assoc]
      · rw [taken_of_ne f hut, rest u hu, Threads.phase_put_of_ne w hut]

/-- A section that ends its call. -/
theorem Follows.done (h : Follows cfg s₀ f o w) (hn : ∀ u e, w.phase u ≠ .failing e)
    (hp : w.phase t = .waiting c) (hc : c.checks w.sys = .ok ()) {x : Except Exit Unit}
    (hrun : (c.locked cfg).run (w.sys.enter env) = (x, s'))
    (hx : ∀ e, x ≠ .error (.fail e)) :
    Follows cfg s₀ (taken f (t, .lock env)) (o ++ shown w.sys s') (w.put t .outside s') := by
  cases h with
  | owing l r t' c' env' e' s s₁ o' serial checks fails same shows phase =>
    exact absurd phase (hn t' e')
  | settled l s serial same steps none =>
    have hser := serial.append
      (Serial.done t ((same.checks c).trans hc) ((congrArg _ (same env)).trans hrun) hx)
    rw [shown_congr same.seen rfl] at hser
    refine .settled _ s' hser (.refl s') (fun u => ?_) fun u e => ?_
    · by_cases hu : u = t
      · subst hu
        rw [taken_self, steps, hp, Threads.phase_put, thread_append]
        simp [pending, thread]
      · rw [taken_of_ne f hu, steps, Threads.phase_put_of_ne w hu, thread_append]
        simp [thread, Ne.symm hu]
    · by_cases hu : u = t
      · subst hu
        rw [Threads.phase_put]
        exact fun hf => by cases hf
      · rw [Threads.phase_put_of_ne w hu]
        exact none u e

/-- A section that fails. -/
theorem Follows.fails (h : Follows cfg s₀ f o w) (hn : ∀ u e, w.phase u ≠ .failing e)
    (hp : w.phase t = .waiting c) (hc : c.checks w.sys = .ok ())
    (hrun : (c.locked cfg).run (w.sys.enter env) = (.error (.fail e), s')) :
    Follows cfg s₀ (taken f (t, .lock env)) (o ++ shown w.sys s') (w.put t (.failing e) s') := by
  cases h with
  | owing l r t' c' env' e' s s₁ o' serial checks fails same shows phase =>
    exact absurd phase (hn t' e')
  | settled l s serial same steps none =>
    refine .owing l [] t c env e s s' o serial ((same.checks c).trans hc)
      ((congrArg _ (same env)).trans hrun) (.refl s') ?_ (Threads.phase_put _ _ _ _)
      (fun u hu e' => ?_) .nil rfl ?_ fun u hu => ?_
    · rw [shown_congr same.seen rfl]
    · rw [Threads.phase_put_of_ne w hu]
      exact none u e'
    · rw [taken_self, steps, hp]
      simp only [pending, List.append_assoc, List.singleton_append]
    · rw [taken_of_ne f hu, steps, Threads.phase_put_of_ne w hu]
      rfl

/-- A section that is refused while another call owes its error. -/
theorem Follows.refused (h : Follows cfg s₀ f o w) {t' : τ} (ht : w.phase t' = .failing e)
    (hp : w.phase t = .waiting c) (hc : c.checks w.sys = .ok ()) (hr : c.Refused cfg w.sys) :
    Follows cfg s₀ (taken f (t, .lock env)) o (w.put t .outside (w.sys.enter env)) := by
  cases h with
  | settled l s serial same steps none => exact absurd ht (none t' e)
  | owing l r t' c' env' e' s s₁ o' serial checks fails same shows phase others harmless apart steps
      rest =>
    have ht : t ≠ t' := by
      rintro rfl
      rw [phase] at hp
      cases hp
    refine .owing l (r ++ [(t, .call c), (t, .lock env)]) t' c' env' e' s s₁ o' serial checks fails
      (same.trans (SameSys.enter w.sys env).symm) shows ?_ (fun u hu e => ?_)
      (harmless.append (.refused t env hc hr)) ?_ ?_ fun u hu => ?_
    · rw [Threads.phase_put_of_ne w (Ne.symm ht), phase]
    · by_cases hut : u = t
      · subst hut
        rw [Threads.phase_put]
        exact fun hf => by cases hf
      · rw [Threads.phase_put_of_ne w hut]
        exact others u hu e
    · rw [thread_append, apart]
      simp [thread, ht]
    · rw [taken_of_ne f (Ne.symm ht), steps]
    · by_cases hut : u = t
      · subst hut
        rw [taken_self, rest u hu, hp, Threads.phase_put, thread_append]
        simp [pending, thread]
      · rw [taken_of_ne f hut, rest u hu, Threads.phase_put_of_ne w hut, thread_append]
        simp [thread, Ne.symm hut]

/-- The call that owes its error enters it. -/
theorem Follows.exit (h : Follows cfg s₀ f o w) (hp : w.phase t = .failing e)
    (hs : ((enterError e : SysM Unit).run (w.sys.enter env)).2 = s') :
    Follows cfg s₀ (taken f (t, .exit env)) (o ++ shown w.sys s') (w.put t .outside s') := by
  cases h with
  | settled l s serial same steps none => exact absurd hp (none t e)
  | owing l r t' c env' e' s s₁ o' serial checks fails same shows phase others harmless apart steps
      rest =>
    obtain rfl : t = t' := by
      by_contra hne
      exact others t hne e hp
    obtain rfl : e = e' := by
      rw [phase] at hp
      cases hp
      rfl
    have hexit : ((enterError e : SysM Unit).run (s₁.enter env)).2 = s' := by rw [same env, hs]
    have hready : s'.store.st.ready = w.sys.store.st.ready := by
      rw [← hs]
      exact keepsReady_enterError (ε := Errno) e (w.sys.enter env)
    obtain ⟨s₂, hr, hsame⟩ := harmless s' (hs ▸ enterError_state e _) hready
    have hser := (serial.append (Serial.fails t checks fails hexit)).append hr
    have hshown : o ++ shown w.sys s' = o' ++ (shown s s₁ ++ shown s₁ s') := by
      rw [shows, List.append_assoc, shown_congr same.seen rfl]
    rw [List.append_nil] at hser
    rw [hshown]
    refine .settled _ s₂ hser hsame (fun u => ?_) fun u e => ?_
    · by_cases hu : u = t
      · subst hu
        rw [taken_self, steps, Threads.phase_put, thread_append, apart]
        simp [pending, thread]
      · rw [taken_of_ne f hu, rest u hu, Threads.phase_put_of_ne w hu, thread_append]
        simp [thread, Ne.symm hu]
    · by_cases hu : u = t
      · subst hu
        rw [Threads.phase_put]
        exact fun hf => by cases hf
      · rw [Threads.phase_put_of_ne w hu]
        exact others u hu e

-- ---------------------------------------------------------------------------
-- Runs
-- ---------------------------------------------------------------------------

theorem Admitted.put (h : Admitted w) {p : Phase} (hk : KeepsReady w.sys s')
    (hp : ∀ c, p = .waiting c → c.checks w.sys = .ok ()) : Admitted (w.put t p s') := by
  intro u c hu
  refine (checks_keepsReady hk c).trans ?_
  by_cases hut : u = t
  · subst hut
    rw [Threads.phase_put] at hu
    exact hp c hu
  · rw [Threads.phase_put_of_ne w hut] at hu
    exact h u c hu

/-- A step that meets the guard keeps the run behind a serial one. -/
theorem Follows.step {x : τ × ThreadStep} (h : Follows cfg s₀ f o w) (ha : Admitted w)
    (he : w.Enabled x) (hg : w.Guarded cfg x) :
    Follows cfg s₀ (taken f x) (o ++ shown w.sys (w.step cfg x).sys) (w.step cfg x) ∧
      Admitted (w.step cfg x) := by
  obtain ⟨t, m⟩ := x
  unfold Threads.Enabled at he
  unfold Threads.Guarded at hg
  dsimp only at he hg
  generalize hp : w.phase t = p at he hg
  cases m with
  | call c =>
    cases p with
    | waiting | failing => exact he.elim
    | outside =>
      cases hc : c.checks w.sys with
      | error e =>
        rw [Threads.step_call_refused hp hc, shown_self, List.append_nil]
        exact ⟨h.call_refused hp hc, ha⟩
      | ok u =>
        rw [Threads.step_call hp hc, show shown w.sys (w.put t (.waiting c) w.sys).sys = [] from
          shown_self _, List.append_nil]
        refine ⟨h.call hp, ha.put rfl ?_⟩
        rintro _ ⟨⟩
        exact hc
  | lock env =>
    cases p with
    | outside | failing => exact he.elim
    | waiting c =>
      have hc := ha t c hp
      have hk : ∀ {x s'}, (c.locked cfg).run (w.sys.enter env) = (x, s') →
          KeepsReady w.sys s' := by
        intro x s' hrun
        have h' : KeepsReady (w.sys.enter env) ((c.locked cfg).run (w.sys.enter env)).2 :=
          keepsReady_locked c _
        rw [hrun] at h'
        exact h'
      by_cases hn : ∃ t, (w.phase t).owes = true
      · have hr := hg hn
        obtain ⟨t', ht⟩ := hn
        obtain ⟨e, ht⟩ := Phase.owes_iff.mp ht
        obtain ⟨e', hrun⟩ := (hr.enter env).run
        rw [Threads.step_done hp hrun (fun _ hf => by cases hf),
          show shown w.sys (w.put t .outside (w.sys.enter env)).sys = [] from
            shown_same (SameSys.enter w.sys env).seen, List.append_nil]
        exact ⟨h.refused ht hp hc hr, ha.put (hk hrun) fun _ hf => by cases hf⟩
      · have hnone : ∀ u e, w.phase u ≠ .failing e := fun u e hu =>
          hn ⟨u, Phase.owes_iff.mpr ⟨e, hu⟩⟩
        obtain ⟨x, s', hrun⟩ : ∃ x s', (c.locked cfg).run (w.sys.enter env) = (x, s') := ⟨_, _, rfl⟩
        by_cases hx : ∃ e, x = .error (.fail e)
        · obtain ⟨e, rfl⟩ := hx
          rw [Threads.step_fails hp hrun]
          exact ⟨h.fails hnone hp hc hrun, ha.put (hk hrun) fun _ hf => by cases hf⟩
        · rw [Threads.step_done hp hrun fun e hf => hx ⟨e, hf⟩]
          exact ⟨h.done hnone hp hc hrun fun e hf => hx ⟨e, hf⟩,
            ha.put (hk hrun) fun _ hf => by cases hf⟩
  | exit env =>
    cases p with
    | outside | waiting => exact he.elim
    | failing e =>
      rw [Threads.step_exit hp]
      exact ⟨h.exit hp rfl, ha.put (keepsReady_enterError (ε := Errno) e (w.sys.enter env))
        fun _ hf => by cases hf⟩

theorem Follows.run {l : List (τ × ThreadStep)} (h : Follows cfg s₀ f o w) (ha : Admitted w)
    (hl : Along (Threads.step cfg) (fun w x => w.Enabled x ∧ w.Guarded cfg x) w l) :
    Follows cfg s₀ (fun t => f t ++ thread t l) (o ++ observations cfg w l)
      (run (Threads.step cfg) w l) := by
  induction l generalizing w f o with
  | nil => simpa [thread, observations] using h
  | cons x l ih =>
    cases hl with
    | cons hx hl =>
      obtain ⟨h', ha'⟩ := h.step ha hx.1 hx.2
      have hfinal := ih h' ha' hl
      have hf : (fun t => taken f x t ++ thread t l) = fun t => f t ++ thread t (x :: l) := by
        funext t
        obtain ⟨u, m⟩ := x
        by_cases ht : t = u
        · subst ht
          rw [taken_self]
          simp [thread]
        · rw [taken_of_ne f ht]
          simp [thread, Ne.symm ht]
      rw [hf, List.append_assoc] at hfinal
      exact hfinal

/-- Where a call that takes the lock while another owes its error is refused, a run
shows what a serial run of its calls shows; the calls that are not through at its end
are left out. -/
theorem calls_serial (cfg : Config) (s : Sys) {l : List (τ × ThreadStep)}
    (hl : Along (Threads.step cfg) (fun w x => w.Enabled x ∧ w.Guarded cfg x)
      (Threads.start τ s) l) :
    ∃ l', Along (Threads.step cfg) Threads.Alone (Threads.start τ s) l' ∧
      (∀ t, thread t l' <+: thread t l) ∧
      observations cfg (Threads.start τ s) l' = observations cfg (Threads.start τ s) l ∧
      ((∀ t, (run (Threads.step cfg) (Threads.start τ s) l).phase t = .outside) →
        (∀ t, thread t l' = thread t l) ∧
        SameSys (run (Threads.step cfg) (Threads.start τ s) l').sys
          (run (Threads.step cfg) (Threads.start τ s) l).sys) := by
  have h₀ : Follows cfg s (fun _ : τ => []) [] (Threads.start τ s) :=
    .settled [] s (.nil cfg τ s) (.refl s) (fun _ => rfl) fun _ _ hf => by cases hf
  have h := h₀.run (fun _ _ hf => by cases hf) hl
  cases h with
  | settled l' s' serial same steps none =>
    refine ⟨l', serial.alone, fun t => ⟨_, (steps t).symm⟩, serial.shows,
      fun hend => ⟨fun t => ?_, ?_⟩⟩
    · have ht := steps t
      rw [hend t] at ht
      exact (ht.trans (List.append_nil _)).symm
    · rw [serial.ends]
      exact same
  | owing l' r t c env e s₁ s₂ o' serial checks fails same shows phase others harmless apart steps
      rest =>
    obtain ⟨halone, -, hshows⟩ := Threads.call_fails t checks fails
    refine ⟨l' ++ [(t, .call c), (t, .lock env)], serial.alone.append ?_, fun u => ?_, ?_,
      fun hend => ?_⟩
    · rw [serial.ends]
      exact halone
    · by_cases hu : u = t
      · subst hu
        refine ⟨[], ?_⟩
        rw [List.append_nil, thread_append]
        exact (congrArg _ (by simp [thread])).trans steps.symm
      · have hsame : thread u (l' ++ [(t, .call c), (t, .lock env)]) = thread u l' := by
          simp [thread, Ne.symm hu]
        rw [hsame]
        exact ⟨_, (rest u hu).symm⟩
    · rw [observations_append, serial.ends, serial.shows, hshows]
      exact shows.symm
    · rw [hend t] at phase
      cases phase

end

-- ---------------------------------------------------------------------------
-- A session under an error
-- ---------------------------------------------------------------------------

/-- Two cores that obey. -/
def dual : Env := ⟨[], fun _ => false, [], fun _ => 0, true, true, true, true⟩

/-- A session for 65 bytes. -/
def session65 : Sys :=
  run (sysStep smallDevice) (Sys.cold erasedMem) [(quiet, .boot), (dual, .otaBegin [65] 65)]

def oversize : OtaCall := .writeChunk (List.replicate 66 0)

/-- A chunk past the end of the session; a call that is refused comes in between. -/
def refusedCalls : List (Bool × ThreadStep) :=
  [(true, .call oversize), (true, .lock dual), (false, .call (.begin [66] 300)),
    (false, .lock dual), (true, .exit dual)]

theorem calls_serial_refused : ∃ l',
    Along (Threads.step smallDevice) Threads.Alone (Threads.start Bool session65) l' ∧
      (∀ t, thread t l' <+: thread t refusedCalls) ∧
      observations smallDevice (Threads.start Bool session65) l' =
        observations smallDevice (Threads.start Bool session65) refusedCalls ∧
      ((∀ t, (run (Threads.step smallDevice) (Threads.start Bool session65) refusedCalls).phase t =
          .outside) →
        (∀ t, thread t l' = thread t refusedCalls) ∧
        SameSys (run (Threads.step smallDevice) (Threads.start Bool session65) l').sys
          (run (Threads.step smallDevice) (Threads.start Bool session65) refusedCalls).sys) :=
  calls_serial smallDevice session65 (by decide +kernel)

/-- A chunk past the end of the session; the next session begins in between. -/
def clash : List (Bool × ThreadStep) :=
  [(true, .call oversize), (true, .lock dual), (false, .call (.begin [66] 128)),
    (false, .lock dual), (true, .exit dual)]

theorem clash_enabled : Along (Threads.step smallDevice) Threads.Enabled
    (Threads.start Bool session65) clash := by decide +kernel

theorem clash_ends (t : Bool) :
    (run (Threads.step smallDevice) (Threads.start Bool session65) clash).phase t = .outside := by
  cases t <;> decide +kernel

theorem alone_tail [DecidableEq τ] {w : Threads τ} {x : τ × ThreadStep} {l : List (τ × ThreadStep)}
    (h : Along (Threads.step cfg) Threads.Alone w (x :: l)) :
    Along (Threads.step cfg) Threads.Alone (w.step cfg x) l := by
  cases h with
  | cons _ t => exact t

/-- The thread of the call under way goes on. -/
theorem alone_next [DecidableEq τ] {w : Threads τ} {l k : List (τ × ThreadStep)}
    {x : τ × ThreadStep} {t : τ}
    (h : Along (Threads.step cfg) Threads.Alone w l) (hp : w.phase t ≠ .outside)
    (hl : thread t l = x :: k) :
    ∃ l', l = x :: l' ∧ thread t l' = k ∧
      Along (Threads.step cfg) Threads.Alone (w.step cfg x) l' := by
  cases h with
  | nil => cases hl
  | cons hy hrest =>
    rename_i y l'
    have hy : y.1 = t := by
      by_contra hne
      exact hp (hy.2 t (Ne.symm hne))
    have hhead : thread t (y :: l') = y :: thread t l' := by simp [thread, hy]
    rw [hhead] at hl
    cases hl
    exact ⟨l', rfl, rfl, hrest⟩

theorem rest_thread {l : List (Bool × ThreadStep)} {t : Bool} (h : thread t l = []) :
    thread (!t) l = l := by
  unfold thread at h ⊢
  rw [List.filter_eq_nil_iff] at h
  refine List.filter_eq_self.mpr fun x hx => ?_
  have hne := h x hx
  cases t <;> cases hx' : x.1 <;> simp_all

/-- The session that begins in between is put in ERROR by the call before it, as no order
of the two calls does. -/
theorem calls_clash : ¬∀ (cfg : Config) (s : Sys) (l : List (Bool × ThreadStep)),
    Along (Threads.step cfg) Threads.Enabled (Threads.start Bool s) l →
    (∀ t, (run (Threads.step cfg) (Threads.start Bool s) l).phase t = .outside) →
    ∃ l', Along (Threads.step cfg) Threads.Alone (Threads.start Bool s) l' ∧
      (∀ t, thread t l' = thread t l) ∧
      observations cfg (Threads.start Bool s) l' = observations cfg (Threads.start Bool s) l := by
  intro h
  obtain ⟨l, ha, hl, ho⟩ := h smallDevice session65 clash clash_enabled clash_ends
  have htrue : thread true l = [(true, .call oversize), (true, .lock dual), (true, .exit dual)] :=
    hl true
  have hfalse : thread false l = [(false, .call (.begin [66] 128)), (false, .lock dual)] := hl false
  cases l with
  | nil => cases htrue
  | cons x k =>
    replace ha := alone_tail ha
    cases hx₁ : x.1 with
    | true =>
      have hhead : thread true (x :: k) = x :: thread true k := by simp [thread, hx₁]
      have hother : thread false (x :: k) = thread false k := by simp [thread, hx₁]
      rw [hhead] at htrue
      rw [hother] at hfalse
      injection htrue with hx htrue
      subst hx
      obtain ⟨k, rfl, htrue, ha⟩ := alone_next (t := true) ha (by decide +kernel) htrue
      obtain ⟨k, rfl, hk, -⟩ := alone_next (t := true) ha (by decide +kernel) htrue
      have hrest : k = [(false, .call (.begin [66] 128)), (false, .lock dual)] :=
        (rest_thread hk).symm.trans hfalse
      subst hrest
      exact absurd ho (by decide +kernel)
    | false =>
      have hhead : thread false (x :: k) = x :: thread false k := by simp [thread, hx₁]
      have hother : thread true (x :: k) = thread true k := by simp [thread, hx₁]
      rw [hhead] at hfalse
      rw [hother] at htrue
      injection hfalse with hx hfalse
      subst hx
      obtain ⟨k, rfl, hk, -⟩ := alone_next (t := false) ha (by decide +kernel) hfalse
      have hrest : k = [(true, .call oversize), (true, .lock dual), (true, .exit dual)] :=
        (rest_thread hk).symm.trans htrue
      subst hrest
      exact absurd ho (by decide +kernel)

end SynapticOS
