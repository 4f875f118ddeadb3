import SynapticOS.Lib.Run

/-!
# The drain gate

One worker enters and leaves the gate, one controller closes it, waits for the
worker and opens it again. A step is a section under the gate's lock, or an
access to its semaphore. Which wait runs out, and when, is up to the schedule.

Drains are numbered. A token carries the number of the last drain that had
begun when the worker left the gate.
-/

namespace SynapticOS.Remote.DrainGate

open Lib

/-- Zero or a negative errno. -/
abbrev Ret := Int

def etimedout : Ret := -116

structure Gate where
  paused : Bool
  busy : Bool
  /-- The semaphore, which holds at most one token. -/
  idle : Option Nat
  deriving DecidableEq, Repr

inductive Worker
  | outside
  | inside
  /-- Out of the gate, with the lock released; `notify` is what it saw. -/
  | leaving (notify : Option Nat)
  deriving DecidableEq, Repr

inductive Controller
  | idle
  /-- Drain `n` waits for the token. -/
  | waiting (n : Nat)
  deriving DecidableEq, Repr

structure State where
  gate : Gate
  worker : Worker
  controller : Controller
  drains : Nat
  deriving DecidableEq, Repr

def init : State := ⟨⟨false, false, none⟩, .outside, .idle, 0⟩

inductive Op
  | enter
  | exitLock
  | exitGive
  | drain
  | take
  | timeout
  | resume
  deriving DecidableEq, Repr

/-- What a call returns. -/
inductive Event
  | entered (admitted : Bool)
  | drained (ret : Ret)
  deriving DecidableEq, Repr

variable {s s' : State} {o : Op} {l l' : List Op}

-- ---------------------------------------------------------------------------
-- The calls
-- ---------------------------------------------------------------------------

def enter (s : State) : State × Option Event :=
  match s.worker with
  | .outside =>
    if s.gate.paused then (s, some (.entered false))
    else ({ s with gate := { s.gate with busy := true }, worker := .inside }, some (.entered true))
  | _ => (s, none)

def exitLock (s : State) : State × Option Event :=
  match s.worker with
  | .inside =>
    ({ s with
      gate := { s.gate with busy := false }
      worker := .leaving (if s.gate.paused then some s.drains else none) }, none)
  | _ => (s, none)

def exitGive (s : State) : State × Option Event :=
  match s.worker with
  | .leaving none => ({ s with worker := .outside }, none)
  | .leaving (some n) =>
    -- a token that is there already stays
    ({ s with gate := { s.gate with idle := s.gate.idle.or (some n) }, worker := .outside }, none)
  | _ => (s, none)

def drain (s : State) : State × Option Event :=
  match s.controller with
  | .idle =>
    let s' := { s with gate := { s.gate with paused := true, idle := none }, drains := s.drains + 1 }
    if s.gate.busy then ({ s' with controller := .waiting (s.drains + 1) }, none)
    else (s', some (.drained 0))
  | .waiting _ => (s, none)

def take (s : State) : State × Option Event :=
  match s.controller, s.gate.idle with
  | .waiting _, some _ =>
    ({ s with gate := { s.gate with idle := none }, controller := .idle }, some (.drained 0))
  | _, _ => (s, none)

def timeout (s : State) : State × Option Event :=
  match s.controller with
  | .waiting _ => ({ s with controller := .idle }, some (.drained etimedout))
  | .idle => (s, none)

def resume (s : State) : State × Option Event :=
  match s.controller with
  | .idle => ({ s with gate := { s.gate with paused := false } }, none)
  | .waiting _ => (s, none)

def act (s : State) : Op → State × Option Event
  | .enter => enter s
  | .exitLock => exitLock s
  | .exitGive => exitGive s
  | .drain => drain s
  | .take => take s
  | .timeout => timeout s
  | .resume => resume s

def step (s : State) (o : Op) : State := (act s o).1

-- ---------------------------------------------------------------------------
-- The invariant
-- ---------------------------------------------------------------------------

/-- The worker has not left the gate since drain `n` began, or it left it then. -/
structure Awaited (s : State) (n : Nat) : Prop where
  paused : s.gate.paused = true
  last : n = s.drains
  token : ∀ k, s.gate.idle = some k → k = n ∧ s.worker = .outside
  leaving : ∀ x, s.worker = .leaving x → x = some n

structure Ok (s : State) : Prop where
  busy : s.gate.busy = true ↔ s.worker = .inside
  waiting : ∀ n, s.controller = .waiting n → Awaited s n

theorem ok_init : Ok init := ⟨by decide, fun n h => nomatch h⟩

theorem ok_enter (h : Ok s) : Ok (enter s).1 := by
  unfold enter
  split
  · rename_i hw
    split
    · exact h
    · rename_i hp
      refine ⟨⟨fun _ => rfl, fun _ => rfl⟩, fun n hn => ?_⟩
      exact absurd (h.waiting n hn).paused hp
  · exact h

theorem ok_exitLock (h : Ok s) : Ok (exitLock s).1 := by
  unfold exitLock
  split
  · rename_i hw
    refine ⟨⟨fun hb => (nomatch hb), fun hi => (nomatch hi)⟩, fun n hn => ?_⟩
    have ha := h.waiting n hn
    refine ⟨ha.paused, ha.last, fun k hk => ?_, fun x hx => ?_⟩
    · -- a token means that the worker had left already
      have := (ha.token k hk).2
      rw [hw] at this
      cases this
    · cases hx
      rw [if_pos ha.paused, ha.last]
  · exact h

theorem ok_exitGive (h : Ok s) : Ok (exitGive s).1 := by
  unfold exitGive
  split
  · rename_i hw
    refine ⟨⟨fun hb => ?_, fun hi => (nomatch hi)⟩, fun n hn => ?_⟩
    · have := h.busy.mp hb
      rw [hw] at this
      cases this
    · have := (h.waiting n hn).leaving _ hw
      cases this
  · rename_i m hw
    refine ⟨⟨fun hb => ?_, fun hi => (nomatch hi)⟩, fun n hn => ?_⟩
    · have := h.busy.mp hb
      rw [hw] at this
      cases this
    · have ha := h.waiting n hn
      have hm := ha.leaving _ hw
      refine ⟨ha.paused, ha.last, fun k hk => ⟨?_, rfl⟩, fun x hx => (nomatch hx)⟩
      cases hi : s.gate.idle with
      | none =>
        rw [hi] at hk
        exact Option.some.inj (hk.symm.trans hm)
      | some j =>
        have := (ha.token j hi).2
        rw [hw] at this
        cases this
  · exact h

theorem ok_drain (h : Ok s) : Ok (drain s).1 := by
  unfold drain
  split
  · rename_i hc
    dsimp only
    split
    · rename_i hb
      refine ⟨h.busy, fun n hn => ?_⟩
      cases hn
      refine ⟨rfl, rfl, fun k hk => (nomatch hk), fun x hx => ?_⟩
      have := h.busy.mp hb
      rw [show s.worker = .leaving x from hx] at this
      cases this
    · exact ⟨h.busy, fun n hn => nomatch hc.symm.trans hn⟩
  · exact h

theorem ok_take (h : Ok s) : Ok (take s).1 := by
  unfold take
  split
  · exact ⟨h.busy, fun n hn => nomatch hn⟩
  · exact h

theorem ok_timeout (h : Ok s) : Ok (timeout s).1 := by
  unfold timeout
  split
  · exact ⟨h.busy, fun n hn => nomatch hn⟩
  · exact h

theorem ok_resume (h : Ok s) : Ok (resume s).1 := by
  unfold resume
  split
  · rename_i hc
    exact ⟨h.busy, fun n hn => nomatch hc.symm.trans hn⟩
  · exact h

theorem ok_step (s : State) (o : Op) (h : Ok s) : Ok (step s o) := by
  cases o with
  | enter => exact ok_enter h
  | exitLock => exact ok_exitLock h
  | exitGive => exact ok_exitGive h
  | drain => exact ok_drain h
  | take => exact ok_take h
  | timeout => exact ok_timeout h
  | resume => exact ok_resume h

theorem ok_run (l : List Op) : Ok (run step init l) := run_invariant l ok_init ok_step

-- ---------------------------------------------------------------------------
-- Closed and open
-- ---------------------------------------------------------------------------

/-- The gate is closed and the worker is out of it. -/
structure Closed (s : State) : Prop where
  paused : s.gate.paused = true
  outside : s.worker ≠ .inside

/-- A drain that returns zero leaves the gate closed. -/
theorem Ok.closed (h : Ok s) (hd : (act s o).2 = some (.drained 0)) : Closed (step s o) := by
  have hout : s.gate.busy = false → s.worker ≠ .inside := fun hb hi => by
    rw [h.busy.mpr hi] at hb
    cases hb
  cases o with
  | drain =>
    change (drain s).2 = _ at hd
    show Closed (drain s).1
    unfold drain at hd ⊢
    split at hd
    · dsimp only at hd ⊢
      split at hd
      · cases hd
      · rename_i hb
        rw [if_neg hb]
        exact ⟨rfl, hout (by simpa using hb)⟩
    · cases hd
  | take =>
    change (take s).2 = _ at hd
    show Closed (take s).1
    unfold take at hd ⊢
    split at hd
    · rename_i n k hc hi
      have ha := h.waiting n hc
      refine ⟨ha.paused, ?_⟩
      show s.worker ≠ .inside
      rw [(ha.token k hi).2]
      exact Worker.noConfusion
    · cases hd
  | enter =>
    change (enter s).2 = _ at hd
    unfold enter at hd
    split at hd
    · split at hd <;> cases hd
    · cases hd
  | exitLock => change (exitLock s).2 = _ at hd; unfold exitLock at hd; split at hd <;> cases hd
  | exitGive => change (exitGive s).2 = _ at hd; unfold exitGive at hd; split at hd <;> cases hd
  | timeout => change (timeout s).2 = _ at hd; unfold timeout at hd; split at hd <;> cases hd
  | resume => change (resume s).2 = _ at hd; unfold resume at hd; split at hd <;> cases hd

theorem Closed.step (h : Closed s) (ho : o ≠ .resume) : Closed (step s o) := by
  cases o with
  | enter =>
    show Closed (enter s).1
    unfold enter
    split
    · rw [if_pos h.paused]
      exact h
    · exact h
  | exitLock =>
    show Closed (exitLock s).1
    unfold exitLock
    split
    · exact ⟨h.paused, Worker.noConfusion⟩
    · exact h
  | exitGive =>
    show Closed (exitGive s).1
    unfold exitGive
    split
    · exact ⟨h.paused, Worker.noConfusion⟩
    · exact ⟨h.paused, Worker.noConfusion⟩
    · exact h
  | drain =>
    show Closed (drain s).1
    unfold drain
    split
    · dsimp only
      split <;> exact ⟨rfl, h.outside⟩
    · exact h
  | take =>
    show Closed (take s).1
    unfold take
    split <;> exact ⟨h.paused, h.outside⟩
  | timeout =>
    show Closed (timeout s).1
    unfold timeout
    split <;> exact ⟨h.paused, h.outside⟩
  | resume => exact absurd rfl ho

theorem Closed.run (h : Closed s) (hl : ∀ o ∈ l, o ≠ .resume) :
    Closed (Lib.run DrainGate.step s l) := by
  induction l generalizing s with
  | nil => exact h
  | cons o l ih =>
    exact ih (h.step (hl o (.head _))) fun x hx => hl x (.tail _ hx)

/-- Nobody is let in at a closed gate. -/
theorem Closed.refuses (h : Closed s) (o : Op) : (act s o).2 ≠ some (.entered true) := by
  intro he
  cases o with
  | enter =>
    change (enter s).2 = _ at he
    unfold enter at he
    split at he
    · rw [if_pos h.paused] at he
      cases he
    · cases he
  | exitLock => change (exitLock s).2 = _ at he; unfold exitLock at he; split at he <;> cases he
  | exitGive => change (exitGive s).2 = _ at he; unfold exitGive at he; split at he <;> cases he
  | drain =>
    change (drain s).2 = _ at he
    unfold drain at he
    split at he
    · dsimp only at he
      split at he <;> cases he
    · cases he
  | take => change (take s).2 = _ at he; unfold take at he; split at he <;> cases he
  | timeout => change (timeout s).2 = _ at he; unfold timeout at he; split at he <;> cases he
  | resume => change (resume s).2 = _ at he; unfold resume at he; split at he <;> cases he

/-- Only a drain closes the gate. -/
theorem open_run (h : s.gate.paused = false) (hl : ∀ o ∈ l, o ≠ .drain) :
    (run step s l).gate.paused = false := by
  induction l generalizing s with
  | nil => exact h
  | cons o l ih =>
    refine ih ?_ fun x hx => hl x (.tail _ hx)
    cases o with
    | enter =>
      show (enter s).1.gate.paused = false
      unfold enter
      split
      · split <;> exact h
      · exact h
    | exitLock =>
      show (exitLock s).1.gate.paused = false
      unfold exitLock
      split <;> exact h
    | exitGive =>
      show (exitGive s).1.gate.paused = false
      unfold exitGive
      split <;> exact h
    | drain => exact absurd rfl (hl _ (.head _))
    | take =>
      show (take s).1.gate.paused = false
      unfold take
      split <;> exact h
    | timeout =>
      show (timeout s).1.gate.paused = false
      unfold timeout
      split <;> exact h
    | resume =>
      show (resume s).1.gate.paused = false
      unfold resume
      split
      · rfl
      · exact h

-- ---------------------------------------------------------------------------
-- The contract
-- ---------------------------------------------------------------------------

/-- What the gate promises in the state `s` of a run. -/
structure Contract (s : State) : Prop where
  /-- From a drain that returns zero to the next resume, the worker is out. -/
  drained : ∀ o l, (act s o).2 = some (.drained 0) → (∀ x ∈ l, x ≠ .resume) →
    (run step (step s o) l).worker ≠ .inside ∧
      ∀ x, (act (run step (step s o) l) x).2 ≠ some (.entered true)
  /-- The token that a drain takes was given in this drain. -/
  token : ∀ n k, s.controller = .waiting n → s.gate.idle = some k → k = n
  /-- From a resume to the next drain, the worker is let in. -/
  resumed : ∀ l, s.controller = .idle → (∀ x ∈ l, x ≠ .drain) →
    (run step (step s .resume) l).worker = .outside →
    (act (run step (step s .resume) l) .enter).2 = some (.entered true)

theorem drain_gate (l : List Op) : Contract (run step init l) where
  drained o l' hd hl := by
    have hc := ((ok_run l).closed hd).run hl
    exact ⟨hc.outside, hc.refuses⟩
  token n k hc hi := (((ok_run l).waiting n hc).token k hi).1
  resumed l' hc hl hw := by
    have hp : (step (run step init l) .resume).gate.paused = false := by
      show (resume (run step init l)).1.gate.paused = false
      unfold resume
      rw [hc]
    show (enter _).2 = _
    unfold enter
    rw [hw]
    simp [open_run hp hl]

/-- A late token of a drain that timed out does not end the next one. -/
example : (run step init [.enter, .drain, .exitLock, .timeout, .resume, .exitGive, .enter, .drain,
    .take]).controller = .waiting 2 := by decide

end SynapticOS.Remote.DrainGate
