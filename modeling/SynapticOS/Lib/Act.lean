import Mathlib.Order.Defs.Unbundled

/-!
# Stateful computations that may fail

`Act σ ε α` runs on a state `σ` and ends with a value or an error; the state
survives an error, as it does in code that returns an error number. `Triple`
is its Hoare logic from a given start state, with one postcondition for each
ending. `Respects` is the frame part of a specification: what a computation
does to the state, whatever it returns, stays inside a preorder.
-/

namespace Lib

def Act (σ ε α : Type) : Type := σ → Except ε α × σ

namespace Act

def run (x : Act σ ε α) (s : σ) : Except ε α × σ := x s

instance : Monad (Act σ ε) where
  pure a := fun s => (.ok a, s)
  bind x f := fun s =>
    match x s with
    | (.ok a, s') => f a s'
    | (.error e, s') => (.error e, s')

def get : Act σ ε σ := fun s => (.ok s, s)

def gets (f : σ → α) : Act σ ε α := fun s => (.ok (f s), s)

def modify (f : σ → σ) : Act σ ε Unit := fun s => (.ok (), f s)

def throw (e : ε) : Act σ ε α := fun s => (.error e, s)

/-- Run `x` and hand its result back as a value: a checked return code. -/
def attempt (x : Act σ ε α) : Act σ δ (Except ε α) := fun s => (.ok (x s).1, (x s).2)

/-- Translate the error. -/
def mapError (f : ε → δ) (x : Act σ ε α) : Act σ δ α := fun s => ((x s).1.mapError f, (x s).2)

/-- Run `x` on a part of the state. -/
def zoom (get : σ → τ) (set : τ → σ → σ) (x : Act τ ε α) : Act σ ε α := fun s =>
  ((x (get s)).1, set (x (get s)).2 s)

/-- A loop that walks `[0, total)` in steps of at most `step`, from `pos`;
`fuel` bounds the rounds. -/
def chunks (step total : Nat) (body : Nat → Nat → α → Act σ ε α) : Nat → Nat → α → Act σ ε α
  | 0, _, a => pure a
  | fuel + 1, pos, a =>
    if pos < total then do
      let n := min step (total - pos)
      let b ← body pos n a
      chunks step total body fuel (pos + n) b
    else pure a

section
variable {σ τ ε δ α β : Type} {s : σ} {x : Act σ ε α} {f : α → Act σ ε β}

theorem run_bind : (x >>= f).run s = match x.run s with
    | (.ok a, s') => (f a).run s'
    | (.error e, s') => (.error e, s') := rfl

@[simp] theorem run_get : (get : Act σ ε σ).run s = (.ok s, s) := rfl
@[simp] theorem run_gets (g : σ → α) : (gets g : Act σ ε α).run s = (.ok (g s), s) := rfl
@[simp] theorem run_modify (g : σ → σ) : (modify g : Act σ ε Unit).run s = (.ok (), g s) := rfl
@[simp] theorem run_throw (e : ε) : (throw e : Act σ ε α).run s = (.error e, s) := rfl
@[simp] theorem run_attempt :
    (attempt x : Act σ δ (Except ε α)).run s = (.ok (x.run s).1, (x.run s).2) := rfl

@[simp] theorem run_mapError (g : ε → δ) :
    (mapError g x).run s = ((x.run s).1.mapError g, (x.run s).2) := rfl

@[simp] theorem run_zoom (get : σ → τ) (set : τ → σ → σ) (y : Act τ ε α) :
    (zoom get set y).run s = ((y.run (get s)).1, set (y.run (get s)).2 s) := rfl

theorem run_bind_ok (h : x.run s = (.ok a, s')) : (x >>= f).run s = (f a).run s' := by
  rw [run_bind, h]

theorem run_bind_error (h : x.run s = (.error e, s')) : (x >>= f).run s = (.error e, s') := by
  rw [run_bind, h]

theorem run_ite {c : Prop} [Decidable c] {y : Act σ ε α} :
    (if c then x else y).run s = if c then x.run s else y.run s := by
  split <;> rfl

end

end Act

-- ---------------------------------------------------------------------------
-- Hoare triples
-- ---------------------------------------------------------------------------

/-- From `s`, `x` ends well with `Q` or with an error and `E`. -/
def Triple (x : Act σ ε α) (s : σ) (Q : α → σ → Prop) (E : ε → σ → Prop) : Prop :=
  match x.run s with
  | (.ok a, s') => Q a s'
  | (.error e, s') => E e s'

namespace Triple

variable {σ τ ε δ α β : Type} {s s' : σ} {x : Act σ ε α} {f : α → Act σ ε β}
variable {Q Q' : α → σ → Prop} {R : β → σ → Prop} {E E' : ε → σ → Prop}

theorem of_run (h : x.run s = (.ok a, s')) (hq : Q a s') : Triple x s Q E := by
  unfold Triple; rw [h]; exact hq

theorem of_run_error (h : x.run s = (.error e, s')) (he : E e s') : Triple x s Q E := by
  unfold Triple; rw [h]; exact he

theorem ok (h : Triple x s Q E) (hr : x.run s = (.ok a, s')) : Q a s' := by
  unfold Triple at h; rw [hr] at h; exact h

theorem error (h : Triple x s Q E) (hr : x.run s = (.error e, s')) : E e s' := by
  unfold Triple at h; rw [hr] at h; exact h

theorem mono (h : Triple x s Q E) (hq : ∀ a s', Q a s' → Q' a s')
    (he : ∀ e s', E e s' → E' e s') : Triple x s Q' E' := by
  unfold Triple at h ⊢
  split at h
  · exact hq _ _ h
  · exact he _ _ h

theorem and (h : Triple x s Q E) (h' : Triple x s Q' E') :
    Triple x s (fun a t => Q a t ∧ Q' a t) (fun e t => E e t ∧ E' e t) := by
  unfold Triple at h h' ⊢
  split <;> rename_i hr <;> rw [hr] at h h' <;> exact ⟨h, h'⟩

theorem pure' (h : Q a s) : Triple (pure a : Act σ ε α) s Q E := h

theorem throw (h : E e s) : Triple (Act.throw e : Act σ ε α) s Q E := h

theorem get {Q : σ → σ → Prop} (h : Q s s) : Triple (Act.get : Act σ ε σ) s Q E := h

theorem modify {Q : Unit → σ → Prop} {g : σ → σ} (h : Q () (g s)) :
    Triple (Act.modify g : Act σ ε Unit) s Q E := h

theorem bind (hx : Triple x s Q E) (hf : ∀ a s', Q a s' → Triple (f a) s' R E) :
    Triple (x >>= f) s R E := by
  unfold Triple at hx ⊢
  rw [Act.run_bind]
  split at hx
  · exact hf _ _ hx
  · exact hx

theorem get_bind {f : σ → Act σ ε β} (h : Triple (f s) s R E) : Triple (Act.get >>= f) s R E := h

theorem gets_bind {g : σ → α} (h : Triple (f (g s)) s R E) : Triple (Act.gets g >>= f) s R E := h

theorem modify_bind {g : σ → σ} {f : Unit → Act σ ε β} (h : Triple (f ()) (g s) R E) :
    Triple (Act.modify g >>= f) s R E := h

/-- A checked return code: both endings of `x` continue. -/
theorem attempt {E : δ → σ → Prop} {Q : Except ε α → σ → Prop}
    (h : Triple x s (fun a => Q (.ok a)) (fun e => Q (.error e))) :
    Triple (Act.attempt x : Act σ δ (Except ε α)) s Q E := by
  have hr : (Act.attempt x : Act σ δ (Except ε α)).run s = (.ok (x.run s).1, (x.run s).2) := rfl
  refine of_run hr ?_
  unfold Triple at h
  split at h
  next a s' hx => rw [hx]; exact h
  next e s' hx => rw [hx]; exact h

theorem attempt_bind {E' : δ → σ → Prop} {f : Except ε α → Act σ δ β} {R : β → σ → Prop}
    (hx : Triple x s Q E) (hok : ∀ a s', Q a s' → Triple (f (.ok a)) s' R E')
    (herr : ∀ e s', E e s' → Triple (f (.error e)) s' R E') :
    Triple (Act.attempt x >>= f) s R E' := by
  refine bind (attempt (Q := fun r s' => match r with
    | .ok a => Q a s'
    | .error e => E e s') hx) ?_
  intro r s' h
  cases r with
  | ok a => exact hok a s' h
  | error e => exact herr e s' h

theorem mapError {E : δ → σ → Prop} {g : ε → δ} (h : Triple x s Q (fun e => E (g e))) :
    Triple (Act.mapError g x) s Q E := by
  unfold Triple at h ⊢
  rw [Act.run_mapError]
  split at h <;> rename_i hr <;> rw [hr] <;> exact h

theorem zoom {y : Act τ ε α} {get : σ → τ} {set : τ → σ → σ}
    (h : Triple y (get s) (fun a t => Q a (set t s)) (fun e t => E e (set t s))) :
    Triple (Act.zoom get set y) s Q E := by
  unfold Triple at h ⊢
  rw [Act.run_zoom]
  split at h <;> rename_i hr <;> rw [hr] <;> exact h

theorem ite {c : Prop} [Decidable c] {y : Act σ ε α} (ht : c → Triple x s Q E)
    (hf : ¬c → Triple y s Q E) : Triple (if c then x else y) s Q E := by
  split
  · exact ht ‹_›
  · exact hf ‹_›

/-- The invariant rule of `Act.chunks`: `I pos` holds before the round at
`pos`, and each round keeps it. Enough fuel reaches `total`. -/
theorem chunks {step total : Nat} {body : Nat → Nat → α → Act σ ε α} (I : Nat → α → σ → Prop)
    (hstep : 0 < step)
    (hbody : ∀ pos a s, pos < total → I pos a s →
      Triple (body pos (min step (total - pos)) a) s
        (fun b s' => I (pos + min step (total - pos)) b s') E)
    (fuel pos : Nat) (a : α) (s : σ) (hfuel : total ≤ pos + fuel) (hpos : pos ≤ total)
    (hI : I pos a s) :
    Triple (Act.chunks step total body fuel pos a) s (fun b s' => I total b s') E := by
  induction fuel generalizing pos a s with
  | zero =>
    have : pos = total := by omega
    subst this
    exact pure' hI
  | succ fuel ih =>
    unfold Act.chunks
    refine ite (fun hlt => ?_) (fun hge => ?_)
    · refine bind (hbody pos a s hlt hI) ?_
      intro b s' hb
      exact ih _ _ _ (by omega) (by omega) hb
    · have : pos = total := by omega
      subst this
      exact pure' hI

end Triple

-- ---------------------------------------------------------------------------
-- Invariants
-- ---------------------------------------------------------------------------

/-- However `x` ends, it ends in `I`. -/
def Ends (x : Act σ ε α) (s : σ) (I : σ → Prop) : Prop := I (x.run s).2

namespace Ends

variable {σ τ ε δ α β : Type} {s : σ} {x : Act σ ε α} {f : α → Act σ ε β} {I J : σ → Prop}

theorem of_triple {Q : α → σ → Prop} {E : ε → σ → Prop} (h : Triple x s Q E)
    (hq : ∀ a s', Q a s' → I s') (he : ∀ e s', E e s' → I s') : Ends x s I := by
  unfold Triple at h
  unfold Ends
  split at h <;> rename_i hr <;> rw [hr]
  · exact hq _ _ h
  · exact he _ _ h

theorem triple (h : Ends x s I) : Triple x s (fun _ => I) (fun _ => I) := by
  unfold Ends at h
  unfold Triple
  split <;> rename_i hr <;> rw [hr] at h <;> exact h

theorem mono (h : Ends x s I) (hi : ∀ s', I s' → J s') : Ends x s J := hi _ h

theorem pure' {a : α} (h : I s) : Ends (pure a : Act σ ε α) s I := h

theorem throw {e : ε} (h : I s) : Ends (Act.throw e : Act σ ε α) s I := h

theorem modify {g : σ → σ} (h : I (g s)) : Ends (Act.modify g : Act σ ε Unit) s I := h

theorem get_bind {f : σ → Act σ ε β} (h : Ends (f s) s I) : Ends (Act.get >>= f) s I := h

theorem gets_bind {g : σ → α} (h : Ends (f (g s)) s I) : Ends (Act.gets g >>= f) s I := h

theorem modify_bind {g : σ → σ} {f : Unit → Act σ ε β} (h : Ends (f ()) (g s) I) :
    Ends (Act.modify g >>= f) s I := h

theorem bind_triple {Q : α → σ → Prop} (hx : Triple x s Q (fun _ => I))
    (hf : ∀ a s', Q a s' → Ends (f a) s' I) : Ends (x >>= f) s I :=
  of_triple (hx.bind fun a s' h => (hf a s' h).triple) (fun _ _ h => h) (fun _ _ h => h)

theorem bind (hx : Ends x s I) (hf : ∀ a s', I s' → Ends (f a) s' I) : Ends (x >>= f) s I :=
  bind_triple hx.triple hf

theorem attempt (h : Ends x s I) : Ends (Act.attempt x : Act σ δ (Except ε α)) s I := h

theorem mapError {g : ε → δ} (h : Ends x s I) : Ends (Act.mapError g x) s I := h

theorem zoom {y : Act τ ε α} {get : σ → τ} {set : τ → σ → σ}
    (h : Ends y (get s) (fun t => I (set t s))) : Ends (Act.zoom get set y) s I := h

theorem ite {c : Prop} [Decidable c] {y : Act σ ε α} (ht : c → Ends x s I) (hf : ¬c → Ends y s I) :
    Ends (if c then x else y) s I := by
  split
  · exact ht ‹_›
  · exact hf ‹_›

end Ends

-- ---------------------------------------------------------------------------
-- Frames
-- ---------------------------------------------------------------------------

/-- Whatever `x` returns, it moves the state inside `R`. -/
def Respects (R : σ → σ → Prop) (x : Act σ ε α) : Prop := ∀ s, R s (x.run s).2

namespace Respects

variable {σ τ ε δ α β : Type} {R : σ → σ → Prop} [IsPreorder σ R]
variable {x y : Act σ ε α} {f : α → Act σ ε β}

theorem pure' (a : α) : Respects R (pure a : Act σ ε α) := fun s => Std.Refl.refl s

theorem throw (e : ε) : Respects R (Act.throw e : Act σ ε α) := fun s => Std.Refl.refl s

theorem get : Respects R (Act.get : Act σ ε σ) := fun s => Std.Refl.refl s

theorem gets (g : σ → α) : Respects R (Act.gets g : Act σ ε α) := fun s => Std.Refl.refl s

omit [IsPreorder σ R] in
theorem modify {g : σ → σ} (h : ∀ s, R s (g s)) : Respects R (Act.modify g : Act σ ε Unit) := h

theorem bind (hx : Respects R x) (hf : ∀ a, Respects R (f a)) : Respects R (x >>= f) := by
  intro s
  rw [Act.run_bind]
  have h := hx s
  split
  next a s' hr => rw [hr] at h; exact IsTrans.trans _ _ _ h (hf a s')
  next e s' hr => rw [hr] at h; exact h

omit [IsPreorder σ R] in
theorem attempt (hx : Respects R x) : Respects R (Act.attempt x : Act σ δ (Except ε α)) := hx

omit [IsPreorder σ R] in
theorem ite {c : Prop} [Decidable c] (hx : Respects R x) (hy : Respects R y) :
    Respects R (if c then x else y) := by
  split <;> assumption

omit [IsPreorder σ R] in
theorem mapError {g : ε → δ} (hx : Respects R x) : Respects R (Act.mapError g x) := hx

omit [IsPreorder σ R] in
/-- A part of the state that moves inside `S` moves the whole inside `R`. -/
theorem zoom {S : τ → τ → Prop} {y : Act τ ε α} {get : σ → τ} {set : τ → σ → σ}
    (hy : Respects S y) (h : ∀ s t, S (get s) t → R s (set t s)) :
    Respects R (Act.zoom get set y) := fun s => h s _ (hy (get s))

/-- A frame that goes on from another. -/
theorem ends {a b : σ} (hx : Respects R x) (h : R a b) : Ends x b (R a) :=
  IsTrans.trans _ _ _ h (hx b)

/-- The frame of a chunk loop whose rounds start at positions in `I`. -/
theorem chunks {step total : Nat} {body : Nat → Nat → α → Act σ ε α} (I : Nat → Prop)
    (hbody : ∀ pos a, pos < total → I pos → Respects R (body pos (min step (total - pos)) a))
    (hnext : ∀ pos, pos < total → I pos → I (pos + min step (total - pos)))
    (fuel pos : Nat) (a : α) (hI : I pos) : Respects R (Act.chunks step total body fuel pos a) := by
  induction fuel generalizing pos a with
  | zero => exact pure' a
  | succ fuel ih =>
    unfold Act.chunks
    split
    · rename_i hlt
      exact bind (hbody pos a hlt hI) fun b => ih _ b (hnext pos hlt hI)
    · exact pure' a

end Respects

theorem Triple.of_respects {R : σ → σ → Prop} {x : Act σ ε α} (h : Respects R x) (s : σ) :
    Triple x s (fun _ s' => R s s') (fun _ s' => R s s') := by
  have := h s
  unfold Triple
  split <;> rename_i hr <;> rw [hr] at this <;> exact this

end Lib
