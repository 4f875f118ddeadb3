import SynapticOS.Lib.Act

/-!
# Bounds-checked buffers

A load or a store outside a buffer stops the computation with a fault, which is
kept apart from an error that the code returns. `Exact cap P V` says of a
computation that writes a buffer of `cap` bytes that it ends well, with a value in
`V`, if and only if `P` holds, and otherwise with a fault: `P` is what the
accesses ask of the buffer's size.
-/

namespace Lib

/-- Why a computation on checked memory stopped. -/
inductive Stop (ε : Type)
  | fault
  | reject (e : ε)
  deriving DecidableEq

structure Buffer where
  size : Nat
  byte : Nat → UInt8

/-- Rounds `0` to `n - 1` of a counted loop. -/
def Act.times (body : Nat → α → Act σ ε α) : Nat → α → Act σ ε α
  | 0, a => pure a
  | n + 1, a => do
    let b ← times body n a
    body n b

namespace Buffer

/-- The little-endian word at an offset. -/
def word (b : Buffer) (off : Nat) : UInt32 :=
  (b.byte off).toUInt32 ||| (b.byte (off + 1)).toUInt32 <<< 8 |||
    (b.byte (off + 2)).toUInt32 <<< 16 ||| (b.byte (off + 3)).toUInt32 <<< 24

def wordBytes (w : UInt32) : List UInt8 :=
  [w.toUInt8, (w >>> 8).toUInt8, (w >>> 16).toUInt8, (w >>> 24).toUInt8]

def put (b : Buffer) (off : Nat) (bytes : List UInt8) : Buffer :=
  { b with byte := fun i =>
      if off ≤ i ∧ i < off + bytes.length then bytes.getD (i - off) 0 else b.byte i }

@[simp] theorem put_size (b : Buffer) (off : Nat) (bytes : List UInt8) :
    (b.put off bytes).size = b.size := rfl

@[simp] theorem wordBytes_length (w : UInt32) : (wordBytes w).length = 4 := rfl

theorem bytes_or (w : UInt32) : w.toUInt8.toUInt32 ||| (w >>> 8).toUInt8.toUInt32 <<< 8 |||
    (w >>> 16).toUInt8.toUInt32 <<< 16 ||| (w >>> 24).toUInt8.toUInt32 <<< 24 = w := by
  apply UInt32.toBitVec_inj.mp
  simp only [UInt32.toBitVec_or, UInt32.toBitVec_shiftLeft, UInt8.toBitVec_toUInt32,
    UInt32.toBitVec_toUInt8, UInt32.toBitVec_shiftRight]
  have h8 : (UInt32.toBitVec 8 % 32) = 8#32 := by decide
  have h16 : (UInt32.toBitVec 16 % 32) = 16#32 := by decide
  have h24 : (UInt32.toBitVec 24 % 32) = 24#32 := by decide
  apply BitVec.eq_of_getLsbD_eq
  intro i hi
  simp only [BitVec.getLsbD_or, BitVec.shiftLeft_eq', BitVec.ushiftRight_eq',
    BitVec.getLsbD_shiftLeft, BitVec.getLsbD_setWidth, BitVec.getLsbD_ushiftRight, h8, h16, h24,
    BitVec.toNat_ofNat]
  -- bit `i` is in one of the four bytes
  rcases (by omega : i < 8 ∨ 8 ≤ i ∧ i < 16 ∨ 16 ≤ i ∧ i < 24 ∨ 24 ≤ i) with h | h | h | h
  all_goals
    grind

theorem length_words (ws : List UInt32) : (ws.flatMap wordBytes).length = 4 * ws.length := by
  induction ws with
  | nil => rfl
  | cons w ws ih =>
    rw [List.flatMap_cons, List.length_append, ih, wordBytes_length, List.length_cons]
    omega

theorem getD_words (ws : List UInt32) {k i : Nat} (hk : k < ws.length) (hi : i < 4) :
    (ws.flatMap wordBytes).getD (4 * k + i) 0 = (wordBytes ws[k]).getD i 0 := by
  induction ws generalizing k with
  | nil => exact absurd hk (Nat.not_lt_zero k)
  | cons w ws ih =>
    rw [List.flatMap_cons, List.getD_eq_getElem?_getD, List.getD_eq_getElem?_getD]
    cases k with
    | zero =>
      rw [List.getElem?_append_left (by rw [wordBytes_length]; omega), Nat.mul_zero, Nat.zero_add]
      rfl
    | succ k =>
      rw [List.getElem?_append_right (by rw [wordBytes_length]; omega), wordBytes_length,
        show 4 * (k + 1) + i - 4 = 4 * k + i by omega, ← List.getD_eq_getElem?_getD,
        ← List.getD_eq_getElem?_getD]
      exact ih (Nat.lt_of_succ_lt_succ hk)

/-- Words are read as they were stored. -/
theorem word_put_words (b : Buffer) (off : Nat) (ws : List UInt32) {k : Nat} (hk : k < ws.length) :
    (b.put off (ws.flatMap wordBytes)).word (off + 4 * k) = ws[k] := by
  have hbyte : ∀ i < 4, (b.put off (ws.flatMap wordBytes)).byte (off + 4 * k + i) =
      (wordBytes ws[k]).getD i 0 := by
    intro i hi
    show (if _ then _ else _) = _
    rw [if_pos ⟨by omega, by rw [length_words]; omega⟩, Nat.add_assoc, Nat.add_sub_cancel_left]
    exact getD_words ws hk hi
  have h0 := hbyte 0 (by decide)
  rw [Nat.add_zero] at h0
  unfold word
  rw [h0, hbyte 1 (by decide), hbyte 2 (by decide), hbyte 3 (by decide)]
  exact bytes_or ws[k]

theorem word_put (b : Buffer) (off : Nat) (w : UInt32) :
    (b.put off (wordBytes w)).word off = w :=
  b.word_put_words off [w] (k := 0) Nat.zero_lt_one

/-- The words beside what is stored stay. -/
theorem word_put_beside (b : Buffer) (bytes : List UInt8) {off o : Nat}
    (h : o + 4 ≤ off ∨ off + bytes.length ≤ o) : (b.put off bytes).word o = b.word o := by
  have hbyte : ∀ i < 4, (b.put off bytes).byte (o + i) = b.byte (o + i) := by
    intro i hi
    show (if _ then _ else _) = _
    rw [if_neg (by omega)]
  have h0 := hbyte 0 (by decide)
  rw [Nat.add_zero] at h0
  unfold word
  rw [h0, hbyte 1 (by decide), hbyte 2 (by decide), hbyte 3 (by decide)]

theorem word_put_of_disjoint (b : Buffer) (w : UInt32) {off o : Nat}
    (h : o + 4 ≤ off ∨ off + 4 ≤ o) : (b.put off (wordBytes w)).word o = b.word o :=
  b.word_put_beside (wordBytes w) h

def load8 (b : Buffer) (off : Nat) : Act σ (Stop ε) UInt8 :=
  if off < b.size then pure (b.byte off) else Act.throw .fault

def load32 (b : Buffer) (off : Nat) : Act σ (Stop ε) UInt32 :=
  if off + 4 ≤ b.size then pure (b.word off) else Act.throw .fault

/-- Store into the buffer the computation runs on. -/
def store (off : Nat) (bytes : List UInt8) : Act Buffer (Stop ε) Unit := do
  let b ← Act.get
  if off + bytes.length ≤ b.size then Act.modify (·.put off bytes) else Act.throw .fault

def store8 (off : Nat) (x : UInt8) : Act Buffer (Stop ε) Unit := store off [x]

def store32 (off : Nat) (w : UInt32) : Act Buffer (Stop ε) Unit := store off (wordBytes w)

theorem store_run {b : Buffer} {off : Nat} {bytes : List UInt8} (h : off + bytes.length ≤ b.size) :
    (store off bytes : Act Buffer (Stop ε) Unit).run b = (.ok (), b.put off bytes) := by
  unfold store
  rw [Act.run_bind]
  show (if off + bytes.length ≤ b.size then Act.modify (·.put off bytes) else Act.throw .fault :
    Act Buffer (Stop ε) Unit).run b = _
  rw [if_pos h]
  rfl

theorem store32_run {b : Buffer} {off : Nat} (w : UInt32) (h : off + 4 ≤ b.size) :
    (store32 off w : Act Buffer (Stop ε) Unit).run b = (.ok (), b.put off (wordBytes w)) :=
  store_run h

end Buffer

/-- An entry of a list with one more at the end. -/
theorem getElem?_concat {l : List α} {a x : α} {i : Nat} (h : (l ++ [a])[i]? = some x) :
    i < l.length ∧ l[i]? = some x ∨ i = l.length ∧ a = x := by
  rcases Nat.lt_trichotomy i l.length with hlt | rfl | hgt
  · rw [List.getElem?_append_left hlt] at h
    exact .inl ⟨hlt, h⟩
  · rw [List.getElem?_concat_length] at h
    exact .inr ⟨rfl, Option.some.inj h⟩
  · rw [List.getElem?_eq_none (by rw [List.length_append, List.length_singleton]; omega)] at h
    cases h

/-- Rounds that each return what is known and leave the state. -/
theorem Act.times_run {body : Nat → α → Act σ ε α} {g : Nat → α} {n : Nat} {s : σ}
    (h : ∀ i < n, (body i (g i)).run s = (.ok (g (i + 1)), s)) :
    (Act.times body n (g 0)).run s = (.ok (g n), s) := by
  induction n with
  | zero => rfl
  | succ n ih =>
    rw [Act.times, Act.run_bind_ok (ih fun i hi => h i (by omega))]
    exact h n (Nat.lt_succ_self n)

/-- The invariant rule of `Act.times`. -/
theorem Triple.times {body : Nat → α → Act σ ε α} {E : ε → σ → Prop} {n : Nat} {a : α} {s : σ}
    (I : Nat → α → σ → Prop)
    (hbody : ∀ i < n, ∀ a s, I i a s → Triple (body i a) s (I (i + 1)) E) (h : I 0 a s) :
    Triple (Act.times body n a) s (I n) E := by
  induction n with
  | zero => exact Triple.pure' h
  | succ n ih =>
    refine Triple.bind (ih fun i hi => hbody i (by omega)) ?_
    exact fun b t hb => hbody n (by omega) b t hb

/-- What cannot end with an error returns. -/
theorem Triple.returns {x : Act σ ε α} {s : σ} {Q : α → σ → Prop}
    (h : Triple x s Q fun _ _ => False) : ∃ a t, x.run s = (.ok a, t) ∧ Q a t := by
  unfold Triple at h
  rcases hx : x.run s with ⟨e | a, t⟩ <;> rw [hx] at h
  · exact h.elim
  · exact ⟨a, t, rfl, h⟩

/-- On a buffer of `cap` bytes `x` ends well if `P` holds, and faults if not. -/
def Exact (cap : Nat) (P : Prop) (V : α → Prop) (x : Act Buffer (Stop ε) α) : Prop :=
  ∀ b : Buffer, b.size = cap →
    Triple x b (fun a b' => b'.size = cap ∧ P ∧ V a) (fun e _ => e = .fault ∧ ¬P)

namespace Exact

variable {ε α β : Type} {cap : Nat} {P Q : Prop} {V V' : α → Prop} {W : β → Prop}
variable {x y : Act Buffer (Stop ε) α} {f : α → Act Buffer (Stop ε) β}

theorem mono (h : Exact cap P V x) (hp : P ↔ Q) (hv : ∀ a, V a → V' a) : Exact cap Q V' x := by
  intro b hb
  refine (h b hb).mono ?_ ?_
  · exact fun a t ⟨hs, h, ha⟩ => ⟨hs, hp.mp h, hv a ha⟩
  · exact fun e t ⟨he, h⟩ => ⟨he, fun hq => h (hp.mpr hq)⟩

theorem of_iff (h : Exact cap P V x) (hp : P ↔ Q) : Exact cap Q V x := h.mono hp fun _ h => h

theorem pure' {a : α} (h : V a) : Exact cap True V (pure a : Act Buffer (Stop ε) α) :=
  fun _ hb => Triple.pure' ⟨hb, trivial, h⟩

theorem get : Exact cap True (fun b : Buffer => b.size = cap)
    (Act.get : Act Buffer (Stop ε) Buffer) :=
  fun _ hb => Triple.get ⟨hb, trivial, hb⟩

theorem load8 {b : Buffer} {off : Nat} :
    Exact cap (off < b.size) (fun _ => True) (b.load8 off : Act Buffer (Stop ε) UInt8) := by
  intro _ ht
  unfold Buffer.load8
  refine Triple.ite (fun h => ?_) (fun h => ?_)
  · exact Triple.pure' ⟨ht, h, trivial⟩
  · exact Triple.throw ⟨rfl, h⟩

theorem load32 {b : Buffer} {off : Nat} (h : off + 4 ≤ b.size) :
    Exact cap True (fun _ => True) (b.load32 off : Act Buffer (Stop ε) UInt32) := by
  unfold Buffer.load32
  rw [if_pos h]
  exact pure' trivial

theorem store {off : Nat} {bytes : List UInt8} :
    Exact cap (off + bytes.length ≤ cap) (fun _ => True)
      (Buffer.store off bytes : Act Buffer (Stop ε) Unit) := by
  intro b hb
  refine Triple.get_bind (Triple.ite (fun h => ?_) (fun h => ?_))
  · rw [hb] at h
    exact Triple.modify ⟨hb, h, trivial⟩
  · rw [hb] at h
    exact Triple.throw ⟨rfl, h⟩

theorem store8 {off : Nat} {v : UInt8} :
    Exact cap (off < cap) (fun _ => True) (Buffer.store8 off v : Act Buffer (Stop ε) Unit) := store

theorem store32 {off : Nat} {w : UInt32} :
    Exact cap (off + 4 ≤ cap) (fun _ => True)
      (Buffer.store32 off w : Act Buffer (Stop ε) Unit) := store

theorem known (h : Exact cap P V x) (hp : P) : Exact cap True V x :=
  h.of_iff (iff_true_intro hp)

theorem bind (hx : Exact cap P V x) (hf : ∀ a, P → V a → Exact cap Q W (f a)) :
    Exact cap (P ∧ Q) W (x >>= f) := by
  intro b hb
  refine Triple.bind ((hx b hb).mono (fun _ _ h => h) fun e t h => ⟨h.1, fun hpq => h.2 hpq.1⟩) ?_
  intro a t ⟨ht, hp, ha⟩
  refine (hf a hp ha t ht).mono ?_ ?_
  · exact fun c u ⟨hu, hq, hc⟩ => ⟨hu, ⟨hp, hq⟩, hc⟩
  · exact fun e u ⟨he, hq⟩ => ⟨he, fun hpq => hq hpq.2⟩

/-- A step that asks nothing of the buffer. -/
theorem after (hx : Exact cap True V x) (hf : ∀ a, V a → Exact cap Q W (f a)) :
    Exact cap Q W (x >>= f) :=
  (hx.bind fun a _ => hf a).of_iff (Iff.of_eq (true_and _))

/-- A last step that asks nothing of the buffer. -/
theorem before (hx : Exact cap P V x) (hf : ∀ a, P → V a → Exact cap True W (f a)) :
    Exact cap P W (x >>= f) :=
  (hx.bind hf).of_iff (Iff.of_eq (and_true _))

theorem ite {c : Prop} [Decidable c] (ht : c → Exact cap P V x) (hf : ¬c → Exact cap P V y) :
    Exact cap P V (if c then x else y) := by
  split
  · exact ht ‹_›
  · exact hf ‹_›

/-- A counted loop asks for what its rounds ask for; `V i` holds of what the
rounds before `i` have gathered. -/
theorem times {body : Nat → α → Act Buffer (Stop ε) α} {R : Nat → Prop} {n : Nat} {a : α}
    (V : Nat → α → Prop)
    (hbody : ∀ i < n, ∀ a, V i a → Exact cap (R i) (V (i + 1)) (body i a)) (ha : V 0 a) :
    Exact cap (∀ i < n, R i) (V n) (Act.times body n a) := by
  intro b hb
  refine (Triple.times (fun i a t => t.size = cap ∧ (∀ j < i, R j) ∧ V i a) ?_ ?_).mono
    (fun _ _ h => h) (fun _ _ h => h)
  · intro i hi a t ⟨ht, hr, hv⟩
    refine (hbody i hi a hv t ht).mono ?_ ?_
    · intro c u ⟨hu, h, hc⟩
      refine ⟨hu, fun j hj => ?_, hc⟩
      rcases Nat.lt_succ_iff_lt_or_eq.mp hj with hj | rfl
      · exact hr j hj
      · exact h
    · exact fun e u ⟨he, h⟩ => ⟨he, fun hall => h (hall i hi)⟩
  · exact ⟨hb, fun j hj => absurd hj (Nat.not_lt_zero j), ha⟩

/-- A loop whose rounds ask nothing of the buffer. -/
theorem times_true {body : Nat → α → Act Buffer (Stop ε) α} {n : Nat} {a : α} (V : Nat → α → Prop)
    (hbody : ∀ i < n, ∀ a, V i a → Exact cap True (V (i + 1)) (body i a)) (ha : V 0 a) :
    Exact cap True (V n) (Act.times body n a) :=
  (times V hbody ha).of_iff ⟨fun _ => trivial, fun _ _ _ => trivial⟩

end Exact

end Lib
