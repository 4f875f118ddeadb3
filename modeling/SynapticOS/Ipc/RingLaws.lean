import SynapticOS.Ipc.Ring

/-!
# The ring is a queue

Where the entry count divides the range of the counters and pushes come one at a
time, the ring is a queue (`fifo_run`). For any other entry count, counters that
begin right before the wrap name one slot for two messages in the ring
(`ring_fifo`).
-/

namespace SynapticOS.Ipc.Ring

open Lib Lib.Ring

variable {n N c head tail k i j : Nat} {s : Ring n} {t : Fin n} {m : Msg}

-- ---------------------------------------------------------------------------
-- The invariant
-- ---------------------------------------------------------------------------

theorem Ok.le (h : Ok N c s) : s.got.length ≤ s.sent.length := h.keeps.le

theorem ok_start (N c : Nat) (hc : c < wrap) : Ok N c (start n c) where
  head := (Nat.mod_eq_of_lt hc).symm
  tail := (Nat.mod_eq_of_lt hc).symm
  keeps := .empty N c _
  order := List.prefix_rfl
  alone _ _ h := absurd rfl h
  prod _ := trivial
  cons := trivial

/-- How many messages the ring holds. -/
theorem Ok.count (h : Ok N c s) (hN : N < wrap) :
    (s.head + wrap - s.tail) % wrap = s.sent.length - s.got.length := by
  rw [h.head, h.tail]
  exact count_sub h.le (by have := h.keeps.room; omega)

theorem Ok.head_eq_tail (h : Ok N c s) (hN : N < wrap) :
    s.head = s.tail ↔ s.sent.length = s.got.length := by
  rw [h.head, h.tail]
  exact count_eq h.le (by have := h.keeps.room; omega)

theorem Ok.head_slot (h : Ok N c s) (hd : N ∣ wrap) : s.head % N = (c + s.sent.length) % N := by
  rw [h.head, slot_of_dvd hd]

theorem Ok.tail_slot (h : Ok N c s) (hd : N ∣ wrap) : s.tail % N = (c + s.got.length) % N := by
  rw [h.tail, slot_of_dvd hd]

/-- The other threads are idle when thread `t` is not. -/
theorem Ok.others (h : Ok N c s) (ht : s.prod t ≠ .idle) {i : Fin n} (hi : i ≠ t) :
    s.prod i = .idle := by
  by_contra hne
  exact hi (h.alone i t hne ht)

/-- A step of thread `t` that leaves the messages alone. -/
theorem Ok.of_prod (h : Ok N c s) (hi : ∀ i, i ≠ t → s.prod i = .idle) {p : Producer}
    (hp : ProdOk N c s p) : Ok N c (s.setProd t p) := by
  refine ⟨h.head, h.tail, h.keeps, h.order, fun i j hi' hj' => ?_, fun i => ?_, h.cons⟩
  · have hid : ∀ x, (s.setProd t p).prod x ≠ .idle → x = t := fun x hx => by
      by_contra hne
      exact hx ((Function.update_of_ne hne _ _).trans (hi x hne))
    rw [hid i hi', hid j hj']
  · show ProdOk N c s (Function.update s.prod t p i)
    by_cases he : i = t
    · rw [he, Function.update_self]
      exact hp
    · rw [Function.update_of_ne he, hi i he]
      trivial

theorem ok_pushStart (h : Ok N c s) (hi : ∀ i, i ≠ t → s.prod i = .idle) :
    Ok N c (pushStart t m s) := by
  unfold pushStart
  split
  · exact h.of_prod hi rfl
  · exact h

/-- One word goes into a slot that holds no message. -/
theorem ok_fill (h : Ok N c s) (hd : N ∣ wrap) (hp : s.prod t = .filling m head k)
    (hk : k < msgWords) :
    Ok N c { s.setProd t (.filling m head (k + 1)) with
      slots := Function.update s.slots (head % N)
        (Function.update (s.slots (head % N)) ⟨k, hk⟩ (m ⟨k, hk⟩)) } := by
  have hne : s.prod t ≠ .idle := by rw [hp]; exact Producer.noConfusion
  obtain ⟨rfl, hr, hw⟩ : ProdOk N c s (.filling m head k) := hp ▸ h.prod t
  rw [h.head_slot hd]
  have hfill : ProdOk N c { s with
      slots := Function.update s.slots ((c + s.sent.length) % N)
        (Function.update (s.slots ((c + s.sent.length) % N)) ⟨k, hk⟩ (m ⟨k, hk⟩)) }
      (.filling m s.head (k + 1)) := by
    refine ⟨rfl, hr, fun i hi => ?_⟩
    dsimp only
    rw [Function.update_self]
    by_cases he : i = ⟨k, hk⟩
    · rw [he, Function.update_self]
    · rw [Function.update_of_ne he]
      have : i.val ≠ k := fun hv => he (Fin.ext hv)
      exact hw i (by omega)
  have hslots : Ok N c { s with
      slots := Function.update s.slots ((c + s.sent.length) % N)
        (Function.update (s.slots ((c + s.sent.length) % N)) ⟨k, hk⟩ (m ⟨k, hk⟩))
      prod := Function.update s.prod t .idle } := by
    refine ⟨h.head, h.tail, h.keeps.write hr _, h.order, fun i j hi' => ?_, fun i => ?_, h.cons⟩
    · by_cases he : i = t
      · rw [he] at hi'
        exact absurd (Function.update_self t _ s.prod) hi'
      · exact absurd ((Function.update_of_ne he _ _).trans (h.others hne he)) hi'
    · have hidle : Function.update s.prod t .idle i = .idle := by
        by_cases he : i = t
        · rw [he, Function.update_self]
        · rw [Function.update_of_ne he, h.others hne he]
      show ProdOk N c _ (Function.update s.prod t .idle i)
      rw [hidle]
      trivial
  have := hslots.of_prod (t := t) (p := .filling m s.head (k + 1))
    (fun i hi => (Function.update_of_ne hi _ _).trans (h.others hne hi)) hfill
  simpa [setProd] using this

/-- The index is published and the message is sent. -/
theorem ok_publish (h : Ok N c s) (hp : s.prod t = .filling m head k) (hk : ¬k < msgWords) :
    Ok N c { s.setProd t .idle with head := (head + 1) % wrap, sent := s.sent ++ [m] } := by
  have hne : s.prod t ≠ .idle := by rw [hp]; exact Producer.noConfusion
  obtain ⟨rfl, hr, hw⟩ : ProdOk N c s (.filling m head k) := hp ▸ h.prod t
  have hslot : s.slots ((c + s.sent.length) % N) = m := funext fun i => hw i (by omega)
  have hidle : ∀ i, Function.update s.prod t .idle i = .idle := fun i => by
    by_cases he : i = t
    · rw [he, Function.update_self]
    · rw [Function.update_of_ne he, h.others hne he]
  refine ⟨?_, h.tail, h.keeps.push hr hslot, h.order.trans (List.prefix_append _ _),
    fun i _ hi' => absurd (hidle i) hi', fun i => ?_, ?_⟩
  · show (s.head + 1) % wrap = (c + (s.sent ++ [m]).length) % wrap
    rw [h.head, count_next, List.length_append]
    rfl
  · show ProdOk N c _ (Function.update s.prod t .idle i)
    rw [hidle i]
    trivial
  · -- what the receiver is copying lies further back
    show ConsOk _ s.cons
    have hc := h.cons
    cases hcons : s.cons with
    | copying tail k' m' =>
      rw [hcons] at hc
      obtain ⟨ht, x, hx, hm⟩ := hc
      refine ⟨ht, x, ?_, hm⟩
      obtain ⟨hlt, -⟩ := List.getElem?_eq_some_iff.mp hx
      show (s.sent ++ [m])[s.got.length]? = some x
      rw [List.getElem?_append_left hlt]
      exact hx
    | started tail => exact (hcons ▸ hc : ConsOk s (.started tail))
    | idle => trivial

theorem ok_pushNext (h : Ok N c s) (hd : N ∣ wrap) (hN : N < wrap) (t : Fin n) :
    Ok N c (pushNext N t s).1 := by
  unfold pushNext
  split
  · exact h
  · rename_i m head hp
    have hne : s.prod t ≠ .idle := by rw [hp]; exact Producer.noConfusion
    have hh : ProdOk N c s (.started m head) := hp ▸ h.prod t
    split
    · exact h.of_prod (fun i hi => h.others hne hi) trivial
    · rename_i hr
      obtain rfl : head = s.head := hh
      rw [h.count hN] at hr
      exact h.of_prod (fun i hi => h.others hne hi)
        ⟨rfl, by have := h.le; omega, fun i hi => absurd hi (Nat.not_lt_zero _)⟩
  · rename_i m head k hp
    split
    · rename_i hk
      exact ok_fill h hd hp hk
    · rename_i hk
      exact ok_publish h hp hk

theorem ok_popStart (h : Ok N c s) : Ok N c (popStart s) := by
  unfold popStart
  split
  · exact ⟨h.head, h.tail, h.keeps, h.order, h.alone, h.prod, rfl⟩
  · exact h

theorem ok_popNext (h : Ok N c s) (hd : N ∣ wrap) (hN : N < wrap) : Ok N c (popNext N s).1 := by
  have hc := h.cons
  unfold popNext
  split
  · exact h
  · rename_i tail hcons
    rw [hcons] at hc
    obtain rfl : tail = s.tail := hc
    split
    · exact ⟨h.head, h.tail, h.keeps, h.order, h.alone, h.prod, trivial⟩
    · rename_i hne
      have hlt : s.got.length < s.sent.length := by
        have := mt (h.head_eq_tail hN).mpr hne
        have := h.le
        omega
      refine ⟨h.head, h.tail, h.keeps, h.order, h.alone, h.prod, rfl, s.sent[s.got.length], ?_,
        fun i hi => absurd hi (Nat.not_lt_zero _)⟩
      exact List.getElem?_eq_getElem hlt
  · rename_i tail k m hcons
    rw [hcons] at hc
    obtain ⟨rfl, x, hx, hm⟩ := hc
    split
    · rename_i hk
      refine ⟨h.head, h.tail, h.keeps, h.order, h.alone, h.prod, rfl, x, hx, fun i hi => ?_⟩
      by_cases he : i = ⟨k, hk⟩
      · rw [he, Function.update_self, h.tail_slot hd, h.keeps.slot _ _ (le_refl _) hx]
      · rw [Function.update_of_ne he]
        have : i.val ≠ k := fun hv => he (Fin.ext hv)
        exact hm i (by omega)
    · rename_i hk
      obtain ⟨hlt, -⟩ := List.getElem?_eq_some_iff.mp hx
      have hmx : m = x := funext fun i => hm i (by omega)
      subst hmx
      have hkeeps : Keeps N c s.slots s.sent (s.got ++ [m]).length := by
        rw [List.length_append]
        exact h.keeps.pop hlt
      refine ⟨h.head, ?_, hkeeps, ?_, h.alone, fun i => ?_, trivial⟩
      · show (s.tail + 1) % wrap = (c + (s.got ++ [m]).length) % wrap
        rw [h.tail, count_next, List.length_append]
        rfl
      · obtain ⟨rest, hrest⟩ := h.order
        rw [← hrest, List.getElem?_append_right (le_refl _), Nat.sub_self] at hx
        cases rest with
        | nil => cases hx
        | cons y rest =>
          cases hx
          exact ⟨rest, by rw [← hrest, List.append_assoc]; rfl⟩
      · -- there is more room than before
        have hp := h.prod i
        show ProdOk N c _ (s.prod i)
        cases hpi : s.prod i with
        | filling m' head k' =>
          rw [hpi] at hp
          obtain ⟨h1, h2, h3⟩ := hp
          refine ⟨h1, ?_, h3⟩
          show s.sent.length < (s.got ++ [m]).length + N
          rw [List.length_append]
          omega
        | started m' head => exact (hpi ▸ hp : ProdOk N c s (.started m' head))
        | idle => trivial

theorem ok_step (h : Ok N c s) (hd : N ∣ wrap) (hN : N < wrap) (o : Op n) (ho : Alone s o) :
    Ok N c (step N s o) := by
  cases o with
  | pushStart t m => exact ok_pushStart h ho
  | pushNext t => exact ok_pushNext h hd hN t
  | popStart => exact ok_popStart h
  | popNext => exact ok_popNext h hd hN

-- ---------------------------------------------------------------------------
-- The property
-- ---------------------------------------------------------------------------

/-- A push fails in a full ring only. -/
theorem Ok.full (h : Ok N c s) (hN : N < wrap) (hf : (pushNext N t s).2 = some eagain) :
    s.sent.length = s.got.length + N := by
  unfold pushNext at hf
  split at hf
  · cases hf
  · rename_i m head hp
    split at hf
    · rename_i hr
      obtain rfl : head = s.head := (hp ▸ h.prod t : ProdOk N c s (.started m head))
      rw [h.count hN] at hr
      have := h.keeps.room
      have := h.le
      omega
    · cases hf
  · split at hf
    · cases hf
    · exact absurd (Option.some.inj hf) (by decide)

/-- A pop fails in an empty ring only. -/
theorem Ok.empty (h : Ok N c s) (hN : N < wrap) (hf : (popNext N s).2 = some none) :
    s.got = s.sent := by
  have hc := h.cons
  unfold popNext at hf
  split at hf
  · cases hf
  · rename_i tail hcons
    rw [hcons] at hc
    obtain rfl : tail = s.tail := hc
    split at hf
    · rename_i he
      exact h.order.eq_of_length ((h.head_eq_tail hN).mp he).symm
    · cases hf
  · split at hf <;> cases hf

theorem Ok.fifo (h : Ok N c s) (hN : N < wrap) : Fifo N s :=
  ⟨h.order, h.keeps.room, fun _ hf => h.full hN hf, h.empty hN⟩

theorem fifo_run (hd : N ∣ wrap) (hN : N < wrap) (hc : c < wrap) {l : List (Op n)}
    (h : Along (step N) Alone (start n c) l) : Fifo N (run (step N) (start n c) l) :=
  (h.invariant (I := Ok N c) (ok_start N c hc) fun _ o hs ho => ok_step hs hd hN o ho).fifo hN

/-- One thread is always alone. -/
theorem along_one (s : Ring 1) (l : List (Op 1)) : Along (step N) Alone s l := by
  induction l generalizing s with
  | nil => exact .nil
  | cons o l ih =>
    refine .cons ?_ (ih _)
    cases o with
    | pushStart t m => exact fun i hi => absurd (Subsingleton.elim i t) hi
    | _ => trivial

-- ---------------------------------------------------------------------------
-- What one step of a call does
-- ---------------------------------------------------------------------------

/-- A step of a push: it goes on, it fails, or the message is sent. -/
inductive Pushed (s : Ring n) (t : Fin n) : Ring n × Option Ret → Prop
  | goesOn (r : Ring n) (hp : r.prod t ≠ .idle) (hs : r.sent = s.sent) : Pushed s t (r, none)
  | full (r : Ring n) (hp : r.prod t = .idle) (hs : r.sent = s.sent) : Pushed s t (r, some eagain)
  | sent (r : Ring n) (hp : r.prod t = .idle) : Pushed s t (r, some 0)

theorem pushed (N : Nat) (h : s.prod t ≠ .idle) : Pushed s t (pushNext N t s) := by
  have hgo : ∀ p : Producer, p ≠ .idle → (s.setProd t p).prod t ≠ .idle := fun p hp => by
    rw [show (s.setProd t p).prod t = p from Function.update_self ..]
    exact hp
  unfold pushNext
  split
  · rename_i hp
    exact absurd hp h
  · split
    · exact .full _ (Function.update_self ..) rfl
    · exact .goesOn _ (hgo _ Producer.noConfusion) rfl
  · split
    · exact .goesOn _ (hgo _ Producer.noConfusion) rfl
    · exact .sent _ (Function.update_self ..)

/-- What a push leaves alone. -/
theorem pushNext_frame (N : Nat) (t : Fin n) (s : Ring n) :
    (pushNext N t s).1.got = s.got ∧ (pushNext N t s).1.cons = s.cons ∧
      ∀ i, i ≠ t → (pushNext N t s).1.prod i = s.prod i := by
  unfold pushNext
  split
  · exact ⟨rfl, rfl, fun _ _ => rfl⟩
  · split <;> exact ⟨rfl, rfl, fun i hi => Function.update_of_ne hi _ _⟩
  · split <;> exact ⟨rfl, rfl, fun i hi => Function.update_of_ne hi _ _⟩

/-- A step of a pop: it goes on, it fails, or a message comes out. -/
inductive Popped (s : Ring n) : Ring n × Option (Option Msg) → Prop
  | goesOn (r : Ring n) (hp : r.prod = s.prod) (hg : r.got = s.got) : Popped s (r, none)
  | empty (r : Ring n) (hp : r.prod = s.prod) (hg : r.got = s.got) (hc : r.cons = .idle)
      (hs : r.sent = s.sent) : Popped s (r, some none)
  | got (r : Ring n) (m : Msg) (hp : r.prod = s.prod) (hg : r.got = s.got ++ [m])
      (hc : r.cons = .idle) : Popped s (r, some (some m))

theorem popped (N : Nat) (s : Ring n) : Popped s (popNext N s) := by
  unfold popNext
  split
  · exact .goesOn _ rfl rfl
  · split
    · exact .empty _ rfl rfl rfl rfl
    · exact .goesOn _ rfl rfl
  · split
    · exact .goesOn _ rfl rfl
    · exact .got _ _ rfl rfl rfl

-- ---------------------------------------------------------------------------
-- Calls that are not interrupted
-- ---------------------------------------------------------------------------

def pushOps (t : Fin n) (m : Msg) : List (Op n) :=
  .pushStart t m :: .pushNext t :: List.replicate msgWords (.pushNext t) ++ [.pushNext t]

def popOps : List (Op n) := .popStart :: .popNext :: List.replicate msgWords .popNext ++ [.popNext]

/-- `j` words of the message go into the slot. -/
theorem run_fill (hp : s.prod t = .filling m head k) (j : Nat) (hj : k + j ≤ msgWords) :
    run (step N) s (List.replicate j (.pushNext t)) = { s.setProd t (.filling m head (k + j)) with
      slots := Function.update s.slots (head % N) fun i =>
        if k ≤ i ∧ i < k + j then m i else s.slots (head % N) i } := by
  induction j generalizing s k with
  | zero =>
    have hslot : (fun i : Fin msgWords => if k ≤ i ∧ i < k + 0 then m i else s.slots (head % N) i) =
        s.slots (head % N) := funext fun i => if_neg (by omega)
    rw [hslot, Function.update_eq_self, Nat.add_zero, ← hp]
    simp [setProd]
  | succ j ih =>
    have hk : k < msgWords := by omega
    have hstep : step N s (.pushNext t) = { s.setProd t (.filling m head (k + 1)) with
        slots := Function.update s.slots (head % N)
          (Function.update (s.slots (head % N)) ⟨k, hk⟩ (m ⟨k, hk⟩)) } := by
      show (pushNext N t s).1 = _
      unfold pushNext
      rw [hp]
      simp only [hk, ↓reduceDIte]
    rw [List.replicate_succ, run_cons, hstep, ih (Function.update_self ..) (by omega)]
    have hslot : ∀ i : Fin msgWords, (if k + 1 ≤ i ∧ i < k + 1 + j then m i
        else Function.update (s.slots (head % N)) ⟨k, hk⟩ (m ⟨k, hk⟩) i) =
        if k ≤ i ∧ i < k + (j + 1) then m i else s.slots (head % N) i := by
      intro i
      by_cases he : i = ⟨k, hk⟩
      · subst he
        rw [if_neg (by dsimp only; omega), Function.update_self, if_pos (by dsimp only; omega)]
      · have : i.val ≠ k := fun hv => he (Fin.ext hv)
        rw [Function.update_of_ne he]
        exact if_congr (by omega) rfl rfl
    simp only [setProd, Function.update_idem, hslot, Function.update_self]
    rw [Nat.add_right_comm, Nat.add_assoc]

/-- `syn_ipc_ring_push` into a ring that is not full. -/
theorem run_push (hp : s.prod t = .idle) (hr : ¬(s.head + wrap - s.tail) % wrap ≥ N) :
    run (step N) s (pushOps t m) = { s with
      head := (s.head + 1) % wrap
      slots := Function.update s.slots (s.head % N) m
      sent := s.sent ++ [m] } := by
  have hstart : step N s (.pushStart t m) = s.setProd t (.started m s.head) := by
    show pushStart t m s = _
    unfold pushStart
    rw [hp]
  have hcheck : step N (s.setProd t (.started m s.head)) (.pushNext t) =
      s.setProd t (.filling m s.head 0) := by
    show (pushNext N t _).1 = _
    unfold pushNext
    simp only [setProd, Function.update_self, Function.update_idem]
    rw [if_neg hr]
  have hslot : (fun i : Fin msgWords =>
      if 0 ≤ i.val ∧ i.val < 0 + msgWords then m i else s.slots (s.head % N) i) = m :=
    funext fun i => if_pos ⟨Nat.zero_le _, by omega⟩
  unfold pushOps
  rw [List.cons_append, List.cons_append, run_cons, run_cons, hstart, hcheck, run_append,
    run_fill (Function.update_self ..) msgWords (by omega), run_cons, run_nil]
  show (pushNext N t _).1 = _
  unfold pushNext
  simp only [setProd, Function.update_self, Function.update_idem, hslot]
  rw [dif_neg (by omega), ← hp]
  simp

/-- `j` words of the slot are copied out. -/
theorem run_copy (hc : s.cons = .copying tail k m) (j : Nat) (hj : k + j ≤ msgWords) :
    run (step N) s (List.replicate j .popNext) = { s with
      cons := .copying tail (k + j) fun i =>
        if k ≤ i ∧ i < k + j then s.slots (tail % N) i else m i } := by
  induction j generalizing s k m with
  | zero =>
    have hm : (fun i : Fin msgWords => if k ≤ i ∧ i < k + 0 then s.slots (tail % N) i else m i) = m :=
      funext fun i => if_neg (by omega)
    rw [hm, Nat.add_zero, ← hc]
    rfl
  | succ j ih =>
    have hk : k < msgWords := by omega
    have hstep : step N s .popNext = { s with
        cons := .copying tail (k + 1) (Function.update m ⟨k, hk⟩ (s.slots (tail % N) ⟨k, hk⟩)) } := by
      show (popNext N s).1 = _
      unfold popNext
      rw [hc]
      simp only [hk, ↓reduceDIte]
    rw [List.replicate_succ, run_cons, hstep, ih rfl (by omega)]
    have hm : ∀ i : Fin msgWords, (if k + 1 ≤ i ∧ i < k + 1 + j then s.slots (tail % N) i
        else Function.update m ⟨k, hk⟩ (s.slots (tail % N) ⟨k, hk⟩) i) =
        if k ≤ i ∧ i < k + (j + 1) then s.slots (tail % N) i else m i := by
      intro i
      by_cases he : i = ⟨k, hk⟩
      · subst he
        rw [if_neg (by dsimp only; omega), Function.update_self, if_pos (by dsimp only; omega)]
      · have : i.val ≠ k := fun hv => he (Fin.ext hv)
        rw [Function.update_of_ne he]
        exact if_congr (by omega) rfl rfl
    simp only [hm]
    rw [Nat.add_right_comm, Nat.add_assoc]

/-- `syn_ipc_ring_pop` from a ring that is not empty. -/
theorem run_pop (hc : s.cons = .idle) (hne : s.head ≠ s.tail) :
    run (step N) s popOps = { s with
      tail := (s.tail + 1) % wrap
      got := s.got ++ [s.slots (s.tail % N)] } := by
  have hstart : step N s .popStart = { s with cons := .started s.tail } := by
    show popStart s = _
    unfold popStart
    rw [hc]
  have hcheck : step N { s with cons := .started s.tail } .popNext =
      { s with cons := .copying s.tail 0 fun _ => 0 } := by
    show (popNext N _).1 = _
    unfold popNext
    dsimp only
    rw [if_neg hne]
  have hm : (fun i : Fin msgWords => if 0 ≤ i.val ∧ i.val < 0 + msgWords
      then s.slots (s.tail % N) i else (0 : UInt32)) = s.slots (s.tail % N) :=
    funext fun i => if_pos ⟨Nat.zero_le _, by omega⟩
  unfold popOps
  rw [List.cons_append, List.cons_append, run_cons, run_cons, hstart, hcheck, run_append,
    run_copy (s := { s with cons := .copying s.tail 0 fun _ => 0 }) rfl msgWords (by omega), run_cons,
    run_nil]
  show (popNext N _).1 = _
  unfold popNext
  simp only [hm]
  rw [dif_neg (by omega), ← hc]

-- ---------------------------------------------------------------------------
-- Other entry counts
-- ---------------------------------------------------------------------------

/-- A message with an id, of type zero, that says which one it is. -/
def numbered (i : Nat) : Msg := fun w => if w = 0 then 1 else if w = 4 then UInt32.ofNat i else 0

theorem numbered_inj (hi : i < wrap) (hj : j < wrap) (h : numbered i = numbered j) : i = j := by
  have h4 : UInt32.ofNat i = UInt32.ofNat j := congrFun h 4
  have := congrArg UInt32.toNat h4
  simp only [UInt32.toNat_ofNat'] at this
  rwa [Nat.mod_eq_of_lt hi, Nat.mod_eq_of_lt hj] at this

def fillOps (k : Nat) : List (Op 1) := (List.range k).flatMap fun i => pushOps 0 (numbered i)

theorem fillOps_succ (k : Nat) : fillOps (k + 1) = fillOps k ++ pushOps 0 (numbered k) := by
  unfold fillOps
  rw [List.range_succ, List.flatMap_append]
  simp

/-- Nobody is in the ring, which is empty; its counters stand at `c`. -/
structure Rests (c : Nat) (s : Ring 1) : Prop where
  head : s.head = c
  tail : s.tail = c
  prod : s.prod 0 = .idle
  cons : s.cons = .idle
  got : s.got = s.sent

/-- `k` messages went into a ring that was at rest. -/
structure Filled (N c k : Nat) (base s : Ring 1) : Prop where
  head : s.head = (c + k) % wrap
  tail : s.tail = c
  prod : s.prod 0 = .idle
  cons : s.cons = .idle
  sent : s.sent = base.sent ++ (List.range k).map numbered
  got : s.got = base.sent
  last : ∀ i, k = i + 1 → s.slots ((c + i) % wrap % N) = numbered i

theorem Filled.count {base s : Ring 1} (h : Filled N c k base s) (hc : c < wrap) (hk : k < wrap) :
    (s.head + wrap - s.tail) % wrap = k := by
  have := count_sub (c := c) (a := k) (b := 0) (M := wrap) (Nat.zero_le _) hk
  rw [Nat.add_zero, Nat.mod_eq_of_lt hc] at this
  rw [h.head, h.tail]
  exact this

theorem Rests.filled {base : Ring 1} (h : Rests c base) (hc : c < wrap) (hN : N < wrap) (k : Nat)
    (hk : k ≤ N) : Filled N c k base (run (step N) base (fillOps k)) := by
  induction k with
  | zero =>
    refine ⟨?_, h.tail, h.prod, h.cons, (List.append_nil _).symm, h.got, fun i hi => by omega⟩
    rw [Nat.add_zero, Nat.mod_eq_of_lt hc]
    exact h.head
  | succ k ih =>
    have hf := ih (by omega)
    generalize hs : run (step N) base (fillOps k) = s at hf
    have hcount := hf.count hc (by omega)
    rw [fillOps_succ, run_append, hs, run_push hf.prod (by omega)]
    refine ⟨?_, hf.tail, hf.prod, hf.cons, ?_, hf.got, fun i hi => ?_⟩
    · show (s.head + 1) % wrap = _
      rw [hf.head, count_next]
    · show s.sent ++ [numbered k] = _
      rw [hf.sent, List.range_succ, List.map_append, List.append_assoc]
      rfl
    · obtain rfl : i = k := by omega
      show Function.update s.slots (s.head % N) (numbered i) _ = _
      rw [← hf.head, Function.update_self]

/-- The counter right before the wrap, and one after it, name the same slot. -/
theorem same_slot (hN : 0 < N) (hr : 0 < wrap % N) :
    (wrap - 1 + wrap % N) % wrap % N = (wrap - 1) % N := by
  have hw : wrap % N < N := Nat.mod_lt _ hN
  have hlt : wrap % N ≤ wrap := Nat.mod_le _ _
  have hdiv := Nat.div_add_mod wrap N
  have h1 : (wrap - 1 + wrap % N) % wrap = wrap % N - 1 := by
    rw [show wrap - 1 + wrap % N = wrap % N - 1 + wrap by omega, Nat.add_mod_right,
      Nat.mod_eq_of_lt (by omega)]
  have h2 : wrap - 1 = N * (wrap / N) + (wrap % N - 1) := by omega
  rw [h1, h2, Nat.mul_add_mod]

/-- The messages that fill the ring across the wrap, and one that is taken out. -/
def wrapOps (N : Nat) : List (Op 1) := fillOps (wrap % N + 1) ++ popOps

theorem wrap_mod_pos (hd : ¬N ∣ wrap) : 0 < wrap % N :=
  Nat.pos_of_ne_zero fun h => hd (Nat.dvd_of_mod_eq_zero h)

/-- The message that comes out is the last one, not the first one. -/
theorem Rests.run_wrapOps {base : Ring 1} (h : Rests (wrap - 1) base) (hN : 0 < N) (h64 : N ≤ 64)
    (hd : ¬N ∣ wrap) :
    (run (step N) base (wrapOps N)).got = base.sent ++ [numbered (wrap % N)] ∧
    (run (step N) base (wrapOps N)).sent =
      base.sent ++ (List.range (wrap % N + 1)).map numbered := by
  have hr := wrap_mod_pos hd
  have hlt : wrap % N < N := Nat.mod_lt _ hN
  have hwrap : 64 < wrap := by decide
  have hf := h.filled (N := N) (by omega) (by omega) (wrap % N + 1) (by omega)
  unfold wrapOps
  rw [run_append]
  generalize run (step N) base (fillOps (wrap % N + 1)) = s at hf
  have hne : s.head ≠ s.tail := by
    rw [hf.head, hf.tail, show wrap - 1 + (wrap % N + 1) = wrap % N + wrap by omega,
      Nat.add_mod_right, Nat.mod_eq_of_lt (by omega)]
    omega
  have hout : s.slots (s.tail % N) = numbered (wrap % N) := by
    rw [hf.tail, ← same_slot hN hr]
    exact hf.last _ rfl
  rw [run_pop hf.cons hne, hf.got, hout]
  exact ⟨rfl, hf.sent⟩

theorem not_prefix (hN : 0 < N) (h64 : N ≤ 64) (hd : ¬N ∣ wrap) (l : List Msg) :
    ¬l ++ [numbered (wrap % N)] <+: l ++ (List.range (wrap % N + 1)).map numbered := by
  have hr := wrap_mod_pos hd
  have hlt : wrap % N < N := Nat.mod_lt _ hN
  have hwrap : 64 < wrap := by decide
  rw [List.prefix_append_right_inj, List.range_succ_eq_map, List.map_cons, List.cons_prefix_cons]
  intro h
  have := numbered_inj (by omega) (by omega) h.1
  omega

theorem not_fifo (hN : 0 < N) (h64 : N ≤ 64) (hd : ¬N ∣ wrap) :
    ¬Fifo N (run (step N) (start 1 (wrap - 1)) (wrapOps N)) := by
  intro hf
  have hrest : Rests (wrap - 1) (start 1 (wrap - 1)) := ⟨rfl, rfl, rfl, rfl, rfl⟩
  obtain ⟨hg, hs⟩ := hrest.run_wrapOps hN h64 hd
  have hord := hf.order
  rw [hg, hs] at hord
  exact not_prefix hN h64 hd _ hord

/-- For the entry counts that the build admits. -/
theorem ring_fifo (N : Nat) (h4 : 4 ≤ N) (h64 : N ≤ 64) :
    (∀ c < wrap, ∀ l, Fifo N (run (step N) (start 1 c) l)) ↔ N ∣ wrap := by
  constructor
  · intro h
    by_contra hd
    exact not_fifo (by omega) h64 hd (h (wrap - 1) (by decide) _)
  · intro hd c hc l
    exact fifo_run hd (lt_of_le_of_lt h64 (by decide)) hc (along_one _ l)

theorem ring_fifo_sixteen :
    (∀ c < wrap, ∀ l, Fifo 16 (run (step 16) (start 1 c) l)) ↔ 16 ∣ wrap :=
  ring_fifo 16 (by decide) (by decide)

/-- Five entries: the second message overwrites the first. -/
theorem five_entries : ¬∀ N, 4 ≤ N → N ≤ 64 → ∀ c < wrap, ∀ l, Fifo N (run (step N) (start 1 c) l) :=
  fun h => not_fifo (N := 5) (by decide) (by decide) (by decide)
    (h 5 (by decide) (by decide) (wrap - 1) (by decide) _)

end SynapticOS.Ipc.Ring
