import SynapticOS.Ipc.Link
import SynapticOS.Ipc.RingLaws

/-!
# No message is left behind

Where the ring is a queue, every accepted message reaches a handler or the
receive queue, in order and once, and the receiving thread does not sleep on a
message (`Ok.delivers`). With one sending thread this is so for the entry counts
that divide the range of the counters (`link_delivers`); with several it takes
that their pushes do not overlap (`senders_lose_nothing`).
-/

namespace SynapticOS.Ipc.Link

open Lib

variable {n N c head tail k : Nat} {s s' : Link n} {t : Fin n} {m : Msg}

-- ---------------------------------------------------------------------------
-- The invariant
-- ---------------------------------------------------------------------------

/-- Something will wake the receiving thread. -/
inductive Woken (s : Link n) : Prop
  | kicking (t : Fin n) (h : s.senders t = .kicking)
  | mailbox (h : s.mailbox = true)
  | isr (h : s.isr ≠ .idle)
  | event (h : s.event = true)

structure Ok (N : Nat) (s : Link n) : Prop where
  ring : Ring.Ok N 0 s.ring
  pushing : ∀ t, s.ring.prod t ≠ .idle ↔ s.senders t = .pushing
  popped : s.ring.got = s.log.map (·.1) ++ s.inHand
  cons : s.rx ≠ .popping → s.ring.cons = .idle
  woken : s.rx = .blocked → s.ring.got ≠ s.ring.sent → Woken s

theorem ok_init (N n : Nat) : Ok N (init n) where
  ring := Ring.ok_start N 0 (by decide)
  pushing t := ⟨fun h => absurd rfl h, fun h => nomatch h⟩
  popped := rfl
  cons _ := rfl
  woken h := nomatch h

/-- A step that touches neither the ring nor the receiving thread. -/
theorem Ok.of_same (h : Ok N s) (hring : s'.ring = s.ring) (hrx : s'.rx = s.rx)
    (hlog : s'.log = s.log) (hs : ∀ t, s'.senders t = .pushing ↔ s.senders t = .pushing)
    (hw : Woken s → Woken s') : Ok N s' := by
  have hhand : s'.inHand = s.inHand := by unfold inHand; rw [hrx]
  refine ⟨hring ▸ h.ring, fun t => ?_, ?_, ?_, ?_⟩
  · rw [hs, hring]
    exact h.pushing t
  · rw [hring, hlog, hhand]
    exact h.popped
  · rw [hrx, hring]
    exact h.cons
  · rw [hrx, hring]
    exact fun hb hne => hw (h.woken hb hne)

theorem pushing_update {x : Sender} (ht : x ≠ .pushing) (hs : s.senders t ≠ .pushing) (i : Fin n) :
    Function.update s.senders t x i = .pushing ↔ s.senders i = .pushing := by
  by_cases he : i = t
  · rw [he, Function.update_self]
    exact ⟨fun h => absurd h ht, fun h => absurd h hs⟩
  · rw [Function.update_of_ne he]

/-- A thread that is not kicking moves on. -/
theorem Woken.setSender {x : Sender} (h : Woken s) (ht : s.senders t ≠ .kicking) :
    Woken (s.setSender t x) := by
  cases h with
  | kicking i hi =>
    refine .kicking i ?_
    have hne : i ≠ t := fun he => ht (he ▸ hi)
    exact (Function.update_of_ne hne _ _).trans hi
  | mailbox h => exact .mailbox h
  | isr h => exact .isr h
  | event h => exact .event h

theorem Woken.of_same (h : Woken s) (hs : s'.senders = s.senders) (hm : s'.mailbox = s.mailbox)
    (hi : s'.isr = s.isr) (he : s'.event = s.event) : Woken s' := by
  cases h with
  | kicking t ht => exact .kicking t (by rw [hs]; exact ht)
  | mailbox h => exact .mailbox (by rw [hm]; exact h)
  | isr h => exact .isr (by rw [hi]; exact h)
  | event h => exact .event (by rw [he]; exact h)

-- ---------------------------------------------------------------------------
-- The sender
-- ---------------------------------------------------------------------------

theorem ok_send (h : Ok N s) (now : UInt32) : Ok N (send t m now s) := by
  unfold send
  split
  · rename_i hs
    split
    · exact h
    · refine h.of_same rfl rfl rfl ?_ fun hw => ?_
      · exact pushing_update (fun he => nomatch he) (by rw [hs]; exact fun he => nomatch he)
      · exact (hw.setSender (t := t) (by rw [hs]; exact fun he => nomatch he)).of_same rfl rfl rfl rfl
  · exact h

/-- The push of thread `t` takes a step, and the thread goes on to `x`. -/
theorem Ok.of_push (h : Ok N s) {r : Ring n} {x : Sender} (hr : Ring.Ok N 0 r)
    (hgot : r.got = s.ring.got) (hcons : r.cons = s.ring.cons)
    (hother : ∀ i, i ≠ t → r.prod i = s.ring.prod i) (hx : r.prod t ≠ .idle ↔ x = .pushing)
    (ht : s.senders t ≠ .kicking) (hsent : r.sent = s.ring.sent ∨ x = .kicking) :
    Ok N { s.setSender t x with ring := r } := by
  have hself : ∀ i, i = t → Function.update s.senders t x i = x := fun i hi => by
    rw [hi, Function.update_self]
  refine ⟨hr, fun i => ?_, ?_, ?_, fun hb hne => ?_⟩
  · show r.prod i ≠ .idle ↔ Function.update s.senders t x i = .pushing
    by_cases he : i = t
    · rw [he, Function.update_self]
      exact hx
    · rw [Function.update_of_ne he, hother i he]
      exact h.pushing i
  · show r.got = s.log.map (·.1) ++ s.inHand
    rw [hgot]
    exact h.popped
  · show s.rx ≠ .popping → r.cons = .idle
    rw [hcons]
    exact h.cons
  · rcases hsent with hsent | hk
    · have hw := h.woken hb (by rw [← hgot, ← hsent]; exact hne)
      exact (hw.setSender (x := x) ht).of_same rfl rfl rfl rfl
    · exact .kicking t (by rw [← hk]; exact hself t rfl)

theorem ok_sendNext (h : Ok N s) (hd : N ∣ wrap) (hN : N < wrap) (ha : Alone s (.sendNext t)) :
    Ok N (sendNext N t s) := by
  unfold sendNext
  split
  · exact h
  · rename_i m hs
    have hidle : s.ring.prod t = .idle := by
      by_contra hne
      have := (h.pushing t).mp hne
      rw [hs] at this
      cases this
    have hstart : Ring.pushStart t m s.ring = s.ring.setProd t (.started m s.ring.head) := by
      unfold Ring.pushStart
      rw [hidle]
    have hr := Ring.ok_pushStart (m := m) h.ring (by unfold Alone at ha; dsimp only at ha; rw [hs] at ha; exact ha)
    rw [hstart] at hr ⊢
    refine h.of_push hr rfl rfl (fun i hi => Function.update_of_ne hi _ _) ?_
      (by rw [hs]; exact fun he => nomatch he) (.inl rfl)
    show Function.update s.ring.prod t (.started m s.ring.head) t ≠ .idle ↔ _
    rw [Function.update_self]
    exact ⟨fun _ => rfl, fun _ he => nomatch he⟩
  · rename_i hs
    have hne : s.ring.prod t ≠ .idle := (h.pushing t).mpr hs
    have hk : s.senders t ≠ .kicking := by rw [hs]; exact fun he => nomatch he
    have hr := Ring.ok_pushNext h.ring hd hN t
    obtain ⟨hgot, hcons, hother⟩ := Ring.pushNext_frame N t s.ring
    have hp := Ring.pushed N hne
    generalize Ring.pushNext N t s.ring = q at hr hgot hcons hother hp ⊢
    cases hp with
    | goesOn r hp hsent =>
      have := h.of_push (x := .pushing) hr hgot hcons hother ⟨fun _ => rfl, fun _ => hp⟩ hk (.inl hsent)
      unfold setSender at this
      rw [← hs, Function.update_eq_self] at this
      exact this
    | full r hp hsent =>
      exact h.of_push (x := .idle) hr hgot hcons hother
        ⟨fun hi => absurd hp hi, fun he => nomatch he⟩ hk (.inl hsent)
    | sent r hp =>
      exact h.of_push (x := .kicking) hr hgot hcons hother
        ⟨fun hi => absurd hp hi, fun he => nomatch he⟩ hk (.inr rfl)
  · rename_i hs
    refine h.of_same rfl rfl rfl ?_ fun _ => .mailbox rfl
    exact pushing_update (fun he => nomatch he) (by rw [hs]; exact fun he => nomatch he)

-- ---------------------------------------------------------------------------
-- The receiver
-- ---------------------------------------------------------------------------

/-- A bit that is set between the read and the clear is cleared too; the event
that follows covers it. -/
theorem ok_isrNext (h : Ok N s) : Ok N (isrNext s) := by
  unfold isrNext
  split
  · exact h.of_same rfl rfl rfl (fun _ => Iff.rfl) fun _ => .isr fun he => nomatch he
  · exact h.of_same rfl rfl rfl (fun _ => Iff.rfl) fun _ => .isr fun he => nomatch he
  · exact h.of_same rfl rfl rfl (fun _ => Iff.rfl) fun _ => .event rfl

/-- The receiving thread moves on, and does not fall asleep. -/
theorem Ok.of_rx (h : Ok N s) (hring : s'.ring = s.ring) (hsend : s'.senders = s.senders)
    (hpop : s.ring.got = s'.log.map (·.1) ++ s'.inHand) (hold : s.rx ≠ .popping)
    (hnew : s'.rx ≠ .blocked) : Ok N s' := by
  refine ⟨hring ▸ h.ring, ?_, hring ▸ hpop, fun _ => ?_, fun hb => absurd hb hnew⟩
  · rw [hring, hsend]
    exact h.pushing
  · rw [hring]
    exact h.cons hold

/-- A pop takes a step, and the receiving thread goes on to `x`. -/
theorem Ok.of_pop (h : Ok N s) {r : Ring n} {x : Rx} (hr : Ring.Ok N 0 r)
    (hprod : r.prod = s.ring.prod)
    (hpop : r.got = s.log.map (·.1) ++ inHand { s with ring := r, rx := x })
    (hcons : x ≠ .popping → r.cons = .idle) (hsleep : x = .blocked → r.got = r.sent) :
    Ok N { s with ring := r, rx := x } := by
  refine ⟨hr, ?_, hpop, hcons, fun hb hne => absurd (hsleep hb) hne⟩
  show ∀ t, r.prod t ≠ .idle ↔ _
  rw [hprod]
  exact h.pushing

theorem ok_popping (h : Ok N s) (hd : N ∣ wrap) (hN : N < wrap) (hs : s.rx = .popping) :
    Ok N (rxNext N s) := by
  have hgot : s.ring.got = s.log.map (·.1) := by
    have := h.popped
    rw [show s.inHand = [] by unfold inHand; rw [hs], List.append_nil] at this
    exact this
  have hkeep : ∀ r : Ring n, Ring.Ok N 0 r → r.prod = s.ring.prod → r.got = s.ring.got →
      Ok N { s with ring := r } := by
    intro r hr hp hg
    have := h.of_pop (x := s.rx) hr hp ?_ (fun hx => absurd hs hx)
      (fun hx => by rw [hs] at hx; cases hx)
    · exact this
    · rw [hg]
      exact h.popped
  unfold rxNext
  rw [hs]
  dsimp only
  rw [← hs]
  split
  · refine hkeep _ (Ring.ok_popStart h.ring) ?_ ?_
    · unfold Ring.popStart
      split <;> rfl
    · unfold Ring.popStart
      split <;> rfl
  · have hr := Ring.ok_popNext h.ring hd hN
    have hempty := h.ring.empty (N := N) hN
    have hp := Ring.popped N s.ring
    generalize Ring.popNext N s.ring = q at hr hempty hp ⊢
    cases hp with
    | goesOn r hp hg => exact hkeep r hr hp hg
    | empty r hp hg hc hsent =>
      refine h.of_pop hr hp ?_ (fun _ => hc) fun _ => ?_
      · rw [hg, hgot]
        exact (List.append_nil _).symm
      · rw [hg, hsent]
        exact hempty rfl
    | got r m hp hg hc =>
      refine h.of_pop hr hp ?_ (fun _ => hc) fun hx => nomatch hx
      rw [hg, hgot]
      rfl

theorem ok_rxNext (h : Ok N s) (hd : N ∣ wrap) (hN : N < wrap) : Ok N (rxNext N s) := by
  have hgot := h.popped
  cases hs : s.rx with
  | popping => exact ok_popping h hd hN hs
  | looking m =>
    have hold : s.rx ≠ .popping := by rw [hs]; exact fun he => nomatch he
    rw [show s.inHand = [m] by unfold inHand; rw [hs]] at hgot
    unfold rxNext
    rw [hs]
    dsimp only
    split
    · refine h.of_rx rfl rfl ?_ hold fun he => nomatch he
      rw [hgot]
      simp [inHand]
    · exact h.of_rx rfl rfl hgot hold fun he => nomatch he
  | calling m fn =>
    have hold : s.rx ≠ .popping := by rw [hs]; exact fun he => nomatch he
    rw [show s.inHand = [] by unfold inHand; rw [hs]] at hgot
    unfold rxNext
    rw [hs]
    exact h.of_rx rfl rfl hgot hold fun he => nomatch he
  | handling m fn ctx =>
    have hold : s.rx ≠ .popping := by rw [hs]; exact fun he => nomatch he
    rw [show s.inHand = [] by unfold inHand; rw [hs]] at hgot
    unfold rxNext
    rw [hs]
    exact h.of_rx rfl rfl hgot hold fun he => nomatch he
  | putting m =>
    have hold : s.rx ≠ .popping := by rw [hs]; exact fun he => nomatch he
    rw [show s.inHand = [m] by unfold inHand; rw [hs]] at hgot
    unfold rxNext
    rw [hs]
    dsimp only
    split
    · refine h.of_rx rfl rfl ?_ hold fun he => nomatch he
      rw [hgot]
      simp [inHand]
    · refine h.of_rx rfl rfl ?_ hold fun he => nomatch he
      rw [hgot]
      simp [inHand]
  | blocked =>
    have hold : s.rx ≠ .popping := by rw [hs]; exact fun he => nomatch he
    rw [show s.inHand = [] by unfold inHand; rw [hs]] at hgot
    unfold rxNext
    rw [hs]
    dsimp only
    split
    · exact h.of_rx rfl rfl hgot hold fun he => nomatch he
    · exact h

theorem ok_step (h : Ok N s) (hd : N ∣ wrap) (hN : N < wrap) (o : Op n) (ho : Alone s o) :
    Ok N (step N s o) := by
  cases o with
  | send t m now => exact ok_send h now
  | sendNext t => exact ok_sendNext h hd hN ho
  | isrNext => exact ok_isrNext h
  | rxNext => exact ok_rxNext h hd hN
  | receive =>
    exact h.of_same rfl rfl rfl (fun _ => Iff.rfl) fun hw => hw.of_same rfl rfl rfl rfl
  | setCtx type ctx =>
    show Ok N (setCtx type ctx s)
    unfold setCtx
    split
    · exact h.of_same rfl rfl rfl (fun _ => Iff.rfl) fun hw => hw.of_same rfl rfl rfl rfl
    · exact h
  | setFn type fn =>
    show Ok N (setFn type fn s)
    unfold setFn
    split
    · exact h.of_same rfl rfl rfl (fun _ => Iff.rfl) fun hw => hw.of_same rfl rfl rfl rfl
    · exact h

-- ---------------------------------------------------------------------------
-- The properties
-- ---------------------------------------------------------------------------

/-- The receiving thread alone writes the log, one message at a time. -/
theorem rxNext_log (N : Nat) (s : Link n) : (rxNext N s).log = s.log ∨
    ∃ m f, (rxNext N s).log = s.log ++ [(m, f)] ∧ Fair N s (rxNext N s) m f := by
  unfold rxNext
  split
  · split
    · exact .inl rfl
    · split <;> exact .inl rfl
  · rename_i m hs
    split
    · rename_i hf
      exact .inr ⟨m, _, rfl, hs, rfl, hf⟩
    · exact .inl rfl
  · exact .inl rfl
  · exact .inl rfl
  · rename_i m hs
    split
    · exact .inr ⟨m, _, rfl, hs, rfl⟩
    · rename_i hq
      exact .inr ⟨m, _, rfl, hs, Nat.le_of_not_lt hq⟩
  · split <;> exact .inl rfl

theorem rxNext_putting (N : Nat) (s : Link n) (m : Msg) (h : (rxNext N s).rx = .putting m) :
    s.rx = .putting m ∨ s.handler m = 0 := by
  unfold rxNext at h
  split at h
  · rename_i hs
    split at h
    · rw [show ({ s with ring := _ } : Link n).rx = s.rx from rfl, hs] at h
      cases h
    · split at h
      · rw [show ({ s with ring := _ } : Link n).rx = s.rx from rfl, hs] at h
        cases h
      · cases h
      · cases h
  · split at h
    · cases h
    · rename_i hf
      cases h
      exact .inr (by simpa using hf)
  · cases h
  · cases h
  · split at h <;> cases h
  · split at h
    · cases h
    · exact .inl h

/-- What the other operations leave alone. -/
theorem step_rx (N : Nat) (s : Link n) (o : Op n) :
    o = .rxNext ∨ (step N s o).log = s.log ∧ (step N s o).rx = s.rx := by
  cases o with
  | rxNext => exact .inl rfl
  | send t m now =>
    right
    show (send t m now s).log = _ ∧ (send t m now s).rx = _
    unfold send
    split
    · split <;> exact ⟨rfl, rfl⟩
    · exact ⟨rfl, rfl⟩
  | sendNext t =>
    right
    show (sendNext N t s).log = _ ∧ (sendNext N t s).rx = _
    unfold sendNext
    split
    · exact ⟨rfl, rfl⟩
    · exact ⟨rfl, rfl⟩
    · split <;> exact ⟨rfl, rfl⟩
    · exact ⟨rfl, rfl⟩
  | isrNext =>
    right
    show (isrNext s).log = _ ∧ (isrNext s).rx = _
    unfold isrNext
    split <;> exact ⟨rfl, rfl⟩
  | receive => exact .inr ⟨rfl, rfl⟩
  | setCtx type ctx =>
    right
    show (setCtx type ctx s).log = _ ∧ (setCtx type ctx s).rx = _
    unfold setCtx
    split <;> exact ⟨rfl, rfl⟩
  | setFn type fn =>
    right
    show (setFn type fn s).log = _ ∧ (setFn type fn s).rx = _
    unfold setFn
    split <;> exact ⟨rfl, rfl⟩

/-- A sleeping receiver has nothing to receive. -/
theorem Ok.asleep (h : Ok N s) (ha : Asleep s) : s.ring.got = s.ring.sent := by
  by_contra hne
  cases h.woken ha.rx hne with
  | kicking t ht =>
    rw [ha.senders t] at ht
    cases ht
  | mailbox hm =>
    rw [ha.mailbox] at hm
    cases hm
  | isr hi => exact hi ha.isr
  | event he =>
    rw [ha.event] at he
    cases he

theorem Ok.delivers (h : Ok N s) (hN : N < wrap) : Delivers N s where
  asleep ha := by
    have hg := h.asleep ha
    exact ⟨(h.ring.head_eq_tail hN).mpr (congrArg List.length hg).symm, hg⟩
  order := h.ring.order
  popped := h.popped
  once o := by
    rcases step_rx N s o with rfl | ⟨hlog, -⟩
    · exact rxNext_log N s
    · exact .inl hlog
  unhandled o m hm := by
    rcases step_rx N s o with rfl | ⟨-, hrx⟩
    · exact rxNext_putting N s m hm
    · exact .inl (hrx ▸ hm)

theorem ok_run (hd : N ∣ wrap) (hN : N < wrap) {l : List (Op n)}
    (h : Along (step N) Alone (init n) l) : Ok N (run (step N) (init n) l) :=
  h.invariant (I := Ok N) (ok_init N n) fun _ o hs ho => ok_step hs hd hN o ho

theorem along_one (s : Link 1) (l : List (Op 1)) : Along (step N) Alone s l := by
  induction l generalizing s with
  | nil => exact .nil
  | cons o l ih =>
    refine .cons ?_ (ih _)
    cases o with
    | sendNext t =>
      unfold Alone
      dsimp only
      split
      · exact fun i hi => absurd (Subsingleton.elim i t) hi
      · trivial
    | _ => trivial

-- ---------------------------------------------------------------------------
-- Calls that are not interrupted
-- ---------------------------------------------------------------------------

/-- Thread `t` sends, without a break. -/
def sendOps (t : Fin n) (m : Msg) : List (Op n) :=
  .send t m 0 :: List.replicate (msgWords + 4) (.sendNext t)

/-- The receiving thread pops, without a break. -/
def popOps (n : Nat) : List (Op n) := List.replicate (msgWords + 3) .rxNext

theorem run_fill (hs : s.senders t = .pushing) (hp : s.ring.prod t = .filling m head k) (j : Nat)
    (hj : k + j ≤ msgWords) : run (step N) s (List.replicate j (.sendNext t)) =
      { s with ring := run (Ring.step N) s.ring (List.replicate j (.pushNext t)) } := by
  induction j generalizing s k with
  | zero => rfl
  | succ j ih =>
    have hk : k < msgWords := by omega
    have hpush : Ring.pushNext N t s.ring = (Ring.step N s.ring (.pushNext t), none) ∧
        (Ring.step N s.ring (.pushNext t)).prod t = .filling m head (k + 1) := by
      show Ring.pushNext N t s.ring = ((Ring.pushNext N t s.ring).1, none) ∧
        (Ring.pushNext N t s.ring).1.prod t = _
      unfold Ring.pushNext
      rw [hp]
      simp only [hk, ↓reduceDIte, Ring.setProd, Function.update_self, and_self]
    have hstep : step N s (.sendNext t) = { s with ring := Ring.step N s.ring (.pushNext t) } := by
      show sendNext N t s = _
      unfold sendNext
      rw [hs]
      dsimp only
      rw [hpush.1]
    rw [List.replicate_succ, List.replicate_succ, run_cons, run_cons, hstep,
      ih (s := { s with ring := Ring.step N s.ring (.pushNext t) }) hs hpush.2 (by omega)]

/-- `syn_ipc_send` of a message with an id, while the ring is not full. -/
theorem run_send (hs : s.senders t = .idle) (hp : s.ring.prod t = .idle)
    (hr : ¬(s.ring.head + wrap - s.ring.tail) % wrap ≥ N) (ht : m.type < typeCount)
    (hid : m 0 ≠ 0) (htime : m 3 = 0) : run (step N) s (sendOps t m) = { s with
      ring := run (Ring.step N) s.ring (Ring.pushOps t m), mailbox := true } := by
  have hstamp : m.stamp (s.nextId + 1) 0 = m := by
    unfold Msg.stamp
    rw [if_neg hid, ← htime, Function.update_eq_self]
  have hsend : step N s (.send t m 0) = s.setSender t (.stamped m) := by
    show send t m 0 s = _
    unfold send
    rw [hs]
    simp only [if_neg (Nat.not_le_of_lt ht), if_neg hid, hstamp]
    rfl
  have hstart : step N (s.setSender t (.stamped m)) (.sendNext t) =
      { s.setSender t .pushing with ring := s.ring.setProd t (.started m s.ring.head) } := by
    show sendNext N t _ = _
    unfold sendNext
    simp only [setSender, Function.update_self, Function.update_idem, Ring.pushStart, hp]
  have hcheck : step N { s.setSender t .pushing with ring := s.ring.setProd t (.started m s.ring.head) }
      (.sendNext t) =
      { s.setSender t .pushing with ring := s.ring.setProd t (.filling m s.ring.head 0) } := by
    show sendNext N t _ = _
    unfold sendNext Ring.pushNext
    simp only [setSender, Ring.setProd, Function.update_self, Function.update_idem]
    rw [if_neg hr]
  have hslot : (fun i : Fin msgWords =>
      if 0 ≤ i.val ∧ i.val < msgWords then m i else s.ring.slots (s.ring.head % N) i) = m :=
    funext fun i => if_pos ⟨Nat.zero_le _, i.isLt⟩
  have hprod : Function.update s.ring.prod t .idle = s.ring.prod := by rw [← hp, Function.update_eq_self]
  have hidle : Function.update s.senders t .idle = s.senders := by rw [← hs, Function.update_eq_self]
  have hops : sendOps t m = .send t m 0 :: .sendNext t :: .sendNext t ::
      (List.replicate msgWords (.sendNext t) ++ [.sendNext t, .sendNext t]) := rfl
  rw [hops, run_cons, run_cons, run_cons, hsend, hstart, hcheck, run_append,
    run_fill (Function.update_self ..) (Function.update_self ..) msgWords (by omega),
    Ring.run_fill (Function.update_self ..) msgWords (by omega), Ring.run_push hp hr, run_cons, run_cons,
    run_nil]
  show sendNext N t (sendNext N t _) = _
  unfold sendNext Ring.pushNext
  simp only [setSender, Ring.setProd, Function.update_self, Function.update_idem, hslot, hprod,
    Nat.zero_add, lt_irrefl, ↓reduceDIte, ↓reduceIte, hidle]

theorem run_copy (hs : s.rx = .popping) (hc : s.ring.cons = .copying tail k m) (j : Nat)
    (hj : k + j ≤ msgWords) : run (step N) s (List.replicate j .rxNext) =
      { s with ring := run (Ring.step N) s.ring (List.replicate j .popNext) } := by
  induction j generalizing s k m with
  | zero => rfl
  | succ j ih =>
    have hk : k < msgWords := by omega
    have hpop : Ring.popNext N s.ring = (Ring.step N s.ring .popNext, none) ∧
        ∃ m', (Ring.step N s.ring .popNext).cons = .copying tail (k + 1) m' := by
      show Ring.popNext N s.ring = ((Ring.popNext N s.ring).1, none) ∧
        ∃ m', (Ring.popNext N s.ring).1.cons = _
      unfold Ring.popNext
      rw [hc]
      simp only [hk, ↓reduceDIte, true_and]
      exact ⟨_, rfl⟩
    obtain ⟨hnone, m', hm⟩ := hpop
    have hstep : step N s .rxNext = { s with ring := Ring.step N s.ring .popNext } := by
      show rxNext N s = _
      unfold rxNext
      rw [hs]
      dsimp only
      rw [if_neg (by rw [hc]; exact fun he => nomatch he), hnone]
    rw [List.replicate_succ, List.replicate_succ, run_cons, run_cons, hstep,
      ih (s := { s with ring := Ring.step N s.ring .popNext }) hs hm (by omega)]

/-- The receiving thread pops a message. -/
theorem run_pop (hs : s.rx = .popping) (hc : s.ring.cons = .idle) (hne : s.ring.head ≠ s.ring.tail) :
    run (step N) s (popOps n) = { s with
      ring := run (Ring.step N) s.ring Ring.popOps
      rx := .looking (s.ring.slots (s.ring.tail % N)) } := by
  have hstart : step N s .rxNext = { s with ring := { s.ring with cons := .started s.ring.tail } } := by
    show rxNext N s = _
    unfold rxNext Ring.popStart
    rw [hs]
    simp only [hc, ↓reduceIte]
  have hcheck : step N { s with ring := { s.ring with cons := .started s.ring.tail } } .rxNext =
      { s with ring := { s.ring with cons := .copying s.ring.tail 0 fun _ => 0 } } := by
    show rxNext N _ = _
    unfold rxNext Ring.popNext
    simp only [hs, reduceCtorEq, ↓reduceIte, if_neg hne]
  have hm : (fun i : Fin msgWords => if 0 ≤ i.val ∧ i.val < msgWords
      then s.ring.slots (s.ring.tail % N) i else (0 : UInt32)) = s.ring.slots (s.ring.tail % N) :=
    funext fun i => if_pos ⟨Nat.zero_le _, i.isLt⟩
  have hops : popOps n = .rxNext :: .rxNext :: (List.replicate msgWords .rxNext ++ [.rxNext]) := rfl
  rw [hops, run_cons, run_cons, hstart, hcheck, run_append,
    run_copy (s := { s with ring := { s.ring with cons := .copying s.ring.tail 0 fun _ => 0 } })
      hs rfl msgWords (by omega),
    Ring.run_copy (s := { s.ring with cons := .copying s.ring.tail 0 fun _ => 0 }) rfl msgWords (by omega),
    Ring.run_pop hc hne, run_cons, run_nil]
  show rxNext N _ = _
  unfold rxNext Ring.popNext
  simp only [hs, hc, Nat.zero_add, lt_irrefl, ↓reduceDIte, ↓reduceIte, hm, reduceCtorEq]

-- ---------------------------------------------------------------------------
-- Several senders
-- ---------------------------------------------------------------------------

/-- Threads whose pushes do not overlap. -/
theorem senders_lose_nothing (n N : Nat) (h64 : N ≤ 64) (hd : N ∣ wrap) (l : List (Op n))
    (h : Along (step N) Alone (init n) l) : Ring.Fifo N (run (step N) (init n) l).ring :=
  have hN : N < wrap := lt_of_le_of_lt h64 (by decide)
  (ok_run hd hN h).ring.fifo hN

theorem senders_lose_nothing_two : Ring.Fifo 16
    (run (step 16) (init 2) (sendOps 0 (Ring.numbered 0) ++ sendOps 1 (Ring.numbered 1))).ring :=
  senders_lose_nothing 2 16 (by decide) (by decide) _ (by decide +kernel)

/-- Both threads read the index before either publishes it. -/
def overlapOps : List (Op 2) :=
  [.send 0 (Ring.numbered 0) 0, .send 1 (Ring.numbered 1) 0, .sendNext 0, .sendNext 1] ++
    List.replicate (msgWords + 1) (.sendNext 0) ++ List.replicate (msgWords + 1) (.sendNext 1) ++
    [.sendNext 0, .sendNext 1] ++ List.replicate (msgWords + 3) .rxNext

/-- The second message overwrites the first. -/
theorem overlapping_sends : ¬∀ n l, Ring.Fifo 16 (run (step 16) (init n) l).ring := fun h => by
  have hlost : ¬(run (step 16) (init 2) overlapOps).ring.got <+:
      (run (step 16) (init 2) overlapOps).ring.sent := by decide +kernel
  exact hlost (h 2 overlapOps).order

-- ---------------------------------------------------------------------------
-- Up to the wrap
-- ---------------------------------------------------------------------------

/-- The receiving thread pops and queues a message, which is received. -/
def receiveOps (n : Nat) : List (Op n) := popOps n ++ [.rxNext, .rxNext, .receive]

theorem run_receive (hs : s.rx = .popping) (hc : s.ring.cons = .idle)
    (hne : s.ring.head ≠ s.ring.tail) (hf : s.fns = fun _ => 0) (hq : s.queue = []) (hN : 0 < N) :
    run (step N) s (receiveOps n) = { s with
      ring := run (Ring.step N) s.ring Ring.popOps
      log := s.log ++ [(s.ring.slots (s.ring.tail % N), .queued)] } := by
  have hhandler : ∀ (x : Link n) m, x.fns = s.fns → x.handler m = 0 := fun x m hx => by
    unfold handler
    rw [hx, hf]
    split <;> rfl
  have hlook : ∀ (x : Link n) m, x.rx = .looking m → x.fns = s.fns →
      rxNext N x = { x with rx := .putting m } := fun x m hx hfx => by
    unfold rxNext
    rw [hx]
    dsimp only
    rw [if_neg (not_not.mpr (hhandler x m hfx))]
  have hput : ∀ (x : Link n) m, x.rx = .putting m → x.queue = [] →
      rxNext N x = { x with rx := .popping, queue := [m], log := x.log ++ [(m, .queued)] } :=
    fun x m hx hqx => by
      unfold rxNext
      rw [hx]
      dsimp only
      rw [if_pos (by rw [hqx]; exact hN), hqx]
      rfl
  unfold receiveOps
  rw [run_append, run_pop hs hc hne, run_cons, run_cons, run_cons, run_nil]
  generalize hm : s.ring.slots (s.ring.tail % N) = m
  show receive (rxNext N (rxNext N { s with ring := _, rx := .looking m })) = _
  rw [hlook { s with ring := _, rx := .looking m } m rfl rfl,
    hput { s with ring := _, rx := .putting m } m rfl hq]
  unfold receive
  simp only [List.tail_cons, ← hs, ← hq]

/-- All messages are delivered, and no thread is in a call. -/
structure Resting (k : Nat) (s : Link 1) : Prop where
  ring : Ring.Rests (k % wrap) s.ring
  sender : s.senders 0 = .idle
  rx : s.rx = .popping
  queue : s.queue = []
  fns : s.fns = fun _ => 0

/-- A message is sent, queued and received. -/
def cycleOps : List (Op 1) := sendOps 0 (Ring.numbered 0) ++ receiveOps 1

theorem Resting.cycle {s : Link 1} (h : Resting k s) (hN : 0 < N) :
    Resting (k + 1) (run (step N) s cycleOps) := by
  have hk : k % wrap < wrap := Nat.mod_lt _ (by decide)
  have hr := h.ring
  have hroom : ¬(s.ring.head + wrap - s.ring.tail) % wrap ≥ N := by
    rw [hr.head, hr.tail, show k % wrap + wrap - k % wrap = wrap by omega, Nat.mod_self]
    omega
  have hnext : (k % wrap + 1) % wrap ≠ k % wrap := fun he => by
    have hz : (k % wrap + 0) % wrap = k % wrap := by rw [Nat.add_zero, Nat.mod_eq_of_lt hk]
    have := (Ring.count_eq (c := k % wrap) (a := 1) (b := 0) (by omega) (by decide)).mp (he.trans hz.symm)
    omega
  have hpush := Ring.run_push (N := N) (m := Ring.numbered 0) hr.prod hroom
  have hne : (run (Ring.step N) s.ring (Ring.pushOps 0 (Ring.numbered 0))).head ≠
      (run (Ring.step N) s.ring (Ring.pushOps 0 (Ring.numbered 0))).tail := by
    rw [hpush]
    show (s.ring.head + 1) % wrap ≠ s.ring.tail
    rw [hr.head, hr.tail]
    exact hnext
  have hcons : (run (Ring.step N) s.ring (Ring.pushOps 0 (Ring.numbered 0))).cons = .idle := by
    rw [hpush]
    exact hr.cons
  have hrecv := run_receive (N := N) (s := { s with
    ring := run (Ring.step N) s.ring (Ring.pushOps 0 (Ring.numbered 0)), mailbox := true })
    h.rx hcons hne h.fns h.queue hN
  unfold cycleOps
  rw [run_append, run_send h.sender hr.prod hroom (by decide) (by decide) (by decide), hrecv]
  refine ⟨?_, h.sender, h.rx, h.queue, h.fns⟩
  show Ring.Rests _ (run (Ring.step N) (run (Ring.step N) s.ring _) Ring.popOps)
  rw [Ring.run_pop hcons hne, hpush]
  refine ⟨?_, ?_, hr.prod, hr.cons, ?_⟩
  · show (s.ring.head + 1) % wrap = (k + 1) % wrap
    rw [hr.head, Nat.mod_add_mod]
  · show (s.ring.tail + 1) % wrap = (k + 1) % wrap
    rw [hr.tail, Nat.mod_add_mod]
  · show s.ring.got ++ [Function.update s.ring.slots (s.ring.head % N) _ (s.ring.tail % N)] =
      s.ring.sent ++ [_]
    rw [hr.got, hr.head, hr.tail, Function.update_self]

theorem exists_resting (hN : 0 < N) (k : Nat) : ∃ l, Resting k (run (step N) (init 1) l) := by
  induction k with
  | zero => exact ⟨[], ⟨⟨rfl, rfl, rfl, rfl, rfl⟩, rfl, rfl, rfl, rfl⟩⟩
  | succ k ih =>
    obtain ⟨l, hl⟩ := ih
    refine ⟨l ++ cycleOps, ?_⟩
    rw [run_append]
    exact hl.cycle hN

-- ---------------------------------------------------------------------------
-- Across the wrap
-- ---------------------------------------------------------------------------

def fillOps (k : Nat) : List (Op 1) :=
  (List.range k).flatMap fun i => sendOps 0 (Ring.numbered i)

/-- The sends write into the ring and set the mailbox. -/
theorem Resting.fill {s : Link 1} (h : Resting c s) (hN : N < wrap) (k : Nat) (hk : k ≤ N) :
    ∃ b, run (step N) s (fillOps k) =
      { s with ring := run (Ring.step N) s.ring (Ring.fillOps k), mailbox := b } := by
  induction k with
  | zero => exact ⟨s.mailbox, rfl⟩
  | succ k ih =>
    obtain ⟨b, hb⟩ := ih (by omega)
    have hc : c % wrap < wrap := Nat.mod_lt _ (by decide)
    have hf := h.ring.filled hc hN k (by omega)
    have hops : fillOps (k + 1) = fillOps k ++ sendOps 0 (Ring.numbered k) := by
      unfold fillOps
      rw [List.range_succ, List.flatMap_append]
      simp
    have hcount := hf.count hc (by omega)
    refine ⟨true, ?_⟩
    rw [hops, run_append, hb, run_send (by exact h.sender) (by exact hf.prod) ?_ ?_ ?_ ?_,
      Ring.fillOps_succ, run_append]
    · show ¬(_ + wrap - _) % wrap ≥ N
      rw [hcount]
      omega
    · exact (by decide : (0 : UInt32).toNat % 256 < typeCount)
    · exact (by decide : (1 : UInt32) ≠ 0)
    · exact (rfl : (0 : UInt32) = 0)

/-- The last message comes out first. -/
theorem not_delivers (hN : 0 < N) (h64 : N ≤ 64) (hd : ¬N ∣ wrap) :
    ∃ l : List (Op 1), ¬Delivers N (run (step N) (init 1) l) := by
  have hwrap : 64 < wrap := by decide
  obtain ⟨l, hl⟩ := exists_resting hN (wrap - 1)
  have hlt : wrap % N < N := Nat.mod_lt _ hN
  have hr := hl.ring
  rw [Nat.mod_eq_of_lt (by omega : wrap - 1 < wrap)] at hr
  obtain ⟨b, hb⟩ := hl.fill (N := N) (by omega) (wrap % N + 1) (by omega)
  obtain ⟨hg, hsent⟩ := hr.run_wrapOps hN h64 hd
  refine ⟨l ++ (fillOps (wrap % N + 1) ++ popOps 1), fun hdel => ?_⟩
  have hf := hr.filled (N := N) (by omega) (by omega) (wrap % N + 1) (by omega)
  have hord := hdel.order
  rw [run_append, run_append, hb, run_pop (by exact hl.rx) (by exact hf.cons) ?_] at hord
  · unfold Ring.wrapOps at hg hsent
    rw [run_append] at hg hsent
    dsimp only at hord
    rw [hg, hsent] at hord
    exact Ring.not_prefix hN h64 hd _ hord
  · show _ ≠ _
    dsimp only
    rw [hf.head, hf.tail, show wrap - 1 + (wrap % N + 1) = wrap % N + wrap by omega,
      Nat.add_mod_right, Nat.mod_eq_of_lt (by omega)]
    omega

/-- One sending thread, for the entry counts that the build admits. -/
theorem link_delivers (N : Nat) (h4 : 4 ≤ N) (h64 : N ≤ 64) :
    (∀ l, Delivers N (run (step N) (init 1) l)) ↔ N ∣ wrap := by
  have hN : N < wrap := lt_of_le_of_lt h64 (by decide)
  constructor
  · intro h
    by_contra hd
    obtain ⟨l, hl⟩ := not_delivers (by omega) h64 hd
    exact hl (h l)
  · intro hd l
    exact (ok_run hd hN (along_one _ l)).delivers hN

theorem link_delivers_sixteen : (∀ l, Delivers 16 (run (step 16) (init 1) l)) ↔ 16 ∣ wrap :=
  link_delivers 16 (by decide) (by decide)

/-- With five entries a message is lost after the counters wrap. -/
theorem five_entries_lose : ¬∀ N, 4 ≤ N → N ≤ 64 → ∀ l, Delivers N (run (step N) (init 1) l) := fun h => by
  obtain ⟨l, hl⟩ := not_delivers (N := 5) (by decide) (by decide) (by decide)
  exact hl (h 5 (by decide) (by decide) l)

end SynapticOS.Ipc.Link
