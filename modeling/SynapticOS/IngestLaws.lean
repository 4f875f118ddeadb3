import SynapticOS.Ingest

/-!
# What the ingest pump delivers

A run consumes its frames in order, each from a buffer that nothing writes to,
as long as no transfer completes between the pump's last look at the channel and
the `k_sem_reset` before it: the semaphore is reset, then the source filled, and
only then `syn_hal_dma_configure` asks whether the channel is busy.
-/

namespace SynapticOS.Ingest

open Lib

variable {s : State} {cfg : IngestConfig} {seq j n : Nat} {e : Event}

namespace State

/-- What the source held once frame `seq` was filled. -/
def frame (s : State) (seq : Nat) : List UInt8 := s.filled.getD seq []

/-- What the buffer of frame `seq` holds. -/
def contents (s : State) (seq : Nat) : List UInt8 := s.mem.read (s.cfg.buf seq) s.cfg.frameSize

/-- `process` gets the frames in order and without gaps, each as it was filled; a
buffer that is being read is not written to, and a run that returns zero has
consumed all of its frames. -/
structure Delivers (s : State) : Prop where
  order : s.seen.map Prod.fst = List.range s.seen.length
  frames : ∀ p ∈ s.seen, p.1 < s.filled.length ∧ p.2 = s.frame p.1
  reading : ∀ seq, s.pump = .processing seq → s.contents seq = s.frame seq ∧
    (s.ch.active = true → s.ch.cfg.dstAddr + s.ch.cfg.transferSize ≤ s.cfg.buf seq ∨
      s.cfg.buf seq + s.cfg.frameSize ≤ s.ch.cfg.dstAddr)
  all : s.ret = some 0 → s.seen.length = s.frames

/-- The pump has reset the semaphore and not yet asked the channel whether a
transfer is under way. -/
def resetting (s : State) : Bool :=
  match s.pump with
  | .fill _ | .configure _ => true
  | _ => false

/-- No transfer completes between the reset and the look at the channel. -/
def Settled (s : State) (e : Event) : Prop :=
  match e with
  | .dma => s.ch.active = true → s.resetting = false
  | _ => True

instance : Decidable (Settled s e) :=
  match e with
  | .dma => inferInstanceAs (Decidable (_ → _))
  | .call _ _ | .next _ | .timeout => .isTrue trivial

-- ---------------------------------------------------------------------------
-- The invariant
-- ---------------------------------------------------------------------------

/-- Frame `seq` is in its buffer and the channel is at rest. -/
structure Landed (s : State) (seq : Nat) : Prop where
  rest : s.ch.active = false
  buffer : s.contents seq = s.frame seq

/-- The transfer of frame `seq` is under way. -/
structure Underway (s : State) (seq : Nat) : Prop where
  active : s.ch.active = true
  transfer : s.ch.cfg = transfer s.cfg seq
  token : s.dmaDone = false
  source : s.mem.read s.cfg.src s.cfg.frameSize = s.frame seq

/-- The transfer of frame `seq` is under way, or its token has not been taken yet. -/
def Kicked (s : State) (seq : Nat) : Prop :=
  s.Underway seq ∨ s.Landed seq ∧ s.dmaDone = true

/-- While frame `seq` is kicked off, its predecessor stays in the other buffer. -/
def Behind (s : State) (seq : Nat) : Prop :=
  s.seen.length = seq - 1 ∧ ∀ j, seq = j + 1 → s.Landed j

/-- Frame `seq` is being consumed while its successor, if there is one, arrives. -/
structure Consuming (s : State) (seq : Nat) : Prop where
  buffer : s.contents seq = s.frame seq
  more : seq + 1 < s.frames → s.filled.length = seq + 2 ∧ s.Kicked (seq + 1)
  last : ¬seq + 1 < s.frames → s.filled.length = seq + 1 ∧ s.ch.active = false

/-- What holds where the pump stands. -/
def At (s : State) : Pump → Prop
  | .idle => True
  | .kick seq => seq < s.frames ∧ s.filled.length = seq ∧ s.Behind seq
  | .fill seq => seq < s.frames ∧ s.filled.length = seq ∧ s.Behind seq ∧ s.dmaDone = false
  | .configure seq => seq < s.frames ∧ s.filled.length = seq + 1 ∧ s.Behind seq ∧
      s.dmaDone = false ∧ s.mem.read s.cfg.src s.cfg.frameSize = s.frame seq
  | .start seq => seq < s.frames ∧ s.filled.length = seq + 1 ∧ s.Behind seq ∧
      s.dmaDone = false ∧ s.mem.read s.cfg.src s.cfg.frameSize = s.frame seq ∧
      s.ch.active = false ∧ s.ch.cfg = transfer s.cfg seq
  | .wait seq => seq < s.frames ∧ s.filled.length = seq + 1 ∧ s.seen.length = seq ∧ s.Kicked seq
  | .process seq => seq < s.frames ∧ s.seen.length = seq ∧ s.Consuming seq
  | .processing seq => seq < s.frames ∧ s.seen.length = seq + 1 ∧ s.Consuming seq

structure Inv (s : State) : Prop where
  order : s.seen.map Prod.fst = List.range s.seen.length
  frames : ∀ p ∈ s.seen, p.1 < s.filled.length ∧ p.2 = s.frame p.1
  status : s.dmaStatus = 0
  all : s.ret = some 0 → s.seen.length = s.frames
  running : s.pump ≠ .idle → s.cfg.Valid s.frames ∧ s.ret = none
  pos : s.At s.pump

-- ---------------------------------------------------------------------------
-- Buffers
-- ---------------------------------------------------------------------------

theorem buf_ne_null (h : cfg.Valid n) (seq : Nat) : cfg.buf seq ≠ null := by
  rcases Nat.mod_two_eq_zero_or_one seq with hm | hm
  · rw [IngestConfig.buf, hm]
    exact h.2.1
  · rw [IngestConfig.buf, hm]
    exact h.2.2.1

/-- A store into one of two separate buffers leaves the other. -/
theorem read_put_apart {m : Mem} {a b : Nat} {bs : List UInt8} (h : Apart n a b) (ha : a ≠ null)
    (hb : b ≠ null) (hl : bs.length ≤ n) : (m.put a bs).read b n = m.read b n := by
  apply Mem.read_congr
  refine (Mem.sameOutside_put (Nat.add_le_add_left hl a)).sameOn ?_
  rcases h with h | h | h | h
  · exact absurd h ha
  · exact absurd h hb
  · exact .inr h
  · exact .inl h

theorem apart_symm {a b : Nat} (h : Apart n a b) : Apart n b a := by
  rcases h with h | h | h | h
  · exact .inr (.inl h)
  · exact .inl h
  · exact .inr (.inr (.inr h))
  · exact .inr (.inr (.inl h))

theorem frame_append (bs : List UInt8) (h : j < s.filled.length) {t : State}
    (ht : t.filled = s.filled ++ [bs]) : t.frame j = s.frame j := by
  rw [frame, frame, ht, List.getD_eq_getElem?_getD, List.getD_eq_getElem?_getD,
    List.getElem?_append_left h]

-- ---------------------------------------------------------------------------
-- Transfers
-- ---------------------------------------------------------------------------

theorem transferWork_rest (h : s.ch.active = false) : s.transferWork = s := by
  rw [transferWork, h]
  rfl

/-- The work item of a transfer that the pump armed. -/
theorem transferWork_run (h : s.ch.active = true) (hc : s.ch.cfg = transfer cfg seq) :
    s.transferWork = { s with
      mem := s.mem.put (cfg.buf seq) (s.mem.read cfg.src cfg.frameSize)
      ch := { s.ch with remaining := 0, active := false }
      dmaStatus := 0
      dmaDone := true } := by
  simp only [transferWork, h, hc, transfer, dmaCb, ↓reduceIte, Bool.false_eq_true]

theorem Underway.lands (h : s.Underway seq) :
    s.transferWork.Landed seq ∧ s.transferWork.dmaDone = true := by
  rw [transferWork_run h.active h.transfer]
  refine ⟨⟨rfl, ?_⟩, rfl⟩
  have hr := @Mem.read_put s.mem (s.cfg.buf seq) (s.mem.read s.cfg.src s.cfg.frameSize)
  rw [Mem.length_read] at hr
  exact hr.trans h.source

/-- The transfer of one frame leaves the buffer of its neighbour. -/
theorem Underway.leaves (h : s.Underway (seq + 1)) (hv : s.cfg.Valid n) :
    s.transferWork.contents seq = s.contents seq := by
  rw [transferWork_run h.active h.transfer]
  exact read_put_apart (apart_symm (s.cfg.bufsApart seq)) (buf_ne_null hv _) (buf_ne_null hv _)
    (by simp)

-- ---------------------------------------------------------------------------
-- The steps
-- ---------------------------------------------------------------------------

/-- A step that touches neither the frames nor the answers. -/
theorem Inv.of_same {t : State} (h : s.Inv) (hf : t.filled = s.filled) (hs : t.seen = s.seen)
    (hd : t.dmaStatus = 0) (hc : t.cfg = s.cfg) (hn : t.frames = s.frames) (hr : t.ret = s.ret)
    (hp : s.pump ≠ .idle) (ht : t.At t.pump) : t.Inv := by
  refine ⟨by rw [hs]; exact h.order, ?_, hd, by rw [hr, hs, hn]; exact h.all,
    fun _ => by rw [hc, hn, hr]; exact h.running hp, ht⟩
  intro p hp
  rw [hs] at hp
  rw [hf, frame, hf]
  exact h.frames p hp

/-- A DMA error ends the run with what it has delivered. -/
theorem Inv.fail (h : s.Inv) : s.fail.Inv :=
  ⟨h.order, h.frames, h.status, fun hr => (nomatch hr), fun hp => absurd rfl hp, trivial⟩

theorem Inv.call (h : s.Inv) (cfg : IngestConfig) (n : Nat) (hp : s.pump = .idle) :
    (s.call cfg n).Inv := by
  rw [State.call]
  split
  next hv =>
    refine ⟨rfl, fun _ hm => (nomatch hm), h.status, fun hr => (nomatch hr), fun _ => ⟨hv, rfl⟩, ?_⟩
    exact ⟨Nat.pos_of_ne_zero hv.2.2.2.2.2, rfl, rfl, fun _ hj => (nomatch hj)⟩
  next =>
    refine ⟨rfl, fun _ hm => (nomatch hm), h.status, fun hr => ?_, fun hne => absurd hp hne, ?_⟩
    · cases hr
    · show State.At _ s.pump
      rw [hp]
      trivial

/-- The token is taken. The next frame of the loop is consumed once its successor is
kicked off. -/
theorem Inv.loopHead (h : s.Inv) (hp : s.pump ≠ .idle) (hn : seq < s.frames)
    (hf : s.filled.length = seq + 1) (hs : s.seen.length = seq) (hl : s.Landed seq) :
    (State.loopHead { s with dmaDone := false } seq).Inv := by
  refine h.of_same rfl rfl h.status rfl rfl rfl hp ?_
  show State.At _ (if seq + 1 < s.frames then .kick (seq + 1) else .process seq)
  split
  next hm =>
    refine ⟨hm, hf, hs, fun j hj => ?_⟩
    obtain rfl := Nat.succ.inj hj
    exact ⟨hl.rest, hl.buffer⟩
  next hm => exact ⟨hn, hs, hl.buffer, fun h => absurd h hm, fun _ => ⟨hf, hl.rest⟩⟩

theorem Inv.fill (h : s.Inv) (hp : s.pump = .fill seq) (bs : List UInt8) : (s.next bs).Inv := by
  have hat := h.pos
  rw [hp] at hat
  obtain ⟨hn, hf, ⟨hs, hb⟩, hd⟩ := hat
  obtain ⟨hv, hr⟩ := h.running (by rw [hp]; simp)
  rw [State.next, hp]
  dsimp only
  have hput : ∀ j, (if s.cfg.fill = true then s.mem.put s.cfg.src (bs.take s.cfg.frameSize)
      else s.mem).read (s.cfg.buf j) s.cfg.frameSize = s.contents j := by
    intro j
    split
    · exact read_put_apart (s.cfg.srcApart j) hv.1 (buf_ne_null hv j) (by simp)
    · rfl
  generalize (if s.cfg.fill = true then s.mem.put s.cfg.src (bs.take s.cfg.frameSize)
    else s.mem) = m at hput
  refine ⟨h.order, ?_, h.status, h.all, fun _ => ⟨hv, hr⟩, ⟨hn, by simp [hf], ⟨hs, ?_⟩, hd, ?_⟩⟩
  · intro p hm
    obtain ⟨hlt, heq⟩ := h.frames p hm
    refine ⟨by simp only [List.length_append, List.length_cons, List.length_nil]; omega, ?_⟩
    rw [heq]
    exact (frame_append _ hlt rfl).symm
  · intro j hj
    obtain ⟨hrest, hbuf⟩ := hb j hj
    refine ⟨hrest, ?_⟩
    show m.read _ _ = _
    rw [hput, hbuf]
    exact (frame_append _ (by omega) rfl).symm
  · show m.read _ _ = List.getD _ _ _
    rw [List.getD_eq_getElem?_getD, List.getElem?_append_right (by omega), hf]
    simp

/-- The channel takes the transfer only if it is at rest. -/
theorem Inv.configure (h : s.Inv) (hp : s.pump = .configure seq) (bs : List UInt8) :
    (s.next bs).Inv := by
  have hat := h.pos
  rw [hp] at hat
  obtain ⟨hn, hf, ⟨hs, hb⟩, hd, hsrc⟩ := hat
  rw [State.next, hp]
  dsimp only [dmaConfigure]
  split
  next hc => exact h.fail
  next hc =>
    split
    next => exact h.fail
    next ha =>
      have ha : s.ch.active = false := by simpa using ha
      exact h.of_same rfl rfl h.status rfl rfl rfl (by rw [hp]; simp)
        ⟨hn, hf, ⟨hs, fun j hj => ⟨ha, (hb j hj).buffer⟩⟩, hd, hsrc, ha, rfl⟩

theorem dmaStart_rest (ha : s.ch.active = false) : s.dmaStart = (einval, s) ∨ s.dmaStart =
    (0, { s with ch := { s.ch with remaining := s.ch.cfg.transferSize, active := true } }) := by
  rw [dmaStart]
  split
  next => exact .inl rfl
  next => exact .inr (by rw [if_neg (by rw [ha]; decide)])

theorem Inv.start (h : s.Inv) (hp : s.pump = .start seq) (bs : List UInt8) : (s.next bs).Inv := by
  have hat := h.pos
  rw [hp] at hat
  obtain ⟨hn, hf, ⟨hs, hb⟩, hd, hsrc, ha, ht⟩ := hat
  rw [State.next, hp]
  dsimp only
  rcases dmaStart_rest ha with hr | hr
  · rw [hr]
    exact h.fail
  · rw [hr]
    dsimp only
    rw [if_neg fun h => h rfl]
    refine h.of_same rfl rfl h.status rfl rfl rfl (by rw [hp]; simp) ?_
    show State.At _ (if seq = 0 then .wait 0 else .process (seq - 1))
    have hu : Underway { s with
        ch := { s.ch with remaining := s.ch.cfg.transferSize, active := true } } seq :=
      ⟨rfl, ht, hd, hsrc⟩
    have hk : ∀ p, Kicked { s with
        ch := { s.ch with remaining := s.ch.cfg.transferSize, active := true }
        pump := p } seq := fun _ => .inl ⟨hu.active, hu.transfer, hu.token, hu.source⟩
    cases seq with
    | zero => exact ⟨hn, hf, hs, hk _⟩
    | succ j =>
      exact ⟨Nat.lt_of_succ_lt hn, hs, (hb j rfl).buffer, fun _ =>
          ⟨hf, hk _⟩, fun hm => absurd hn hm⟩

/-- The token is the one of the transfer that was kicked off last. -/
theorem Inv.wait (h : s.Inv) (hp : s.pump = .wait seq) (bs : List UInt8) : (s.next bs).Inv := by
  have hat := h.pos
  rw [hp] at hat
  obtain ⟨hn, hf, hs, hk⟩ := hat
  rw [State.next, hp]
  dsimp only
  split
  next htok =>
    rw [if_neg (by rw [h.status]; decide)]
    rcases hk with hu | ⟨hl, -⟩
    · rw [hu.token] at htok
      cases htok
    · exact h.loopHead (by rw [hp]; simp) hn hf hs hl
  next => exact h

theorem Inv.process (h : s.Inv) (hp : s.pump = .process seq) (bs : List UInt8) :
    (s.next bs).Inv := by
  have hat := h.pos
  rw [hp] at hat
  obtain ⟨hn, hs, hc⟩ := hat
  obtain ⟨hv, hr⟩ := h.running (by rw [hp]; simp)
  have hfill : seq < s.filled.length := by
    by_cases hm : seq + 1 < s.frames
    · have := (hc.more hm).1
      omega
    · have := (hc.last hm).1
      omega
  rw [State.next, hp]
  refine ⟨?_, ?_, h.status, fun h0 => ?_, fun _ => ⟨hv, hr⟩, ⟨hn, by simp [hs], hc.buffer, ?_, ?_⟩⟩
  · simp only [List.map_append, List.map_cons, List.map_nil, List.length_append, List.length_cons,
      List.length_nil, h.order, hs, Nat.zero_add, List.range_succ]
  · intro p hm
    rcases List.mem_append.mp hm with hm | hm
    · exact h.frames p hm
    · obtain rfl := List.mem_singleton.mp hm
      exact ⟨hfill, hc.buffer⟩
  · rw [hr] at h0
    cases h0
  · intro hm
    obtain ⟨hf, hk⟩ := hc.more hm
    refine ⟨hf, hk.imp (fun hu => ⟨hu.active, hu.transfer, hu.token, hu.source⟩) ?_⟩
    exact fun hl => ⟨⟨hl.1.rest, hl.1.buffer⟩, hl.2⟩
  · exact hc.last

theorem Inv.processing (h : s.Inv) (hp : s.pump = .processing seq) (bs : List UInt8) :
    (s.next bs).Inv := by
  have hat := h.pos
  rw [hp] at hat
  obtain ⟨hn, hs, hc⟩ := hat
  rw [State.next, hp]
  dsimp only
  split
  next hm =>
    obtain ⟨hf, hk⟩ := hc.more hm
    refine h.of_same rfl rfl h.status rfl rfl rfl (by rw [hp]; simp) ⟨hm, hf, hs, ?_⟩
    exact hk.imp (fun hu => ⟨hu.active, hu.transfer, hu.token, hu.source⟩)
      fun hl => ⟨⟨hl.1.rest, hl.1.buffer⟩, hl.2⟩
  next hm =>
    refine ⟨h.order, h.frames, h.status, fun _ => ?_, fun hne => absurd rfl hne, trivial⟩
    show s.seen.length = s.frames
    omega

theorem Inv.next (h : s.Inv) (bs : List UInt8) : (s.next bs).Inv := by
  cases hp : s.pump with
  | idle =>
    rw [State.next, hp]
    exact h
  | kick seq =>
    have hat := h.pos
    rw [hp] at hat
    obtain ⟨hn, hf, hs, hb⟩ := hat
    rw [State.next, hp]
    exact h.of_same rfl rfl h.status rfl rfl rfl (by rw [hp]; simp)
      ⟨hn, hf, ⟨hs, fun j hj => ⟨(hb j hj).rest, (hb j hj).buffer⟩⟩, rfl⟩
  | fill seq => exact h.fill hp bs
  | configure seq => exact h.configure hp bs
  | start seq => exact h.start hp bs
  | wait seq => exact h.wait hp bs
  | process seq => exact h.process hp bs
  | processing seq => exact h.processing hp bs

theorem Inv.timeout (h : s.Inv) : s.timeout.Inv := by
  rw [State.timeout]
  split
  · split
    · exact h
    · exact h.fail
  · exact h

theorem Kicked.transferWork (h : s.Kicked seq) : s.transferWork.Kicked seq := by
  rcases h with hu | ⟨hl, ht⟩
  · exact .inr hu.lands
  · rw [transferWork_rest hl.rest]
    exact .inr ⟨hl, ht⟩

theorem transferWork_same (s : State) : s.transferWork.filled = s.filled ∧
    s.transferWork.seen = s.seen ∧ s.transferWork.cfg = s.cfg ∧ s.transferWork.frames = s.frames ∧
    s.transferWork.ret = s.ret ∧ s.transferWork.pump = s.pump := by
  rw [State.transferWork]
  split
  · dsimp only
    split <;> exact ⟨rfl, rfl, rfl, rfl, rfl, rfl⟩
  · exact ⟨rfl, rfl, rfl, rfl, rfl, rfl⟩

theorem transferWork_status (h : s.dmaStatus = 0) : s.transferWork.dmaStatus = 0 := by
  rw [State.transferWork]
  split
  · dsimp only
    split <;> rfl
  · exact h

/-- A transfer that lands while the pump consumes a frame lands in the other buffer. -/
theorem Consuming.transferWork (h : s.Consuming seq) (hv : s.cfg.Valid n) :
    s.transferWork.Consuming seq := by
  by_cases hm : seq + 1 < s.frames
  · obtain ⟨hf, hk⟩ := h.more hm
    obtain ⟨h1, h2, h3, h4, -, -⟩ := transferWork_same s
    refine ⟨?_, fun _ => ⟨by rw [h1]; exact hf, hk.transferWork⟩, fun hx => absurd (h4 ▸ hm) hx⟩
    have hframe : s.transferWork.frame seq = s.frame seq := by rw [frame, h1, frame]
    rw [hframe, ← h.buffer]
    rcases hk with hu | ⟨hl, -⟩
    · exact hu.leaves hv
    · rw [transferWork_rest hl.rest]
  · rw [transferWork_rest (h.last hm).2]
    exact h

theorem Inv.transferWork (h : s.Inv) (hset : s.Settled .dma) : s.transferWork.Inv := by
  by_cases ha : s.ch.active = false
  · rw [transferWork_rest ha]
    exact h
  have ha : s.ch.active = true := by simpa using ha
  obtain ⟨h1, h2, h3, h4, h5, h6⟩ := transferWork_same s
  have hpos : s.transferWork.At s.pump := by
    have hat := h.pos
    cases hp : s.pump with
    | idle => trivial
    | kick seq =>
      rw [hp] at hat
      obtain ⟨hn, hf, hs, hb⟩ := hat
      refine ⟨h4 ▸ hn, h1 ▸ hf, h2 ▸ hs, fun j hj => ?_⟩
      rw [(hb j hj).rest] at ha
      cases ha
    | fill seq | configure seq =>
      have hr := hset ha
      rw [resetting, hp] at hr
      cases hr
    | start seq =>
      rw [hp] at hat
      rw [hat.2.2.2.2.2.1] at ha
      cases ha
    | wait seq =>
      rw [hp] at hat
      obtain ⟨hn, hf, hs, hk⟩ := hat
      exact ⟨h4 ▸ hn, h1 ▸ hf, h2 ▸ hs, hk.transferWork⟩
    | process seq =>
      rw [hp] at hat
      obtain ⟨hn, hs, hc⟩ := hat
      exact ⟨h4 ▸ hn, h2 ▸ hs, hc.transferWork (h.running (by rw [hp]; simp)).1⟩
    | processing seq =>
      rw [hp] at hat
      obtain ⟨hn, hs, hc⟩ := hat
      exact ⟨h4 ▸ hn, h2 ▸ hs, hc.transferWork (h.running (by rw [hp]; simp)).1⟩
  refine ⟨by rw [h2]; exact h.order, ?_, transferWork_status h.status,
    by rw [h5, h2, h4]; exact h.all, by rw [h6, h3, h4, h5]; exact h.running,
    by rw [h6]; exact hpos⟩
  intro p hm
  rw [h2] at hm
  rw [h1, frame, h1]
  exact h.frames p hm

theorem Inv.step (h : s.Inv) (e : Event) (hset : s.Settled e) : (s.step e).Inv := by
  cases e with
  | call cfg n =>
    rw [State.step]
    split
    next hp => exact h.call cfg _ hp
    next => exact h
  | next bs => exact h.next bs
  | timeout => exact h.timeout
  | dma => exact h.transferWork hset

theorem Inv.delivers (h : s.Inv) : s.Delivers := by
  refine ⟨h.order, h.frames, fun seq hp => ?_, h.all⟩
  have hat := h.pos
  rw [hp] at hat
  obtain ⟨hn, hs, hc⟩ := hat
  refine ⟨hc.buffer, fun ha => ?_⟩
  have hv := (h.running (by rw [hp]; simp)).1
  by_cases hm : seq + 1 < s.frames
  · rcases (hc.more hm).2 with hu | ⟨hl, -⟩
    · rw [hu.transfer]
      rcases s.cfg.bufsApart seq with h | h | h | h
      · exact absurd h (buf_ne_null hv seq)
      · exact absurd h (buf_ne_null hv (seq + 1))
      · exact .inr h
      · exact .inl h
    · rw [hl.rest] at ha
      cases ha
  · rw [(hc.last hm).2] at ha
    cases ha

theorem cold_inv (m : Mem) (known : Bool) (cfg : IngestConfig) : (cold m known cfg).Inv :=
  ⟨rfl, fun _ h => (nomatch h), rfl, fun h => (nomatch h), fun h => absurd rfl h, trivial⟩

/-- Every run of the pump, with any frame counts and any moments of completion,
delivers its frames as long as no transfer completes between a reset of the
semaphore and the look at the channel that follows it. -/
theorem ingest_delivers (m : Mem) (known : Bool) (cfg : IngestConfig) (l : List Event)
    (h : Along step Settled (cold m known cfg) l) : (run step (cold m known cfg) l).Delivers :=
  (h.invariant (cold_inv m known cfg) fun _ e hi hset => hi.step e hset).delivers

/-- Three buffers of one byte. -/
def byteFrames : IngestConfig where
  src := 1
  bufs := fun i => i + 2
  frameSize := 1
  fill := true
  process := true
  srcApart := fun seq => .inr (.inr (by omega))
  bufsApart := fun seq => .inr (.inr (by omega))

/-- Two frames, the second one arriving while the first is consumed. -/
def twoFrames : List Event :=
  [.call byteFrames 2, .next [], .next [7], .next [], .next [], .dma, .next [], .next [], .next [8],
    .next [], .next [], .next [], .dma, .next [], .next [], .next [], .next []]

/-- A run that times out, and one more; the old transfer completes between the two. -/
def secondRun : List Event :=
  [.call byteFrames 2, .next [], .next [5], .next [], .next [], .timeout, .call byteFrames 1, .dma,
    .next [], .next [6], .next [], .next [], .dma, .next [], .next []]

theorem ingest_delivers_twice :
    (run step (cold (fun _ => 0) true byteFrames) twoFrames).Delivers ∧
      (run step (cold (fun _ => 0) true byteFrames) twoFrames).seen = [(0, [7]), (1, [8])] ∧
      (run step (cold (fun _ => 0) true byteFrames) (twoFrames ++ secondRun)).Delivers ∧
      (run step (cold (fun _ => 0) true byteFrames) (twoFrames ++ secondRun)).seen = [(0, [6])] :=
  ⟨ingest_delivers _ _ _ _ (by decide), by decide, ingest_delivers _ _ _ _ (by decide), by decide⟩

/-- The transfer of a run that timed out completes while the next run fills its source. -/
def lateFrame : List Event :=
  [.call byteFrames 1, .next [], .next [7], .next [], .next [], .timeout,
    .call byteFrames 1, .next [], .dma, .next [9], .next [], .next [], .next [], .next []]

theorem late_frame_delivered : ¬∀ (m : Mem) (known : Bool) (cfg : IngestConfig) (l : List Event),
    (run step (cold m known cfg) l).Delivers := by
  intro hall
  have h := (hall (fun _ => 0) true byteFrames lateFrame).frames (0, [7]) (by decide)
  exact absurd h.2 (by decide)

end State

end SynapticOS.Ingest
