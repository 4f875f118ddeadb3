import SynapticOS.Lib.Run
import Mathlib.Data.List.Infix

/-!
# The raw transport of an update

`syn ota rawdata <n>` puts the shell into bypass mode: the UART's bytes go to a callback
that gathers them in a buffer and writes full buffers, and the last one, to the update
session. A watchdog ends a transfer that stalls. The callback and the watchdog run one
at a time.

What `syn_ota_write_chunk` returns is any function of the chunks it has been passed.
-/

namespace SynapticOS.Shell

open Lib

/-- `sizeof(raw.buf)`. -/
def rawBufSize : Nat := 512

def etimedout : Int := -110

/-- `raw`, with the shell and the work queue as far as the transfer goes. -/
structure Raw where
  expected : Nat
  received : Nat
  error : Int
  /-- The first `raw.buffered` bytes of `raw.buf`. -/
  buf : List UInt8
  /-- The shell hands its bytes to the callback. -/
  bypass : Bool
  /-- The watchdog is scheduled. -/
  watchdog : Bool
  /-- What `syn_ota_write_chunk` has been passed. -/
  chunks : List (List UInt8)
  /-- The calls of `ota_raw_finish`. -/
  finishes : Nat
  /-- The bytes that the callback has been handed. -/
  fed : List UInt8
  deriving DecidableEq, Repr

/-- The state `cmd_ota_rawdata` leaves. -/
def rawStart (n : Nat) : Raw :=
  { expected := n, received := 0, error := 0, buf := [], bypass := true, watchdog := true
    chunks := [], finishes := 0, fed := [] }

/-- What a write returns, given all chunks so far. -/
abbrev Writes := List (List UInt8) → Int

def rawFinish (s : Raw) : Raw :=
  { s with watchdog := false, bypass := false, finishes := s.finishes + 1 }

def rawFlush (write : Writes) (s : Raw) : Raw :=
  if s.buf = [] ∨ s.error ≠ 0 then { s with buf := [] }
  else
    let ret := write (s.chunks ++ [s.buf])
    { s with chunks := s.chunks ++ [s.buf], error := if ret ≠ 0 then ret else s.error, buf := [] }

/-- The loop of the callback; every round takes a byte at least. -/
def rawFill (write : Writes) : Nat → List UInt8 → Raw → Raw
  | 0, _, s => s
  | fuel + 1, data, s =>
    if 0 < data.length ∧ s.received < s.expected then
      let take := min (min data.length (rawBufSize - s.buf.length)) (s.expected - s.received)
      let s := { s with buf := s.buf ++ data.take take, received := s.received + take }
      rawFill write fuel (data.drop take)
          (if s.buf.length = rawBufSize then rawFlush write s else s)
    else s

def rawBypass (write : Writes) (data : List UInt8) (s : Raw) : Raw :=
  let s := rawFill write data.length data { s with fed := s.fed ++ data }
  if s.received ≥ s.expected then rawFinish (rawFlush write s) else { s with watchdog := true }

def rawTimeout (s : Raw) : Raw :=
  if s.received < s.expected then rawFinish { s with error := etimedout } else s

inductive RawEvent
  /-- The UART delivers bytes. -/
  | segment (data : List UInt8)
  /-- The time of the watchdog is up. -/
  | timeout
  deriving DecidableEq, Repr

/-- Without the bypass the bytes are the shell's; a work item that is not scheduled does
not run, and one that runs is no longer scheduled. -/
def rawStep (write : Writes) (s : Raw) : RawEvent → Raw
  | .segment data => if s.bypass then rawBypass write data s else s
  | .timeout => if s.watchdog then rawTimeout { s with watchdog := false } else s

-- ---------------------------------------------------------------------------
-- What has been taken
-- ---------------------------------------------------------------------------

variable {write : Writes} {s s' : Raw} {taken data : List UInt8} {n fuel : Nat}

/-- `taken` are the bytes that the callback has taken: they are passed on or in the
buffer, unless a write failed. -/
structure Taken (write : Writes) (taken : List UInt8) (s : Raw) : Prop where
  chunks : ∀ c ∈ s.chunks, c ≠ [] ∧ c.length ≤ rawBufSize
  room : s.buf.length < rawBufSize
  received : s.received = taken.length
  all : s.error = 0 → s.chunks.flatten ++ s.buf = taken
  front : s.chunks.flatten <+: taken
  failed : s.error ≠ 0 → ∃ past, past <+: s.chunks ∧ past ≠ [] ∧ write past ≠ 0

/-- What one call of the callback leaves alone, and a failed transfer's chunks. -/
structure SameTransfer (s s' : Raw) : Prop where
  expected : s'.expected = s.expected
  bypass : s'.bypass = s.bypass
  watchdog : s'.watchdog = s.watchdog
  finishes : s'.finishes = s.finishes
  fed : s'.fed = s.fed
  failed : s.error ≠ 0 → s'.error ≠ 0 ∧ s'.chunks = s.chunks

instance : IsPreorder Raw SameTransfer where
  refl _ := ⟨rfl, rfl, rfl, rfl, rfl, fun h => ⟨h, rfl⟩⟩
  trans _ _ _ h h' := ⟨h'.1.trans h.1, h'.2.trans h.2, h'.3.trans h.3, h'.4.trans h.4,
    h'.5.trans h.5, fun he => ⟨(h'.6 (h.6 he).1).1, ((h'.6 (h.6 he).1).2).trans (h.6 he).2⟩⟩

theorem rawFlush_same (write : Writes) (s : Raw) : SameTransfer s (rawFlush write s) := by
  unfold rawFlush
  split
  · exact ⟨rfl, rfl, rfl, rfl, rfl, fun h => ⟨h, rfl⟩⟩
  next hc => exact ⟨rfl, rfl, rfl, rfl, rfl, fun h => absurd (.inr h) hc⟩

/-- A flush empties the buffer, and its bytes are passed on. -/
theorem rawFlush_taken (chunks : ∀ c ∈ s.chunks, c ≠ [] ∧ c.length ≤ rawBufSize)
    (hroom : s.buf.length ≤ rawBufSize) (hrec : s.received = taken.length)
    (hall : s.error = 0 → s.chunks.flatten ++ s.buf = taken) (hfront : s.chunks.flatten <+: taken)
    (hfailed : s.error ≠ 0 → ∃ past, past <+: s.chunks ∧ past ≠ [] ∧ write past ≠ 0) :
    Taken write taken (rawFlush write s) ∧ (rawFlush write s).buf = [] := by
  unfold rawFlush
  by_cases hc : s.buf = [] ∨ s.error ≠ 0
  · rw [if_pos hc]
    refine ⟨⟨chunks, by show (0 : Nat) < 512; decide, hrec, fun he => ?_, hfront, hfailed⟩, rfl⟩
    rcases hc with hb | hne
    · rw [← hall he, hb]
    · exact absurd he hne
  · rw [if_neg hc]
    push Not at hc
    obtain ⟨hne, he⟩ := hc
    have hflat : (s.chunks ++ [s.buf]).flatten = taken := by
      rw [List.flatten_append, List.flatten_singleton]
      exact hall he
    refine ⟨⟨?_, by show (0 : Nat) < 512; decide, hrec, fun _ => ?_, ?_, fun hf => ?_⟩, rfl⟩
    · intro c hmem
      rcases List.mem_append.mp hmem with h | h
      · exact chunks c h
      · rw [List.mem_singleton.mp h]
        exact ⟨hne, hroom⟩
    · show _ ++ [] = _
      rw [List.append_nil]
      exact hflat
    · show List.flatten _ <+: _
      rw [hflat]
    · refine ⟨s.chunks ++ [s.buf], List.prefix_rfl, by simp, fun h0 => hf ?_⟩
      show (if _ then _ else _ : Int) = 0
      rw [if_neg (not_not.mpr h0)]
      exact he

theorem Taken.flush (h : Taken write taken s) :
    Taken write taken (rawFlush write s) ∧ (rawFlush write s).buf = [] :=
  rawFlush_taken h.chunks h.room.le h.received h.all h.front h.failed

/-- Bytes go into the buffer, which is flushed when it is full. -/
theorem Taken.gather (h : Taken write taken s) (piece : List UInt8)
    (hroom : s.buf.length + piece.length ≤ rawBufSize) :
    let m := { s with buf := s.buf ++ piece, received := s.received + piece.length }
    Taken write (taken ++ piece) (if m.buf.length = rawBufSize then rawFlush write m else m) := by
  dsimp only
  have hlen : (s.buf ++ piece).length ≤ rawBufSize := by rwa [List.length_append]
  have hrec : s.received + piece.length = (taken ++ piece).length := by
    rw [List.length_append, h.received]
  have hall : s.error = 0 → s.chunks.flatten ++ (s.buf ++ piece) = taken ++ piece := fun he => by
    rw [← List.append_assoc, h.all he]
  have hfront : s.chunks.flatten <+: taken ++ piece := h.front.trans (List.prefix_append ..)
  split
  · exact (rawFlush_taken
      (s := { s with buf := s.buf ++ piece, received := s.received + piece.length })
      h.chunks hlen hrec hall hfront h.failed).1
  next hne => exact ⟨h.chunks, by show (s.buf ++ piece).length < _; omega, hrec, hall, hfront,
      h.failed⟩

/-- The loop takes as many bytes as there are and were announced. -/
theorem rawFill_taken (fuel : Nat) (data : List UInt8) (h : Taken write taken s) (hle : taken.length ≤ s.expected)
    (hfuel : data.length ≤ fuel) :
    Taken write (taken ++ data.take (s.expected - taken.length)) (rawFill write fuel data s) ∧
      SameTransfer s (rawFill write fuel data s) := by
  induction fuel generalizing data s taken with
  | zero =>
    rw [List.eq_nil_of_length_eq_zero (Nat.le_zero.mp hfuel), List.take_nil, List.append_nil]
    exact ⟨h, Std.Refl.refl _⟩
  | succ fuel ih =>
    have hrec := h.received
    have hroom := h.room
    unfold rawFill
    by_cases hc : 0 < data.length ∧ s.received < s.expected
    · rw [if_pos hc]
      dsimp only
      generalize ht : min (min data.length (rawBufSize - s.buf.length)) (s.expected - s.received) =
          take
      have htake : (data.take take).length = take := List.length_take_of_le (by omega)
      have hg := h.gather (data.take take) (by omega)
      dsimp only at hg
      rw [htake] at hg
      have hsame : SameTransfer s (if (s.buf ++ data.take take).length = rawBufSize then
          rawFlush write { s with buf := s.buf ++ data.take take, received := s.received + take }
          else { s with buf := s.buf ++ data.take take, received := s.received + take }) := by
        have hm : SameTransfer s
            { s with buf := s.buf ++ data.take take, received := s.received + take } :=
          ⟨rfl, rfl, rfl, rfl, rfl, fun he => ⟨he, rfl⟩⟩
        split
        · exact IsTrans.trans _ _ _ hm (rawFlush_same write _)
        · exact hm
      have hexp := hsame.expected
      obtain ⟨hi, hs⟩ := ih (data.drop take) hg (by rw [hexp, List.length_append]; omega)
        (by rw [List.length_drop]; omega)
      refine ⟨?_, IsTrans.trans _ _ _ hsame hs⟩
      rw [hexp, List.append_assoc] at hi
      have hsplit : data.take (s.expected - taken.length) = data.take take ++
          (data.drop take).take (s.expected - (taken ++ data.take take).length) := by
        rw [← List.take_add]
        congr 1
        rw [List.length_append]
        omega
      rw [hsplit]
      exact hi
    · rw [if_neg hc]
      have hnil : data.take (s.expected - taken.length) = [] := by
        rw [List.take_eq_nil_iff]
        rcases Nat.eq_zero_or_pos data.length with h0 | h0
        · exact .inr (List.eq_nil_of_length_eq_zero h0)
        · exact .inl (by omega)
      rw [hnil, List.append_nil]
      exact ⟨h, Std.Refl.refl _⟩

-- ---------------------------------------------------------------------------
-- The transfer
-- ---------------------------------------------------------------------------

/-- A transfer is going on, or it is complete, or the watchdog has ended it. -/
inductive RawPhase (write : Writes) (n : Nat) (s : Raw) : Prop
  | live (bypass : s.bypass = true) (watchdog : s.watchdog = true) (finishes : s.finishes = 0)
      (short : s.fed.length < n) (taken : Taken write s.fed s)
  | complete (bypass : s.bypass = false) (watchdog : s.watchdog = false) (finishes : s.finishes = 1)
      (full : n ≤ s.fed.length) (taken : Taken write (s.fed.take n) s) (buf : s.buf = [])
  | stalled (bypass : s.bypass = false) (watchdog : s.watchdog = false) (finishes : s.finishes = 1)
      (short : s.fed.length < n) (error : s.error = etimedout) (e : Int)
      (taken : Taken write s.fed { s with error := e })

/-- The parts of the state that an event leaves alone. -/
structure RawInv (write : Writes) (n : Nat) (s : Raw) : Prop where
  expected : s.expected = n
  phase : RawPhase write n s

theorem rawInv_start (write : Writes) (h : 0 < n) : RawInv write n (rawStart n) :=
  ⟨rfl, .live rfl rfl rfl h ⟨fun c hc => absurd hc List.not_mem_nil,
    by show (0 : Nat) < 512; decide, rfl, fun _ => rfl,
    List.prefix_rfl, fun he => absurd rfl he⟩⟩

/-- One call of the callback, in a transfer that is going on. -/
theorem RawInv.segment (h : RawInv write n s) (hb : s.bypass = true) (data : List UInt8) :
    RawInv write n (rawBypass write data s) ∧ (rawBypass write data s).fed = s.fed ++ data ∧
      ((rawBypass write data s).bypass = true ∨ n ≤ (rawBypass write data s).fed.length) ∧
      (s.error ≠ 0 → (rawBypass write data s).error ≠ 0 ∧
        (rawBypass write data s).chunks = s.chunks) := by
  cases h.phase with
  | complete bypass => rw [hb] at bypass; cases bypass
  | stalled bypass => rw [hb] at bypass; cases bypass
  | live _ hw hf hshort htaken =>
  have hexp := h.expected
  have hstart : Taken write s.fed { s with fed := s.fed ++ data } :=
    ⟨htaken.1, htaken.2, htaken.3, htaken.4, htaken.5, htaken.6⟩
  obtain ⟨ht, hs⟩ := rawFill_taken data.length data hstart
    (by show _ ≤ s.expected; omega) (Nat.le_refl _)
  unfold rawBypass
  dsimp only at ht ⊢
  generalize rawFill write data.length data { s with fed := s.fed ++ data } = m at ht hs
  have hfed : m.fed = s.fed ++ data := hs.fed
  have hmexp : m.expected = n := hs.expected.trans hexp
  have hrec := ht.received
  have hle : s.fed ++ data.take (s.expected - s.fed.length) = (s.fed ++ data).take n := by
    rw [List.take_append, List.take_of_length_le (Nat.le_of_lt hshort), hexp]
  rw [hle] at ht hrec
  rw [List.length_take, List.length_append] at hrec
  by_cases hc : m.received ≥ m.expected
  · rw [if_pos hc]
    obtain ⟨hfl, hbuf⟩ := ht.flush
    have hsame := rawFlush_same write m
    have hfed' : (rawFlush write m).fed = s.fed ++ data := hsame.fed.trans hfed
    have hfull : n ≤ (rawFlush write m).fed.length := by
      rw [hfed', List.length_append]
      omega
    refine ⟨⟨hsame.expected.trans hmexp, .complete rfl rfl ?_ hfull ?_ hbuf⟩, hfed', .inr hfull,
      fun he => ?_⟩
    · show (rawFlush write m).finishes + 1 = 1
      rw [hsame.finishes, hs.finishes, hf]
    · show Taken write ((rawFlush write m).fed.take n) _
      rw [hfed']
      exact ⟨hfl.1, hfl.2, hfl.3, hfl.4, hfl.5, hfl.6⟩
    · exact ⟨(hsame.failed (hs.failed he).1).1, ((hsame.failed (hs.failed he).1).2).trans
        (hs.failed he).2⟩
  · rw [if_neg hc]
    have hlen : (s.fed ++ data).length < n := by
      rw [List.length_append]
      omega
    rw [List.take_of_length_le (Nat.le_of_lt hlen)] at ht
    refine ⟨⟨hmexp, .live (hs.bypass.trans hb) rfl (hs.finishes.trans hf) ?_ ?_⟩, hfed,
      .inl (hs.bypass.trans hb), hs.failed⟩
    · show m.fed.length < n
      rw [hfed]
      exact hlen
    · show Taken write m.fed _
      rw [hfed]
      exact ⟨ht.1, ht.2, ht.3, ht.4, ht.5, ht.6⟩

theorem rawInv_step (h : RawInv write n s) (e : RawEvent) : RawInv write n (rawStep write s e) := by
  cases e with
  | segment data =>
    unfold rawStep
    dsimp only
    split
    next hb => exact (h.segment hb data).1
    · exact h
  | timeout =>
    unfold rawStep
    dsimp only
    cases h.phase with
    | live bypass watchdog finishes short taken =>
      have hrec : s.received < s.expected := by
        rw [taken.received, h.expected]
        exact short
      rw [if_pos watchdog]
      unfold rawTimeout
      rw [if_pos hrec]
      refine ⟨h.expected, .stalled rfl rfl ?_ short rfl s.error ?_⟩
      · show s.finishes + 1 = 1
        rw [finishes]
      · exact ⟨taken.1, taken.2, taken.3, taken.4, taken.5, taken.6⟩
    | complete bypass watchdog =>
      rw [watchdog]
      exact h
    | stalled bypass watchdog =>
      rw [watchdog]
      exact h

/-- The stream of a list of events. -/
def rawStream : List RawEvent → List UInt8
  | [] => []
  | .segment data :: l => data ++ rawStream l
  | .timeout :: l => rawStream l

theorem rawInv_run (h : RawInv write n s) (l : List RawEvent) :
    RawInv write n (run (rawStep write) s l) :=
  run_invariant l h fun _ e h => rawInv_step h e

/-- As long as no time is up, the callback has the front of the stream. -/
theorem raw_fed (h : RawInv write n s) (hg : s.bypass = true ∨ n ≤ s.fed.length)
    {l : List RawEvent} (hl : .timeout ∉ l) :
    let s' := run (rawStep write) s l
    (s'.bypass = true ∨ n ≤ s'.fed.length) ∧ s'.fed.take n = (s.fed ++ rawStream l).take n := by
  induction l generalizing s with
  | nil => exact ⟨hg, by rw [rawStream, List.append_nil, run_nil]⟩
  | cons e l ih =>
    rw [List.mem_cons, not_or] at hl
    cases e with
    | timeout => exact absurd rfl hl.1
    | segment data =>
      rw [run_cons, rawStream, ← List.append_assoc]
      by_cases hb : s.bypass = true
      · obtain ⟨hi, hfed, hgoing, -⟩ := h.segment hb data
        have hs : rawStep write s (.segment data) = rawBypass write data s := if_pos hb
        rw [hs, ← hfed]
        exact ih hi hgoing hl.2
      · have hs : rawStep write s (.segment data) = s := if_neg hb
        have hfull := hg.resolve_left hb
        obtain ⟨h1, h2⟩ := ih h hg hl.2
        rw [hs]
        refine ⟨h1, h2.trans ?_⟩
        rw [List.take_append_of_le_length hfull, List.append_assoc,
          List.take_append_of_le_length hfull]

/-- After an error nothing is passed on. -/
theorem rawStep_failed (h : RawInv write n s) (he : s.error ≠ 0) (e : RawEvent) :
    (rawStep write s e).error ≠ 0 ∧ (rawStep write s e).chunks = s.chunks := by
  cases e with
  | segment data =>
    unfold rawStep
    dsimp only
    split
    next hb => exact (h.segment hb data).2.2.2 he
    · exact ⟨he, rfl⟩
  | timeout =>
    unfold rawStep rawTimeout
    dsimp only
    split
    · split
      · exact ⟨by show etimedout ≠ 0; decide, rfl⟩
      · exact ⟨he, rfl⟩
    · exact ⟨he, rfl⟩

theorem raw_failed (h : RawInv write n s) (he : s.error ≠ 0) (l : List RawEvent) :
    (run (rawStep write) s l).chunks = s.chunks := by
  induction l generalizing s with
  | nil => rfl
  | cons e l ih =>
    obtain ⟨he', hc⟩ := rawStep_failed h he e
    exact (ih (rawInv_step h e) he').trans hc

/-- The facts that hold in every phase. -/
theorem RawInv.passed (h : RawInv write n s) :
    (∀ c ∈ s.chunks, c ≠ [] ∧ c.length ≤ rawBufSize) ∧ s.chunks.flatten <+: s.fed.take n ∧
      s.received = min n s.fed.length := by
  cases h.phase with
  | live _ _ _ short taken =>
    rw [List.take_of_length_le (Nat.le_of_lt short), Nat.min_eq_right (Nat.le_of_lt short)]
    exact ⟨taken.chunks, taken.front, taken.received⟩
  | complete _ _ _ full taken =>
    refine ⟨taken.chunks, taken.front, ?_⟩
    rw [taken.received, List.length_take]
  | stalled _ _ _ short _ _ taken =>
    rw [List.take_of_length_le (Nat.le_of_lt short), Nat.min_eq_right (Nat.le_of_lt short)]
    exact ⟨taken.chunks, taken.front, taken.received⟩

/-- For every way the bytes arrive and the time runs out: the chunks are the front of the
stream, none is empty or larger than the buffer, and no byte behind the announced ones is
in them; without a timeout or an error they are all the announced bytes, and after an
error the rest is taken without being passed on; the transfer ends once, when it is
complete or at the next timeout. -/
theorem raw_transport (write : Writes) (n : Nat) (hn : 0 < n) (l : List RawEvent) :
    let s := run (rawStep write) (rawStart n) l
    (∀ c ∈ s.chunks, c ≠ [] ∧ c.length ≤ 512) ∧
    s.chunks.flatten <+: s.fed.take n ∧ s.received = min n s.fed.length ∧
    (.timeout ∉ l → s.fed.take n = (rawStream l).take n ∧
      (n ≤ (rawStream l).length → s.received = n ∧ s.finishes = 1 ∧
        ((∀ past, past <+: s.chunks → past ≠ [] → write past = 0) →
          s.chunks.flatten = (rawStream l).take n))) ∧
    (s.error ≠ 0 → ∀ l', (run (rawStep write) s l').chunks = s.chunks) ∧
    (s.finishes = 0 ∧ s.bypass = true ∧ s.watchdog = true ∧ s.received < n ∨
      s.finishes = 1 ∧ s.bypass = false ∧ s.watchdog = false ∧
        (s.received = n ∨ .timeout ∈ l)) ∧
    (rawStep write s .timeout).finishes = 1 := by
  dsimp only
  have hinv := rawInv_run (rawInv_start write hn) l
  have hfed := fun hl => raw_fed (rawInv_start write hn) (.inl rfl) (l := l) hl
  generalize run (rawStep write) (rawStart n) l = s at hinv hfed
  obtain ⟨hchunks, hfront, hrec⟩ := hinv.passed
  have hlen : .timeout ∉ l → min n s.fed.length = min n (rawStream l).length := fun hl => by
    have h := congrArg List.length (hfed hl).2
    rwa [List.length_take, List.length_take] at h
  refine ⟨hchunks, hfront, hrec, fun hl => ⟨(hfed hl).2, fun hle => ?_⟩,
    fun he => raw_failed hinv he, ?_, ?_⟩
  · have hfull : n ≤ s.fed.length := by
      have := hlen hl
      omega
    cases hinv.phase with
    | live _ _ _ short => omega
    | stalled _ _ _ short => omega
    | complete _ _ finishes _ taken buf =>
      refine ⟨by omega, finishes, fun hw => ?_⟩
      have he : s.error = 0 := by
        by_contra hne
        obtain ⟨past, hp, hp0, hpw⟩ := taken.failed hne
        exact hpw (hw past hp hp0)
      have hall := taken.all he
      rw [buf, List.append_nil] at hall
      exact hall.trans (hfed hl).2
  · cases hinv.phase with
    | live bypass watchdog finishes short => exact .inl ⟨finishes, bypass, watchdog, by omega⟩
    | complete bypass watchdog finishes full =>
      exact .inr ⟨finishes, bypass, watchdog, .inl (by omega)⟩
    | stalled bypass watchdog finishes short =>
      refine .inr ⟨finishes, bypass, watchdog, .inr ?_⟩
      by_contra hl
      rcases (hfed hl).1 with hb | hfull
      · rw [bypass] at hb
        cases hb
      · omega
  · cases hinv.phase with
    | live _ watchdog finishes short =>
      have hlt : s.received < s.expected := by
        rw [hinv.expected]
        omega
      have hs : rawStep write s .timeout =
          rawFinish { s with watchdog := false, error := etimedout } :=
        (if_pos watchdog).trans (if_pos hlt)
      rw [hs]
      show s.finishes + 1 = 1
      rw [finishes]
    | complete _ watchdog finishes =>
      have hs : rawStep write s .timeout = s := if_neg (by rw [watchdog]; decide)
      rw [hs]
      exact finishes
    | stalled _ watchdog finishes =>
      have hs : rawStep write s .timeout = s := if_neg (by rw [watchdog]; decide)
      rw [hs]
      exact finishes

theorem raw_transport_small :
    (run (rawStep fun _ => 0) (rawStart 3) [.segment [1, 2], .segment [3, 4]]).chunks.flatten =
      [1, 2, 3] := by
  obtain ⟨-, -, -, h, -⟩ := raw_transport (fun _ => 0) 3 (by decide)
    [.segment [1, 2], .segment [3, 4]]
  exact ((h (by decide)).2 (by decide)).2.2 fun _ _ _ => rfl

end SynapticOS.Shell
