import SynapticOS.Health

/-!
# What the monitor reports

A tick reports the busy, overdue sources whose stale flag is down. `kick` takes
the flag down and `set_busy` does not, so an episode that follows one ended by
`set_busy` goes unreported unless the source was kicked in between
(`episodes_reported_iff`).
-/

namespace SynapticOS.Health

open Lib

variable {n : Nat} {h : Table n} {m : Monitor n} {i j : Fin n} {now : Int}

-- ---------------------------------------------------------------------------
-- One tick
-- ---------------------------------------------------------------------------

/-- A tick comes to a source. -/
def Source.look (now : Int) (s : Source) : Source :=
  if s.overdue now ∧ s.stale = false then { s with stale := true, staleCount := s.staleCount + 1 }
  else s

/-- How often source `i` was reported. -/
def Table.reportsOf (h : Table n) (i : Fin n) : Nat := h.reports.countP fun r => decide (r.1 = i)

theorem checkSource_sources (now : Int) (h : Table n) (i j : Fin n) :
    (checkSource now h i).sources j = if j = i then (h.sources i).look now else h.sources j := by
  unfold checkSource Source.look
  split
  · exact Function.update_apply ..
  · split
    · rename_i he
      rw [he]
    · rfl

theorem checkSource_reports (now : Int) (h : Table n) (i j : Fin n) :
    (checkSource now h i).reportsOf j = h.reportsOf j +
      if j = i ∧ (h.sources i).overdue now ∧ (h.sources i).stale = false then 1 else 0 := by
  unfold checkSource
  by_cases hc : (h.sources i).overdue now ∧ (h.sources i).stale = false
  · rw [if_pos hc]
    unfold Table.reportsOf
    rw [List.countP_append]
    by_cases hj : j = i
    · simp [hj, hc]
    · simp [hj, Ne.symm hj]
  · rw [if_neg hc, if_neg fun h => hc h.2]
    rfl

theorem overdue_look (now : Int) (s : Source) : (s.look now).overdue now = s.overdue now := by
  unfold Source.look
  split <;> rfl

theorem checkFrom_ok (now : Int) (l : List (Fin n)) (ok : Bool) (h : Table n) :
    (checkFrom now l (ok, h)).1 = (ok && l.all fun i => !(h.sources i).overdue now) := by
  induction l generalizing ok h with
  | nil => simp [checkFrom]
  | cons i rest ih =>
    have hsame : ∀ j, ((checkSource now h i).sources j).overdue now =
        (h.sources j).overdue now := by
      intro j
      rw [checkSource_sources]
      split
      · rename_i he
        rw [he, overdue_look]
      · rfl
    unfold checkFrom
    rw [ih]
    simp only [hsame, List.all_cons, Bool.and_assoc]

theorem checkFrom_sources (now : Int) (l : List (Fin n)) (hl : l.Nodup) (ok : Bool) (h : Table n)
    (i : Fin n) : (checkFrom now l (ok, h)).2.sources i =
      if i ∈ l then (h.sources i).look now else h.sources i := by
  induction l generalizing ok h with
  | nil => rfl
  | cons j rest ih =>
    obtain ⟨hj, hrest⟩ := List.nodup_cons.mp hl
    unfold checkFrom
    rw [ih hrest, checkSource_sources]
    by_cases he : i = j
    · rw [if_neg (he ▸ hj), if_pos he, if_pos (he ▸ List.mem_cons_self), he]
    · rw [if_neg he]
      simp only [List.mem_cons, he, false_or]

theorem checkFrom_reports (now : Int) (l : List (Fin n)) (hl : l.Nodup) (ok : Bool) (h : Table n)
    (i : Fin n) : (checkFrom now l (ok, h)).2.reportsOf i = h.reportsOf i +
      if i ∈ l ∧ (h.sources i).overdue now ∧ (h.sources i).stale = false then 1 else 0 := by
  induction l generalizing ok h with
  | nil => rfl
  | cons j rest ih =>
    obtain ⟨hj, hrest⟩ := List.nodup_cons.mp hl
    unfold checkFrom
    rw [ih hrest, checkSource_reports, checkSource_sources]
    by_cases he : i = j
    · subst he
      simp [hj]
    · simp [he]

/-- A tick comes to every source. -/
theorem check_sources (now : Int) (h : Table n) (i : Fin n) :
    (checkSources now h).2.sources i = (h.sources i).look now := by
  rw [checkSources, checkFrom_sources _ _ (List.nodup_finRange n), if_pos (List.mem_finRange i)]

theorem check_reports (now : Int) (h : Table n) (i : Fin n) :
    (checkSources now h).2.reportsOf i = h.reportsOf i +
      if (h.sources i).overdue now ∧ (h.sources i).stale = false then 1 else 0 := by
  rw [checkSources, checkFrom_reports _ _ (List.nodup_finRange n)]
  simp only [List.mem_finRange, true_and]

theorem check_ok (now : Int) (h : Table n) :
    (checkSources now h).1 = true ↔ ∀ i, (h.sources i).overdue now = false := by
  rw [checkSources, checkFrom_ok]
  simp

-- ---------------------------------------------------------------------------
-- The monitor and what is seen of the sources
-- ---------------------------------------------------------------------------

/-- What the table says of a slot is what is seen of it, but for the stale flag,
which can be up in a stretch that no tick has seen. -/
structure SlotOk (s : Source) (w : Watch) (reports : Nat) : Prop where
  since : s.name.isSome = true → s.lastKick = w.since
  busy : s.name.isSome = true → s.busy = w.busy
  ticked : s.name.isSome = true → w.ticked = true → s.stale = true
  free : s.name.isSome = false → w.episodes = 0 ∧ reports = 0
  count : s.name.isSome = true → s.staleCount = UInt32.ofNat reports
  le : reports ≤ w.episodes

def Monitor.Ok (m : Monitor n) : Prop :=
  ∀ i, SlotOk (m.health.sources i) (m.watch i) (m.health.reportsOf i)

/-- Every stretch that a tick has seen was reported. -/
def Monitor.Told (m : Monitor n) : Prop := ∀ i, m.health.reportsOf i = (m.watch i).episodes

/-- A tick finds no source busy and overdue whose flag is up from an earlier stretch. -/
def Heard (m : Monitor n) : Int × Event → Prop
  | (now, .tick) => ∀ i, (m.health.sources i).overdue now = true →
    (m.health.sources i).stale = true → (m.watch i).ticked = true
  | _ => True

instance (m : Monitor n) (e : Int × Event) : Decidable (Heard m e) := by
  unfold Heard
  split <;> infer_instance

theorem SlotOk.overdue (h : SlotOk s w r) (now : Int) : s.overdue now =
    (s.name.isSome && w.late now s.periodMs) := by
  cases hs : s.name.isSome with
  | false =>
    unfold Source.overdue
    rw [hs]
    rfl
  | true =>
    unfold Source.overdue Watch.late
    rw [hs, h.since hs, h.busy hs, Bool.and_assoc]

theorem freeSlot_free (hf : freeSlot h = some i) : (h.sources i).name.isSome = false := by
  have := List.find?_some hf
  simpa using this

/-- One slot and what is seen of it change together; nothing is reported. -/
theorem Monitor.Ok.set (hm : m.Ok) (i : Fin n) {f : Source → Source} {g : Watch → Watch}
    (he : (g (m.watch i)).episodes = (m.watch i).episodes)
    (hok : SlotOk (m.health.sources i) (m.watch i) (m.health.reportsOf i) →
      SlotOk (f (m.health.sources i)) (g (m.watch i)) (m.health.reportsOf i)) :
    Monitor.Ok ⟨m.health.set i f, at? m.watch (some i) g⟩ ∧
      (Monitor.Told ⟨m.health.set i f, at? m.watch (some i) g⟩ ↔ m.Told) := by
  have hrep : ∀ j, (m.health.set i f).reportsOf j = m.health.reportsOf j := fun _ => rfl
  refine ⟨fun j => ?_, ?_⟩
  · show SlotOk (Function.update m.health.sources i _ j) (Function.update m.watch i _ j) _
    rw [Function.update_apply, Function.update_apply]
    split
    · rename_i hj
      rw [hj]
      exact hok (hm i)
    · exact hm j
  · refine forall_congr' fun j => ?_
    show m.health.reportsOf j = (Function.update m.watch i _ j).episodes ↔ _
    rw [Function.update_apply]
    split
    · rename_i hj
      rw [hj, he]
    · exact Iff.rfl

theorem ok_register (hm : m.Ok) (now : Int) (name : Option Nat) (periodMs : UInt32) :
    (m.step (now, .register name periodMs)).Ok ∧
      ((m.step (now, .register name periodMs)).Told ↔ m.Told) := by
  unfold Monitor.step register
  dsimp only
  cases hf : freeSlot m.health with
  | none => exact ⟨hm, Iff.rfl⟩
  | some i =>
    refine hm.set i (f := fun _ => ⟨name, periodMs, now, true, false, 0⟩)
      (g := fun w => { w.fresh now with busy := true }) rfl fun h => ?_
    obtain ⟨he, hr⟩ := h.free (freeSlot_free hf)
    rw [hr]
    exact ⟨fun _ => rfl, fun _ => rfl, fun _ ht => (nomatch ht), fun _ => ⟨he, rfl⟩, fun _ => rfl,
      Nat.zero_le _⟩

theorem ok_kick (hm : m.Ok) (now id : Int) :
    (m.step (now, .kick id)).Ok ∧ ((m.step (now, .kick id)).Told ↔ m.Told) := by
  unfold Monitor.step kick
  dsimp only
  cases slotOf n id with
  | none => exact ⟨hm, Iff.rfl⟩
  | some i =>
    refine hm.set i (f := fun s => { s with lastKick := now, stale := false })
      (g := fun w => w.fresh now) rfl fun h => ?_
    exact ⟨fun _ => rfl, h.busy, fun _ ht => (nomatch ht), h.free, h.count, h.le⟩

theorem ok_setBusy (hm : m.Ok) (now id : Int) (busy : Bool) :
    (m.step (now, .setBusy id busy)).Ok ∧ ((m.step (now, .setBusy id busy)).Told ↔ m.Told) := by
  unfold Monitor.step setBusy
  dsimp only
  cases slotOf n id with
  | none => exact ⟨hm, Iff.rfl⟩
  | some i =>
    refine hm.set i (f := fun s =>
        { s with busy := busy, lastKick := if busy then now else s.lastKick })
      (g := fun w => { w with
        busy := busy, since := if busy then now else w.since, ticked := false }) rfl fun h => ?_
    refine ⟨fun hs => ?_, fun _ => rfl, fun _ ht => (nomatch ht), h.free, h.count, h.le⟩
    cases busy
    · exact h.since hs
    · rfl

theorem ok_tick (hm : m.Ok) (now : Int) : (m.step (now, .tick)).Ok ∧
    ((m.step (now, .tick)).Told ↔ m.Told ∧ Heard m (now, .tick)) := by
  have hslot : ∀ i, SlotOk ((m.health.sources i).look now)
      (if (m.health.sources i).name.isSome then (m.watch i).see now (m.health.sources i).periodMs
        else m.watch i) ((checkSources now m.health).2.reportsOf i) ∧
      ((checkSources now m.health).2.reportsOf i = (if (m.health.sources i).name.isSome then
        (m.watch i).see now (m.health.sources i).periodMs else m.watch i).episodes ↔
        m.health.reportsOf i = (m.watch i).episodes ∧ ((m.health.sources i).overdue now = true →
          (m.health.sources i).stale = true → (m.watch i).ticked = true)) := by
    intro i
    have h := hm i
    rw [check_reports]
    have hover := h.overdue now
    cases hs : (m.health.sources i).name.isSome with
    | false =>
      rw [hs] at hover
      have hno : (m.health.sources i).overdue now = false := hover
      have hlook : (m.health.sources i).look now = m.health.sources i := by
        unfold Source.look
        rw [hno]
        rfl
      rw [hlook, hno]
      simpa using h
    | true =>
      rw [hs, Bool.true_and] at hover
      rw [if_pos rfl, hover]
      have hle := h.le
      unfold Source.look Watch.see
      rw [hover]
      cases hl : (m.watch i).late now (m.health.sources i).periodMs with
      | false =>
        refine ⟨⟨h.since, h.busy, fun _ ht => (nomatch ht), h.free, h.count, hle⟩, ?_⟩
        simp
      | true =>
        cases hst : (m.health.sources i).stale with
        | true =>
          cases ht : (m.watch i).ticked with
          | true =>
            refine ⟨⟨h.since, h.busy, fun _ _ => hst, h.free, h.count, hle⟩, ?_⟩
            simp
          | false =>
            refine ⟨⟨h.since, h.busy, fun _ _ => hst,
                fun hf => ?_, h.count, Nat.le_succ_of_le hle⟩, ?_⟩
            · rw [show (m.health.sources i).name.isSome = false from hf] at hs
              cases hs
            · simp
              omega
        | false =>
          have ht : (m.watch i).ticked = false := by
            cases ht : (m.watch i).ticked with
            | false => rfl
            | true =>
              rw [h.ticked hs ht] at hst
              cases hst
          rw [ht]
          refine ⟨⟨h.since, h.busy, fun _ _ => rfl, fun hf => ?_,
              fun _ => ?_, Nat.succ_le_succ hle⟩, ?_⟩
          · rw [show (m.health.sources i).name.isSome = false from hf] at hs
            cases hs
          · show (m.health.sources i).staleCount + 1 = _
            rw [h.count hs]
            exact (UInt32.ofNat_add _ 1).symm
          · simp
  refine ⟨fun i => ?_, ?_⟩
  · show SlotOk ((checkSources now m.health).2.sources i) _ _
    rw [check_sources]
    exact (hslot i).1
  · constructor
    · intro ht
      exact ⟨fun i => ((hslot i).2.mp (ht i)).1, fun i => ((hslot i).2.mp (ht i)).2⟩
    · rintro ⟨ht, hh⟩ i
      exact (hslot i).2.mpr ⟨ht i, hh i⟩

theorem ok_step (hm : m.Ok) (e : Int × Event) :
    (m.step e).Ok ∧ ((m.step e).Told ↔ m.Told ∧ Heard m e) := by
  obtain ⟨now, e⟩ := e
  cases e with
  | register name periodMs => simpa [Heard] using ok_register hm now name periodMs
  | kick id => simpa [Heard] using ok_kick hm now id
  | setBusy id busy => simpa [Heard] using ok_setBusy hm now id busy
  | setFaultCb cb => exact ⟨hm, (and_iff_left trivial).symm⟩
  | tick => exact ok_tick hm now

theorem Monitor.Ok.init : (Monitor.init n).Ok := fun _ =>
  ⟨fun h => (nomatch h), fun h => (nomatch h), fun h => (nomatch h), fun _ => ⟨rfl, rfl⟩,
    fun h => (nomatch h), Nat.le_refl _⟩

theorem told_run (hm : m.Ok) (l : List (Int × Event)) : (run Monitor.step m l).Ok ∧
    ((run Monitor.step m l).Told ↔ m.Told ∧ Along Monitor.step Heard m l) := by
  induction l generalizing m with
  | nil => exact ⟨hm, (and_iff_left .nil).symm⟩
  | cons e l ih =>
    obtain ⟨hok, htold⟩ := ok_step hm e
    obtain ⟨hrun, hiff⟩ := ih hok
    refine ⟨hrun, hiff.trans ?_⟩
    rw [htold, and_assoc]
    refine and_congr_right fun _ => ⟨fun h => .cons h.1 h.2, fun h => ?_⟩
    cases h with
    | cons hc t => exact ⟨hc, t⟩

/-- In every run `check_sources` says whether every registered, busy source has
checked in or was set busy within its period. Every stretch that a tick has seen
was reported once, and counted, when no tick has found a source whose flag was
up from an earlier stretch, and only then. -/
theorem episodes_reported_iff (n : Nat) (l : List (Int × Event)) :
    let m := run Monitor.step (Monitor.init n) l
    (∀ now, (checkSources now m.health).1 = true ↔ ∀ i,
      (m.health.sources i).name.isSome = true → (m.watch i).busy = true →
        now - (m.watch i).since ≤ (m.health.sources i).periodMs.toNat) ∧
    ((∀ i, m.health.reportsOf i = (m.watch i).episodes ∧ ((m.health.sources i).name.isSome = true →
      (m.health.sources i).staleCount = UInt32.ofNat (m.watch i).episodes)) ↔
      Along Monitor.step Heard (Monitor.init n) l) := by
  obtain ⟨hok, htold⟩ := told_run Monitor.Ok.init l
  generalize run Monitor.step (Monitor.init n) l = m at *
  refine ⟨fun now => ?_, ?_⟩
  · rw [check_ok]
    refine forall_congr' fun i => ?_
    rw [(hok i).overdue]
    unfold Watch.late
    simp only [Bool.and_eq_false_iff, decide_eq_false_iff_not, not_lt]
    cases (m.health.sources i).name.isSome <;> cases (m.watch i).busy <;> simp
  · constructor
    · intro h
      exact (htold.mp fun i => (h i).1).2
    · intro h i
      have ht := htold.mpr ⟨fun _ => rfl, h⟩ i
      exact ⟨ht, fun hs => ht ▸ (hok i).count hs⟩

/-- A source goes stale, idle and busy again, and is overdue once more. -/
def idledEvents : List (Int × Event) :=
  [(0, .register (some 1) 150), (300, .tick), (400, .setBusy 0 false), (500, .setBusy 0 true),
    (1000, .tick)]

/-- Its second stretch is not reported. -/
theorem idled_unreported : ¬∀ (n : Nat) (l : List (Int × Event)) (i : Fin n),
    (run Monitor.step (Monitor.init n) l).health.reportsOf i =
      ((run Monitor.step (Monitor.init n) l).watch i).episodes := fun h =>
  absurd (h 1 idledEvents 0) (by decide)

end SynapticOS.Health
