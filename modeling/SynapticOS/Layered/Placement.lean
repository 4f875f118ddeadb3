import SynapticOS.Layered.PlanLaws
import Mathlib.Algebra.BigOperators.Group.Finset.Basic
import Mathlib.Order.Interval.Finset.Nat
import Mathlib.Order.ConditionallyCompleteLattice.Basic
import Mathlib.Order.Lattice.Nat
import Mathlib.Algebra.Order.BigOperators.Group.Finset

/-!
# First fit

What `placeBuffers` is for: every buffer at the smallest offset that is free of
the buffers placed before it (`greedy`). The scan finds that offset, and the
plan it gives packs what lives at one time into at least its size and at most
the sum of all sizes (`placement`).
-/

namespace SynapticOS.Layered

open Lib

-- ---------------------------------------------------------------------------
-- Intervals
-- ---------------------------------------------------------------------------

/-- Intervals that keep apart fit below `top` only if their lengths do. -/
theorem sum_le_of_apart {ι : Type} [DecidableEq ι] (s : Finset ι) (off len : ι → Nat) (top : Nat)
    (hapart : ∀ i ∈ s, ∀ j ∈ s, i ≠ j → off i + len i ≤ off j ∨ off j + len j ≤ off i)
    (hbelow : ∀ i ∈ s, off i + len i ≤ top) : ∑ i ∈ s, len i ≤ top := by
  have hsub : (s.biUnion fun i => Finset.Ico (off i) (off i + len i)) ⊆ Finset.range top := by
    intro x hx
    obtain ⟨i, hi, hx⟩ := Finset.mem_biUnion.mp hx
    have := hbelow i hi
    simp only [Finset.mem_Ico, Finset.mem_range] at hx ⊢
    omega
  have hcard := Finset.card_le_card hsub
  rw [Finset.card_biUnion] at hcard
  · simpa using hcard
  · intro i hi j hj hne
    refine Finset.disjoint_left.mpr fun x hx hx' => ?_
    simp only [Finset.mem_Ico] at hx hx'
    have := hapart i hi j hj hne
    omega

-- ---------------------------------------------------------------------------
-- The smallest free offset
-- ---------------------------------------------------------------------------

/-- No placed buffer is in the way of one at `x`. -/
def Free (placed : List Placed) (born last size x : Nat) : Prop :=
  ∀ o ∈ placed, ¬o.clashes born last size x

noncomputable def firstFit (placed : List Placed) (born last size : Nat) : Nat :=
  sInf {x | Free placed born last size x}

/-- The loop over the passes ends: from the first offset it comes to rest at the
second. -/
inductive Scans (placed : List Placed) (born last size : Nat) : Nat → Nat → Prop
  | stop {off off' : Nat} (h : fitPass born last size placed off false = (off', false)) :
    Scans placed born last size off off'
  | again {off next off' : Nat} (h : fitPass born last size placed off false = (next, true))
    (t : Scans placed born last size next off') : Scans placed born last size off off'

section
variable {placed : List Placed} {born last size off x : Nat}

/-- A bump goes over no free offset. -/
theorem not_free_of_bump {o : Placed} (ho : o ∈ placed) (hc : o.clashes born last size off)
    (h1 : off ≤ x) (h2 : x < o.off + o.size) : ¬Free placed born last size x := by
  obtain ⟨ht, -, ha⟩ := hc
  exact fun hf => hf o ho ⟨ht, h2, by omega⟩

theorem fitPass_skips (rest : List Placed) (hr : ∀ o ∈ rest, o ∈ placed) (moved : Bool)
    (h : ∀ x < off, ¬Free placed born last size x) :
    ∀ x < (fitPass born last size rest off moved).1, ¬Free placed born last size x := by
  induction rest generalizing off moved with
  | nil => exact h
  | cons o rest ih =>
    have hrest : ∀ o ∈ rest, o ∈ placed := fun o ho => hr o (List.mem_cons_of_mem _ ho)
    unfold fitPass
    split
    · rename_i hc
      refine ih hrest true fun x hx => ?_
      rcases Nat.lt_or_ge x off with hlt | hge
      · exact h x hlt
      · exact not_free_of_bump (hr o List.mem_cons_self) hc hge hx
    · exact ih hrest moved h

theorem fit_skips (fuel : Nat) (h : ∀ x < off, ¬Free placed born last size x) :
    ∀ x < fit born last size placed fuel off, ¬Free placed born last size x := by
  induction fuel generalizing off with
  | zero => exact h
  | succ fuel ih =>
    have hskip := fitPass_skips placed (fun _ ho => ho) false h
    unfold fit
    split
    next off' hp =>
      rw [hp] at hskip
      exact ih hskip
    next off' hp =>
      rw [hp] at hskip
      exact hskip

theorem fit_scans (fuel off : Nat) (h : ahead placed off < fuel) :
    Scans placed born last size off (fit born last size placed fuel off) := by
  induction fuel generalizing off with
  | zero => omega
  | succ fuel ih =>
    unfold fit
    have hs := fitPass_spec born last size placed off false
    dsimp only at hs
    split
    next off' hp =>
      rw [hp] at hs
      rcases hs.2 rfl with ⟨hm, -⟩ | ⟨hgt, o, ho, he⟩
      · cases hm
      · refine .again hp (ih off' ?_)
        subst he
        have := ahead_lt ho hgt
        omega
    next off' hp => exact .stop hp

/-- The passes end, at the smallest free offset. -/
theorem fit_eq_firstFit (born last size : Nat) (h : placed.length < fuel) :
    fit born last size placed fuel 0 = firstFit placed born last size ∧
      Scans placed born last size 0 (fit born last size placed fuel 0) := by
  have ha : ahead placed 0 < fuel := (List.length_filter_le _ _).trans_lt h
  have hfree : Free placed born last size (fit born last size placed fuel 0) :=
    fit_spec born last size fuel 0 ha
  have hleast : fit born last size placed fuel 0 ∈
      lowerBounds {x | Free placed born last size x} := by
    intro x hx
    by_contra hlt
    exact fit_skips fuel (fun x hx => absurd hx (Nat.not_lt_zero x)) x (not_le.mp hlt) hx
  exact ⟨(IsLeast.csInf_eq ⟨hfree, hleast⟩).symm, fit_scans fuel 0 ha⟩

theorem firstFit_free (placed : List Placed) (born last size : Nat) :
    Free placed born last size (firstFit placed born last size) := by
  rw [← (fit_eq_firstFit born last size (Nat.lt_succ_self placed.length)).1]
  exact fit_spec born last size _ 0 ((List.length_filter_le _ _).trans_lt (Nat.lt_succ_self _))

theorem firstFit_least (h : x < firstFit placed born last size) :
    ¬Free placed born last size x := fun hf => absurd (Nat.sInf_le hf) h.not_ge

/-- The smallest free offset is the start, or the end of a placed buffer. -/
theorem firstFit_end (placed : List Placed) (born last size : Nat) :
    firstFit placed born last size = 0 ∨
      ∃ o ∈ placed, firstFit placed born last size = o.off + o.size := by
  have hfree := firstFit_free placed born last size
  have hleast := fun x => @firstFit_least placed born last size x
  generalize firstFit placed born last size = off at *
  rcases Nat.eq_zero_or_pos off with h0 | hpos
  · exact .inl h0
  · have hno := hleast (off - 1) (by omega)
    unfold Free at hno
    push Not at hno
    obtain ⟨o, ho, ht, h1, h2⟩ := hno
    refine .inr ⟨o, ho, ?_⟩
    by_contra hne
    exact hfree o ho ⟨ht, by omega, by omega⟩

end

-- ---------------------------------------------------------------------------
-- The greedy plan
-- ---------------------------------------------------------------------------

/-- The offsets of the first `n` buffers, each the smallest that is free. -/
noncomputable def greedy (p : Plan) (last : Nat → Nat) : Nat → List Nat
  | 0 => []
  | n + 1 =>
    let offs := greedy p last n
    offs ++ [firstFit (Plan.placed { p with bufOff := offs } last) (defTime n) (last n)
        (p.bufSize n)]

section
variable {p q : Plan} {last : Nat → Nat} {lim : Limits}

noncomputable def greedyOff (p : Plan) (last : Nat → Nat) (b : Nat) : Nat :=
  (greedy p last (b + 1)).getD b 0

theorem greedy_succ (p : Plan) (last : Nat → Nat) (n : Nat) :
    greedy p last (n + 1) = greedy p last n ++
      [firstFit (Plan.placed { p with bufOff := greedy p last n } last) (defTime n) (last n)
        (p.bufSize n)] := rfl

theorem length_greedy (p : Plan) (last : Nat → Nat) (n : Nat) : (greedy p last n).length = n := by
  induction n with
  | zero => rfl
  | succ n ih => simp [greedy, ih]

theorem greedyOff_eq (p : Plan) (last : Nat → Nat) (b : Nat) : greedyOff p last b =
    firstFit (Plan.placed { p with bufOff := greedy p last b } last) (defTime b) (last b)
      (p.bufSize b) := by
  rw [greedyOff, greedy_succ, List.getD_eq_getElem?_getD,
    List.getElem?_append_right (by rw [length_greedy]), length_greedy, Nat.sub_self]
  rfl

theorem getD_greedy (p : Plan) (last : Nat → Nat) {b n : Nat} (h : b < n) :
    (greedy p last n).getD b 0 = greedyOff p last b := by
  induction n with
  | zero => omega
  | succ n ih =>
    rcases Nat.lt_succ_iff_lt_or_eq.mp h with hlt | rfl
    · rw [← ih hlt, greedy_succ, List.getD_eq_getElem?_getD,
        List.getElem?_append_left (by rw [length_greedy]; exact hlt)]
      rfl
    · rfl

theorem mem_placed (hl : p.bufOff.length = n) {o : Placed} : o ∈ p.placed last ↔
    ∃ c < n, o = ⟨defTime c, last c, p.off c, p.bufSize c⟩ := by
  unfold Plan.placed
  rw [List.mem_map]
  constructor
  · rintro ⟨⟨off, c⟩, hm, rfl⟩
    rw [List.mem_zipIdx_iff_getElem?] at hm
    obtain ⟨hlt, he⟩ := List.getElem?_eq_some_iff.mp hm
    refine ⟨c, hl ▸ hlt, ?_⟩
    rw [Plan.off, List.getD_eq_getElem?_getD, hm]
    rfl
  · rintro ⟨c, hc, rfl⟩
    refine ⟨(p.off c, c), ?_, rfl⟩
    rw [List.mem_zipIdx_iff_getElem?]
    simp [Plan.off, hl, hc]

theorem mem_greedy (p : Plan) (last : Nat → Nat) (b : Nat) {o : Placed} :
    o ∈ Plan.placed { p with bufOff := greedy p last b } last ↔
      ∃ c < b, o = ⟨defTime c, last c, greedyOff p last c, p.bufSize c⟩ := by
  rw [mem_placed (length_greedy p last b)]
  refine exists_congr fun c => and_congr_right fun hc => ?_
  rw [show Plan.off { p with bufOff := greedy p last b } c = greedyOff p last c from
    getD_greedy p last hc]
  rfl

/-- Buffers that live at one time are apart. -/
theorem greedy_apart (p : Plan) (last : Nat → Nat) {b c : Nat} (hc : c < b)
    (h1 : defTime b ≤ last c) (h2 : defTime c ≤ last b) :
    greedyOff p last b + p.bufSize b ≤ greedyOff p last c ∨
      greedyOff p last c + p.bufSize c ≤ greedyOff p last b := by
  have hfree := firstFit_free (Plan.placed { p with bufOff := greedy p last b } last) (defTime b)
    (last b) (p.bufSize b) _ ((mem_greedy p last b).mpr ⟨c, hc, rfl⟩)
  rw [← greedyOff_eq] at hfree
  by_contra hno
  push Not at hno
  exact hfree ⟨⟨h1, h2⟩, hno.2, hno.1⟩

/-- No buffer ends beyond the sizes of the buffers up to it. -/
theorem greedy_top (p : Plan) (last : Nat → Nat) (b : Nat) :
    greedyOff p last b + p.bufSize b ≤ ∑ c ∈ Finset.range (b + 1), p.bufSize c := by
  induction b using Nat.strong_induction_on with
  | _ b ih =>
    rw [Finset.sum_range_succ]
    refine Nat.add_le_add_right ?_ _
    rw [greedyOff_eq]
    rcases firstFit_end (Plan.placed { p with bufOff := greedy p last b } last) (defTime b)
      (last b) (p.bufSize b) with h | ⟨o, ho, h⟩
    · rw [h]
      exact Nat.zero_le _
    · rw [h]
      obtain ⟨c, hc, rfl⟩ := (mem_greedy p last b).mp ho
      refine (ih c hc).trans (Finset.sum_le_sum_of_subset fun x hx => ?_)
      simp only [Finset.mem_range] at hx ⊢
      omega

-- ---------------------------------------------------------------------------
-- What placement computes
-- ---------------------------------------------------------------------------

/-- Where buffer `b` ends. -/
noncomputable def greedyTop (p : Plan) (last : Nat → Nat) (b : Nat) : Nat :=
  greedyOff p last b + p.bufSize b

/-- Where the first `n` buffers end. -/
noncomputable def greedyPeak (p : Plan) (last : Nat → Nat) (n : Nat) : Nat :=
  (Finset.range n).sup (greedyTop p last)

/-- The greedy offsets come from the sizes alone. -/
theorem greedy_congr (h : q.bufSize = p.bufSize) (n : Nat) : greedy q last n = greedy p last n := by
  induction n with
  | zero => rfl
  | succ n ih =>
    have hp : Plan.placed { q with bufOff := greedy p last n } last =
        Plan.placed { p with bufOff := greedy p last n } last := by
      unfold Plan.placed
      rw [show Plan.bufSize { q with bufOff := greedy p last n } = q.bufSize from rfl, h]
      rfl
    rw [greedy_succ, greedy_succ, ih, hp, h]

theorem greedyTop_congr (h : q.bufSize = p.bufSize) : greedyTop q last = greedyTop p last := by
  funext b
  rw [greedyTop, greedyOff, greedy_congr h, h]
  rfl

theorem greedyPeak_congr (h : q.bufSize = p.bufSize) (n : Nat) :
    greedyPeak q last n = greedyPeak p last n := by
  rw [greedyPeak, greedyTop_congr h]
  rfl

theorem greedyPeak_succ (p : Plan) (last : Nat → Nat) (n : Nat) :
    greedyPeak p last (n + 1) = max (greedyPeak p last n) (greedyTop p last n) := by
  rw [greedyPeak, Finset.range_add_one, Finset.sup_insert, max_comm]
  rfl

theorem placeBuffer_greedy (lim : Limits) (h : p.bufOff = greedy p last n) :
    Triple (placeBuffer lim last n) p
      (fun top p' => greedyTop p last n ≤ lim.planMax ∧ top = greedyTop p last n ∧
        p' = { p with bufOff := greedy p last (n + 1) })
      (fun e _ => e = .enomem ∧ lim.planMax < greedyTop p last n) := by
  unfold placeBuffer
  refine Triple.get_bind ?_
  dsimp only
  have hlen : (p.placed last).length < n + 1 := by simp [Plan.placed, h, length_greedy]
  have hp : Plan.placed { p with bufOff := greedy p last n } last = p.placed last := by rw [← h]
  rw [(fit_eq_firstFit _ _ _ hlen).1]
  have ho : firstFit (p.placed last) (defTime n) (last n) (p.bufSize n) = greedyOff p last n := by
    rw [greedyOff_eq, hp]
  refine Triple.ite (fun hgt => Triple.throw ⟨rfl, by rwa [ho] at hgt⟩) (fun hle => ?_)
  rw [ho] at hle ⊢
  refine Triple.modify_bind (Triple.pure' ⟨Nat.not_lt.mp hle, rfl, ?_⟩)
  rw [greedy_succ, hp, ho, h]

/-- The greedy plan, or the first buffer that does not fit. -/
theorem placeFrom_greedy (lim : Limits) (last : Nat → Nat) (k n : Nat) (p : Plan)
    (h : p.bufOff = greedy p last n) :
    Triple (placeFrom lim last k n (greedyPeak p last n)) p
      (fun _ p' => (∀ b, n ≤ b → b < n + k → greedyTop p last b ≤ lim.planMax) ∧
        p' = { p with bufOff := greedy p last (n + k), plannedPeak := greedyPeak p last (n + k) })
      (fun e _ => e = .enomem ∧ ∃ b < n + k, lim.planMax < greedyTop p last b) := by
  induction k generalizing n p with
  | zero =>
    refine Triple.modify ⟨fun b h1 h2 => by omega, ?_⟩
    rw [Nat.add_zero, ← h]
  | succ k ih =>
    unfold placeFrom
    have hstep := placeBuffer_greedy lim h
    refine Triple.bind (hstep.mono (fun _ _ h => h) fun e _ h => ⟨h.1, n, by omega, h.2⟩) ?_
    rintro top p₁ ⟨hfits, rfl, he₁⟩
    have hsize : p₁.bufSize = p.bufSize := by rw [he₁]; rfl
    have hrest := ih (n + 1) p₁ (by rw [greedy_congr hsize, he₁])
    rw [greedyPeak_congr hsize, greedyPeak_succ] at hrest
    refine hrest.mono ?_ ?_
    · rintro _ p' ⟨hall, he⟩
      rw [greedyTop_congr hsize] at hall
      rw [greedy_congr hsize, greedyPeak_congr hsize, show n + 1 + k = n + (k + 1) by omega, he₁]
        at he
      refine ⟨fun b h1 h2 => ?_, he⟩
      rcases Nat.lt_or_eq_of_le h1 with hlt | rfl
      · exact hall b hlt (by omega)
      · exact hfits
    · rintro e _ ⟨he, b, hb, hgt⟩
      rw [greedyTop_congr hsize] at hgt
      exact ⟨he, b, by omega, hgt⟩

-- ---------------------------------------------------------------------------
-- The plan
-- ---------------------------------------------------------------------------

/-- Buffer `b` holds something that is still needed at layer time `t`. -/
def Plan.live (p : Plan) (t b : Nat) : Prop := defTime b ≤ t ∧ t ≤ p.last b

instance (p : Plan) (t : Nat) : DecidablePred (p.live t) := fun b => by
  unfold Plan.live; infer_instance

/-- Buffer `b` at `x` clashes with none of the buffers before it. -/
def Plan.Clear (p : Plan) (b x : Nat) : Prop :=
  ∀ c < b, ¬Placed.clashes ⟨defTime c, p.last c, p.off c, p.bufSize c⟩ (defTime b) (p.last b)
    (p.bufSize b) x

/-- A first-fit plan. -/
structure FirstFit (lim : Limits) (p : Plan) : Prop where
  least : ∀ b ≤ p.layerCount, IsLeast {x | p.Clear b x} (p.off b)
  apart : ∀ b ≤ p.layerCount, ∀ c ≤ p.layerCount, b ≠ c → defTime b ≤ p.last c →
    defTime c ≤ p.last b → p.Disjoint b c
  below : ∀ b ≤ p.layerCount, p.off b + p.bufSize b ≤ p.plannedPeak
  peak_le : p.plannedPeak ≤ lim.planMax
  live_le : ∀ t ≤ p.layerCount,
    ∑ b ∈ (Finset.range (p.layerCount + 1)).filter (p.live t), p.bufSize b ≤ p.plannedPeak
  naive : p.naivePeak = ∑ b ∈ Finset.range (p.layerCount + 1), p.bufSize b
  peak_le_naive : p.plannedPeak ≤ p.naivePeak

/-- The greedy plan of the buffers of `p`. -/
noncomputable def Plan.firstFit (p : Plan) : Plan :=
  { p with
    bufOff := greedy p p.last (p.layerCount + 1)
    plannedPeak := greedyPeak p p.last (p.layerCount + 1)
    naivePeak := ∑ b ∈ Finset.range (p.layerCount + 1), p.bufSize b }

theorem clear_firstFit (hb : b ≤ p.layerCount) : p.firstFit.Clear b x ↔
    Free (Plan.placed { p with bufOff := greedy p p.last b } p.last) (defTime b) (p.last b)
      (p.bufSize b) x := by
  have hoff : ∀ c < b, p.firstFit.off c = greedyOff p p.last c := fun c hc =>
    getD_greedy p p.last (by omega)
  constructor
  · intro h o ho
    obtain ⟨c, hc, rfl⟩ := (mem_greedy p p.last b).mp ho
    rw [← hoff c hc]
    exact h c hc
  · intro h c hc
    rw [hoff c hc]
    exact h _ ((mem_greedy p p.last b).mpr ⟨c, hc, rfl⟩)

theorem firstFit_ok (h : ∀ b < p.layerCount + 1, greedyTop p p.last b ≤ lim.planMax) :
    FirstFit lim p.firstFit := by
  have hoff : ∀ b ≤ p.layerCount, p.firstFit.off b = greedyOff p p.last b := fun b hb =>
    getD_greedy p p.last (Nat.lt_succ_of_le hb)
  have hsize : p.firstFit.bufSize = p.bufSize := rfl
  have hlast : p.firstFit.last = p.last := rfl
  have hbelow : ∀ b ≤ p.layerCount, greedyTop p p.last b ≤ p.firstFit.plannedPeak := fun b hb =>
    Finset.le_sup (f := greedyTop p p.last) (Finset.mem_range.mpr (Nat.lt_succ_of_le hb))
  have hbelow' : ∀ b ≤ p.layerCount,
      p.firstFit.off b + p.firstFit.bufSize b ≤ p.firstFit.plannedPeak := fun b hb => by
    rw [hoff b hb]
    exact hbelow b hb
  have hapart : ∀ b ≤ p.layerCount, ∀ c ≤ p.layerCount, b ≠ c → defTime b ≤ p.last c →
      defTime c ≤ p.last b → p.firstFit.Disjoint b c := by
    intro b hb c hc hne h1 h2
    unfold Plan.Disjoint
    rw [hoff b hb, hoff c hc]
    rcases Nat.lt_or_gt_of_ne hne with hlt | hgt
    · exact (greedy_apart p p.last hlt h2 h1).symm
    · exact greedy_apart p p.last hgt h1 h2
  refine ⟨fun b hb => ?_, hapart, hbelow', ?_, fun t ht => ?_, rfl, ?_⟩
  · rw [hoff b hb, greedyOff_eq]
    refine ⟨(clear_firstFit (p := p) hb).mpr (firstFit_free _ _ _ _), fun x hx => ?_⟩
    exact Nat.sInf_le ((clear_firstFit (p := p) hb).mp hx)
  · exact Finset.sup_le fun b hb => h b (Finset.mem_range.mp hb)
  · -- two buffers that live at `t` overlap in time
    refine sum_le_of_apart _ p.firstFit.off _ _ (fun b hb c hc hne => ?_) fun b hb => ?_
    · rw [Finset.mem_filter, Finset.mem_range] at hb hc
      exact hapart b (Nat.le_of_lt_succ hb.1) c (Nat.le_of_lt_succ hc.1) hne
        (hb.2.1.trans hc.2.2) (hc.2.1.trans hb.2.2)
    · exact hbelow' b (Nat.le_of_lt_succ (Finset.mem_range.mp (Finset.mem_filter.mp hb).1))
  · show greedyPeak p p.last (p.layerCount + 1) ≤ ∑ b ∈ Finset.range (p.layerCount + 1), p.bufSize b
    refine Finset.sup_le fun b hb => (greedy_top p p.last b).trans ?_
    refine Finset.sum_le_sum_of_subset fun x hx => ?_
    simp only [Finset.mem_range] at hb hx ⊢
    omega

theorem placeBuffers_firstFit (lim : Limits) (p : Plan) :
    Triple (placeBuffers lim) p
      (fun _ p' => (∀ b ≤ p.layerCount, greedyTop p p.last b ≤ lim.planMax) ∧ p' = p.firstFit)
      (fun e _ => e = .enomem ∧ ∃ b ≤ p.layerCount, lim.planMax < greedyTop p p.last b) := by
  unfold placeBuffers
  refine Triple.get_bind (Triple.modify_bind ?_)
  set p₁ : Plan := { p with
    naivePeak := ((List.range (p.layerCount + 1)).map p.bufSize).sum, bufOff := [] } with hp₁
  have hsize : p₁.bufSize = p.bufSize := rfl
  have hrun := placeFrom_greedy lim p.last (p.layerCount + 1) 0 p₁ rfl
  rw [Nat.zero_add, greedy_congr hsize, greedyPeak_congr hsize 0, greedyPeak_congr hsize,
    greedyTop_congr hsize] at hrun
  refine hrun.mono ?_ ?_
  · rintro _ p' ⟨hall, he⟩
    refine ⟨fun b hb => hall b (Nat.zero_le b) (Nat.lt_succ_of_le hb), he.trans ?_⟩
    rfl
  · rintro e _ ⟨he, b, hb, hgt⟩
    exact ⟨he, b, Nat.le_of_lt_succ hb, hgt⟩

/-- Placement is first fit, whatever plan parsing left: the scan for
each buffer ends, what comes out is a first-fit plan, and only a buffer beyond
the plan area stops it. -/
theorem placement (lim : Limits) (p : Plan) :
    (∀ b ≤ p.layerCount, Scans (Plan.placed { p with bufOff := greedy p p.last b } p.last)
      (defTime b) (p.last b) (p.bufSize b) 0 (greedyOff p p.last b)) ∧
    (∀ p', (placeBuffers lim).run p = (.ok (), p') → p' = p.firstFit ∧ FirstFit lim p') ∧
    (∀ e, ((placeBuffers lim).run p).1 = .error e ↔
      e = .enomem ∧ ∃ b ≤ p.layerCount, lim.planMax < greedyOff p p.last b + p.bufSize b) := by
  have hrun := placeBuffers_firstFit lim p
  refine ⟨fun b _ => ?_, fun p' h => ?_, fun e => ⟨fun h => ?_, ?_⟩⟩
  · rw [greedyOff_eq]
    have hfit := fit_eq_firstFit (defTime b) (p.last b) (p.bufSize b)
      (Nat.lt_succ_self (Plan.placed { p with bufOff := greedy p p.last b } p.last).length)
    rw [← hfit.1]
    exact hfit.2
  · obtain ⟨hall, rfl⟩ := hrun.ok h
    exact ⟨rfl, firstFit_ok fun b hb => hall b (Nat.le_of_lt_succ hb)⟩
  · exact hrun.error (Prod.ext h rfl)
  · rintro ⟨rfl, b, hb, hgt⟩
    cases hr : (placeBuffers lim).run p with
    | mk r p' =>
      cases r with
      | ok u =>
        have hle := (hrun.ok hr).1 b hb
        exact absurd hgt (Nat.not_lt.mpr hle)
      | error e => rw [(hrun.error hr).1]

end

end SynapticOS.Layered
