import Mathlib.Algebra.Order.Field.Basic
import Mathlib.Algebra.Order.Ring.Rat
import SynapticOS.Lib.Greedy
import SynapticOS.Lib.Ranking
import SynapticOS.Process.StagesLaws

/-!
# Non-maximum suppression

`post_nms` over any kind of numbers. In single precision it is the stage (`postNms_run`);
over the rationals, where the geometry is exact, it is a greedy choice along the ranking of
the scores (`nms_suppresses`).
-/

namespace SynapticOS.Process.Nms

open Lib

variable {R : Type}

-- ---------------------------------------------------------------------------
-- The algorithm
-- ---------------------------------------------------------------------------

/-- `syn_bbox_t`. -/
structure Box (R : Type) where
  x1 : R
  y1 : R
  x2 : R
  y2 : R
  score : R
  classId : R

/-- `syn_nms_config_t`. -/
structure Config (R : Type) where
  scoreThreshold : R
  iouThreshold : R
  maxBoxes : UInt8

section Algorithm

variable [OfNat R 0] [Add R] [Sub R] [Mul R] [Div R] [LT R] [LE R] [DecidableLT R] [DecidableLE R]
variable [BEq R]

/-- `box_iou`. -/
def Box.iou (a b : Box R) : R :=
  let ix1 := if a.x1 > b.x1 then a.x1 else b.x1
  let iy1 := if a.y1 > b.y1 then a.y1 else b.y1
  let ix2 := if a.x2 < b.x2 then a.x2 else b.x2
  let iy2 := if a.y2 < b.y2 then a.y2 else b.y2
  let iw := ix2 - ix1
  let ih := iy2 - iy1
  if iw ≤ 0 ∨ ih ≤ 0 then 0
  else
    let inter := iw * ih
    let areaA := (a.x2 - a.x1) * (a.y2 - a.y1)
    let areaB := (b.x2 - b.x1) * (b.y2 - b.y1)
    let uni := areaA + areaB - inter
    if uni > 0 then inter / uni else 0

/-- `cand` suppresses `other`. -/
def Config.hits (cfg : Config R) (cand other : Box R) : Bool :=
  other.classId == cand.classId && cand.iou other > cfg.iouThreshold

/-- One insertion into `order`, kept from its last place to its first. -/
def insertCandidate (boxes : Nat → Box R) (i : Nat) : List Nat → List Nat
  | [] => [i]
  | last :: rest =>
    if (boxes last).score < (boxes i).score then last :: insertCandidate boxes i rest
    else i :: last :: rest

/-- `order[0..num_cand)`. -/
def candidates (boxes : Nat → Box R) (count : Nat) (cfg : Config R) : List Nat :=
  ((List.range count).foldl (fun order i =>
    if (boxes i).score < cfg.scoreThreshold then order
    else insertCandidate boxes i order) []).reverse

/-- Mark the boxes behind place `i` that `cand` suppresses. -/
def suppress (boxes : Nat → Box R) (cfg : Config R) (order : List Nat) (i : Nat) (cand : Box R)
    (suppressed : Nat → Bool) : Nat → Bool :=
  (List.range (order.length - (i + 1))).foldl (fun suppressed n =>
    let j := i + 1 + n
    if suppressed j then suppressed
    else if cfg.hits cand (boxes (order.getD j 0)) then fun k => k == j || suppressed k
    else suppressed) suppressed

/-- Where the sweep over the candidates is. -/
structure Sweep where
  suppressed : Nat → Bool
  kept : List Nat
  full : Bool

/-- The candidate at place `i`. -/
def sweepStep (boxes : Nat → Box R) (cfg : Config R) (order : List Nat) (capacity : Nat)
    (sw : Sweep) (i : Nat) : Sweep :=
  if sw.full ∨ sw.kept.length ≥ cfg.maxBoxes.toNat ∨ sw.suppressed i then sw
  else if (sw.kept.length + 1) * bboxSize > capacity then { sw with full := true }
  else
    let cand := order.getD i 0
    { sw with
      suppressed := suppress boxes cfg order i (boxes cand) sw.suppressed
      kept := sw.kept ++ [cand] }

def sweep (boxes : Nat → Box R) (cfg : Config R) (order : List Nat) (capacity : Nat) : Sweep :=
  (List.range order.length).foldl (sweepStep boxes cfg order capacity) ⟨fun _ => false, [], false⟩

/-- `post_nms` on `count` boxes: the shape of the output and the boxes in it. -/
def nms (boxes : Nat → Box R) (count : Nat) (cfg : Config R) (capacity : Nat) :
    Except Reject (Geometry × List (Box R)) :=
  if cfg.maxBoxes = 0 then .error .inval
  else if count > nmsMaxBoxes then .error .inval
  else
    let sw := sweep boxes cfg (candidates boxes count cfg) capacity
    .ok (⟨sw.kept.length * bboxSize, .float32, 2, ![UInt32.ofNat sw.kept.length, 6, 0, 0]⟩,
      sw.kept.map boxes)

-- ---------------------------------------------------------------------------
-- The sweep is a greedy choice
-- ---------------------------------------------------------------------------

variable {boxes : Nat → Box R} {cfg : Config R} {order : List Nat} {capacity i : Nat}

/-- There is room for a box behind `n`. -/
def Config.room (cfg : Config R) (capacity n : Nat) : Bool :=
  n < cfg.maxBoxes.toNat && (n + 1) * bboxSize ≤ capacity

/-- A round marks its own place only. -/
theorem mark_apply (s : Nat → Bool) (j k : Nat) (hit : Nat → Bool) :
    (if s j then s else if hit j then fun k => k == j || s k else s) k =
      (s k || (k == j && hit k)) := by
  by_cases hk : k = j
  · subst hk
    cases hs : s k <;> cases hh : hit k <;> simp [hs]
  · have hne : (k == j) = false := by simpa using hk
    cases hs : s j <;> cases hh : hit j <;> simp [hne]

theorem suppress_apply (i : Nat) (cand : Box R) (suppressed : Nat → Bool) {j : Nat} (hij : i < j)
    (hj : j < order.length) :
    suppress boxes cfg order i cand suppressed j =
      (suppressed j || cfg.hits cand (boxes (order.getD j 0))) := by
  have hrounds : ∀ n k, (List.range n).foldl (fun suppressed n =>
        let j := i + 1 + n
        if suppressed j then suppressed
        else if cfg.hits cand (boxes (order.getD j 0)) then fun k => k == j || suppressed k
        else suppressed) suppressed k =
      (suppressed k || (decide (i < k ∧ k < i + 1 + n) &&
        cfg.hits cand (boxes (order.getD k 0)))) := by
    intro n k
    induction n with
    | zero =>
      rw [decide_eq_false (by omega), Bool.false_and, Bool.or_false]
      rfl
    | succ n ih =>
      rw [List.range_succ, List.foldl_append, List.foldl_cons, List.foldl_nil]
      refine (mark_apply _ (i + 1 + n) k fun j => cfg.hits cand (boxes (order.getD j 0))).trans ?_
      rw [ih, Bool.or_assoc, ← Bool.and_or_distrib_right]
      have hnew : (decide (i < k ∧ k < i + 1 + n) || k == i + 1 + n) =
          decide (i < k ∧ k < i + 1 + (n + 1)) := by
        rw [Bool.eq_iff_iff]
        simp only [decide_eq_true_eq, Bool.or_eq_true, beq_iff_eq]
        omega
      rw [hnew]
  unfold suppress
  rw [hrounds, decide_eq_true (by omega), Bool.true_and]

/-- What is left to do at place `i`: the greedy choice continues with the boxes kept, and a
place behind is marked if one of them suppresses it. -/
structure Sweep.At (boxes : Nat → Box R) (cfg : Config R) (order : List Nat) (capacity i : Nat)
    (sw : Sweep) : Prop where
  rest : greedy (cfg.room capacity) (fun k c => cfg.hits (boxes k) (boxes c)) sw.kept
      (order.drop i) =
    greedy (cfg.room capacity) (fun k c => cfg.hits (boxes k) (boxes c)) [] order
  full : sw.full = true → cfg.room capacity sw.kept.length = false
  marked : ∀ j, i ≤ j → j < order.length → sw.suppressed j =
    sw.kept.any fun k => cfg.hits (boxes k) (boxes (order.getD j 0))

theorem sweepStep_at {sw : Sweep} (h : sw.At boxes cfg order capacity i) (hi : i < order.length) :
    (sweepStep boxes cfg order capacity sw i).At boxes cfg order capacity (i + 1) := by
  have hdrop : order.drop i = order.getD i 0 :: order.drop (i + 1) := by
    rw [List.drop_eq_getElem_cons hi, List.getD_eq_getElem?_getD, List.getElem?_eq_getElem hi,
      Option.getD_some]
  have hrest := h.rest
  rw [hdrop] at hrest
  have hmarked := h.marked i (Nat.le_refl i) hi
  have hbehind : ∀ j, i + 1 ≤ j → j < order.length → sw.suppressed j =
      sw.kept.any fun k => cfg.hits (boxes k) (boxes (order.getD j 0)) :=
    fun j hj => h.marked j (Nat.le_of_succ_le hj)
  -- nothing is kept: there is no room, or the place is marked
  have hsame : (cfg.room capacity sw.kept.length = false ∨ sw.suppressed i = true) →
      greedy (cfg.room capacity) (fun k c => cfg.hits (boxes k) (boxes c)) sw.kept
        (order.drop (i + 1)) =
      greedy (cfg.room capacity) (fun k c => cfg.hits (boxes k) (boxes c)) [] order := by
    rintro (hroom | hsup)
    · rw [greedy_full hroom] at hrest ⊢
      exact hrest
    · rw [greedy_skip (by rw [← hmarked]; exact hsup)] at hrest
      exact hrest
  unfold sweepStep
  split
  · rename_i hstop
    refine ⟨hsame ?_, h.full, hbehind⟩
    rcases hstop with hfull | hmax | hsup
    · exact .inl (h.full hfull)
    · exact .inl (by unfold Config.room; rw [decide_eq_false (by omega), Bool.false_and])
    · exact .inr hsup
  rename_i hgo
  simp only [not_or, Bool.not_eq_true, ge_iff_le, not_le] at hgo
  obtain ⟨hnot, hmax, hsup⟩ := hgo
  split
  · rename_i hcap
    have hroom : cfg.room capacity sw.kept.length = false := by
      unfold Config.room
      rw [decide_eq_false (Nat.not_le.mpr hcap), Bool.and_false]
    exact ⟨hsame (.inl hroom), fun _ => hroom, hbehind⟩
  · rename_i hcap
    have hroom : cfg.room capacity sw.kept.length = true := by
      unfold Config.room
      rw [decide_eq_true hmax, decide_eq_true (Nat.not_lt.mp hcap)]
      rfl
    refine ⟨?_, fun hfull => ?_, fun j hj hlen => ?_⟩
    · rwa [greedy_take hroom (by rw [← hmarked]; exact hsup)] at hrest
    · exact absurd (hnot.symm.trans hfull) Bool.false_ne_true
    · dsimp only
      rw [suppress_apply i _ _ hj hlen, hbehind j hj hlen, List.any_append, List.any_cons,
        List.any_nil, Bool.or_false]

/-- The boxes kept are the greedy choice along `order`. -/
theorem sweep_kept (boxes : Nat → Box R) (cfg : Config R) (order : List Nat) (capacity : Nat) :
    (sweep boxes cfg order capacity).kept =
      greedy (cfg.room capacity) (fun k c => cfg.hits (boxes k) (boxes c)) [] order := by
  have hrounds : ∀ n ≤ order.length, ((List.range n).foldl (sweepStep boxes cfg order capacity)
      ⟨fun _ => false, [], false⟩).At boxes cfg order capacity n := by
    intro n hn
    induction n with
    | zero => exact ⟨rfl, nofun, fun _ _ _ => rfl⟩
    | succ n ih =>
      rw [List.range_succ, List.foldl_append, List.foldl_cons, List.foldl_nil]
      exact sweepStep_at (ih (by omega)) hn
  have h := (hrounds order.length (Nat.le_refl _)).rest
  rw [List.drop_length] at h
  exact h

end Algorithm

-- ---------------------------------------------------------------------------
-- Insertion
-- ---------------------------------------------------------------------------

theorem insertCandidate_perm [LT R] [DecidableLT R] (boxes : Nat → Box R) (i : Nat) (order : List Nat) :
    (insertCandidate boxes i order).Perm (i :: order) := by
  induction order with
  | nil => exact .refl _
  | cons last rest ih =>
    unfold insertCandidate
    split
    · exact (ih.cons last).trans (.swap i last rest)
    · exact .refl _

section Rational

variable {boxes : Nat → Box ℚ} {cfg : Config ℚ} {order : List Nat} {count i : Nat}

/-- An insertion keeps the places ranked, when the index comes behind all others. -/
theorem insertCandidate_ranked (hlt : ∀ j ∈ order, j < i)
    (h : order.Pairwise fun a b => Ahead (fun i => (boxes i).score) b a) :
    (insertCandidate boxes i order).Pairwise fun a b => Ahead (fun i => (boxes i).score) b a := by
  induction order with
  | nil => exact List.pairwise_singleton _ _
  | cons last rest ih =>
    obtain ⟨hlast, hrest⟩ := List.pairwise_cons.mp h
    obtain ⟨hl, hr⟩ := List.forall_mem_cons.mp hlt
    unfold insertCandidate
    split
    · rename_i hs
      refine List.pairwise_cons.mpr ⟨fun j hj => ?_, ih hr hrest⟩
      rcases List.mem_cons.mp ((insertCandidate_perm boxes i rest).mem_iff.mp hj) with rfl | hj
      · exact .inl hs
      · exact hlast j hj
    · rename_i hs
      have hahead : Ahead (fun i => (boxes i).score) last i := Ahead.of_lt hl (not_lt.mp hs)
      refine List.pairwise_cons.mpr ⟨fun j hj => ?_, h⟩
      rcases List.mem_cons.mp hj with rfl | hj
      · exact hahead
      · exact (hlast j hj).trans hahead

/-- The boxes that score at least the threshold, ranked. -/
def ranking (boxes : Nat → Box ℚ) (count : Nat) (cfg : Config ℚ) : List Nat :=
  ranked (fun i => (boxes i).score)
    ((List.range count).filter fun i => cfg.scoreThreshold ≤ (boxes i).score)

theorem candidates_eq (boxes : Nat → Box ℚ) (count : Nat) (cfg : Config ℚ) :
    candidates boxes count cfg = ranking boxes count cfg := by
  have hrounds : ∀ n, ((List.range n).foldl (fun order i =>
        if (boxes i).score < cfg.scoreThreshold then order
        else insertCandidate boxes i order) []).Perm
          ((List.range n).filter fun i => cfg.scoreThreshold ≤ (boxes i).score) ∧
      ((List.range n).foldl (fun order i =>
        if (boxes i).score < cfg.scoreThreshold then order
        else insertCandidate boxes i order) []).Pairwise
          fun a b => Ahead (fun i => (boxes i).score) b a := by
    intro n
    induction n with
    | zero => exact ⟨.refl _, .nil⟩
    | succ n ih =>
      obtain ⟨hperm, hsorted⟩ := ih
      rw [List.range_succ, List.foldl_append, List.foldl_cons, List.foldl_nil, List.filter_append]
      split
      · rename_i hs
        rw [List.filter_cons_of_neg (by simpa using hs), List.filter_nil, List.append_nil]
        exact ⟨hperm, hsorted⟩
      · rename_i hs
        rw [List.filter_cons_of_pos (by simpa using hs), List.filter_nil]
        refine ⟨(insertCandidate_perm boxes n _).trans ?_, insertCandidate_ranked ?_ hsorted⟩
        · exact ((hperm.cons n).trans (List.perm_append_singleton n _).symm)
        · intro j hj
          have := (List.mem_filter.mp (hperm.mem_iff.mp hj)).1
          exact List.mem_range.mp this
  obtain ⟨hperm, hsorted⟩ := hrounds count
  exact eq_ranked (List.pairwise_lt_range.filter _) ((List.reverse_perm _).trans hperm)
    (List.pairwise_reverse.mpr hsorted)

-- ---------------------------------------------------------------------------
-- Geometry
-- ---------------------------------------------------------------------------

def Box.Ordered (b : Box ℚ) : Prop := b.x1 ≤ b.x2 ∧ b.y1 ≤ b.y2

def Box.area (b : Box ℚ) : ℚ := (b.x2 - b.x1) * (b.y2 - b.y1)

/-- The area of the intersection. -/
def Box.overlap (a b : Box ℚ) : ℚ :=
  max 0 (min a.x2 b.x2 - max a.x1 b.x1) * max 0 (min a.y2 b.y2 - max a.y1 b.y1)

/-- Intersection over union, and zero where the union is empty. -/
def Box.ratio (a b : Box ℚ) : ℚ := a.overlap b / (a.area + b.area - a.overlap b)

theorem overlap_comm (a b : Box ℚ) : a.overlap b = b.overlap a := by
  unfold Box.overlap
  rw [min_comm a.x2, max_comm a.x1, min_comm a.y2, max_comm a.y1]

theorem ratio_comm (a b : Box ℚ) : a.ratio b = b.ratio a := by
  unfold Box.ratio
  rw [overlap_comm, add_comm]

theorem iou_eq_ratio {a b : Box ℚ} (hb : b.Ordered) : a.iou b = a.ratio b := by
  have hmax : ∀ x y : ℚ, (if x > y then x else y) = max x y := by
    intro x y
    rw [max_def]
    split <;> split <;> linarith
  have hmin : ∀ x y : ℚ, (if x < y then x else y) = min x y := by
    intro x y
    rw [min_def]
    split <;> split <;> linarith
  unfold Box.iou Box.ratio Box.overlap
  simp only [hmax, hmin]
  split
  · rename_i h
    have hzero : max 0 (min a.x2 b.x2 - max a.x1 b.x1) * max 0 (min a.y2 b.y2 - max a.y1 b.y1) =
        0 := by
      rcases h with h | h
      · rw [max_eq_left h, zero_mul]
      · rw [max_eq_left h, mul_zero]
    rw [hzero, zero_div]
  · rename_i h
    rw [not_or, not_le, not_le] at h
    rw [max_eq_right h.1.le, max_eq_right h.2.le]
    change (if a.area + b.area - _ > 0 then _ else _) = _
    split
    · rfl
    · rename_i hunion
      -- the intersection is within `a`, so an empty union is of area zero
      have hx : min a.x2 b.x2 - max a.x1 b.x1 ≤ a.x2 - a.x1 :=
        sub_le_sub (min_le_left _ _) (le_max_left _ _)
      have hy : min a.y2 b.y2 - max a.y1 b.y1 ≤ a.y2 - a.y1 :=
        sub_le_sub (min_le_left _ _) (le_max_left _ _)
      have hwithin : (min a.x2 b.x2 - max a.x1 b.x1) * (min a.y2 b.y2 - max a.y1 b.y1) ≤ a.area :=
        mul_le_mul hx hy h.2.le (h.1.le.trans hx)
      have hb : 0 ≤ b.area := mul_nonneg (sub_nonneg.mpr hb.1) (sub_nonneg.mpr hb.2)
      rw [le_antisymm (not_lt.mp hunion) (by linarith), div_zero]

-- ---------------------------------------------------------------------------
-- The boxes kept
-- ---------------------------------------------------------------------------

/-- What the stage is for, of the indices of the boxes it keeps. -/
structure Suppresses (boxes : Nat → Box ℚ) (count : Nat) (cfg : Config ℚ) (capacity : Nat)
    (kept : List Nat) : Prop where
  /-- Candidates by descending score, equal scores in the order of the input. -/
  sublist : kept.Sublist (ranking boxes count cfg)
  apart : ∀ a ∈ kept, ∀ b ∈ kept, a ≠ b → (boxes a).classId = (boxes b).classId →
    (boxes a).ratio (boxes b) ≤ cfg.iouThreshold
  /-- A candidate that is left out overlaps with one before it, or comes after the last that
  had room. -/
  left : ∀ c < count, cfg.scoreThreshold ≤ (boxes c).score → c ∉ kept →
    (∃ k ∈ kept, Ahead (fun i => (boxes i).score) k c ∧ (boxes k).classId = (boxes c).classId ∧
      cfg.iouThreshold < (boxes k).ratio (boxes c)) ∨
    (kept.length = cfg.maxBoxes.toNat ∨ capacity < (kept.length + 1) * bboxSize) ∧
      ∀ k ∈ kept, Ahead (fun i => (boxes i).score) k c
  few : kept.length ≤ cfg.maxBoxes.toNat
  fits : kept.length * bboxSize ≤ capacity

theorem mem_ranking : i ∈ ranking boxes count cfg ↔
    i < count ∧ cfg.scoreThreshold ≤ (boxes i).score := by
  unfold ranking
  rw [mem_ranked, List.mem_filter, List.mem_range, decide_eq_true_eq]

theorem ranking_ranked (boxes : Nat → Box ℚ) (count : Nat) (cfg : Config ℚ) :
    (ranking boxes count cfg).Pairwise (Ahead fun i => (boxes i).score) :=
  pairwise_ranked (List.pairwise_lt_range.filter _)

theorem hits_iff {k c : Box ℚ} (hc : c.Ordered) :
    cfg.hits k c = true ↔ k.classId = c.classId ∧ cfg.iouThreshold < k.ratio c := by
  unfold Config.hits
  rw [iou_eq_ratio hc, Bool.and_eq_true, beq_iff_eq, decide_eq_true_eq]
  exact and_congr_left' eq_comm

/-- A sweep keeps what it should. -/
theorem sweep_suppresses (hboxes : ∀ i < count, (boxes i).Ordered) (capacity : Nat) :
    Suppresses boxes count cfg capacity
      (sweep boxes cfg (candidates boxes count cfg) capacity).kept := by
  rw [sweep_kept, candidates_eq]
  generalize hkept : greedy (cfg.room capacity) (fun k c => cfg.hits (boxes k) (boxes c)) []
    (ranking boxes count cfg) = kept
  have hsub : kept.Sublist (ranking boxes count cfg) := by
    obtain ⟨taken, htaken, hsub⟩ := greedy_sublist (cfg.room capacity)
      (fun k c => cfg.hits (boxes k) (boxes c)) [] (ranking boxes count cfg)
    rw [hkept, List.nil_append] at htaken
    rwa [htaken]
  have hord : ∀ k ∈ kept, (boxes k).Ordered :=
      fun k hk => hboxes k (mem_ranking.mp (hsub.subset hk)).1
  have hapart : kept.Pairwise fun a b => cfg.hits (boxes a) (boxes b) = false := by
    rw [← hkept]
    exact greedy_pairwise _ _ _ .nil
  have hfew : kept.length ≤ cfg.maxBoxes.toNat := by
    rw [← hkept]
    refine length_greedy_le _ (fun n hn => ?_) _ (Nat.zero_le _)
    unfold Config.room at hn
    rw [Bool.and_eq_true, decide_eq_true_eq] at hn
    exact hn.1
  have hfits : kept.length ≤ capacity / bboxSize := by
    rw [← hkept]
    refine length_greedy_le _ (fun n hn => ?_) _ (Nat.zero_le _)
    unfold Config.room at hn
    rw [Bool.and_eq_true, decide_eq_true_eq, decide_eq_true_eq] at hn
    exact (Nat.le_div_iff_mul_le (by decide)).mpr hn.2
  refine ⟨hsub, ?_, fun c hc hs hnot => ?_, hfew, (Nat.le_div_iff_mul_le (by decide)).mp hfits⟩
  · have hsym : Std.Symm fun a b => (boxes a).classId = (boxes b).classId →
        (boxes a).ratio (boxes b) ≤ cfg.iouThreshold := by
      refine ⟨fun a b h hclass => ?_⟩
      rw [ratio_comm]
      exact h hclass.symm
    refine List.Pairwise.forall (hapart.imp_of_mem fun {a b} _ hb hhit hclass => ?_)
    refine not_lt.mp fun hover => ?_
    rw [(hits_iff (hord b hb)).mpr ⟨hclass, hover⟩] at hhit
    cases hhit
  · have hleft := greedy_left (cfg.room capacity) (fun k c => cfg.hits (boxes k) (boxes c))
      [] (ranking_ranked boxes count cfg) (fun k hk => absurd hk List.not_mem_nil) c
      (mem_ranking.mpr ⟨hc, hs⟩)
    rw [hkept] at hleft
    rcases hleft with h | ⟨k, hk, hahead, hhit⟩ | ⟨hroom, hahead⟩
    · exact absurd h hnot
    · obtain ⟨hclass, hover⟩ := (hits_iff (hboxes c hc)).mp hhit
      exact .inl ⟨k, hk, hahead, hclass, hover⟩
    · refine .inr ⟨?_, hahead⟩
      unfold Config.room at hroom
      rw [Bool.and_eq_false_iff, decide_eq_false_iff_not, decide_eq_false_iff_not] at hroom
      omega

/-- Over the rationals the stage suppresses as it should, with the size and the shape of what
it keeps. -/
theorem nms_suppresses (boxes : Nat → Box ℚ) (count : Nat) (cfg : Config ℚ) (capacity : Nat)
    (hcount : count ≤ nmsMaxBoxes) (hboxes : ∀ i < count, (boxes i).Ordered) :
    if cfg.maxBoxes = 0 then nms boxes count cfg capacity = .error .inval
    else ∃ kept : List Nat, Suppresses boxes count cfg capacity kept ∧
      nms boxes count cfg capacity = .ok (⟨kept.length * bboxSize, .float32, 2,
        ![UInt32.ofNat kept.length, 6, 0, 0]⟩, kept.map boxes) := by
  unfold nms
  split
  · rfl
  · exact ⟨_, sweep_suppresses hboxes capacity, if_neg (by omega)⟩

/-- Two boxes of a class, the second of which has the greater score and covers the first. -/
def pair (i : Nat) : Box ℚ := if i = 0 then ⟨0, 0, 2, 1, 1 / 2, 3⟩ else ⟨0, 0, 2, 2, 3 / 4, 3⟩

theorem nms_suppresses_pair : ∃ kept : List Nat, Suppresses pair 2 ⟨1 / 4, 1 / 3, 8⟩ 48 kept ∧
    nms pair 2 ⟨1 / 4, 1 / 3, 8⟩ 48 = .ok (⟨kept.length * bboxSize, .float32, 2,
      ![UInt32.ofNat kept.length, 6, 0, 0]⟩, kept.map pair) :=
  nms_suppresses pair 2 ⟨1 / 4, 1 / 3, 8⟩ 48 (by decide) (by
    intro i _
    unfold pair Box.Ordered
    split <;> norm_num)

end Rational

-- ---------------------------------------------------------------------------
-- The stage
-- ---------------------------------------------------------------------------

section Single

variable {b out : Buffer} {count i : Nat}

def numbers (box : Bbox) : Box Float32 :=
  ⟨box.x1, box.y1, box.x2, box.y2, box.score, box.classId⟩

def configNumbers (cfg : NmsConfig) : Config Float32 :=
  ⟨cfg.scoreThreshold, cfg.iouThreshold, cfg.maxBoxes⟩

/-- Float `i` of a buffer. -/
def floatAt (b : Buffer) (i : Nat) : Float32 := Float32.ofBits (b.word (4 * i))

/-- Box `i` of an array of `syn_bbox_t`. -/
def boxAt (b : Buffer) (i : Nat) : Bbox :=
  ⟨floatAt b (6 * i), floatAt b (6 * i + 1), floatAt b (6 * i + 2), floatAt b (6 * i + 3),
    floatAt b (6 * i + 4), floatAt b (6 * i + 5)⟩

def boxesOf (b : Buffer) (i : Nat) : Box Float32 := numbers (boxAt b i)

def boxWords (box : Box Float32) : List UInt32 :=
  [box.x1.toBits, box.y1.toBits, box.x2.toBits, box.y2.toBits, box.score.toBits,
    box.classId.toBits]

/-- The words of place `r` of an array of `syn_bbox_t`. -/
def placeWords (b : Buffer) (r : Nat) : List UInt32 :=
  (List.range 6).map fun k => b.word (bboxSize * r + 4 * k)

theorem loadFloat_run (h : 4 * i + 4 ≤ b.size) :
    (loadFloat b i).run out = (.ok (floatAt b i), out) := by
  unfold loadFloat Buffer.load32
  rw [if_pos h]
  rfl

theorem loadBoxScore_run (hb : count * bboxSize ≤ b.size) (hi : i < count) :
    (loadBoxScore b i).run out = (.ok (boxesOf b i).score, out) := by
  unfold bboxSize at hb
  exact loadFloat_run (by omega)

theorem loadBox_run (hb : count * bboxSize ≤ b.size) (hi : i < count) :
    (loadBox b i).run out = (.ok (boxAt b i), out) := by
  unfold bboxSize at hb
  have hload : ∀ k ≤ 5, (loadFloat b (6 * i + k)).run out = (.ok (floatAt b (6 * i + k)), out) :=
    fun k hk => loadFloat_run (by omega)
  have h0 : (loadFloat b (6 * i)).run out = (.ok (floatAt b (6 * i)), out) := hload 0 (by omega)
  unfold loadBox
  rw [Act.run_bind_ok h0, Act.run_bind_ok (hload 1 (by omega)),
    Act.run_bind_ok (hload 2 (by omega)), Act.run_bind_ok (hload 3 (by omega)),
    Act.run_bind_ok (hload 4 (by omega)), Act.run_bind_ok (hload 5 (by omega))]
  rfl

theorem insertCandidate_run (hb : count * bboxSize ≤ b.size) (hi : i < count) {order : List Nat}
    (ho : ∀ j ∈ order, j < count) :
    (Process.insertCandidate b i order).run out =
      (.ok (insertCandidate (boxesOf b) i order), out) := by
  induction order with
  | nil => rfl
  | cons last rest ih =>
    obtain ⟨hlast, hrest⟩ := List.forall_mem_cons.mp ho
    unfold Process.insertCandidate insertCandidate
    rw [Act.run_bind_ok (loadBoxScore_run hb hlast), Act.run_bind_ok (loadBoxScore_run hb hi)]
    split
    · rw [Act.run_bind_ok (ih hrest)]
      rfl
    · rfl

theorem candidates_run (out : Buffer) (hb : count * bboxSize ≤ b.size) (cfg : NmsConfig) :
    (Process.candidates b count cfg).run out =
        (.ok (candidates (boxesOf b) count (configNumbers cfg)), out) ∧
      ∀ j ∈ candidates (boxesOf b) count (configNumbers cfg), j < count := by
  have hlt : ∀ n ≤ count, ∀ j ∈ (List.range n).foldl (fun order i =>
      if (boxesOf b i).score < (configNumbers cfg).scoreThreshold then order
      else insertCandidate (boxesOf b) i order) [], j < count := by
    intro n hn
    induction n with
    | zero => exact fun j hj => absurd hj List.not_mem_nil
    | succ n ih =>
      rw [List.range_succ, List.foldl_append, List.foldl_cons, List.foldl_nil]
      intro j hj
      split at hj
      · exact ih (by omega) j hj
      · rcases List.mem_cons.mp ((insertCandidate_perm _ _ _).mem_iff.mp hj) with rfl | hj
        · exact hn
        · exact ih (by omega) j hj
  refine ⟨?_, fun j hj => hlt count (Nat.le_refl _) j (List.mem_reverse.mp hj)⟩
  unfold Process.candidates
  refine (Act.run_bind_ok (Act.times_run (g := fun n => (List.range n).foldl (fun order i =>
    if (boxesOf b i).score < (configNumbers cfg).scoreThreshold then order
    else insertCandidate (boxesOf b) i order) []) fun i hi => ?_)).trans rfl
  rw [Act.run_bind_ok (loadBoxScore_run hb hi), List.range_succ, List.foldl_append,
    List.foldl_cons, List.foldl_nil]
  change (if (boxesOf b i).score < (configNumbers cfg).scoreThreshold then _ else _ :
    StageM (List Nat)).run out = _
  split
  · rfl
  · exact insertCandidate_run hb hi (hlt i (Nat.le_of_lt hi))

theorem suppress_run (hb : count * bboxSize ≤ b.size) (cfg : NmsConfig) {order : List Nat}
    (ho : ∀ j ∈ order, j < count) (i : Nat) (cand : Bbox) (suppressed : Nat → Bool) :
    (Process.suppress b cfg order i cand suppressed).run out =
      (.ok (suppress (boxesOf b) (configNumbers cfg) order i (numbers cand) suppressed), out) := by
  unfold Process.suppress
  refine Act.times_run (g := fun n => (List.range n).foldl (fun suppressed n =>
    let j := i + 1 + n
    if suppressed j then suppressed
    else if (configNumbers cfg).hits (numbers cand) (boxesOf b (order.getD j 0)) then
      fun k => k == j || suppressed k
    else suppressed) suppressed) fun n hn => ?_
  rw [List.range_succ, List.foldl_append, List.foldl_cons, List.foldl_nil]
  dsimp only
  split
  · rfl
  · rw [Act.run_bind_ok (loadBox_run hb (getD_lt ho (by omega)))]
    change (if (configNumbers cfg).hits (numbers cand) (boxesOf b (order.getD (i + 1 + n) 0)) then
      _ else _ : StageM (Nat → Bool)).run out = _
    split <;> rfl

/-- A box is stored at its place, and the others stay. -/
theorem storeBox_run {r : Nat} (box : Bbox) (h : (r + 1) * bboxSize ≤ b.size) :
    ∃ b', (storeBox r box).run b = (.ok (), b') ∧ b'.size = b.size ∧
      placeWords b' r = boxWords (numbers box) ∧ ∀ j ≠ r, placeWords b' j = placeWords b j := by
  have hlen : (boxWords (numbers box)).length = 6 := rfl
  refine ⟨b.put (bboxSize * r) ((boxWords (numbers box)).flatMap Buffer.wordBytes), ?_, rfl, ?_,
    fun j hj => ?_⟩
  · refine Buffer.store_run ?_
    change bboxSize * r + ((boxWords (numbers box)).flatMap Buffer.wordBytes).length ≤ b.size
    rw [Buffer.length_words, hlen]
    unfold bboxSize at h ⊢
    omega
  · refine List.ext_getElem rfl fun k hk hk' => ?_
    simp only [placeWords, List.getElem_map, List.getElem_range]
    exact Buffer.word_put_words _ _ _ hk'
  · unfold placeWords
    refine List.map_congr_left fun k hk => Buffer.word_put_beside _ _ ?_
    have hk6 := List.mem_range.mp hk
    rw [Buffer.length_words, hlen]
    unfold bboxSize
    omega

/-- The first places of a buffer hold the boxes of a list. -/
def Holds (boxes : Nat → Box Float32) (out : Buffer) (kept : List Nat) : Prop :=
  ∀ r i, kept[r]? = some i → placeWords out r = boxWords (boxes i)

/-- The candidate at place `i` as the stage handles it. -/
theorem sweepStep_run (hb : count * bboxSize ≤ b.size) (cfg : NmsConfig) {order : List Nat}
    (ho : ∀ j ∈ order, j < count) (hi : i < order.length) {capacity : Nat} {sw : Sweep}
    (hsize : out.size = capacity) (hholds : Holds (boxesOf b) out sw.kept) :
    ∃ out', ((if sw.full ∨ sw.kept.length ≥ cfg.maxBoxes.toNat ∨ sw.suppressed i then
          return ⟨sw.suppressed, sw.kept.length, sw.full⟩
        else if (sw.kept.length + 1) * bboxSize > capacity then
          return ⟨sw.suppressed, sw.kept.length, true⟩
        else do
          let cand ← loadBox b (order.getD i 0)
          storeBox sw.kept.length cand
          let suppressed ← Process.suppress b cfg order i cand sw.suppressed
          return ⟨suppressed, sw.kept.length + 1, sw.full⟩ : StageM Process.Sweep).run out) =
        (.ok ⟨(sweepStep (boxesOf b) (configNumbers cfg) order capacity sw i).suppressed,
          (sweepStep (boxesOf b) (configNumbers cfg) order capacity sw i).kept.length,
          (sweepStep (boxesOf b) (configNumbers cfg) order capacity sw i).full⟩, out') ∧
      out'.size = capacity ∧
      Holds (boxesOf b) out'
        (sweepStep (boxesOf b) (configNumbers cfg) order capacity sw i).kept := by
  unfold sweepStep
  by_cases hstop : sw.full ∨ sw.kept.length ≥ cfg.maxBoxes.toNat ∨ sw.suppressed i
  · have hstop' : sw.full ∨ sw.kept.length ≥ (configNumbers cfg).maxBoxes.toNat ∨ sw.suppressed i :=
      hstop
    rw [if_pos hstop, if_pos hstop']
    exact ⟨out, rfl, hsize, hholds⟩
  have hgo : ¬(sw.full ∨ sw.kept.length ≥ (configNumbers cfg).maxBoxes.toNat ∨ sw.suppressed i) :=
    hstop
  rw [if_neg hstop, if_neg hgo]
  by_cases hcap : (sw.kept.length + 1) * bboxSize > capacity
  · rw [if_pos hcap, if_pos hcap]
    exact ⟨out, rfl, hsize, hholds⟩
  rw [if_neg hcap, if_neg hcap]
  obtain ⟨out', hstore, hsize', hplace, hothers⟩ := storeBox_run (b := out) (r := sw.kept.length)
    (boxAt b (order.getD i 0)) (by omega)
  refine ⟨out', ?_, hsize'.trans hsize, fun r k hr => ?_⟩
  · rw [Act.run_bind_ok (loadBox_run hb (getD_lt ho hi)), Act.run_bind_ok hstore,
      Act.run_bind_ok (suppress_run hb cfg ho i _ _), List.length_append]
    rfl
  · rcases getElem?_concat hr with ⟨hlt, hr⟩ | ⟨rfl, rfl⟩
    · rw [hothers r (Nat.ne_of_lt hlt)]
      exact hholds r k hr
    · exact hplace

/-- In single precision the algorithm is the stage. -/
theorem postNms_run {cfg : NmsConfig} {input : Tensor} (h : cfg.Accepts input) :
    ∃ g out' kept, (postNms (some cfg) input).run out = (.ok g, out') ∧
      nms (boxesOf input.bytes) (input.size.toNat / bboxSize) (configNumbers cfg) out.size =
        .ok (g, kept.map (boxesOf input.bytes)) ∧
      Holds (boxesOf input.bytes) out' kept := by
  obtain ⟨hd, hm, ht, hsize, hcount⟩ := h
  have hb : input.size.toNat / bboxSize * bboxSize ≤ input.bytes.size := Nat.div_mul_le_self _ _
  obtain ⟨hcand, hlt⟩ := candidates_run out hb cfg
  unfold nms
  rw [if_neg (show (configNumbers cfg).maxBoxes ≠ 0 from hm), if_neg (by omega)]
  generalize candidates (boxesOf input.bytes) (input.size.toNat / bboxSize) (configNumbers cfg) =
    order at hcand hlt ⊢
  have hsweep : Triple (Act.times (fun i (sw : Process.Sweep) => do
        if sw.full ∨ sw.numKept ≥ cfg.maxBoxes.toNat ∨ sw.suppressed i then return sw
        else if (sw.numKept + 1) * bboxSize > out.size then return { sw with full := true }
        else
          let cand ← loadBox input.bytes (order.getD i 0)
          storeBox sw.numKept cand
          let suppressed ← Process.suppress input.bytes cfg order i cand sw.suppressed
          return { sw with suppressed, numKept := sw.numKept + 1 } :
        Nat → Process.Sweep → StageM Process.Sweep) order.length ⟨fun _ => false, 0, false⟩) out _
      fun _ _ => False := Triple.times
    (fun n sw b => ∃ p, p = (List.range n).foldl
        (sweepStep (boxesOf input.bytes) (configNumbers cfg) order out.size)
          ⟨fun _ => false, [], false⟩ ∧
      sw = ⟨p.suppressed, p.kept.length, p.full⟩ ∧ b.size = out.size ∧
      Holds (boxesOf input.bytes) b p.kept)
    (by
      rintro i hi _ b ⟨p, hp, rfl, hbsize, hholds⟩
      obtain ⟨b', hrun, hsize', hholds'⟩ := sweepStep_run hb cfg hlt hi hbsize hholds
      refine Triple.of_run hrun ⟨_, ?_, rfl, hsize', hholds'⟩
      rw [List.range_succ, List.foldl_append, List.foldl_cons, List.foldl_nil, ← hp])
    ⟨_, rfl, rfl, rfl, fun r i hr => by cases hr⟩
  obtain ⟨_, out', hrun, p, hp, rfl, -, hholds⟩ := hsweep.returns
  have hkept : p = sweep (boxesOf input.bytes) (configNumbers cfg) order out.size := hp
  refine ⟨⟨p.kept.length * bboxSize, .float32, 2, ![UInt32.ofNat p.kept.length, 6, 0, 0]⟩, out',
    p.kept, ?_, ?_, hholds⟩
  · unfold postNms
    dsimp only
    rw [if_neg (by simp [hd, hm, ht, hsize]), if_neg (by omega)]
    rw [Act.run_bind_ok (show (Act.get : StageM Buffer).run out = (.ok out, out) from rfl),
      Act.run_bind_ok hcand, Act.run_bind_ok hrun]
    rfl
  · rw [← hkept]

end Single

end SynapticOS.Process.Nms
