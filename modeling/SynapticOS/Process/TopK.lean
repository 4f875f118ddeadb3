import SynapticOS.Lib.Ranking
import SynapticOS.Lib.Single
import SynapticOS.Process.StagesLaws

/-!
# Top-k

`post_top_k` chooses one classification a round, the best of those not chosen yet. The
rounds follow the ranking of the scores as long as they do not hold an index from `2 ^ 31`
on, which is negative in the `int32_t` they keep it in (`topk_right`).
-/

namespace SynapticOS.Process

open Lib

-- ---------------------------------------------------------------------------
-- One pass
-- ---------------------------------------------------------------------------

section Scan

variable {R : Type} [LinearOrder R] {score : Nat → R} {limit m n k t : Nat} {chosen : List Nat}

/-- The index a pass over the first `m` scores ends with. An index from `limit` on counts
as none when the next one is compared with it. -/
def scan (score : Nat → R) (limit : Nat) (chosen : List Nat) : Nat → Option Nat
  | 0 => none
  | m + 1 =>
    if m ∈ chosen then scan score limit chosen m
    else
      match scan score limit chosen m with
      | none => some m
      | some e => if limit ≤ e ∨ score e < score m then some m else some e

/-- `t` ranks before all others below `m` that are not chosen. -/
structure IsTop (score : Nat → R) (chosen : List Nat) (m t : Nat) : Prop where
  lt : t < m
  fresh : t ∉ chosen
  ahead : ∀ i < m, i ∉ chosen → i ≠ t → Ahead score t i

theorem IsTop.skips (h : IsTop score chosen m t) (hm : m ∈ chosen) :
    IsTop score chosen (m + 1) t :=
  ⟨h.lt.trans (Nat.lt_succ_self m), h.fresh, fun i hi hn hne => by
    rcases Nat.lt_succ_iff_lt_or_eq.mp hi with hi | rfl
    · exact h.ahead i hi hn hne
    · exact absurd hm hn⟩

/-- The next score does not beat the top. -/
theorem IsTop.keeps (h : IsTop score chosen m t) (hs : score m ≤ score t) :
    IsTop score chosen (m + 1) t :=
  ⟨h.lt.trans (Nat.lt_succ_self m), h.fresh, fun i hi hn hne => by
    rcases Nat.lt_succ_iff_lt_or_eq.mp hi with hi | rfl
    · exact h.ahead i hi hn hne
    · exact Ahead.of_lt h.lt hs⟩

/-- It beats the top, and so everyone. -/
theorem IsTop.beaten (h : IsTop score chosen m t) (hm : m ∉ chosen) (hs : score t < score m) :
    IsTop score chosen (m + 1) m :=
  ⟨Nat.lt_succ_self m, hm, fun i hi hn hne => by
    rcases Nat.lt_succ_iff_lt_or_eq.mp hi with hi | rfl
    · rcases eq_or_ne i t with rfl | hit
      · exact .inl hs
      · exact .inl ((h.ahead i hi hn hit).le.trans_lt hs)
    · exact absurd rfl hne⟩

/-- A pass ends with the top, or, if that is from `limit` on, with the last index left. -/
inductive Scanned (score : Nat → R) (limit : Nat) (chosen : List Nat) (m : Nat) : Option Nat → Prop
  | none (all : ∀ i < m, i ∈ chosen) : Scanned score limit chosen m none
  | top {t : Nat} (lt : t < limit) (top : IsTop score chosen m t) : Scanned score limit chosen m
      (some t)
  | last {t e : Nat} (le : limit ≤ t) (top : IsTop score chosen m t) (hle : limit ≤ e) (lt : e < m)
    (fresh : e ∉ chosen) (last : ∀ i < m, i ∉ chosen → i ≤ e) :
    Scanned score limit chosen m (some e)

theorem scan_spec (score : Nat → R) (limit : Nat) (chosen : List Nat) (m : Nat) :
    Scanned score limit chosen m (scan score limit chosen m) := by
  induction m with
  | zero => exact .none fun i hi => absurd hi (Nat.not_lt_zero i)
  | succ m ih =>
    unfold scan
    generalize scan score limit chosen m = r at ih
    by_cases hm : m ∈ chosen
    · rw [if_pos hm]
      cases ih with
      | none all =>
        refine .none fun i hi => ?_
        rcases Nat.lt_succ_iff_lt_or_eq.mp hi with hi | rfl
        · exact all i hi
        · exact hm
      | top lt top => exact .top lt (top.skips hm)
      | last le top hle lt fresh last =>
        refine .last le (top.skips hm) hle (lt.trans (Nat.lt_succ_self m)) fresh fun i hi hn => ?_
        rcases Nat.lt_succ_iff_lt_or_eq.mp hi with hi | rfl
        · exact last i hi hn
        · exact absurd hm hn
    rw [if_neg hm]
    -- with `m` as the new best index
    have htake : ∀ t, IsTop score chosen (m + 1) t → (t = m ∨ limit ≤ t) → limit ≤ m ∨ t = m →
        Scanned score limit chosen (m + 1) (some m) := by
      intro t ht hor hor'
      rcases Nat.lt_or_ge m limit with hlt | hge
      · obtain rfl : t = m := by omega
        exact .top hlt ht
      · exact .last (by omega) ht hge (Nat.lt_succ_self m) hm fun i hi _ => Nat.le_of_lt_succ hi
    cases ih with
    | none all =>
      refine htake m ⟨Nat.lt_succ_self m, hm, fun i hi hn hne => ?_⟩ (.inl rfl) (.inr rfl)
      exact absurd (all i (by omega)) hn
    | @top t lt top =>
      dsimp only
      by_cases hs : score t < score m
      · rw [if_pos (.inr hs)]
        exact htake m (top.beaten hm hs) (.inl rfl) (.inr rfl)
      · rw [if_neg (by
          rintro (h | h)
          · omega
          · exact hs h)]
        exact .top lt (top.keeps (not_lt.mp hs))
    | @last t e le top hle lt fresh last =>
      dsimp only
      rw [if_pos (.inl hle)]
      have hlm : limit ≤ m := by omega
      by_cases hs : score t < score m
      · exact htake m (top.beaten hm hs) (.inl rfl) (.inr rfl)
      · exact htake t (top.keeps (not_lt.mp hs)) (.inr le) (.inl hlm)

/-- What the rounds choose. -/
def selected (score : Nat → R) (limit n : Nat) : Nat → List Nat
  | 0 => []
  | r + 1 =>
    let chosen := selected score limit n r
    chosen ++ (scan score limit chosen n).toList

theorem pairwise_range (n : Nat) : (List.range n).Pairwise (· < ·) := List.pairwise_lt_range

/-- The next of the ranking is on top of what is left. -/
theorem isTop_ranked (hk : k < n) (ht : IsTop score ((ranked score (List.range n)).take k) n t) :
    (ranked score (List.range n))[k]? = some t := by
  have hlen : k < (ranked score (List.range n)).length := by
    rw [length_ranked, List.length_range]
    exact hk
  exact List.getElem?_eq_some_iff.mpr ⟨hlen, ranked_next (pairwise_range n) hlen
    (List.mem_range.mpr ht.lt) ht.fresh fun j hj hn hne => ht.ahead j (List.mem_range.mp hj) hn hne⟩

/-- What the condition is about: the `r`-th of the ranking is below the limit, or it is
the last index that the ranking has left. -/
def Reached (score : Nat → R) (limit n r : Nat) : Prop :=
  let order := ranked score (List.range n)
  ∀ t, order[r]? = some t → t < limit ∨ ∀ i < n, i ∉ order.take r → i ≤ t

/-- What a pass returns has not been chosen yet. -/
theorem scan_fresh {e : Nat} (h : scan score limit chosen m = some e) : e < m ∧ e ∉ chosen := by
  have hspec := scan_spec score limit chosen m
  rw [h] at hspec
  cases hspec with
  | top _ top => exact ⟨top.lt, top.fresh⟩
  | last _ _ _ lt fresh _ => exact ⟨lt, fresh⟩

/-- A pass finds one as long as not all are chosen. -/
theorem exists_scan (score : Nat → R) (limit : Nat) (chosen : List Nat) (h : chosen.length < n) :
    ∃ e, scan score limit chosen n = some e := by
  have hspec := scan_spec score limit chosen n
  generalize scan score limit chosen n = r at hspec
  cases hspec with
  | none all =>
    have hsub : (List.range n).Subperm chosen :=
      List.subperm_of_subset List.nodup_range fun i hi => all i (List.mem_range.mp hi)
    have := hsub.length_le
    rw [List.length_range] at this
    omega
  | @top t _ _ => exact ⟨t, rfl⟩
  | @last _ e _ _ _ _ _ _ => exact ⟨e, rfl⟩

/-- `k` rounds choose `k` different indices. -/
theorem selected_spec (score : Nat → R) (limit : Nat) (hk : k ≤ n) :
    (selected score limit n k).length = k ∧ (selected score limit n k).Nodup ∧
      ∀ i ∈ selected score limit n k, i < n := by
  induction k with
  | zero => exact ⟨rfl, List.nodup_nil, fun i hi => absurd hi List.not_mem_nil⟩
  | succ k ih =>
    obtain ⟨hlen, hnodup, hlt⟩ := ih (Nat.le_of_succ_le hk)
    obtain ⟨e, he⟩ := exists_scan score limit (selected score limit n k) (n := n) (by omega)
    obtain ⟨hen, hfresh⟩ := scan_fresh he
    rw [selected, he, Option.toList_some]
    refine ⟨by rw [List.length_append, hlen, List.length_singleton], ?_, fun i hi => ?_⟩
    · rw [← List.concat_eq_append]
      exact hnodup.concat hfresh
    · rcases List.mem_append.mp hi with hi | hi
      · exact hlt i hi
      · rw [List.mem_singleton.mp hi]
        exact hen

theorem selected_length (score : Nat → R) (limit : Nat) (hk : k ≤ n) :
    (selected score limit n k).length = k := (selected_spec score limit hk).1

theorem length_order (score : Nat → R) (n : Nat) : (ranked score (List.range n)).length = n := by
  rw [length_ranked, List.length_range]

/-- A pass over what the ranking has left finds its next index if and only if that is
reached. -/
theorem scan_eq_iff (score : Nat → R) (limit : Nat) (hk : k < n) {t : Nat}
    (ht : (ranked score (List.range n))[k]? = some t) :
    scan score limit ((ranked score (List.range n)).take k) n = some t ↔
      Reached score limit n k := by
  unfold Reached
  simp only [ht, Option.some.injEq, forall_eq']
  obtain ⟨e, he⟩ := exists_scan score limit ((ranked score (List.range n)).take k) (n := n)
    (by rw [List.length_take]; omega)
  have hspec := scan_spec score limit ((ranked score (List.range n)).take k) n
  rw [he] at hspec ⊢
  cases hspec with
  | top lt top =>
    obtain rfl : t = e := Option.some.inj (ht.symm.trans (isTop_ranked hk top))
    exact iff_of_true rfl (.inl lt)
  | @last t' _ le top hle lt fresh last =>
    obtain rfl : t = t' := Option.some.inj (ht.symm.trans (isTop_ranked hk top))
    rw [Option.some.injEq]
    constructor
    · rintro rfl
      exact .inr last
    · rintro (h | h)
      · omega
      · exact Nat.le_antisymm (h e lt fresh) (last _ top.lt top.fresh)

/-- The rounds choose the front of the ranking if and only if each of its indices is
reached. -/
theorem selected_eq_iff (score : Nat → R) (limit : Nat) (hk : k ≤ n) :
    selected score limit n k = (ranked score (List.range n)).take k ↔
      ∀ r < k, Reached score limit n r := by
  induction k with
  | zero => simp [selected]
  | succ k ih =>
    have hkn : k < (ranked score (List.range n)).length := by
      rw [length_order]
      omega
    obtain ⟨e, he⟩ := exists_scan score limit (selected score limit n k) (n := n)
      (by rw [selected_length score limit (by omega)]; omega)
    have hscan := scan_eq_iff score limit (show k < n by omega) (List.getElem?_eq_getElem hkn)
    have hlen := selected_length score limit (Nat.le_of_succ_le hk)
    replace ih := ih (Nat.le_of_succ_le hk)
    rw [selected, List.take_succ_eq_append_getElem hkn, he, Option.toList_some]
    constructor
    · intro h r hr
      obtain ⟨hsel, hlast⟩ := List.append_inj h (by rw [hlen, List.length_take]; omega)
      rcases Nat.lt_succ_iff_lt_or_eq.mp hr with hr | rfl
      · exact ih.mp hsel r hr
      · rw [← hsel, he, (List.cons_eq_cons.mp hlast).1] at hscan
        exact hscan.mp rfl
    · intro h
      have hsel := ih.mpr fun r hr => h r (by omega)
      have hlast := hscan.mpr (h k (Nat.lt_succ_self k))
      rw [← hsel, he, Option.some.injEq] at hlast
      rw [hsel, hlast]

/-- Below the limit every index is reached. -/
theorem reached_of_le (h : n ≤ limit) (r : Nat) : Reached score limit n r := by
  intro t ht
  have : t < n := List.mem_range.mp (mem_ranked.mp (List.mem_of_getElem? ht))
  exact .inl (by omega)

end Scan

section Stage

open Lib.Single

variable {cfg : TopkConfig} {input : Tensor} {out b : Buffer} {n k r i : Nat}

-- ---------------------------------------------------------------------------
-- Records
-- ---------------------------------------------------------------------------

/-- Record `r` of an array of `syn_classification_t`. -/
def record (b : Buffer) (r : Nat) : UInt32 × UInt32 :=
  (b.word (classificationSize * r), b.word (classificationSize * r + 4))

/-- A classification is stored as its record, and the others stay. -/
theorem storeClassification_run (index : UInt32) (score : Float32)
    (h : (r + 1) * classificationSize ≤ b.size) :
    ∃ b', (storeClassification r index score).run b = (.ok (), b') ∧ b'.size = b.size ∧
      record b' r = (index, score.toBits) ∧ ∀ j ≠ r, record b' j = record b j := by
  unfold classificationSize at h
  refine ⟨(b.put (8 * r) (Buffer.wordBytes index)).put (8 * r + 4) (Buffer.wordBytes score.toBits),
    ?_, rfl, ?_, fun j hj => ?_⟩
  · unfold storeClassification classificationSize
    rw [Act.run_bind_ok (Buffer.store32_run index (by omega))]
    exact Buffer.store32_run _ (by rw [Buffer.put_size]; omega)
  · unfold record classificationSize
    rw [Buffer.word_put_of_disjoint _ _ (.inl (Nat.le_refl _)), Buffer.word_put, Buffer.word_put]
  · unfold record classificationSize
    rw [Buffer.word_put_of_disjoint _ _ (by omega), Buffer.word_put_of_disjoint _ _ (by omega),
      Buffer.word_put_of_disjoint _ _ (by omega), Buffer.word_put_of_disjoint _ _ (by omega)]

-- ---------------------------------------------------------------------------
-- Scores
-- ---------------------------------------------------------------------------

/-- Score `i` of an INT8 tensor. -/
def Tensor.score (t : Tensor) (i : Nat) : Int := (t.bytes.byte i).toInt8.toInt

theorem score_range (t : Tensor) (i : Nat) : -128 ≤ t.score i ∧ t.score i < 128 :=
  ⟨Int8.le_toInt _, Int8.toInt_lt _⟩

theorem elementCount_int8 (hd : input.dtype = .int8) : elementCount input = input.size.toNat := by
  unfold elementCount
  rw [if_neg (by rw [hd]; decide)]

theorem getScore_run (hd : input.dtype = .int8) (hi : i < input.size.toNat) :
    (getScore input i none).run out = (.ok (singleOfInt (input.score i)), out) := by
  unfold getScore loadInt8 Buffer.load8
  rw [if_neg (by rw [hd]; decide), if_pos (show i < input.bytes.size from hi)]
  rfl

/-- An index and its score as a pass keeps them. -/
def encodeBest (score : Nat → Int) : Option Nat → Int32 × Float32
  | none => (-1, 0)
  | some e => (Int32.ofNat e, singleOfInt (score e))

theorem ofNat_neg (h : i < 2 ^ 32) : Int32.ofNat i < 0 ↔ 2 ^ 31 ≤ i := by
  rw [Int32.lt_iff_toInt_lt, Int32.toInt_ofNat', Int32.toInt_zero, Int.bmod_def,
    show Int32.size = 2 ^ 32 from rfl]
  omega

theorem index_inj {j : Nat} (hi : i < 2 ^ 32) (hj : j < 2 ^ 32)
    (h : UInt32.ofNat i = UInt32.ofNat j) : i = j := by
  have h' := congrArg UInt32.toNat h
  rwa [UInt32.toNat_ofNat', UInt32.toNat_ofNat', Nat.mod_eq_of_lt hi, Nat.mod_eq_of_lt hj] at h'

theorem ofNat_mem {chosen : List Nat} (hi : i < 2 ^ 32) (hc : ∀ j ∈ chosen, j < 2 ^ 32) :
    UInt32.ofNat i ∈ chosen.map UInt32.ofNat ↔ i ∈ chosen := by
  rw [List.mem_map]
  constructor
  · rintro ⟨j, hj, h⟩
    exact index_inj (hc j hj) hi h ▸ hj
  · exact fun h => ⟨i, h, rfl⟩

/-- A pass of the source is `scan`. -/
theorem bestUnchosen_run {chosen : List Nat} (hd : input.dtype = .int8)
    (hc : ∀ j ∈ chosen, j < 2 ^ 32) :
    (bestUnchosen input input.size.toNat (chosen.map UInt32.ofNat)).run out =
      (.ok (encodeBest input.score (scan input.score (2 ^ 31) chosen input.size.toNat)), out) := by
  refine Act.times_run (g := fun m => encodeBest input.score (scan input.score (2 ^ 31) chosen m))
    fun i hi => ?_
  have hi' : i < 2 ^ 32 := hi.trans input.size.toNat_lt
  rw [scan]
  by_cases hmem : i ∈ chosen
  · rw [if_pos ((ofNat_mem hi' hc).mpr hmem), if_pos hmem]
    rfl
  rw [if_neg (fun h => hmem ((ofNat_mem hi' hc).mp h)), if_neg hmem,
    Act.run_bind_ok (getScore_run hd hi)]
  cases hs : scan input.score (2 ^ 31) chosen i with
  | none => rfl
  | some e =>
    have he : e < 2 ^ 32 := (scan_fresh hs).1.trans hi'
    have hcond : ((encodeBest input.score (some e)).1 < 0 ∨
          singleOfInt (input.score i) > (encodeBest input.score (some e)).2) ↔
        (2 ^ 31 ≤ e ∨ input.score e < input.score i) :=
      or_congr (ofNat_neg he) (singleOfInt_lt (score_range input e) (score_range input i))
    by_cases h : 2 ^ 31 ≤ e ∨ input.score e < input.score i
    · rw [if_pos (hcond.mpr h)]
      dsimp only
      rw [if_pos h]
      rfl
    · rw [if_neg (fun h' => h (hcond.mp h'))]
      dsimp only
      rw [if_neg h]
      rfl

-- ---------------------------------------------------------------------------
-- The rounds
-- ---------------------------------------------------------------------------

/-- What a record holds of an index. -/
def entry (score : Nat → Int) (i : Nat) : UInt32 × UInt32 :=
  (UInt32.ofNat i, (singleOfInt (score i)).toBits)

theorem emitted_eq (h : cfg.k.toNat ≤ topkMax) : cfg.emitted n = min cfg.k.toNat n := by
  unfold topkMax at h
  unfold TopkConfig.emitted
  split <;> omega

/-- The records from `0` on hold the entries of a list. -/
def Holds (score : Nat → Int) (b : Buffer) (l : List Nat) : Prop :=
  ∀ j i, l[j]? = some i → record b j = entry score i

/-- One round. -/
theorem round_spec (hd : input.dtype = .int8) {chosen : List Nat} {e : Nat}
    (hc : ∀ j ∈ chosen, j < 2 ^ 32)
    (he : scan input.score (2 ^ 31) chosen input.size.toNat = some e)
    (hfit : (chosen.length + 1) * classificationSize ≤ b.size) (hb : Holds input.score b chosen) :
    ∃ b', ((do
        let best ← bestUnchosen input input.size.toNat (chosen.map UInt32.ofNat)
        storeClassification chosen.length best.1.toUInt32 best.2
        return chosen.map UInt32.ofNat ++ [best.1.toUInt32] : StageM (List UInt32)).run b) =
          (.ok ((chosen ++ [e]).map UInt32.ofNat), b') ∧
      b'.size = b.size ∧ Holds input.score b' (chosen ++ [e]) := by
  obtain ⟨b', hrun, hsize, hrec, hkeep⟩ := storeClassification_run (UInt32.ofNat e)
    (singleOfInt (input.score e)) hfit
  refine ⟨b', ?_, hsize, fun j i hj => ?_⟩
  · rw [Act.run_bind_ok (bestUnchosen_run hd hc), he]
    rw [List.map_append]
    exact Act.run_bind_ok hrun
  · rcases getElem?_concat hj with ⟨hlt, hj⟩ | ⟨rfl, rfl⟩
    · rw [hkeep j (Nat.ne_of_lt hlt)]
      exact hb j i hj
    · exact hrec

/-- The stage writes the entries of what the rounds choose. -/
theorem postTopK_run (h : cfg.Accepts input) (hd : input.dtype = .int8)
    (hfit : min cfg.k.toNat input.size.toNat * classificationSize ≤ out.size) :
    ∃ out', (postTopK (some cfg) input).run out =
        (.ok ⟨min cfg.k.toNat input.size.toNat * classificationSize, .float32, 1,
          ![UInt32.ofNat (min cfg.k.toNat input.size.toNat), 0, 0, 0]⟩, out') ∧
      Holds input.score out'
        (selected input.score (2 ^ 31) input.size.toNat (min cfg.k.toNat input.size.toNat)) := by
  obtain ⟨hk, h16, hs⟩ := h
  have hcount := elementCount_int8 hd
  have hmin : min cfg.k.toNat input.size.toNat ≤ input.size.toNat := Nat.min_le_right _ _
  have hlt : input.size.toNat < 2 ^ 32 := input.size.toNat_lt
  unfold postTopK
  dsimp only
  rw [if_neg (by simp [hs.1, hk, h16]), if_neg hs.dtype, hcount, emitted_eq h16]
  generalize min cfg.k.toNat input.size.toNat = k at *
  set n := input.size.toNat with hn
  have hrounds : Triple (Act.times (fun round (chosen : List UInt32) => do
        let best ← bestUnchosen input n chosen
        storeClassification round best.1.toUInt32 best.2
        return chosen ++ [best.1.toUInt32] : Nat → List UInt32 → StageM (List UInt32)) k []) out _
      fun _ _ => False := Triple.times
    (fun r chosen b => chosen = (selected input.score (2 ^ 31) n r).map UInt32.ofNat ∧
      b.size = out.size ∧ Holds input.score b (selected input.score (2 ^ 31) n r))
    (by
      rintro r hr _ b ⟨rfl, hsize, hb⟩
      obtain ⟨hlen, -, hsel⟩ := selected_spec input.score (2 ^ 31) (show r ≤ n by omega)
      obtain ⟨e, he⟩ := exists_scan input.score (2 ^ 31) _ (n := n) (by rw [hlen]; omega)
      have hroom : (r + 1) * classificationSize ≤ k * classificationSize :=
        Nat.mul_le_mul_right _ hr
      obtain ⟨b', hrun, hsize', hb'⟩ := round_spec hd (fun j hj => (hsel j hj).trans hlt) he
        (by rw [hlen, hsize]; omega) hb
      rw [hlen] at hrun
      have hnext : selected input.score (2 ^ 31) n (r + 1) =
          selected input.score (2 ^ 31) n r ++ [e] := by
        rw [selected, he, Option.toList_some]
      refine Triple.of_run hrun ⟨?_, hsize'.trans hsize, ?_⟩
      · rw [hnext]
      · rwa [hnext])
    ⟨rfl, rfl, fun j i hj => by cases hj⟩
  obtain ⟨chosen, out', hrun, -, -, hb⟩ := hrounds.returns
  refine ⟨out', ?_, hb⟩
  show (if out.size < k * classificationSize then _ else _ : StageM Geometry).run out = _
  rw [if_neg (by omega)]
  exact Act.run_bind_ok hrun

/-- `syn_hal_dsp_argmax` returns the top of all. -/
theorem dspArgmax_run (out : Buffer) (hn : 0 < input.size.toNat) :
    ∃ best, (dspArgmax input.bytes input.size.toNat).run out = (.ok best, out) ∧
      IsTop input.score [] input.size.toNat best := by
  have hload : ∀ i < input.size.toNat, (loadInt8 input.bytes i).run out =
      (.ok (input.bytes.byte i).toInt8, out) := by
    intro i hi
    unfold loadInt8 Buffer.load8
    rw [if_pos (show i < input.bytes.size from hi)]
    rfl
  have hloop : Triple (Act.times (fun i (best : Int8 × Nat) => do
        let x ← loadInt8 input.bytes (i + 1)
        return if x > best.1 then (x, i + 1) else best : Nat → Int8 × Nat → StageM (Int8 × Nat))
        (input.size.toNat - 1) ((input.bytes.byte 0).toInt8, 0)) out _ fun _ _ => False := Triple.times
    (fun i best b => b = out ∧ best.1 = (input.bytes.byte best.2).toInt8 ∧
      IsTop input.score [] (i + 1) best.2)
    (by
      rintro i hi ⟨x, best⟩ b ⟨rfl, hx, htop⟩
      dsimp only at hx htop
      refine Triple.of_run (Act.run_bind_ok (hload (i + 1) (by omega))) ?_
      subst hx
      have hlt : (input.bytes.byte (i + 1)).toInt8 > (input.bytes.byte best).toInt8 ↔
          input.score best < input.score (i + 1) := Int8.lt_iff_toInt_lt
      by_cases h : input.score best < input.score (i + 1)
      · rw [if_pos (hlt.mpr h)]
        exact ⟨rfl, rfl, htop.beaten List.not_mem_nil h⟩
      · rw [if_neg (fun h' => h (hlt.mp h'))]
        exact ⟨rfl, rfl, htop.keeps (not_lt.mp h)⟩)
    ⟨rfl, rfl, Nat.zero_lt_one, List.not_mem_nil, fun i hi _ hne => by omega⟩
  obtain ⟨best, b, hrun, rfl, -, htop⟩ := hloop.returns
  rw [Nat.sub_add_cancel hn] at htop
  refine ⟨best.2, ?_, htop⟩
  unfold dspArgmax
  rw [if_neg (by omega), Act.run_bind_ok (hload 0 hn)]
  exact Act.run_bind_ok hrun

/-- `post_argmax` emits the first of the ranking. -/
theorem postArgmax_run (out : Buffer) (hs : input.HasScores) (hd : input.dtype = .int8)
    (hfit : classificationSize ≤ out.size) {t : Nat}
    (ht : (ranked input.score (List.range input.size.toNat))[0]? = some t) :
    ∃ out', (postArgmax input).run out =
        (.ok ⟨classificationSize, .float32, 1, ![1, 0, 0, 0]⟩, out') ∧
      record out' 0 = entry input.score t := by
  have hn : 0 < input.size.toNat := (validPair_iff.mp hs.1).2
  have hcount := elementCount_int8 hd
  obtain ⟨best, hrun, htop⟩ := dspArgmax_run out hn
  obtain rfl : t = best := Option.some.inj (ht.symm.trans (isTop_ranked hn htop))
  obtain ⟨out', hstore, -, hrec, -⟩ := storeClassification_run (r := 0) (UInt32.ofNat t)
    (singleOfInt (input.score t)) (b := out) (by omega)
  refine ⟨out', ?_, hrec⟩
  unfold postArgmax
  rw [if_neg (by simp [hs.1]), if_neg hs.dtype]
  show (if out.size < classificationSize then _ else _ : StageM Geometry).run out = _
  rw [if_neg (by omega), hcount, if_pos hd, Act.run_bind_ok hrun,
    Act.run_bind_ok (getScore_run hd htop.lt)]
  exact Act.run_bind_ok hstore

-- ---------------------------------------------------------------------------
-- The ranking
-- ---------------------------------------------------------------------------

/-- The indices of a tensor by descending score. -/
def Tensor.order (t : Tensor) : List Nat := ranked t.score (List.range t.size.toNat)

/-- What the stage is for: the records are the front of the stable ranking, each index with
its own score and all different, and the first is the one `post_argmax` emits. -/
def TopkConfig.Right (cfg : TopkConfig) (input : Tensor) (out : Buffer) : Prop :=
  ∃ g out', (postTopK (some cfg) input).run out = (.ok g, out') ∧
    let k := min cfg.k.toNat input.size.toNat
    g = ⟨k * classificationSize, .float32, 1, ![UInt32.ofNat k, 0, 0, 0]⟩ ∧
    (∀ r < k, ∃ i, input.order[r]? = some i ∧
      record out' r = (UInt32.ofNat i, (int8ToFloat (input.bytes.byte i).toInt8).toBits)) ∧
    (∀ r < k, ∀ j < k, (record out' r).1 = (record out' j).1 → r = j) ∧
    ∃ g' argmax, (postArgmax input).run out = (.ok g', argmax) ∧ record out' 0 = record argmax 0

theorem Tensor.order_lt {t : Tensor} (h : t.order[r]? = some i) : i < t.size.toNat :=
  List.mem_range.mp (mem_ranked.mp (List.mem_of_getElem? h))

theorem Tensor.order_nodup (t : Tensor) : t.order.Nodup :=
  (ranked_perm t.score _).nodup_iff.mpr List.nodup_range

theorem Tensor.exists_order {t : Tensor} (h : r < t.size.toNat) : ∃ i, t.order[r]? = some i :=
  ⟨_, List.getElem?_eq_getElem (by unfold Tensor.order; rw [length_order]; exact h)⟩

/-- The rounds choose the front of the ranking if the records hold it. -/
theorem TopkConfig.Right.selected (hright : cfg.Right input out) (h : cfg.Accepts input)
    (hd : input.dtype = .int8)
    (hfit : min cfg.k.toNat input.size.toNat * classificationSize ≤ out.size) :
    selected input.score (2 ^ 31) input.size.toNat (min cfg.k.toNat input.size.toNat) =
      input.order.take (min cfg.k.toNat input.size.toNat) := by
  obtain ⟨g, out', hrun, -, hrec, -, -⟩ := hright
  obtain ⟨out'', hrun', hholds⟩ := postTopK_run h hd hfit
  obtain rfl : out' = out'' := congrArg Prod.snd (hrun.symm.trans hrun')
  have hmin : min cfg.k.toNat input.size.toNat ≤ input.size.toNat := Nat.min_le_right _ _
  have hlt : input.size.toNat < 2 ^ 32 := input.size.toNat_lt
  generalize min cfg.k.toNat input.size.toNat = k at *
  obtain ⟨hlen, -, hsel⟩ := selected_spec input.score (2 ^ 31) hmin
  refine List.ext_getElem? fun r => ?_
  rcases Nat.lt_or_ge r k with hr | hr
  · obtain ⟨i, hi, hentry⟩ := hrec r hr
    have hr' : r < (Process.selected input.score (2 ^ 31) input.size.toNat k).length := by omega
    have hget := List.getElem?_eq_getElem hr'
    rw [List.getElem?_take_of_lt hr, hi, hget]
    refine congrArg some (index_inj ?_ ?_ ?_)
    · exact (hsel _ (List.getElem_mem hr')).trans hlt
    · exact (Tensor.order_lt hi).trans hlt
    · exact congrArg Prod.fst ((hholds r _ hget).symm.trans hentry)
  · rw [List.getElem?_eq_none (by omega),
      List.getElem?_eq_none (by rw [List.length_take]; omega)]

theorem right_of_selected (h : cfg.Accepts input) (hd : input.dtype = .int8)
    (hfit : min cfg.k.toNat input.size.toNat * classificationSize ≤ out.size)
    (hsel : selected input.score (2 ^ 31) input.size.toNat (min cfg.k.toNat input.size.toNat) =
      input.order.take (min cfg.k.toNat input.size.toNat)) : cfg.Right input out := by
  obtain ⟨out', hrun, hholds⟩ := postTopK_run h hd hfit
  rw [hsel] at hholds
  have hk : 0 < min cfg.k.toNat input.size.toNat := by
    have h0 : cfg.k.toNat ≠ 0 := fun h0 => h.1 (UInt8.toNat_inj.mp h0)
    have := (validPair_iff.mp h.2.2.1).2
    omega
  have hmin : min cfg.k.toNat input.size.toNat ≤ input.size.toNat := Nat.min_le_right _ _
  have hrec : ∀ r < min cfg.k.toNat input.size.toNat, ∃ i, input.order[r]? = some i ∧
      record out' r = entry input.score i := by
    intro r hr
    obtain ⟨i, hi⟩ := Tensor.exists_order (t := input) (hr.trans_le hmin)
    exact ⟨i, hi, hholds r i (by rwa [List.getElem?_take_of_lt hr])⟩
  refine ⟨_, out', hrun, rfl, hrec, fun r hr j hj heq => ?_, ?_⟩
  · obtain ⟨a, ha, hra⟩ := hrec r hr
    obtain ⟨b, hb, hjb⟩ := hrec j hj
    rw [hra, hjb] at heq
    obtain rfl : a = b := index_inj ((Tensor.order_lt ha).trans input.size.toNat_lt)
      ((Tensor.order_lt hb).trans input.size.toNat_lt) heq
    exact (List.getElem?_inj (List.getElem?_eq_some_iff.mp ha).1 input.order_nodup).mp
      (ha.trans hb.symm)
  · obtain ⟨t, ht, h0⟩ := hrec 0 hk
    obtain ⟨argmax, hargmax, hentry⟩ := postArgmax_run out h.2.2 hd
      ((Nat.le_mul_of_pos_left _ hk).trans hfit) ht
    exact ⟨_, argmax, hargmax, h0.trans hentry.symm⟩

/-- The stage emits the front of the ranking if and only if each index there is below
`2 ^ 31` or is the last that is left when it is chosen. -/
theorem topk_right (cfg : TopkConfig) (input : Tensor) (out : Buffer)
    (hdata : input.data.isSome) (hsize : input.size ≠ 0) (hd : input.dtype = .int8)
    (hk : cfg.k ≠ 0) (h16 : cfg.k.toNat ≤ topkMax)
    (hfit : min cfg.k.toNat input.size.toNat * classificationSize ≤ out.size) :
    cfg.Right input out ↔ ∀ r < min cfg.k.toNat input.size.toNat,
      ∀ t, input.order[r]? = some t →
        t < 2 ^ 31 ∨ ∀ i < input.size.toNat, i ∉ input.order.take r → i ≤ t := by
  have hpos : 0 < input.size.toNat := Nat.pos_of_ne_zero fun h => hsize (UInt32.toNat_inj.mp h)
  have hs : input.HasScores := ⟨validPair_iff.mpr ⟨hdata, hpos⟩, .inl hd⟩
  have hiff := selected_eq_iff input.score (2 ^ 31) (Nat.min_le_right cfg.k.toNat input.size.toNat)
  constructor
  · exact fun h => hiff.mp (h.selected ⟨hk, h16, hs⟩ hd hfit)
  · exact fun h => right_of_selected ⟨hk, h16, hs⟩ hd hfit (hiff.mpr h)

/-- Two equal scores and a smaller one between them. -/
def ties : Tensor := ⟨.int8, 1, ![3, 0, 0, 0], 3, some fun i => if i = 1 then 4 else 7⟩

theorem topk_right_ties : TopkConfig.Right ⟨2⟩ ties ⟨16, fun _ => 0⟩ :=
  (topk_right ⟨2⟩ ties ⟨16, fun _ => 0⟩ rfl (by decide) rfl (by decide) (by decide)
    (by decide)).mpr fun r _ => reached_of_le (by decide) r

/-- All scores are equal apart from a greater one at `2 ^ 31`, which is not the last. -/
def distant : Tensor :=
  ⟨.int8, 1, ![2 ^ 31 + 2, 0, 0, 0], 2 ^ 31 + 2, some fun i => if i = 2 ^ 31 then 1 else 0⟩

theorem distant_score (i : Nat) : distant.score i = if i = 2 ^ 31 then 1 else 0 := by
  show ((if i = 2 ^ 31 then 1 else 0 : UInt8).toInt8.toInt : Int) = _
  split <;> rfl

theorem topk_distant : ¬TopkConfig.Right ⟨1⟩ distant ⟨8, fun _ => 0⟩ := by
  intro h
  have hs : distant.HasScores := ⟨rfl, .inl rfl⟩
  have hmin : min (1 : UInt8).toNat distant.size.toNat = 1 := by decide
  have hsel := h.selected ⟨by decide, by decide, hs⟩ rfl (by decide)
  have hreached := (selected_eq_iff distant.score (2 ^ 31)
    (Nat.min_le_right (1 : UInt8).toNat distant.size.toNat)).mp hsel 0 (by decide)
  have htop : IsTop distant.score [] distant.size.toNat (2 ^ 31) := by
    refine ⟨by decide, List.not_mem_nil, fun i _ _ hne => .inl ?_⟩
    rw [distant_score, distant_score, if_neg hne, if_pos rfl]
    exact Int.zero_lt_one
  have hfirst := isTop_ranked (k := 0) (by decide) htop
  rcases hreached (2 ^ 31) hfirst with hlt | hlast
  · exact absurd hlt (Nat.lt_irrefl _)
  · have := hlast (2 ^ 31 + 1) (by decide) List.not_mem_nil
    omega

end Stage

end SynapticOS.Process
