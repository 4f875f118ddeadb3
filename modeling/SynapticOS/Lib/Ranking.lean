import Mathlib.Data.List.Sort
import Mathlib.Order.Defs.LinearOrder
import Mathlib.Tactic.Common

/-!
# Ranking

Indices by descending score, where equal scores keep the order of the indices: a stable
sort, and what makes a list a part of it.
-/

namespace Lib

variable {R : Type} [LinearOrder R] {score : Nat → R} {l l' chosen : List Nat} {i j k : Nat}

/-- `i` ranks before `j`. -/
def Ahead (score : Nat → R) (i j : Nat) : Prop := score j < score i ∨ score i = score j ∧ i < j

instance (score : Nat → R) (i j : Nat) : Decidable (Ahead score i j) := by
  unfold Ahead
  infer_instance

/-- A stable sort by descending score. -/
def ranked (score : Nat → R) (l : List Nat) : List Nat :=
  l.mergeSort fun i j => decide (score j ≤ score i)

namespace Ahead

theorem irrefl (score : Nat → R) (i : Nat) : ¬Ahead score i i := by
  rintro (h | ⟨-, h⟩)
  · exact lt_irrefl _ h
  · exact lt_irrefl _ h

theorem trans (h : Ahead score i j) (h' : Ahead score j k) : Ahead score i k := by
  rcases h with h | ⟨h, hi⟩ <;> rcases h' with h' | ⟨h', hj⟩
  · exact .inl (h'.trans h)
  · exact .inl (h' ▸ h)
  · exact .inl (h ▸ h')
  · exact .inr ⟨h.trans h', hi.trans hj⟩

theorem asymm (h : Ahead score i j) : ¬Ahead score j i := fun h' => irrefl score i (h.trans h')

/-- Of two indices, an earlier one ranks before unless its score is smaller. -/
theorem of_lt (h : i < j) (hs : score j ≤ score i) : Ahead score i j := by
  rcases hs.lt_or_eq with hs | hs
  · exact .inl hs
  · exact .inr ⟨hs.symm, h⟩

theorem le (h : Ahead score i j) : score j ≤ score i := by
  rcases h with h | ⟨h, -⟩
  · exact h.le
  · exact h.ge

end Ahead

theorem ranked_perm (score : Nat → R) (l : List Nat) : (ranked score l).Perm l :=
  List.mergeSort_perm l _

theorem mem_ranked : i ∈ ranked score l ↔ i ∈ l := (ranked_perm score l).mem_iff

theorem length_ranked (score : Nat → R) (l : List Nat) : (ranked score l).length = l.length :=
  (ranked_perm score l).length_eq

/-- Without repetitions a pair stands in one order only. -/
theorem pair_sublist_asymm (hl : l.Nodup) (h : [i, j].Sublist l) : ¬[j, i].Sublist l := by
  induction l with
  | nil => cases h
  | cons x l ih =>
    obtain ⟨hx, hl⟩ := List.nodup_cons.mp hl
    intro h'
    cases h with
    | cons _ h =>
      cases h' with
      | cons _ h' => exact ih hl h h'
      | cons_cons _ _ => exact hx (h.subset (List.mem_cons_of_mem _ List.mem_cons_self))
    | cons_cons _ h =>
      have hj : j ∈ l := List.singleton_sublist.mp h
      cases h' with
      | cons _ h' => exact hx (h'.subset (List.mem_cons_of_mem _ List.mem_cons_self))
      | cons_cons _ _ => exact hx hj

/-- Increasing indices are ranked. -/
theorem pairwise_ranked (hl : l.Pairwise (· < ·)) : (ranked score l).Pairwise (Ahead score) := by
  have htrans : ∀ a b c : Nat, decide (score b ≤ score a) = true →
      decide (score c ≤ score b) = true →
      decide (score c ≤ score a) = true := by
    intro a b c h h'
    simp only [decide_eq_true_eq] at h h' ⊢
    exact h'.trans h
  have htotal : ∀ a b : Nat, (decide (score b ≤ score a) || decide (score a ≤ score b)) = true := by
    intro a b
    simpa using le_total (score b) (score a)
  have hnodup : l.Nodup := hl.imp fun h => Nat.ne_of_lt h
  have hnodup' : (ranked score l).Nodup := (ranked_perm score l).nodup_iff.mpr hnodup
  have hsorted := List.pairwise_mergeSort htrans htotal l
  rw [List.pairwise_iff_forall_sublist] at hsorted ⊢
  intro a b hab
  have hle : score b ≤ score a := by simpa using hsorted hab
  rcases hle.lt_or_eq with hlt | heq
  · exact .inl hlt
  refine .inr ⟨heq.symm, ?_⟩
  by_contra hba
  have ha : a ∈ l := mem_ranked.mp (hab.subset List.mem_cons_self)
  have hb : b ∈ l := mem_ranked.mp (hab.subset (List.mem_cons_of_mem _ List.mem_cons_self))
  have hne : a ≠ b := by
    rintro rfl
    have h := List.nodup_iff_sublist.mp hnodup' a
    exact h hab
  -- in `l` they stand the other way round, and sorting keeps that
  have hl' : [b, a].Sublist l := by
    have hsub : [b, a].Subperm l := by
      refine List.subperm_of_subset (by simpa using hne.symm) fun x hx => ?_
      rcases List.mem_cons.mp hx with rfl | hx
      · exact hb
      · rw [List.mem_singleton.mp hx]
        exact ha
    have hlt : [b, a].Pairwise (· < ·) := by
      simp only [List.pairwise_cons, List.mem_singleton, forall_eq, List.not_mem_nil, false_implies,
        implies_true, List.Pairwise.nil, and_true]
      omega
    exact List.sublist_of_subperm_of_pairwise hsub hlt hl
  exact pair_sublist_asymm hnodup' hab
    (List.pair_sublist_mergeSort htrans htotal (by simpa using heq.symm.le) hl')

/-- A ranked list of the same indices is the sorted one. -/
theorem eq_ranked (hl : l.Pairwise (· < ·)) (hp : l'.Perm l) (hs : l'.Pairwise (Ahead score)) :
    l' = ranked score l :=
  List.Perm.eq_of_pairwise (fun _ _ _ _ h h' => absurd h' h.asymm) hs (pairwise_ranked hl)
    (hp.trans (ranked_perm score l).symm)

/-- Whoever ranks before all others that are left comes next. -/
theorem ranked_next (hl : l.Pairwise (· < ·)) {n : Nat} (hn : n < (ranked score l).length)
    (hi : i ∈ l) (hnot : i ∉ (ranked score l).take n)
    (htop : ∀ j ∈ l, j ∉ (ranked score l).take n → j ≠ i → Ahead score i j) :
    (ranked score l)[n] = i := by
  by_contra hne
  have hnodup : (ranked score l).Nodup :=
    (ranked_perm score l).nodup_iff.mpr (hl.imp fun h => Nat.ne_of_lt h)
  have hmem : (ranked score l)[n] ∈ l := mem_ranked.mp (List.getElem_mem hn)
  have hrest : (ranked score l)[n] ∉ (ranked score l).take n := by
    intro h
    obtain ⟨m, hm, he⟩ := List.mem_iff_getElem.mp h
    rw [List.getElem_take] at he
    rw [List.length_take] at hm
    have := hnodup.getElem_inj_iff.mp he
    omega
  have hahead := htop _ hmem hrest hne
  obtain ⟨m, hm, he⟩ := List.mem_iff_getElem.mp (mem_ranked.mpr hi : i ∈ ranked score l)
  have hmn : n < m := by
    by_contra hle
    rcases Nat.lt_or_eq_of_le (Nat.not_lt.mp hle) with h | rfl
    · exact hnot (List.mem_iff_getElem.mpr ⟨m, by rw [List.length_take]; omega, by
        rw [List.getElem_take, he]⟩)
    · exact hne he
  have h := List.pairwise_iff_getElem.mp (pairwise_ranked hl : (ranked score l).Pairwise (Ahead score))
    n m hn hm hmn
  rw [he] at h
  exact h.asymm hahead

end Lib
