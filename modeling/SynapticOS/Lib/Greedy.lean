import Mathlib.Data.List.Basic
import Mathlib.Tactic.Common

/-!
# Greedy choice

Candidates are taken in order, apart from those that one already taken hits, until there is
no room for another.
-/

namespace Lib

variable {α : Type} {room : Nat → Bool} {hit : α → α → Bool} {P : α → α → Prop}
variable {kept cs : List α} {c : α}

def greedy (room : Nat → Bool) (hit : α → α → Bool) (kept : List α) : List α → List α
  | [] => kept
  | c :: cs =>
    if !room kept.length then kept
    else if kept.any (hit · c) then greedy room hit kept cs
    else greedy room hit (kept ++ [c]) cs

theorem greedy_full (h : room kept.length = false) : greedy room hit kept cs = kept := by
  cases cs with
  | nil => rfl
  | cons c cs => rw [greedy, if_pos (by rw [h]; rfl)]

theorem greedy_skip (h : kept.any (hit · c) = true) :
    greedy room hit kept (c :: cs) = greedy room hit kept cs := by
  by_cases hroom : room kept.length = true
  · rw [greedy, if_neg (by rw [hroom]; decide), if_pos h]
  · rw [Bool.not_eq_true] at hroom
    rw [greedy_full hroom, greedy_full hroom]

theorem greedy_take (hroom : room kept.length = true) (h : kept.any (hit · c) = false) :
    greedy room hit kept (c :: cs) = greedy room hit (kept ++ [c]) cs := by
  rw [greedy, if_neg (by rw [hroom]; decide), if_neg (by rw [h]; decide)]

/-- The three cases of a round. -/
theorem greedy_cons_cases (room : Nat → Bool) (hit : α → α → Bool) (kept : List α) (c : α)
    (cs : List α) :
    (room kept.length = false ∧ greedy room hit kept (c :: cs) = kept) ∨
    (kept.any (hit · c) = true ∧ greedy room hit kept (c :: cs) = greedy room hit kept cs) ∨
    (room kept.length = true ∧ kept.any (hit · c) = false ∧
      greedy room hit kept (c :: cs) = greedy room hit (kept ++ [c]) cs) := by
  cases hroom : room kept.length with
  | false => exact .inl ⟨rfl, greedy_full hroom⟩
  | true =>
    cases hany : kept.any (hit · c) with
    | true => exact .inr (.inl ⟨rfl, greedy_skip hany⟩)
    | false => exact .inr (.inr ⟨rfl, rfl, greedy_take hroom hany⟩)

/-- What is taken comes behind what was, in the order of the candidates. -/
theorem greedy_sublist (room : Nat → Bool) (hit : α → α → Bool) (kept cs : List α) :
    ∃ taken, greedy room hit kept cs = kept ++ taken ∧ taken.Sublist cs := by
  induction cs generalizing kept with
  | nil => exact ⟨[], (List.append_nil kept).symm, .slnil⟩
  | cons c cs ih =>
    rcases greedy_cons_cases room hit kept c cs with ⟨-, h⟩ | ⟨-, h⟩ | ⟨-, -, h⟩ <;> rw [h]
    · exact ⟨[], (List.append_nil kept).symm, List.nil_sublist _⟩
    · obtain ⟨taken, htaken, hsub⟩ := ih kept
      exact ⟨taken, htaken, hsub.cons c⟩
    · obtain ⟨taken, htaken, hsub⟩ := ih (kept ++ [c])
      exact ⟨c :: taken, by rw [htaken, List.append_assoc, List.singleton_append],
        hsub.cons_cons c⟩

theorem subset_greedy {k : α} (h : k ∈ kept) : k ∈ greedy room hit kept cs := by
  obtain ⟨taken, htaken, -⟩ := greedy_sublist room hit kept cs
  rw [htaken]
  exact List.mem_append_left _ h

/-- None that is taken hits a later one. -/
theorem greedy_pairwise (room : Nat → Bool) (hit : α → α → Bool) {kept : List α} (cs : List α)
    (h : kept.Pairwise fun a b => hit a b = false) :
    (greedy room hit kept cs).Pairwise fun a b => hit a b = false := by
  induction cs generalizing kept with
  | nil => exact h
  | cons c cs ih =>
    rcases greedy_cons_cases room hit kept c cs with ⟨-, heq⟩ | ⟨-, heq⟩ | ⟨-, hany, heq⟩ <;>
      rw [heq]
    · exact h
    · exact ih h
    refine ih (List.pairwise_append.mpr ⟨h, List.pairwise_singleton _ _, fun k hk b hb => ?_⟩)
    rw [List.mem_singleton.mp hb]
    simpa using List.any_eq_false.mp hany k hk

/-- What bounds the room bounds what is taken. -/
theorem length_greedy_le {m : Nat} (hit : α → α → Bool) (hroom : ∀ n, room n = true → n < m)
    {kept : List α} (cs : List α) (h : kept.length ≤ m) :
    (greedy room hit kept cs).length ≤ m := by
  induction cs generalizing kept with
  | nil => exact h
  | cons c cs ih =>
    rcases greedy_cons_cases room hit kept c cs with ⟨-, heq⟩ | ⟨-, heq⟩ | ⟨hr, -, heq⟩ <;> rw [heq]
    · exact h
    · exact ih h
    refine ih ?_
    rw [List.length_append, List.length_singleton]
    exact hroom _ hr

/-- A candidate that is not taken is hit by one before it, or there is no room left after
those before it. -/
theorem greedy_left (room : Nat → Bool) (hit : α → α → Bool) (kept : List α) (hcs : cs.Pairwise P)
    (hkept : ∀ k ∈ kept, ∀ c ∈ cs, P k c) :
    ∀ c ∈ cs, c ∈ greedy room hit kept cs ∨
      (∃ k ∈ greedy room hit kept cs, P k c ∧ hit k c = true) ∨
      room (greedy room hit kept cs).length = false ∧ ∀ k ∈ greedy room hit kept cs, P k c := by
  induction cs generalizing kept with
  | nil => exact fun c hc => absurd hc List.not_mem_nil
  | cons c cs ih =>
    obtain ⟨hc, hcs⟩ := List.pairwise_cons.mp hcs
    have hrest : ∀ k ∈ kept, ∀ d ∈ cs, P k d := fun k hk d hd =>
      hkept k hk d (List.mem_cons_of_mem c hd)
    intro d hd
    rcases greedy_cons_cases room hit kept c cs with ⟨hroom, h⟩ | ⟨hany, h⟩ | ⟨-, -, h⟩ <;> rw [h]
    · exact .inr (.inr ⟨hroom, fun k hk => hkept k hk d hd⟩)
    · rcases List.mem_cons.mp hd with rfl | hd
      · obtain ⟨k, hk, hhit⟩ := List.any_eq_true.mp hany
        exact .inr (.inl ⟨k, subset_greedy hk, hkept k hk d List.mem_cons_self, hhit⟩)
      · exact ih kept hcs hrest d hd
    · rcases List.mem_cons.mp hd with rfl | hd
      · exact .inl (subset_greedy (List.mem_append_right _ List.mem_cons_self))
      · refine ih (kept ++ [c]) hcs (fun k hk e he => ?_) d hd
        rcases List.mem_append.mp hk with hk | hk
        · exact hrest k hk e he
        · rw [List.mem_singleton.mp hk]
          exact hc e he

end Lib
