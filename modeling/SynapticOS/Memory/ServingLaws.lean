import SynapticOS.Memory.Serving

/-!
# What local work counts on

Where allocations do not overlap and nobody resets the arena under another
thread's blocks, no block of a local job is handed out again (`serving_keeps`).
An allocation that a reset overtakes still puts its block behind the blocks that
were there when it began. The handler resets the arena after each request without
asking (`serving_takes`).
-/

namespace SynapticOS.Memory.Serving

open Lib

variable {n m : Nat} {s s' : Serving n m} {a a' : Arena} {c : Call} {b : Block} {t : Fin n}

-- ---------------------------------------------------------------------------
-- The arena
-- ---------------------------------------------------------------------------

structure Roomy (a : Arena) : Prop where
  initialized : a.initialized = true
  used : a.persistentUsed + a.ephemeralUsed ≤ a.usable
  usable : a.usable < sizeMod

/-- A tensor block in the used part. -/
structure Below (a : Arena) (b : Block) : Prop where
  scratch : b.scratch = false
  le : b.offset + b.size ≤ a.persistentUsed + a.ephemeralUsed

theorem Roomy.bump (h : Roomy a) : a.bump .ephemeral = a.persistentUsed + a.ephemeralUsed := by
  have hu := h.used
  have hus := h.usable
  exact Nat.mod_eq_of_lt (by omega)

theorem Roomy.reset (h : Roomy a) : Roomy (resetEphemeral a) := by
  have hu := h.used
  unfold resetEphemeral
  rw [if_pos h.initialized]
  refine ⟨h.initialized, ?_, h.usable⟩
  show a.persistentUsed + 0 ≤ a.usable
  omega

/-- What the second step of an allocation does. -/
inductive Ended (a : Arena) (c : Call) : Option Block × Arena → Prop
  | full : Ended a c (none, a)
  | block (a' : Arena) (hr : Roomy a') (hu : a'.usable = a.usable)
      (hlo : a.persistentUsed + a.ephemeralUsed ≤ c.block.offset)
      (hhi : c.block.offset + c.block.size = a'.persistentUsed + a'.ephemeralUsed) :
      Ended a c (some c.block, a')

theorem Roomy.ended (h : Roomy a) (hlo : a.bump .ephemeral ≤ c.offset) (hhi : c.offset ≤ a.usable)
    (hs : a.usable + c.size + 16 ≤ sizeMod) : Ended a c (callEnd c a) := by
  have hu := h.used
  rw [h.bump] at hlo
  have hal := alignUp_le (x := c.offset) (by omega)
  have hcases := allocatedAt (a := a) (x := c.offset) (n := c.size) .ephemeral (by omega) (by omega)
  unfold callEnd
  generalize arenaAllocAt .ephemeral c.offset c.size a = r at hcases
  cases hcases with
  | full => exact .full
  | block a' hfit hlive hp he hus hsu hst hi =>
    rw [if_neg Lifetime.noConfusion] at hp he
    refine .block a' ⟨hi.trans h.initialized, ?_, hus ▸ h.usable⟩ hus ?_ ?_
    · rw [hp, he, hus]
      omega
    · show _ ≤ alignUp c.offset
      omega
    · show alignUp c.offset + c.size = _
      rw [hp, he]
      omega

-- ---------------------------------------------------------------------------
-- The invariant
-- ---------------------------------------------------------------------------

inductive Caller (n : Nat)
  | thread (t : Fin n)
  | server
  | scheduler

/-- The allocation that a caller is inside of. -/
def callOf (s : Serving n m) : Caller n → Option Call
  | .thread t => s.locals t
  | .server =>
    match s.server with
    | .allocating c => some c
    | _ => none
  | .scheduler =>
    match s.exec with
    | .allocating _ c => some c
    | _ => none

theorem Quiet.callOf (h : Quiet s) (x : Caller n) : callOf s x = none := by
  obtain ⟨hl, hs, he⟩ := h
  cases x with
  | thread t => exact hl t
  | server =>
    unfold Serving.callOf
    dsimp only
    split
    · rename_i hc
      rw [hc] at hs
      exact absurd hs id
    · rfl
  | scheduler =>
    unfold Serving.callOf
    dsimp only
    split
    · rename_i hc
      rw [hc] at he
      exact absurd he id
    · rfl

/-- Thread `t` counts on block `b`. -/
def Owned (s : Serving n m) (t : Fin n) (b : Block) : Prop :=
  b ∈ s.inputs t ∨ ∃ j, (s.jobs j).owner = some t ∧ b ∈ (s.jobs j).blocks

structure Ok (s : Serving n m) : Prop where
  room : Roomy s.arena
  below : ∀ t b, Owned s t b → Below s.arena b
  call : ∀ x c, callOf s x = some c → s.arena.bump .ephemeral ≤ c.offset ∧
    c.offset ≤ s.arena.usable ∧ s.arena.usable + c.size + 16 ≤ sizeMod
  alone : ∀ x y, callOf s x ≠ none → callOf s y ≠ none → x = y

/-- A step outside of the arena. -/
theorem Ok.of_same (h : Ok s) (ha : s'.arena = s.arena) (hc : ∀ x, callOf s' x = callOf s x)
    (ho : ∀ t b, Owned s' t b → Owned s t b) : Ok s' where
  room := ha ▸ h.room
  below t b hb := ha ▸ h.below t b (ho t b hb)
  call x c hx := by
    rw [hc] at hx
    rw [ha]
    exact h.call x c hx
  alone x y hx hy := by
    rw [hc] at hx hy
    exact h.alone x y hx hy

/-- A step that begins an allocation. -/
theorem Ok.of_begin (h : Ok s) (hq : Quiet s) {x : Caller n} {size : Nat}
    (hs : s.arena.usable + size + 16 ≤ sizeMod) (ha : s'.arena = s.arena)
    (hc : ∀ y c, callOf s' y = some c → y = x ∧ c = callBegin size s.arena ∨ callOf s y = some c)
    (ho : ∀ t b, Owned s' t b → Owned s t b) : Ok s' where
  room := ha ▸ h.room
  below t b hb := ha ▸ h.below t b (ho t b hb)
  call y c hy := by
    rw [ha]
    rcases hc y c hy with ⟨-, rfl⟩ | hold
    · refine ⟨Nat.le_refl _, ?_, hs⟩
      show s.arena.bump .ephemeral ≤ s.arena.usable
      rw [h.room.bump]
      exact h.room.used
    · rw [hq.callOf y] at hold
      cases hold
  alone y z hy hz := by
    have hx : ∀ y, callOf s' y ≠ none → y = x := fun y hy => by
      obtain ⟨c, hyc⟩ := Option.ne_none_iff_exists'.mp hy
      rcases hc y c hyc with ⟨he, -⟩ | hold
      · exact he
      · rw [hq.callOf y] at hold
        cases hold
    rw [hx y hy, hx z hz]

/-- A step that ends an allocation. -/
theorem Ok.of_end (h : Ok s) {x : Caller n} (hx : callOf s x = some c)
    (ha : s'.arena = (callEnd c s.arena).2)
    (hc : ∀ y d, callOf s' y = some d → y ≠ x ∧ callOf s y = some d)
    (ho : ∀ t b, Owned s' t b → Owned s t b ∨ (callEnd c s.arena).1 = some b) : Ok s' := by
  obtain ⟨hlo, hhi, hsize⟩ := h.call x c hx
  have hnone : ∀ y d, callOf s' y ≠ some d := fun y d hy => by
    obtain ⟨hne, hold⟩ := hc y d hy
    refine hne (h.alone y x ?_ ?_)
    · rw [hold]
      exact Option.some_ne_none _
    · rw [hx]
      exact Option.some_ne_none _
  have hend := h.room.ended hlo hhi hsize
  generalize callEnd c s.arena = r at hend ha ho
  refine ⟨?_, fun t b hb => ?_, fun y d hy => absurd hy (hnone y d), fun y z hy _ => ?_⟩
  · rw [ha]
    cases hend with
    | full => exact h.room
    | block a' hr => exact hr
  · rw [ha]
    cases hend with
    | full =>
      rcases ho t b hb with hold | hnew
      · exact h.below t b hold
      · cases hnew
    | block a' hr hu hlo hhi =>
      rcases ho t b hb with hold | hnew
      · have hold := h.below t b hold
        have hle := hold.le
        refine ⟨hold.scratch, ?_⟩
        show b.offset + b.size ≤ a'.persistentUsed + a'.ephemeralUsed
        omega
      · cases hnew
        exact ⟨rfl, Nat.le_of_eq hhi⟩
  · obtain ⟨d, hyd⟩ := Option.ne_none_iff_exists'.mp hy
    exact absurd hyd (hnone y d)

/-- A step that resets the arena, under blocks that nobody counts on. -/
theorem Ok.of_reset (h : Ok s) (ha : s'.arena = resetEphemeral s.arena)
    (hc : ∀ x, callOf s' x = callOf s x) (ho : ∀ t b, ¬Owned s' t b) : Ok s' where
  room := ha ▸ h.room.reset
  below t b hb := absurd hb (ho t b)
  call x c hx := by
    rw [hc] at hx
    obtain ⟨hlo, hhi, hsize⟩ := h.call x c hx
    rw [h.room.bump] at hlo
    rw [ha, h.room.reset.bump]
    unfold resetEphemeral
    rw [if_pos h.room.initialized]
    -- the persistent part stays and the ephemeral one only shrinks
    refine ⟨?_, hhi, hsize⟩
    show s.arena.persistentUsed + 0 ≤ c.offset
    omega
  alone x y hx hy := by
    rw [hc] at hx hy
    exact h.alone x y hx hy

-- ---------------------------------------------------------------------------
-- What a thread counts on
-- ---------------------------------------------------------------------------

/-- A job gets the blocks of `x`, all of them counted on before. -/
theorem owned_setJob {j : Fin m} {x : Job n} (h : Owned (s.setJob j x) t b)
    (hx : x.owner = some t → b ∈ x.blocks → Owned s t b) : Owned s t b := by
  rcases h with hi | ⟨i, hown, hb⟩
  · exact .inl hi
  · change (Function.update s.jobs j x i).owner = some t at hown
    change b ∈ (Function.update s.jobs j x i).blocks at hb
    by_cases he : i = j
    · rw [he, Function.update_self] at hown hb
      exact hx hown hb
    · rw [Function.update_of_ne he] at hown hb
      exact .inr ⟨i, hown, hb⟩

theorem owned_state {j : Fin m} {state : JobState}
    (h : Owned (s.setJob j { s.jobs j with state := state }) t b) : Owned s t b :=
  owned_setJob h fun hown hb => .inr ⟨j, hown, hb⟩

theorem owned_clear {j : Fin m} {state : JobState} {owner : Option (Fin n)}
    (h : Owned (s.setJob j ⟨state, owner, []⟩) t b) : Owned s t b :=
  owned_setJob h fun _ hb => nomatch hb

theorem owned_served {j : Fin m} {state : JobState} {l : List Block}
    (h : Owned (s.setJob j ⟨state, none, l⟩) t b) : Owned s t b :=
  owned_setJob h fun hown _ => nomatch hown

theorem owned_inputs {l : List Block} (hl : ∀ b ∈ l, b ∈ s.inputs t) {i : Fin n}
    (h : Owned { s with inputs := Function.update s.inputs t l } i b) : Owned s i b := by
  rcases h with hi | hj
  · change b ∈ Function.update s.inputs t l i at hi
    by_cases he : i = t
    · rw [he, Function.update_self] at hi
      rw [he]
      exact .inl (hl b hi)
    · rw [Function.update_of_ne he] at hi
      exact .inl hi
  · exact .inr hj

-- ---------------------------------------------------------------------------
-- Steps
-- ---------------------------------------------------------------------------

theorem ok_allocBegin (h : Ok s) {size : Nat} (hs : Safe s (.allocBegin t size)) :
    Ok (allocBegin t size s) := by
  obtain ⟨hq, hsize⟩ := hs
  unfold allocBegin
  split
  · refine h.of_begin hq (x := .thread t) hsize rfl (fun y c hy => ?_) fun _ _ hb => hb
    cases y with
    | thread i =>
      change Function.update s.locals t _ i = some c at hy
      by_cases he : i = t
      · rw [he, Function.update_self] at hy
        cases hy
        exact .inl ⟨by rw [he], rfl⟩
      · rw [Function.update_of_ne he] at hy
        exact .inr hy
    | server => exact .inr hy
    | scheduler => exact .inr hy
  · exact h

theorem ok_allocEnd (h : Ok s) : Ok (allocEnd t s) := by
  unfold allocEnd
  split
  · exact h
  · rename_i c hc
    refine h.of_end (x := .thread t) hc rfl (fun y d hy => ?_) fun i b hb => ?_
    · cases y with
      | thread i =>
        change Function.update s.locals t none i = some d at hy
        by_cases he : i = t
        · rw [he, Function.update_self] at hy
          cases hy
        · rw [Function.update_of_ne he] at hy
          exact ⟨fun hx => he (Caller.thread.inj hx), hy⟩
      | server => exact ⟨fun he => (nomatch he), hy⟩
      | scheduler => exact ⟨fun he => (nomatch he), hy⟩
    · rcases hb with hi | hj
      · change b ∈ Function.update s.inputs t _ i at hi
        by_cases he : i = t
        · rw [he, Function.update_self, List.mem_append, Option.mem_toList] at hi
          rw [he]
          exact hi.imp .inl id
        · rw [Function.update_of_ne he] at hi
          exact .inl (.inl hi)
      · exact .inl (.inr hj)

theorem ok_submit (h : Ok s) (j : Fin m) (x : Option Block) (keep : Bool) :
    Ok (submit t j x keep s) := by
  unfold submit
  split
  · exact h.of_same rfl (fun y => by cases y <;> rfl) fun _ _ hb => owned_clear hb
  · rename_i b _
    split
    · rename_i hb
      refine h.of_same rfl (fun y => by cases y <;> rfl) fun i d hd => ?_
      have hd := owned_inputs (s := s.setJob j ⟨.queued, some t, [b]⟩) (fun d hd => ?_) hd
      · refine owned_setJob hd fun hown hin => ?_
        cases hown
        rw [List.mem_singleton.mp hin]
        exact .inl hb
      · split at hd
        · exact hd
        · exact List.mem_of_mem_erase hd
    · exact h
  · exact h

theorem ok_consume (h : Ok s) (j : Fin m) : Ok (consume j s) := by
  unfold consume
  split
  · exact h.of_same rfl (fun y => by cases y <;> rfl) fun _ _ hb => owned_clear hb
  · exact h

theorem ok_localReset (h : Ok s) (hfree : Safe s (.localReset t)) : Ok (localReset t s) := by
  unfold localReset
  split
  · refine h.of_reset rfl (fun y => by cases y <;> rfl) fun i b hb => ?_
    rcases hb with hi | ⟨j, hown, hb⟩
    · change b ∈ Function.update s.inputs t [] i at hi
      by_cases he : i = t
      · rw [he, Function.update_self] at hi
        cases hi
      · rw [Function.update_of_ne he, (hfree i he).1] at hi
        cases hi
    · dsimp only at hown hb
      split at hb
      · cases hb
      · rename_i hne
        rw [if_neg hne] at hown
        have he : i ≠ t := fun he => hne (he ▸ hown)
        rw [(hfree i he).2 j hown] at hb
        cases hb
  · exact h

theorem ok_serveBegin (h : Ok s) {size : Nat} (hs : Safe s (.serveBegin size)) :
    Ok (serveBegin size s) := by
  obtain ⟨hq, hsize⟩ := hs
  unfold serveBegin
  split
  · refine h.of_begin hq (x := .server) hsize rfl (fun y c hy => ?_) fun _ _ hb => hb
    cases y with
    | server =>
      cases hy
      exact .inl ⟨rfl, rfl⟩
    | thread i => exact .inr hy
    | scheduler => exact .inr hy
  · exact h

theorem ok_serveAlloc (h : Ok s) : Ok (serveAlloc s) := by
  unfold serveAlloc
  split
  · rename_i c hc
    have hx : callOf s .server = some c := by
      unfold callOf
      dsimp only
      rw [hc]
    refine h.of_end hx rfl (fun y d hy => ?_) fun _ _ hb => .inl hb
    cases y with
    | server =>
      unfold callOf at hy
      dsimp only at hy
      split at hy
      · rename_i hd
        split at hd <;> cases hd
      · cases hy
    | thread i =>
      refine ⟨fun he => ?_, hy⟩
      cases he
    | scheduler =>
      refine ⟨fun he => ?_, hy⟩
      cases he
  · exact h

/-- The receiving thread goes on, outside of the arena. -/
theorem callOf_server {x y : Server m} (hs : s.server = x) (hx : ∀ c, x ≠ .allocating c)
    (hy : ∀ c, y ≠ .allocating c) (z : Caller n) : callOf { s with server := y } z = callOf s z := by
  cases z with
  | thread t => rfl
  | scheduler => rfl
  | server =>
    unfold callOf
    dsimp only
    rw [hs]
    cases x <;> cases y <;> first | rfl | exact absurd rfl (hx _) | exact absurd rfl (hy _)

theorem ok_serveSubmit (h : Ok s) (j : Fin m) : Ok (serveSubmit j s) := by
  unfold serveSubmit
  split
  · rename_i hserver hstate
    exact h.of_same rfl
      (callOf_server (s := s.setJob j _) hserver (fun _ he => nomatch he) fun _ he => nomatch he)
      fun _ _ hb => owned_served hb
  · exact h

theorem ok_serveRefused (h : Ok s) : Ok (serveRefused s) := by
  unfold serveRefused
  split
  · rename_i hserver
    exact h.of_same rfl (callOf_server hserver (fun _ he => nomatch he) fun _ he => nomatch he)
      fun _ _ hb => hb
  · exact h

theorem ok_serveReturn (h : Ok s) : Ok (serveReturn s) := by
  unfold serveReturn
  split
  · rename_i j hserver
    split
    · exact h.of_same rfl
        (callOf_server (s := s.setJob j _) hserver (fun _ he => nomatch he) fun _ he => nomatch he)
        fun _ _ hb => owned_clear hb
    · exact h.of_same rfl (callOf_server hserver (fun _ he => nomatch he) fun _ he => nomatch he)
        fun _ _ hb => hb
  · exact h

theorem ok_serveReset (h : Ok s) (hfree : Safe s .serveReset) : Ok (serveReset s) := by
  unfold serveReset
  split
  · rename_i hserver
    refine h.of_reset rfl ?_ fun i b hb => ?_
    · exact callOf_server (s := { s with arena := _ }) hserver (fun _ he => nomatch he)
        fun _ he => nomatch he
    · rcases hb with hi | ⟨j, hown, hb⟩
      · rw [show s.inputs i = [] from (hfree i).1] at hi
        cases hi
      · rw [show (s.jobs j).blocks = [] from (hfree i).2 j hown] at hb
        cases hb
  · exact h

/-- The scheduler goes on, outside of the arena. -/
theorem callOf_exec {x y : Exec m} (hs : s.exec = x) (hx : ∀ j c, x ≠ .allocating j c)
    (hy : ∀ j c, y ≠ .allocating j c) (z : Caller n) : callOf { s with exec := y } z = callOf s z := by
  cases z with
  | thread t => rfl
  | server => rfl
  | scheduler =>
    unfold callOf
    dsimp only
    rw [hs]
    cases x <;> cases y <;> first | rfl | exact absurd rfl (hx _ _) | exact absurd rfl (hy _ _)

theorem ok_dispatch (h : Ok s) (j : Fin m) : Ok (dispatch j s) := by
  unfold dispatch
  split
  · rename_i hexec _
    exact h.of_same rfl
      (callOf_exec (s := s.setJob j _) hexec (fun _ _ he => nomatch he) fun _ _ he => nomatch he)
      fun _ _ hb => owned_state hb
  · rename_i hexec _
    exact h.of_same rfl
      (callOf_exec (s := s.setJob j _) hexec (fun _ _ he => nomatch he) fun _ _ he => nomatch he)
      fun _ _ hb => owned_state hb
  · exact h

theorem ok_stageBegin (h : Ok s) {size : Nat} (hs : Safe s (.stageBegin size)) :
    Ok (stageBegin size s) := by
  obtain ⟨hq, hsize⟩ := hs
  unfold stageBegin
  split
  · refine h.of_begin hq (x := .scheduler) hsize rfl (fun y c hy => ?_) fun _ _ hb => hb
    cases y with
    | scheduler =>
      cases hy
      exact .inl ⟨rfl, rfl⟩
    | thread i => exact .inr hy
    | server => exact .inr hy
  · exact h

theorem ok_stageEnd (h : Ok s) : Ok (stageEnd s) := by
  unfold stageEnd
  split
  · rename_i j c hc
    have hx : callOf s .scheduler = some c := by
      unfold callOf
      dsimp only
      rw [hc]
    refine h.of_end hx rfl (fun y d hy => ?_) fun i b hb => ?_
    · cases y with
      | scheduler => cases hy
      | thread i => exact ⟨fun he => (nomatch he), hy⟩
      | server => exact ⟨fun he => (nomatch he), hy⟩
    · by_cases hnew : (callEnd c s.arena).1 = some b
      · exact .inr hnew
      · refine .inl (owned_setJob hb fun hown hin => ?_)
        rcases List.mem_append.mp hin with hin | hin
        · exact .inr ⟨j, hown, hin⟩
        · exact absurd (Option.mem_toList.mp hin) hnew
  · exact h

theorem ok_leave (h : Ok s) (state : JobState) : Ok (leave state s) := by
  unfold leave
  split
  · rename_i j hexec
    exact h.of_same rfl
      (callOf_exec (s := s.setJob j _) hexec (fun _ _ he => nomatch he) fun _ _ he => nomatch he)
      fun _ _ hb => owned_state hb
  · exact h

theorem ok_step (h : Ok s) (o : Op n m) (ho : Safe s o) : Ok (step s o) := by
  cases o with
  | allocBegin t size => exact ok_allocBegin h ho
  | allocEnd t => exact ok_allocEnd h
  | submit t j b keep => exact ok_submit h j b keep
  | consume j => exact ok_consume h j
  | localReset t => exact ok_localReset h ho
  | serveBegin size => exact ok_serveBegin h ho
  | serveAlloc => exact ok_serveAlloc h
  | serveSubmit j => exact ok_serveSubmit h j
  | serveRefused => exact ok_serveRefused h
  | serveReturn => exact ok_serveReturn h
  | serveReset => exact ok_serveReset h ho
  | dispatch j => exact ok_dispatch h j
  | stageBegin size => exact ok_stageBegin h ho
  | stageEnd => exact ok_stageEnd h
  | suspend => exact ok_leave h .suspended
  | finish => exact ok_leave h .finished

-- ---------------------------------------------------------------------------
-- The property
-- ---------------------------------------------------------------------------

/-- A block comes out of an allocation. -/
theorem handsOut_call {o : Op n m} (h : handsOut s o = some b) :
    ∃ x c, callOf s x = some c ∧ (callEnd c s.arena).1 = some b := by
  unfold handsOut at h
  split at h
  · rename_i t
    obtain ⟨c, hc, hb⟩ := Option.bind_eq_some_iff.mp h
    exact ⟨.thread t, c, hc, hb⟩
  · split at h
    · rename_i c hc
      refine ⟨.server, c, ?_, h⟩
      unfold callOf
      dsimp only
      rw [hc]
    · cases h
  · split at h
    · rename_i j c hc
      refine ⟨.scheduler, c, ?_, h⟩
      unfold callOf
      dsimp only
      rw [hc]
    · cases h
  · cases h

theorem Ok.kept (h : Ok s) : Kept s := by
  intro o b hb j t hown _ x hx
  obtain ⟨y, c, hc, hend⟩ := handsOut_call hb
  obtain ⟨hlo, hhi, hsize⟩ := h.call y c hc
  have hbelow := h.below t x (.inr ⟨j, hown, hx⟩)
  have hle := hbelow.le
  have hcases := h.room.ended hlo hhi hsize
  generalize callEnd c s.arena = r at hcases hend
  cases hcases with
  | full => cases hend
  | block a' hr hu hlo hhi =>
    cases hend
    right
    unfold Block.start
    rw [hbelow.scratch, show c.block.scratch = false from rfl]
    simp only [Bool.false_eq_true, ↓reduceIte]
    omega

theorem ok_init (h : Roomy a) : Ok (init n m a) where
  room := h
  below t b hb := by
    rcases hb with hi | ⟨j, _, hb⟩
    · cases hi
    · cases hb
  call x c hx := by cases x <;> cases hx
  alone x y hx := by cases x <;> exact absurd rfl hx

theorem roomy_started {cfg : Cfg} {base size : Nat} (hb : base ≠ 0) (hs : cfg.scratch < size)
    (hsize : size < sizeMod) : Roomy (started cfg base size) := by
  have h : Memory.Ok cfg size (started cfg base size) := Memory.ok_started hb hs
  have hus := h.usable
  exact ⟨h.initialized, h.used, by omega⟩

/-- For every run in which the steps are safe. -/
theorem serving_keeps (cfg : Cfg) (base size n m : Nat) (hb : base ≠ 0) (hs : cfg.scratch < size)
    (hsize : size < sizeMod) (l : List (Op n m))
    (h : Along step Safe (init n m (started cfg base size)) l) :
    Kept (run step (init n m (started cfg base size)) l) :=
  (h.invariant (I := Ok) (ok_init (roomy_started hb hs hsize)) fun _ o hok ho => ok_step hok o ho).kept

/-- A request is served around a job of thread 1 that has no block. Thread 0 begins
an allocation before the handler resets the arena and ends it afterwards; its job
is queued and suspended while the next request is served. -/
def politeOps : List (Op 2 3) :=
  [.allocBegin 0 112, .allocEnd 0, .submit 0 0 (some ⟨false, .ephemeral, 0, 112⟩) false, .dispatch 0,
    .stageBegin 304, .stageEnd, .finish, .submit 1 2 none false, .consume 0,
    .serveBegin 112, .serveAlloc, .serveSubmit 1, .dispatch 1, .stageBegin 304, .stageEnd, .suspend,
    .dispatch 2, .finish, .dispatch 1, .finish, .serveReturn, .allocBegin 0 112, .serveReset,
    .allocEnd 0, .submit 0 0 (some ⟨false, .ephemeral, 832, 112⟩) false, .dispatch 0,
    .stageBegin 304, .stageEnd, .suspend, .serveBegin 112]

theorem serving_keeps_polite :
    Kept (run step (init 2 3 (started defaultCfg 4096 131072)) politeOps) ∧
      (((run step (init 2 3 (started defaultCfg 4096 131072)) politeOps).jobs 0).state = .suspended ∧
        ((run step (init 2 3 (started defaultCfg 4096 131072)) politeOps).jobs 0).blocks =
          [⟨false, .ephemeral, 832, 112⟩, ⟨false, .ephemeral, 944, 304⟩]) ∧
      handsOut (run step (init 2 3 (started defaultCfg 4096 131072)) politeOps) .serveAlloc =
        some ⟨false, .ephemeral, 1248, 112⟩ :=
  ⟨serving_keeps defaultCfg 4096 131072 2 3 (by decide) (by decide) (by decide) politeOps
    (by decide +kernel), by decide +kernel, by decide +kernel⟩

/-- A request is served while a local job is queued, then another one. -/
def rudeOps : List (Op 1 2) :=
  [.allocBegin 0 112, .allocEnd 0, .submit 0 0 (some ⟨false, .ephemeral, 0, 112⟩) false,
    .serveBegin 112, .serveAlloc, .serveSubmit 1, .dispatch 1, .stageBegin 304, .stageEnd, .finish,
    .serveReturn, .serveReset, .serveBegin 112]

/-- The second request gets the input of the queued job. -/
theorem serving_takes : ¬∀ (cfg : Cfg) (base size n m : Nat), base ≠ 0 → cfg.scratch < size →
    size < sizeMod → ∀ l, Kept (run step (init n m (started cfg base size)) l) := fun h => by
  have hk := h defaultCfg 4096 131072 1 2 (by decide) (by decide) (by decide) rudeOps
  have hout : handsOut (run step (init 1 2 (started defaultCfg 4096 131072)) rudeOps) .serveAlloc =
      some ⟨false, .ephemeral, 0, 112⟩ := by decide +kernel
  have := hk .serveAlloc _ hout 0 0 (by decide +kernel) (by decide +kernel) ⟨false, .ephemeral, 0, 112⟩
    (by decide +kernel)
  unfold Block.Apart Block.start at this
  simp at this

end SynapticOS.Memory.Serving
