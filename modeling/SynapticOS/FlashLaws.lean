import SynapticOS.FlashPort

/-!
# What a flash primitive can do

One law for each primitive: a success has the whole effect and leaves the
power on; a failure lands a prefix. Under a plan whose only faults are power
losses (`CutOnly`), a well-formed request fails only by losing power; under an
empty plan on a powered flash (`Healthy`) it succeeds.
-/

namespace SynapticOS.Flash

open Lib

/-- Time moves on: the trace grows, the plan is used up, a flash without power
does not change, and power is lost only by the plan. -/
structure Later (fl fl' : Flash) : Prop where
  trace : fl.trace <+: fl'.trace
  plan : fl'.plan <:+ fl.plan
  off : fl.powered = false → fl' = fl
  calm : fl.plan = [] → fl'.powered = fl.powered

instance : IsPreorder Flash Later where
  refl fl := ⟨List.prefix_rfl, List.suffix_rfl, fun _ => rfl, fun _ => rfl⟩
  trans a b c h h' := ⟨h.trace.trans h'.trace, h'.plan.trans h.plan, fun ha => by
    have hb := h.off ha
    subst hb
    exact h'.off ha, fun hp => by
    have hb : b.plan = [] := List.suffix_nil.mp (hp ▸ h.plan)
    exact (h'.calm hb).trans (h.calm hp)⟩

def CutOnly (fl : Flash) : Prop := ∀ t, Fault.error t ∉ fl.plan

instance (fl : Flash) : Decidable (CutOnly fl) :=
  decidable_of_iff (∀ f ∈ fl.plan, ∀ t, f ≠ .error t)
    ⟨fun h t ht => h _ ht t rfl, fun h _ hf t he => h t (he ▸ hf)⟩

/-- Powered, and no fault ahead. -/
def Healthy (fl : Flash) : Prop := fl.powered = true ∧ fl.plan = []

instance (fl : Flash) : Decidable (Healthy fl) := by unfold Healthy; infer_instance

theorem CutOnly.later (h : CutOnly fl) (hl : Later fl fl') : CutOnly fl' :=
  fun t ht => h t (hl.plan.subset ht)

theorem Healthy.cutOnly (h : Healthy fl) : CutOnly fl := by
  intro t ht
  simp [h.2] at ht

theorem Healthy.later (h : Healthy fl) (hl : Later fl fl') : Healthy fl' :=
  ⟨(hl.calm h.2).trans h.1, List.suffix_nil.mp (h.2 ▸ hl.plan)⟩

theorem Later.powered (h : Later fl fl') (hp : fl'.powered = true) : fl.powered = true := by
  by_contra hn
  have hn : fl.powered = false := by simpa using hn
  have he := h.off hn
  subst he
  simp [hp] at hn

variable {fl fl' : Flash} {p : Port} {off len : Nat} {data : List UInt8}

-- ---------------------------------------------------------------------------
-- The plan
-- ---------------------------------------------------------------------------

/-- What the fault plan makes of a primitive: nothing without power; else the
operation itself, torn or not, and perhaps a power loss after a torn one. -/
theorem prim_cases (op : Option Tear → FlashM α) (fl : Flash) :
    (fl.powered = false ∧ (prim op).run fl = (.error .eio, fl)) ∨
    ∃ t rest on, fl.powered = true ∧ rest <:+ fl.plan ∧ (t = none → on = true) ∧
      (CutOnly fl → t ≠ none → on = false) ∧
      (prim op).run fl = (((op t).run { fl with plan := rest }).1,
        { ((op t).run { fl with plan := rest }).2 with
          powered := on && ((op t).run { fl with plan := rest }).2.powered }) := by
  obtain ⟨mem, powered, plan, trace⟩ := fl
  cases powered with
  | false => exact .inl ⟨rfl, rfl⟩
  | true =>
    right
    cases plan with
    | nil =>
      exact ⟨none, [], true, rfl, List.suffix_rfl, fun _ => rfl, fun _ h => absurd rfl h, rfl⟩
    | cons f rest =>
      have hs : rest <:+ f :: rest := List.suffix_cons f rest
      cases f with
      | none => exact ⟨none, rest, true, rfl, hs, fun _ => rfl, fun _ h => absurd rfl h, rfl⟩
      | error t =>
        exact ⟨some t, rest, true, rfl, hs, fun _ => rfl, fun h => absurd (by simp) (h t), rfl⟩
      | powerLoss t => exact ⟨some t, rest, false, rfl, hs, fun h => (nomatch h), fun _ _ => rfl, rfl⟩

theorem prim_healthy (h : Healthy fl) (op : Option Tear → FlashM α) :
    (prim op).run fl = (op none).run fl := by
  simp [Act.run, prim, h.1, h.2]

theorem prim_later {op : Option Tear → FlashM α}
    (h : ∀ t fl, fl.trace <+: ((op t).run fl).2.trace ∧ ((op t).run fl).2.plan = fl.plan ∧
      ((op t).run fl).2.powered = fl.powered) :
    Respects Later (prim op) := by
  intro fl
  by_cases hq : fl.powered = true ∧ fl.plan = []
  · obtain ⟨h1, h2, h3⟩ := h none fl
    rw [prim_healthy hq]
    exact ⟨h1, by simp [h2], fun hn => by simp [hq.1] at hn, fun _ => h3⟩
  · rcases prim_cases op fl with ⟨hn, hr⟩ | ⟨t, rest, on, hp, hs, _, _, hr⟩
    · rw [hr]; exact Std.Refl.refl fl
    · rw [hr]
      obtain ⟨h1, h2, _⟩ := h t { fl with plan := rest }
      exact ⟨h1, by simpa [h2] using hs, fun hn => by simp [hp] at hn,
        fun he => absurd ⟨hp, he⟩ hq⟩

-- ---------------------------------------------------------------------------
-- Reads
-- ---------------------------------------------------------------------------

theorem read_later (p : Port) (off len : Nat) : Respects Later (read p off len) := by
  refine Respects.ite (prim_later fun t fl => ?_) (Respects.throw _)
  cases t <;> exact ⟨List.prefix_rfl, rfl, rfl⟩

theorem read_spec (p : Port) (off len : Nat) (fl : Flash) :
    Triple (read p off len) fl
      (fun bs fl' => bs = fl.mem.read off len ∧ fl'.mem = fl.mem ∧ fl'.powered = true)
      (fun _ fl' => fl'.mem = fl.mem ∧
        (checkRange p off len → CutOnly fl → fl'.powered = false)) := by
  refine Triple.ite (fun hc => ?_) (fun hc => Triple.throw ⟨rfl, fun h => absurd h hc⟩)
  rcases prim_cases _ fl with ⟨hp, hr⟩ | ⟨t, rest, on, hp, _, hon, hcut, hr⟩
  · exact Triple.of_run_error hr ⟨rfl, fun _ _ => hp⟩
  · cases t with
    | none => exact Triple.of_run hr ⟨rfl, rfl, by simp [hon, hp]⟩
    | some t => exact Triple.of_run_error hr ⟨rfl, fun _ h => by simp [hcut h (by simp)]⟩

theorem isBlank_later (p : Port) (off len : Nat) : Respects Later (isBlank p off len) := by
  refine Respects.ite (prim_later fun t fl => ?_) (Respects.throw _)
  cases t <;> exact ⟨List.prefix_rfl, rfl, rfl⟩

theorem isBlank_spec (p : Port) (off len : Nat) (fl : Flash) :
    Triple (isBlank p off len) fl
      (fun b fl' => b = blank fl.mem off len ∧ fl'.mem = fl.mem ∧ fl'.powered = true)
      (fun _ fl' => fl'.mem = fl.mem ∧
        (checkRange p off len → CutOnly fl → fl'.powered = false)) := by
  refine Triple.ite (fun hc => ?_) (fun hc => Triple.throw ⟨rfl, fun h => absurd h hc⟩)
  rcases prim_cases _ fl with ⟨hp, hr⟩ | ⟨t, rest, on, hp, _, hon, hcut, hr⟩
  · exact Triple.of_run_error hr ⟨rfl, fun _ _ => hp⟩
  · cases t with
    | none => exact Triple.of_run hr ⟨rfl, rfl, by simp [hon, hp]⟩
    | some t => exact Triple.of_run_error hr ⟨rfl, fun _ h => by simp [hcut h (by simp)]⟩

-- ---------------------------------------------------------------------------
-- Programming
-- ---------------------------------------------------------------------------

theorem programPages_le (page : Nat) (m : Mem) (pages : Nat) (tear : Option Tear) (off : Nat) :
    (programPages page m pages tear off).2 ≤ pages * page := by
  induction pages generalizing tear off with
  | zero => simp [programPages]
  | succ pages ih =>
    have hs : (pages + 1) * page = page + pages * page := by ring
    have hh : page / 2 ≤ page := Nat.div_le_self _ _
    rw [hs]
    unfold programPages
    split
    · dsimp only
      split <;> omega
    · split
      · exact Nat.add_le_add_left (ih _ _) _
      · exact Nat.zero_le _

/-- The loop succeeds only when nothing tore it, and then every page landed. -/
theorem programPages_ok (page : Nat) (m : Mem) (pages : Nat) (tear : Option Tear) (off : Nat)
    (h : (programPages page m pages tear off).1 = .ok ()) :
    tear = none ∧ (programPages page m pages tear off).2 = pages * page := by
  induction pages generalizing tear off with
  | zero => cases tear <;> simp_all [programPages]
  | succ pages ih =>
    unfold programPages at h ⊢
    split at h
    next => cases h
    next =>
      split at h
      next hb =>
        obtain ⟨h1, h2⟩ := ih _ _ h
        have ht : tear = none := by simpa using h1
        subst ht
        refine ⟨rfl, ?_⟩
        simp only [Option.map_none] at h2
        simp only [Option.any_none, Bool.false_eq_true, ↓reduceIte, hb, Option.map_none, h2]
        ring
      next => cases h

theorem programPages_erased {m : Mem} (page : Nat) (h : Erased m off (off + pages * page)) :
    programPages page m pages none off = (.ok (), pages * page) := by
  induction pages generalizing off with
  | zero => simp [programPages]
  | succ pages ih =>
    have hs : (pages + 1) * page = page + pages * page := by ring
    rw [hs] at h
    have hb : blank m off page = true := blank_iff.mpr (h.mono (by omega) (by omega))
    have ht := ih (h.mono (Nat.le_add_right off page) (by omega))
    simp [programPages, hb, ht, hs]

theorem write_later (p : Port) (off : Nat) (data : List UInt8) : Respects Later (write p off data) :=
  Respects.ite (Respects.ite (Respects.throw _) (prim_later fun _ _ => ⟨List.prefix_append _ _, rfl, rfl⟩))
    (Respects.throw _)

/-- A program lands a prefix of its data; a success lands all of it. -/
theorem write_spec (p : Port) (off : Nat) (data : List UInt8) (fl : Flash) :
    Triple (write p off data) fl
      (fun _ fl' => fl'.mem = fl.mem.put off data ∧ fl'.powered = true ∧
        off % p.pageSize = 0 ∧ checkRange p off data.length)
      (fun _ fl' => ∃ n ≤ data.length, fl'.mem = fl.mem.put off (data.take n) ∧
        (n = 0 ∨ .program off data n ∈ fl'.trace) ∧
        (checkRange p off data.length → off % p.pageSize = 0 → data.length % p.pageSize = 0 →
          Erased fl.mem off (off + data.length) → CutOnly fl → fl'.powered = false)) := by
  refine Triple.ite (fun hc => Triple.ite (fun ha => Triple.throw ?_) (fun ha => ?_))
    (fun hc => Triple.throw ?_)
  · exact ⟨0, Nat.zero_le _, by simp, .inl rfl, fun _ h1 h2 => by simp [h1, h2] at ha⟩
  · simp only [not_or, not_not] at ha
    have hlen : data.length / p.pageSize * p.pageSize = data.length :=
      Nat.div_mul_cancel (Nat.dvd_of_mod_eq_zero ha.2)
    rcases prim_cases (ramWrite p off data) fl with ⟨hp, hr⟩ | ⟨t, rest, on, hp, _, hon, hcut, hr⟩
    · exact Triple.of_run_error hr ⟨0, Nat.zero_le _, by simp, .inl rfl, fun _ _ _ _ _ => hp⟩
    · generalize hpp : programPages p.pageSize fl.mem (data.length / p.pageSize) t off = res at *
      obtain ⟨r, n⟩ := res
      have hrun : (ramWrite p off data t).run { fl with plan := rest } = (r, { fl with
          plan := rest, mem := fl.mem.put off (data.take n),
          trace := fl.trace ++ [.program off data n] }) := by
        simp [Act.run, ramWrite, hpp]
      rw [hrun] at hr
      have hn : n ≤ data.length := by
        have h := programPages_le p.pageSize fl.mem (data.length / p.pageSize) t off
        rw [hpp, hlen] at h
        exact h
      cases r with
      | ok u =>
        obtain ⟨ht, hall⟩ := programPages_ok p.pageSize fl.mem _ t off (by rw [hpp])
        rw [hpp, hlen] at hall
        simp only at hall
        exact Triple.of_run hr ⟨by simp [hall], by simp [hon ht, hp], ha.1, hc⟩
      | error e =>
        refine Triple.of_run_error hr ⟨n, hn, rfl, .inr (by simp), fun _ _ _ he hco => ?_⟩
        have ht : t ≠ none := by
          rintro rfl
          rw [← hlen] at he
          rw [programPages_erased _ he] at hpp
          simp at hpp
        simp [hcut hco ht]
  · exact ⟨0, Nat.zero_le _, by simp, .inl rfl, fun h => absurd h hc⟩

theorem write_healthy (h : Healthy fl) (hc : checkRange p off data.length)
    (ho : off % p.pageSize = 0) (hl : data.length % p.pageSize = 0)
    (he : Erased fl.mem off (off + data.length)) :
    (write p off data).run fl = (.ok (), { fl with
      mem := fl.mem.put off data
      trace := fl.trace ++ [.program off data data.length] }) := by
  have hlen : data.length / p.pageSize * p.pageSize = data.length :=
    Nat.div_mul_cancel (Nat.dvd_of_mod_eq_zero hl)
  rw [write, if_pos hc, if_neg (by simp [ho, hl]), prim_healthy h]
  rw [← hlen] at he
  have hpp := programPages_erased p.pageSize he
  simp [Act.run, ramWrite, hpp, hlen]

-- ---------------------------------------------------------------------------
-- Erasing
-- ---------------------------------------------------------------------------

theorem prim_ramErase_later (p : Port) (off len : Nat) : Respects Later (prim (ramErase p off len)) :=
  prim_later fun _ _ => ⟨List.prefix_append _ _, rfl, rfl⟩

/-- An erase clears a prefix in whole sectors; a success clears everything. -/
theorem prim_ramErase_spec (p : Port) (off len : Nat) (fl : Flash) :
    Triple (prim (ramErase p off len)) fl
      (fun _ fl' => fl'.mem = fl.mem.put off (List.replicate len erasedByte) ∧ fl'.powered = true ∧
        .erase off len len ∈ fl'.trace)
      (fun _ fl' => (∃ done ≤ len, fl'.mem = fl.mem.put off (List.replicate done erasedByte) ∧
        (done = 0 ∨ min len p.sectorSize ≤ done)) ∧ (CutOnly fl → fl'.powered = false)) := by
  rcases prim_cases (ramErase p off len) fl with ⟨hp, hr⟩ | ⟨t, rest, on, hp, _, hon, hcut, hr⟩
  · exact Triple.of_run_error hr ⟨⟨0, Nat.zero_le _, by simp, .inl rfl⟩, fun _ => hp⟩
  · cases t with
    | none => exact Triple.of_run hr ⟨rfl, by simp [ramErase, Act.run, hon, hp], by simp [ramErase, Act.run]⟩
    | some t =>
      refine Triple.of_run_error hr ⟨⟨_, Nat.min_le_left _ _, rfl, ?_⟩, fun h => by simp [hcut h (by simp)]⟩
      cases hu : t.units with
      | zero => left; simp
      | succ u => right; simp only [Nat.succ_mul]; omega

theorem erase_later (p : Port) (off len : Nat) : Respects Later (erase p off len) :=
  Respects.ite (Respects.ite (Respects.throw _) (prim_ramErase_later p off len)) (Respects.throw _)

theorem erase_spec (p : Port) (off len : Nat) (fl : Flash) :
    Triple (erase p off len) fl
      (fun _ fl' => fl'.mem = fl.mem.put off (List.replicate len erasedByte) ∧ fl'.powered = true ∧
        .erase off len len ∈ fl'.trace)
      (fun _ fl' => (∃ done ≤ len, fl'.mem = fl.mem.put off (List.replicate done erasedByte) ∧
          (done = 0 ∨ p.sectorSize ≤ done)) ∧
        (checkRange p off len → off % p.sectorSize = 0 → len % p.sectorSize = 0 →
          CutOnly fl → fl'.powered = false)) := by
  refine Triple.ite (fun hc => Triple.ite (fun ha => Triple.throw ?_) (fun ha => ?_))
    (fun hc => Triple.throw ?_)
  · exact ⟨⟨0, Nat.zero_le _, by simp, .inl rfl⟩, fun _ h1 h2 => by simp [h1, h2] at ha⟩
  · refine (prim_ramErase_spec p off len fl).mono (fun _ _ h => h) ?_
    rintro e fl' ⟨⟨done, hd, hm, hs⟩, hcut⟩
    refine ⟨⟨done, hd, hm, hs.imp_right fun h => ?_⟩, fun _ _ _ => hcut⟩
    simp only [not_or, not_not] at ha
    have : p.sectorSize ≤ len := Nat.le_of_dvd (Nat.pos_of_ne_zero hc.1) (Nat.dvd_of_mod_eq_zero ha.2)
    omega
  · exact ⟨⟨0, Nat.zero_le _, by simp, .inl rfl⟩, fun h => absurd h hc⟩

theorem eraseLoop_later (p : Port) (k off : Nat) : Respects Later (eraseLoop p k off) := by
  induction k generalizing off with
  | zero => exact Respects.pure' _
  | succ k ih => exact Respects.bind (prim_ramErase_later _ _ _) fun _ => ih _

/-- The sector loop stays in its range; a success clears all of it. -/
theorem eraseLoop_spec (p : Port) (k off : Nat) (fl : Flash) :
    Triple (eraseLoop p k off) fl
      (fun _ fl' => Mem.SameOutside off (off + k * p.sectorSize) fl.mem fl'.mem ∧
        Erased fl'.mem off (off + k * p.sectorSize) ∧ (fl.powered = true → fl'.powered = true))
      (fun _ fl' => Mem.SameOutside off (off + k * p.sectorSize) fl.mem fl'.mem ∧
        (CutOnly fl → fl'.powered = false)) := by
  induction k generalizing off fl with
  | zero => exact Triple.pure' ⟨Mem.SameOutside.rfl, fun a h1 h2 => by omega, fun h => h⟩
  | succ k ih =>
    have hs : (k + 1) * p.sectorSize = p.sectorSize + k * p.sectorSize := by ring
    rw [hs]
    refine Triple.bind ((prim_ramErase_spec p off p.sectorSize fl).and
      (Triple.of_respects (prim_ramErase_later p off p.sectorSize) fl) |>.mono (fun _ _ h => h) ?_) ?_
    · rintro e fl' ⟨⟨⟨done, hd, hm, -⟩, hcut⟩, -⟩
      refine ⟨?_, hcut⟩
      rw [hm]
      exact Mem.sameOutside_put (by simp; omega)
    · rintro u fl' ⟨⟨hm, hp, -⟩, hl⟩
      have hfront : Mem.SameOutside off (off + p.sectorSize) fl.mem fl'.mem := by
        rw [hm]; exact Mem.sameOutside_put (by simp)
      refine (ih (off + p.sectorSize) fl').mono ?_ ?_
      · rintro _ fl'' ⟨ho, he, hp'⟩
        refine ⟨(hfront.mono (Nat.le_refl _) (by omega)).trans (ho.mono (by omega) (by omega)), ?_,
          fun _ => hp' hp⟩
        intro a h1 h2
        by_cases h3 : a < off + p.sectorSize
        · rw [ho a (.inl h3), hm]
          exact erased_put a h1 h3
        · exact he a (by omega) (by omega)
      · rintro _ fl'' ⟨ho, hcut⟩
        exact ⟨(hfront.mono (Nat.le_refl _) (by omega)).trans (ho.mono (by omega) (by omega)),
          fun h => hcut (h.later hl)⟩

theorem eraseSectors_later (p : Port) (off len : Nat) : Respects Later (eraseSectors p off len) :=
  Respects.ite (Respects.ite (Respects.throw _) (eraseLoop_later _ _ _)) (Respects.throw _)

theorem eraseSectors_spec (p : Port) (off len : Nat) (fl : Flash) :
    Triple (eraseSectors p off len) fl
      (fun _ fl' => Mem.SameOutside off (off + len) fl.mem fl'.mem ∧ Erased fl'.mem off (off + len) ∧
        (fl.powered = true → fl'.powered = true))
      (fun _ fl' => Mem.SameOutside off (off + len) fl.mem fl'.mem ∧
        (checkRange p off len → off % p.sectorSize = 0 → len % p.sectorSize = 0 →
          CutOnly fl → fl'.powered = false)) := by
  refine Triple.ite (fun hc => Triple.ite (fun ha => Triple.throw ?_) (fun ha => ?_))
    (fun hc => Triple.throw ?_)
  · exact ⟨Mem.SameOutside.rfl, fun _ h1 h2 => by simp [h1, h2] at ha⟩
  · simp only [not_or, not_not] at ha
    have h := eraseLoop_spec p (len / p.sectorSize) off fl
    rw [Nat.div_mul_cancel (Nat.dvd_of_mod_eq_zero ha.2)] at h
    exact h.mono (fun _ _ h => h) (fun _ _ h => ⟨h.1, fun _ _ _ => h.2⟩)
  · exact ⟨Mem.SameOutside.rfl, fun h => absurd h hc⟩

-- ---------------------------------------------------------------------------
-- Commands issued
-- ---------------------------------------------------------------------------

/-- A relation that does not look at the plan and the power is one of a primitive
when it is one of the operation. -/
theorem prim_respects {R : Flash → Flash → Prop} [IsPreorder Flash R] {op : Option Tear → FlashM α}
    (hR : ∀ a b plan on, R { a with plan := plan } b → R a { b with powered := on })
    (h : ∀ t, Respects R (op t)) : Respects R (prim op) := by
  intro fl
  rcases prim_cases op fl with ⟨-, hr⟩ | ⟨t, rest, on, -, -, -, -, hr⟩
  · rw [hr]
    exact Std.Refl.refl fl
  · rw [hr]
    exact hR _ _ _ _ (h t { fl with plan := rest })

/-- Neither the memory nor the trace has changed. -/
def Untouched (fl fl' : Flash) : Prop := fl'.mem = fl.mem ∧ fl'.trace = fl.trace

instance : IsPreorder Flash Untouched where
  refl _ := ⟨rfl, rfl⟩
  trans _ _ _ h h' := ⟨h'.1.trans h.1, h'.2.trans h.2⟩

theorem read_untouched (p : Port) (off len : Nat) : Respects Untouched (read p off len) := by
  refine Respects.ite (prim_respects (fun _ _ _ _ h => h) fun t => ?_) (Respects.throw _)
  cases t with
  | none => exact Respects.gets _
  | some t => exact Respects.throw _

theorem isBlank_untouched (p : Port) (off len : Nat) :
    Respects Untouched (isBlank p off len) := by
  refine Respects.ite (prim_respects (fun _ _ _ _ h => h) fun t => ?_) (Respects.throw _)
  cases t with
  | none => exact Respects.gets _
  | some t => exact Respects.throw _

end SynapticOS.Flash

namespace SynapticOS

open Lib Flash

/-- Where a command starts. -/
def FlashOp.off : FlashOp → Nat
  | .erase off _ _ => off
  | .program off _ _ => off

/-- How many bytes a command is for. -/
def FlashOp.len : FlashOp → Nat
  | .erase _ len _ => len
  | .program _ data _ => data.length

variable {lo hi off len : Nat} {p : Port} {data : List UInt8}

/-- Every command issued on the way is for bytes in `[lo, hi)`. -/
def Issued (lo hi : Nat) (fl fl' : Flash) : Prop :=
  ∃ ops, fl'.trace = fl.trace ++ ops ∧
    ∀ op ∈ ops, lo ≤ op.off ∧ op.off < hi ∧ op.off + op.len ≤ hi

instance : IsPreorder Flash (Issued lo hi) where
  refl _ := ⟨[], (List.append_nil _).symm, fun _ h => nomatch h⟩
  trans _ _ _ := by
    rintro ⟨ops, h, hin⟩ ⟨ops', h', hin'⟩
    refine ⟨ops ++ ops', by rw [h', h, List.append_assoc], fun op hop => ?_⟩
    exact (List.mem_append.mp hop).elim (hin op) (hin' op)

theorem Flash.Untouched.issued {fl fl' : Flash} (h : Untouched fl fl') : Issued lo hi fl fl' :=
  ⟨[], by rw [h.2, List.append_nil], fun _ h => nomatch h⟩

theorem issued_prim {op : Option Tear → FlashM α} (h : ∀ t fl, ∃ o : FlashOp,
      ((op t).run fl).2.trace = fl.trace ++ [o] ∧
        lo ≤ o.off ∧ o.off < hi ∧ o.off + o.len ≤ hi) :
    Respects (Issued lo hi) (prim op) := by
  refine prim_respects (fun _ _ _ _ h => h) fun t fl => ?_
  obtain ⟨o, ho, hin⟩ := h t fl
  exact ⟨[o], ho, fun _ hm => List.mem_singleton.mp hm ▸ hin⟩

theorem issued_write (p : Port) (h1 : lo ≤ off) (h2 : off + data.length ≤ hi) :
    Respects (Issued lo hi) (Flash.write p off data) := by
  unfold Flash.write
  by_cases hc : checkRange p off data.length
  · rw [if_pos hc]
    have hpos := hc.1
    exact Respects.ite (Respects.throw _)
      (issued_prim fun _ _ => ⟨_, rfl, h1, show off < hi by omega, h2⟩)
  · rw [if_neg hc]
    exact Respects.throw _

theorem issued_eraseLoop (p : Port) (k : Nat) (h1 : lo ≤ off) (h2 : off + k * p.sectorSize ≤ hi) :
    Respects (Issued lo hi) (eraseLoop p k off) := by
  induction k generalizing off with
  | zero => exact Respects.pure' _
  | succ k ih =>
    have hs : (k + 1) * p.sectorSize = p.sectorSize + k * p.sectorSize := by ring
    have hpos := p.sector_pos
    refine Respects.bind (issued_prim fun _ _ => ⟨_, rfl, h1, show off < hi by omega,
      show off + p.sectorSize ≤ hi by omega⟩) fun _ => ?_
    exact ih (by omega) (by omega)

theorem issued_eraseSectors (p : Port) (h1 : lo ≤ off) (h2 : off + len ≤ hi) :
    Respects (Issued lo hi) (Flash.eraseSectors p off len) := by
  refine Respects.ite (Respects.ite (Respects.throw _) (issued_eraseLoop p _ h1 ?_))
    (Respects.throw _)
  have := Nat.div_mul_le_self len p.sectorSize
  omega

end SynapticOS
