import SynapticOS.Infer.AccountLaws

/-!
# The books are right

A job that was executed to its end is reported from a snapshot, once
(`CallsOk`). With the other parts this gives `jobs_accounted`, about every run.
-/

namespace SynapticOS.Infer

open Lib

variable {cfg : Cfg} {s s' : Sched cfg} {j : Fin cfg.jobs} {d : Deed cfg} {b : Books cfg}

-- ---------------------------------------------------------------------------
-- Callbacks
-- ---------------------------------------------------------------------------

/-- The jobs that an operation brings to an end are cancelled, or it is the
scheduler's. -/
theorem Done.ends (h : Done s s' d) (he : e ∈ s.ends s') : e.2 = .cancelled ∨
    ∃ j ret, d = .settle j ret ∧ ret ≠ eintr ∧
      e = ((s.jobs j).ticket, if ret = 0 then .done else .error) := by
  obtain ⟨i, hended, hne, rfl⟩ := mem_ends.mp he
  have hmoved : ∀ {j st}, Moved s s' j st → i = j ∧ (s'.jobs i).state = st ∧
      (s'.jobs i).ticket = (s.jobs j).ticket := by
    intro j st hm
    by_cases hij : i = j
    · obtain ⟨h1, h2, -⟩ := life_eq.mp hm.life
      rw [hij]
      exact ⟨rfl, h1, h2⟩
    · exact absurd (life_eq.mp (hm.other i hij)).1.symm hne
  cases d with
  | still => exact absurd (life_eq.mp (h.life i)).1.symm hne
  | submit j =>
    rcases h.eq_or i with rfl | hl
    · rw [(life_eq.mp h.life).1] at hended
      cases hended
    · exact absurd (life_eq.mp hl).1.symm hne
  | cancel j => exact .inl (hmoved h.2).2.1
  | deliver j =>
    rw [(hmoved h.2).2.1] at hended
    cases hended
  | pick j =>
    rw [(hmoved h.2).2.1] at hended
    cases hended
  | destroy p =>
    rw [h.2 i, destroyJob_state] at hne ⊢
    by_cases hp : (s.jobs i).doomed p
    · exact .inl (if_pos hp)
    · rw [if_neg hp] at hne
      exact absurd rfl hne
  | settle j ret =>
    obtain ⟨-, hst, htk⟩ := hmoved h.2
    refine .inr ⟨j, ret, rfl, ?_, ?_⟩
    · intro hi
      rw [hst, outcome, if_pos hi] at hended
      cases hended
    · by_cases hi : ret = eintr
      · rw [hst, outcome, if_pos hi] at hended
        cases hended
      · rw [hst, htk, outcome, if_neg hi]

/-- The scheduler thread takes a report down, passes it on, or does something else. -/
inductive Tells (b : Books cfg) (o : Op cfg) : Prop
  | takes (j : Fin cfg.jobs) (ret : Ret) (hd : deed b.sched o = .settle j ret) (hr : ret ≠ eintr)
    (ht : b.tell o = (some (b.reportOf j ret), b.called))
    (hp : ∃ i d, (step b.sched o).pc = .reporting i d)
  | calls (hd : deed b.sched o = .still)
    (ht : b.tell o = (none, b.called ++ (b.report.filter (·.callback.isSome)).toList))
  | nothing (ht : b.tell o = (b.report, b.called))
    (hd : ∀ j ret, deed b.sched o = .settle j ret → ret = eintr)
    (hp : ∀ i d, b.sched.pc = .reporting i d → (step b.sched o).pc = .reporting i d)

theorem tells (b : Books cfg) (o : Op cfg) : Tells b o := by
  have hother : (∀ res layers, o ≠ .schedule res layers) → Tells b o := by
    intro hs
    have htell : b.tell o = (b.report, b.called) := by
      unfold Books.tell
      split
      · exact absurd rfl (hs _ _)
      · rfl
    refine .nothing htell (fun j ret hd => ?_) fun i d hp => ?_
    · obtain ⟨-, res, layers, he⟩ := deed_settle hd
      exact absurd he (hs res layers)
    · by_cases hd : o = .dispatch
      · rw [hd]
        show (dispatch b.sched).pc = _
        unfold dispatch
        rw [if_neg fun h => by rw [hp] at h; exact nomatch h.1]
        exact hp
      · rw [pc_step b.sched o hd hs]
        exact hp
  cases o with
  | schedule res layers =>
    cases hp : b.sched.pc with
    | left j ret =>
      have hdeed : deed b.sched (.schedule res layers) = .settle j ret := by
        unfold deed
        rw [hp]
      by_cases hi : ret = eintr
      · refine .nothing ?_ (fun i r hd => ?_) fun i d he => ?_
        · unfold Books.tell
          rw [hp]
          exact congrArg (·, b.called) (if_pos hi)
        · rw [hdeed] at hd
          cases hd
          exact hi
        · rw [hp] at he
          cases he
      · refine .takes j ret hdeed hi ?_ ⟨j, b.sched.paused, ?_⟩
        · unfold Books.tell
          rw [hp]
          exact congrArg (·, b.called) (if_neg hi)
        · show (schedule res layers b.sched).pc = _
          unfold schedule settle
          rw [hp]
          dsimp only
          rw [if_neg hi]
    | reporting j d =>
      refine .calls ?_ ?_
      · unfold deed
        rw [hp]
      · unfold Books.tell
        rw [hp]
    | _ =>
      refine .nothing ?_ (fun i r hd => ?_) fun i d he => ?_
      · unfold Books.tell
        rw [hp]
      · rw [(deed_settle hd).1] at hp
        cases hp
      · rw [hp] at he
        cases he
  | _ => exact hother fun _ _ he => nomatch he

/-- The report is of a job that was executed to its end. -/
structure Proper (cfg : Cfg) (l : List (Nat × JobState)) (callback : Nat → Option Nat)
    (r : Report) : Prop where
  ended : (r.ticket, if r.ok then JobState.done else .error) ∈ l
  callback : r.callback = callback r.ticket
  id : r.id + cfg.jobs = r.ticket + 1

theorem Proper.mono (h : Proper cfg l f r) (hl : ∀ e ∈ l, e ∈ l')
    (hf : f' r.ticket = f r.ticket) : Proper cfg l' f' r :=
  ⟨hl _ h.ended, h.callback.trans hf.symm, h.id⟩

/-- Every job that was executed to its end is reported once, to its own callback. -/
structure CallsOk (b : Books cfg) : Prop where
  pc : b.report ≠ none → ∃ j d, b.sched.pc = .reporting j d
  report : ∀ r, b.report = some r → Proper cfg b.endings b.callback r ∧
    r.ticket ∉ b.called.map Report.ticket
  once : (b.called.map Report.ticket).Nodup
  proper : ∀ r ∈ b.called, Proper cfg b.endings b.callback r ∧ r.callback.isSome = true
  heard : ∀ e ∈ b.endings, e.2 ≠ .cancelled → (b.callback e.1).isSome = true →
    (∃ r, b.report = some r ∧ r.ticket = e.1) ∨ e.1 ∈ b.called.map Report.ticket

theorem CallsOk.init : CallsOk (Books.init cfg) where
  pc h := absurd rfl h
  report _ h := nomatch h
  once := List.nodup_nil
  proper _ h := nomatch h
  heard _ h := nomatch h

/-- The callbacks of jobs in the books stay what they are. -/
theorem callback_enter (a : Act cfg) {k : Nat}
    (hk : k < b.sched.tickets) : (b.enter a).callback k = b.callback k := by
  have hcb : (b.enter a).callback = Function.update b.callback b.sched.tickets a.callback ∨
      (b.enter a).callback = b.callback := by
    unfold Books.enter
    dsimp only
    split
    · exact .inl rfl
    · exact .inr rfl
  rcases hcb with hcb | hcb
  · rw [hcb]
    exact Function.update_of_ne hk.ne _ _
  · rw [hcb]

theorem CallsOk.enter (h : CallsOk b) (hn : IdsOk b.sched) (he : EndingsOk b.sched b.endings)
    (a : Act cfg) (hd : Done b.sched (step b.sched a.op) (deed b.sched a.op)) :
    CallsOk (b.enter a) := by
  have hmem : ∀ e ∈ b.endings, e ∈ (b.enter a).endings := fun e hm => List.mem_append_left _ hm
  have hold : ∀ r, Proper cfg b.endings b.callback r →
      Proper cfg (b.enter a).endings (b.enter a).callback r := fun r hp =>
    hp.mono hmem (callback_enter a (he.past _ hp.ended).2.1)
  have hproper : ∀ r ∈ b.called, Proper cfg (b.enter a).endings (b.enter a).callback r ∧
      r.callback.isSome = true := fun r hr => ⟨hold r (h.proper r hr).1, (h.proper r hr).2⟩
  have hheard : ∀ e ∈ b.endings, e.2 ≠ .cancelled → ((b.enter a).callback e.1).isSome = true →
      (∃ r, b.report = some r ∧ r.ticket = e.1) ∨ e.1 ∈ b.called.map Report.ticket := by
    intro e hm hc hs
    rw [callback_enter a (he.past e hm).2.1] at hs
    exact h.heard e hm hc hs
  cases tells b a.op with
  | takes j ret hdeed hr ht hp =>
    have hrep : (b.enter a).report = some (b.reportOf j ret) := congrArg Prod.fst ht
    have hcal : (b.enter a).called = b.called := congrArg Prod.snd ht
    -- nothing was to be reported before
    have hnone : b.report = none := by
      cases hb : b.report with
      | none => rfl
      | some r =>
        obtain ⟨i, d, hpc⟩ := h.pc (by rw [hb]; exact fun h => nomatch h)
        rw [(deed_settle hdeed).1] at hpc
        cases hpc
    rw [hdeed] at hd
    obtain ⟨hrun, hm⟩ := hd
    have hout : outcome ret = if ret = 0 then .done else .error := if_neg hr
    have hstate := life_eq.mp hm.life
    have hend : ((b.sched.jobs j).ticket, if ret = 0 then JobState.done else .error) ∈
        b.sched.ends (step b.sched a.op) := by
      refine mem_ends.mpr ⟨j, ?_, ?_, ?_⟩
      · rw [hstate.1, hout]
        split <;> rfl
      · rw [hstate.1, hrun, hout]
        split <;> exact fun h => nomatch h
      · rw [hstate.1, hstate.2.1, hout]
    refine ⟨fun _ => hp, fun r hrr => ?_, ?_, ?_, fun e hm' hc hs => ?_⟩
    · rw [hrep] at hrr
      cases hrr
      refine ⟨⟨?_, ?_, ?_⟩, ?_⟩
      · refine List.mem_append_right _ ?_
        show ((b.sched.jobs j).ticket, if decide (ret = 0) = true then JobState.done else .error) ∈
            _
        simpa only [decide_eq_true_eq] using hend
      · exact (callback_enter a (hn.old j)).symm
      · exact (hn.id j (by rw [hrun]; exact fun h => nomatch h)).2
      · rw [hcal]
        intro hin
        obtain ⟨r, hr', hrt⟩ := List.mem_map.mp hin
        obtain ⟨hended, -, hpast⟩ := he.past _ (h.proper r hr').1.ended
        rcases hpast j hrt.symm with hst | hst
        · rw [hrun] at hst
          dsimp only at hst
          split at hst <;> cases hst
        · rw [hrun] at hst
          cases hst
    · rw [hcal]
      exact h.once
    · rw [hcal]
      exact hproper
    · rw [hrep, hcal]
      rcases List.mem_append.mp hm' with hm' | hm'
      · rcases hheard e hm' hc hs with ⟨r, hb, -⟩ | hin
        · rw [hnone] at hb
          cases hb
        · exact .inr hin
      · have hd' : Done b.sched (step b.sched a.op) (.settle j ret) := ⟨hrun, hm⟩
        rcases hd'.ends hm' with hcc | ⟨i, ret', hsame, -, rfl⟩
        · exact absurd hcc hc
        · cases hsame
          exact .inl ⟨_, rfl, rfl⟩
  | calls hdeed ht =>
    have hrep : (b.enter a).report = none := congrArg Prod.fst ht
    have hcal : (b.enter a).called =
        b.called ++ (b.report.filter (·.callback.isSome)).toList := congrArg Prod.snd ht
    rw [hdeed] at hd
    have hends : (b.enter a).endings = b.endings := by
      have : b.sched.ends (step b.sched a.op) = [] := by
        refine List.eq_nil_iff_forall_not_mem.mpr fun e hm => ?_
        obtain ⟨i, -, hne, -⟩ := mem_ends.mp hm
        exact hne (life_eq.mp (Still.life hd i)).1.symm
      show b.endings ++ _ = _
      rw [this, List.append_nil]
    refine ⟨fun hne => absurd hrep hne, fun r hrr => (by rw [hrep] at hrr; cases hrr), ?_, ?_, ?_⟩
    · rw [hcal, List.map_append, List.nodup_append]
      refine ⟨h.once, ?_, fun k hk k' hk' hkk => ?_⟩
      · cases b.report with
        | none => exact List.nodup_nil
        | some r =>
          rw [Option.filter_some]
          split <;> simp
      · obtain ⟨r, hr, rfl⟩ := List.mem_map.mp hk'
        rw [Option.mem_toList, Option.filter_eq_some_iff] at hr
        exact (h.report r hr.1).2 (hkk ▸ hk)
    · rw [hcal]
      intro r hr
      rcases List.mem_append.mp hr with hr | hr
      · exact hproper r hr
      · rw [Option.mem_toList, Option.filter_eq_some_iff] at hr
        exact ⟨hold r (h.report r hr.1).1, hr.2⟩
    · rw [hends, hrep, hcal]
      intro e hm hc hs
      rcases hheard e hm hc hs with ⟨r, hb, hrt⟩ | hin
      · refine .inr (List.mem_map.mpr ⟨r, List.mem_append_right _ ?_, hrt⟩)
        rw [Option.mem_toList, Option.filter_eq_some_iff]
        refine ⟨hb, ?_⟩
        rw [callback_enter a (he.past e hm).2.1, ← hrt] at hs
        rwa [(h.report r hb).1.callback]
      · refine .inr ?_
        rw [List.map_append]
        exact List.mem_append_left _ hin
  | nothing ht hsettle hp =>
    have hrep : (b.enter a).report = b.report := congrArg Prod.fst ht
    have hcal : (b.enter a).called = b.called := congrArg Prod.snd ht
    refine ⟨fun hne => ?_, fun r hrr => ?_, ?_, ?_, fun e hm hc hs => ?_⟩
    · rw [hrep] at hne
      obtain ⟨j, d, hpc⟩ := h.pc hne
      exact ⟨j, d, hp j d hpc⟩
    · rw [hrep] at hrr
      rw [hcal]
      exact ⟨hold r (h.report r hrr).1, (h.report r hrr).2⟩
    · rw [hcal]
      exact h.once
    · rw [hcal]
      exact hproper
    · rw [hrep, hcal]
      rcases List.mem_append.mp hm with hm | hm
      · exact hheard e hm hc hs
      · rcases hd.ends hm with hcc | ⟨i, ret, hdeed, hne, -⟩
        · exact absurd hcc hc
        · exact absurd (hsettle i ret hdeed) hne

-- ---------------------------------------------------------------------------
-- Runs
-- ---------------------------------------------------------------------------

structure Books.Ok (b : Books cfg) : Prop where
  running : RunningOk b.sched
  named : IdsOk b.sched
  endings : EndingsOk b.sched b.endings
  counts : CountsOk b.sched b.stats b.cutShort
  delivered : DeliveriesOk b.sched b.delivered
  calls : CallsOk b

theorem Books.Ok.init : (Books.init cfg).Ok where
  running := .init
  named := .init
  endings := .init
  counts := .init
  delivered := .init
  calls := .init

/-- Only a `get_result` is told a delivery. -/
theorem delivered_enter (b : Books cfg) (a : Act cfg) :
    (∃ id, a.op = .getResult id ∧
      (b.enter a).delivered = b.delivered ++ [(id, getResultRet b.sched id)]) ∨
    (b.enter a).delivered = b.delivered := by
  unfold Books.enter
  dsimp only
  split
  · rename_i id hop
    exact .inl ⟨id, hop, rfl⟩
  · exact .inr rfl

theorem Books.Ok.enter (h : b.Ok) (a : Act cfg) (hn : (b.enter a).accepted < 2 ^ 32) :
    (b.enter a).Ok := by
  have hd := done_step h.running a.op
  have hlt : (Infer.step b.sched a.op).tickets - cfg.jobs < 2 ^ 32 := hn
  have hlt' : b.sched.tickets - cfg.jobs < 2 ^ 32 := by
    have := hd.tickets
    omega
  have hcounts : CountsOk (b.enter a).sched (b.enter a).stats (b.enter a).cutShort :=
    h.counts.done hlt' hd
  have hcalls := h.calls.enter h.named h.endings a hd
  have hrun := runningOk_step h.running a.op
  by_cases hs : ∃ j, deed b.sched a.op = .submit j
  · obtain ⟨j, hdeed⟩ := hs
    have hsub : Submitted b.sched (Infer.step b.sched a.op) j := by rw [hdeed] at hd; exact hd
    have hdel : (b.enter a).delivered = b.delivered := by
      rcases delivered_enter b a with ⟨id, hop, -⟩ | hsame
      · rw [hop] at hdeed
        unfold deed at hdeed
        dsimp only at hdeed
        repeat' split at hdeed
        all_goals cases hdeed
      · exact hsame
    exact ⟨hrun, h.named.submitted hsub hlt, h.endings.submitted hsub, hcounts,
      hdel ▸ h.delivered.submitted h.named hlt hsub, hcalls⟩
  · obtain ⟨hi, hg⟩ := hd.goesOn fun j he => hs ⟨j, he⟩
    have hnamed := h.named.goesOn hi hg
    refine ⟨hrun, hnamed, h.endings.goesOn hnamed hi hg, hcounts, ?_, hcalls⟩
    rcases delivered_enter b a with ⟨id, hop, htold⟩ | hsame
    · rw [hop] at hd
      rw [htold]
      show DeliveriesOk (Infer.step b.sched a.op) _
      rw [hop]
      exact h.delivered.getResult h.named hd
    · rw [hsame]
      exact h.delivered.goesOn hi hg

theorem step_cases (b : Books cfg) (a : Act cfg) : b.step a = b ∨ b.step a = b.enter a := by
  unfold Books.step
  split
  · exact .inl rfl
  · exact .inr rfl

theorem accepted_mono (h : RunningOk b.sched) (a : Act cfg) : b.accepted ≤ (b.step a).accepted := by
  rcases step_cases b a with he | he
  · rw [he]
  · rw [he]
    have : b.sched.tickets ≤ (b.enter a).sched.tickets := (done_step h a.op).tickets
    unfold Books.accepted
    omega

theorem running_step (h : RunningOk b.sched) (a : Act cfg) : RunningOk (b.step a).sched := by
  rcases step_cases b a with he | he
  · rw [he]
    exact h
  · rw [he]
    exact runningOk_step h a.op

theorem accepted_run (h : RunningOk b.sched) (l : List (Act cfg)) :
    b.accepted ≤ (run Books.step b l).accepted := by
  induction l generalizing b with
  | nil => exact Nat.le_refl _
  | cons a l ih => exact (accepted_mono h a).trans (ih (running_step h a))

theorem Books.Ok.run (h : b.Ok) (l : List (Act cfg))
    (hn : (run Books.step b l).accepted < 2 ^ 32) : (run Books.step b l).Ok := by
  induction l generalizing b with
  | nil => exact h
  | cons a l ih =>
    refine ih ?_ hn
    rcases step_cases b a with he | he
    · rw [he]
      exact h
    · rw [he]
      refine h.enter a ?_
      have := accepted_run (running_step h.running a) l
      rw [run_cons] at hn
      rw [← he]
      omega

/-- An ended job stays as it is until `get_result` takes it. -/
theorem ended_step (h : RunningOk b.sched) (a : Act cfg) (j : Fin cfg.jobs)
    (he : (b.sched.jobs j).state.ended = true) :
    ((b.step a).sched.jobs j).life = (b.sched.jobs j).life ∨
      a.op = .getResult (b.sched.jobs j).id ∧ ((b.step a).sched.jobs j).life =
        (.free, (b.sched.jobs j).ticket, (b.sched.jobs j).id) := by
  rcases step_cases b a with hb | hb
  · rw [hb]
    exact .inl rfl
  · rw [hb]
    have hd := done_step h a.op
    have hact := JobState.ended_not_active he
    have hmoved : ∀ {i st}, Moved b.sched (step b.sched a.op) i st →
        (b.sched.jobs i).state.active = true →
        ((step b.sched a.op).jobs j).life = (b.sched.jobs j).life := by
      intro i st hm ha
      refine hm.other j fun hij => ?_
      rw [← hij, hact] at ha
      cases ha
    cases hdeed : deed b.sched a.op with
    | still =>
      rw [hdeed] at hd
      exact .inl (Still.life hd j)
    | submit i =>
      rw [hdeed] at hd
      refine .inl (Submitted.other hd j fun hij => ?_)
      rw [hij, Submitted.free hd] at he
      cases he
    | cancel i =>
      rw [hdeed] at hd
      exact .inl (hmoved hd.2 (runnable_active hd.1))
    | pick i =>
      rw [hdeed] at hd
      exact .inl (hmoved hd.2 (runnable_active hd.1))
    | settle i ret =>
      rw [hdeed] at hd
      exact .inl (hmoved hd.2 (by rw [hd.1]; rfl))
    | destroy p =>
      rw [hdeed] at hd
      refine .inl ?_
      show ((step b.sched a.op).jobs j).life = _
      rw [hd.2 j, destroyJob_of_not_doomed fun hp => ?_]
      · rfl
      · rw [runnable_active (decide_eq_true hp.1)] at hact
        cases hact
    | deliver i =>
      rw [hdeed] at hd
      by_cases hij : j = i
      · have hop : a.op = .getResult (b.sched.jobs i).id := by
          cases hop : a.op with
          | getResult n =>
            rw [hop] at hdeed
            unfold deed at hdeed
            dsimp only at hdeed
            split at hdeed
            · cases hdeed
            · rename_i k hk
              split at hdeed
              · cases hdeed
                rw [(findJob_id hk).2]
              · cases hdeed
          | _ =>
            rw [hop] at hdeed
            unfold deed at hdeed
            dsimp only at hdeed
            repeat' split at hdeed
            all_goals cases hdeed
        rw [hij]
        exact .inr ⟨hop, hd.2.life⟩
      · exact .inl (hd.2.other j hij)

/-- How often the callback of a submission was called. -/
def Books.calls (b : Books cfg) (k : Nat) : Nat := (b.called.map Report.ticket).count k

/-- In every run with fewer than 2^32 accepted submissions: a job comes to one
end, and leaves it through `get_result` only; it has one result; its callback is
called once if it was executed to its end, and not if it was cancelled; and the
counters agree with the job table. -/
theorem jobs_accounted (l : List (Act cfg))
    (hn : (run Books.step (Books.init cfg) l).accepted < 2 ^ 32) :
    let b := run Books.step (Books.init cfg) l
    let s := b.sched
    ((b.endings.map Prod.fst).Nodup ∧
      (∀ j, (s.jobs j).state.ended = true → ((s.jobs j).ticket, (s.jobs j).state) ∈ b.endings) ∧
      ∀ j a, (s.jobs j).state.ended = true →
        ((b.step a).sched.jobs j).life = (s.jobs j).life ∨ a.op = .getResult (s.jobs j).id ∧
          ((b.step a).sched.jobs j).life = (.free, (s.jobs j).ticket, (s.jobs j).id)) ∧
    (∀ id, (b.delivered.countP fun e => decide (e.1 = id) && isResult e.2) ≤ 1) ∧
    (∀ k, (k, .cancelled) ∈ b.endings → b.calls k = 0) ∧
    (∀ k, (k, .done) ∈ b.endings ∨ (k, .error) ∈ b.endings →
      (∀ j d, s.pc ≠ .reporting j d) → b.calls k = (b.callback k).isSome.toNat) ∧
    b.accepted = b.stats.completed.toNat + b.stats.errors.toNat + b.stats.cancelled.toNat +
      s.tally JobState.active ∧
    (b.stats.preemptions - b.stats.resumes).toNat = s.tally JobState.isSuspended + b.cutShort := by
  have hok := Books.Ok.init.run l hn
  generalize run Books.step (Books.init cfg) l = b at *
  have hcalled : ∀ k, k ∈ b.called.map Report.ticket → ((k, .done) ∈ b.endings ∨
      (k, .error) ∈ b.endings) ∧ (b.callback k).isSome = true := by
    intro k hk
    obtain ⟨r, hr, rfl⟩ := List.mem_map.mp hk
    obtain ⟨hp, hs⟩ := hok.calls.proper r hr
    refine ⟨?_, hp.callback ▸ hs⟩
    have hended := hp.ended
    cases hrok : r.ok with
    | true =>
      rw [hrok, if_pos rfl] at hended
      exact .inl hended
    | false =>
      rw [hrok, if_neg Bool.false_ne_true] at hended
      exact .inr hended
  -- a submission has one end
  have hone : ∀ {k st st'}, (k, st) ∈ b.endings → (k, st') ∈ b.endings → st = st' := by
    intro k st st' h1 h2
    exact congrArg Prod.snd (List.inj_on_of_nodup_map hok.endings.once h1 h2 rfl)
  refine ⟨⟨hok.endings.once, hok.endings.noted, fun j a he => ended_step hok.running a j he⟩,
    hok.delivered.once, fun k hc => ?_, fun k he hpc => ?_, ?_, ?_⟩
  · refine List.count_eq_zero.mpr fun hk => ?_
    rcases (hcalled k hk).1 with h | h
    · exact nomatch hone hc h
    · exact nomatch hone hc h
  · have hnone : b.report = none := by
      by_contra hne
      obtain ⟨j, d, hp⟩ := hok.calls.pc hne
      exact hpc j d hp
    have hheard : (b.callback k).isSome = true → k ∈ b.called.map Report.ticket := by
      intro hs
      rcases he with he | he
      · rcases hok.calls.heard _ he (fun h => nomatch h) hs with ⟨r, hb, -⟩ | hin
        · rw [hnone] at hb
          cases hb
        · exact hin
      · rcases hok.calls.heard _ he (fun h => nomatch h) hs with ⟨r, hb, -⟩ | hin
        · rw [hnone] at hb
          cases hb
        · exact hin
    cases hcb : (b.callback k).isSome with
    | true => exact List.count_eq_one_of_mem hok.calls.once (hheard hcb)
    | false =>
      refine List.count_eq_zero.mpr fun hk => ?_
      rw [(hcalled k hk).2] at hcb
      cases hcb
  · have := hok.counts.sum
    unfold Books.accepted
    omega
  · exact hok.counts.difference hn

/-- A job is suspended, resumed and done, its result is taken, and the next one is cancelled in
the queue. -/
def resumedActs : List (Act twoJobs) :=
  (suspendOps ++ resumeOps ++ [Op.getResult 1] ++ submitOps 0 plain ++ [Op.cancel 3]).map
    fun o => ⟨o, some 5, true, 0⟩

theorem resumedActs_end :
    let b := run Books.step (Books.init twoJobs) resumedActs
    b.accepted = 3 ∧ b.stats.preemptions = 1 ∧ b.stats.resumes = 1 ∧ (2, .done) ∈ b.endings ∧
      (4, .cancelled) ∈ b.endings ∧ b.callback 2 = some 5 ∧ b.sched.pc = .waiting := by
  decide +kernel

/-- All three submissions are accounted for. -/
theorem jobs_accounted_resumed :
    let b := run Books.step (Books.init twoJobs) resumedActs
    b.calls 2 = 1 ∧ b.calls 4 = 0 ∧
      b.delivered.countP (fun e => decide (e.1 = 1) && isResult e.2) ≤ 1 ∧
      3 = b.stats.completed.toNat + b.stats.errors.toNat + b.stats.cancelled.toNat +
        b.sched.tally JobState.active := by
  obtain ⟨haccepted, -, -, hd, hc, hcallback, hpc⟩ := resumedActs_end
  obtain ⟨-, hdelivered, hcancelled, hdone, hsum, -⟩ :=
    jobs_accounted resumedActs (by rw [haccepted]; decide)
  refine ⟨?_, hcancelled 4 hc, hdelivered 1, haccepted ▸ hsum⟩
  rw [hdone 2 (.inl hd) fun j d h => nomatch hpc.symm.trans h, hcallback]
  rfl

end SynapticOS.Infer
