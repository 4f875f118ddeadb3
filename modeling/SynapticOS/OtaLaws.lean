import SynapticOS.Ota
import SynapticOS.Store.OpsLaws

/-!
# What the OTA engine does to the store

One law for each call. `SessionOk` is the invariant of a session that accepts
chunks: the bytes received are those programmed and those buffered, and they
fit the slot, so that whatever is programmed lands in the slot of the session.
-/

namespace SynapticOS

open Lib

variable {cfg : Config} {s s' : Sys} {slot : Nat} {name data : List UInt8} {totalSize : Nat}

-- ---------------------------------------------------------------------------
-- Sessions
-- ---------------------------------------------------------------------------

/-- The bookkeeping of a session that accepts chunks. -/
structure SessionOk (cfg : Config) (o : Ota) : Prop where
  slot_lt : o.slot < cfg.lay.slotCount
  total_gt : synmHdrSize < o.totalSize
  total_le : o.totalSize ≤ cfg.lay.slotSize
  received : o.received = o.writeOff + o.pageBuf.length
  buffered : o.pageBuf.length < ioBufSize
  bound : o.received ≤ o.totalSize
  aligned : o.writeOff % ioBufSize = 0
  checked : synmHdrSize ≤ o.received →
    hdrCheck (SynmHdr.ofBytes o.hdr) o.name o.totalSize = .ok ()

theorem SessionOk.start (hs : slot < cfg.lay.slotCount) (hgt : synmHdrSize < totalSize)
    (hle : totalSize ≤ cfg.lay.slotSize) (name : List UInt8) (o : Ota) :
    SessionOk cfg (o.start slot name totalSize) where
  slot_lt := hs
  total_gt := hgt
  total_le := hle
  received := rfl
  buffered := by show 0 < ioBufSize; decide
  bound := Nat.zero_le _
  aligned := Nat.zero_mod _
  checked h := absurd h (by show ¬synmHdrSize ≤ 0; decide)

/-- What the checks on a complete header established. -/
theorem hdrCheck_ok {hdr : SynmHdr} {n : Vector UInt8 32}
    (h : hdrCheck hdr n totalSize = .ok ()) :
    hdr.magic = synmMagic ∧ hdr.version = synmVersion ∧
      hdr.modelSize.toNat = totalSize - synmHdrSize ∧ hdr.cname = n.toList.takeWhile (· ≠ 0) := by
  unfold hdrCheck at h
  split at h
  · cases h
  · split at h
    · cases h
    · split at h
      · cases h
      · rename_i h1 h2 h3
        exact ⟨not_not.mp fun h => h1 (.inl h), not_not.mp fun h => h1 (.inr h), not_not.mp h2,
          not_not.mp h3⟩

def OtaOk (cfg : Config) (o : Ota) : Prop := o.state = .downloading → SessionOk cfg o

theorem OtaOk.of_state {o : Ota} (h : o.state ≠ .downloading) : OtaOk cfg o := fun hd => absurd hd h

theorem OtaOk.zero (cfg : Config) : OtaOk cfg Ota.zero := fun h => by cases h

/-- Only the flag of the parked core differs. -/
def SameSession (o o' : Ota) : Prop := o' = { o with cpu1Parked := o'.cpu1Parked }

theorem SameSession.otaOk (h : SameSession o o') (ho : OtaOk cfg o) : OtaOk cfg o' := by
  rw [h]
  intro hd
  exact { ho hd with }

/-- The session that `syn_ota_begin` opens. -/
theorem OtaOk.begun {o o' : Ota} (h : SameSession { o.start slot name totalSize with
      state := .downloading } o') (hs : slot < cfg.lay.slotCount) (hgt : synmHdrSize < totalSize)
    (hle : totalSize ≤ cfg.lay.slotSize) : OtaOk cfg o' :=
  h.otaOk fun _ => { SessionOk.start hs hgt hle name o with }

theorem OtaOk.idle {o o' : Ota} (h : SameSession { o with state := .idle } o') : OtaOk cfg o' := by
  refine OtaOk.of_state ?_
  rw [h]
  exact fun hd => by cases hd

-- ---------------------------------------------------------------------------
-- The other core
-- ---------------------------------------------------------------------------

theorem cpu1Park_spec (s : Sys) :
    Triple (cpu1Park : Act Sys ε Unit) s
      (fun _ s' => s'.store = s.store ∧ SameSession s.ota s'.ota) (fun _ _ => False) := by
  unfold cpu1Park Sys.act Sys.modifyOta
  refine Triple.gets_bind (Triple.ite (fun _ => Triple.modify_bind (Triple.ite (fun _ => ?_)
    (fun _ => ?_))) (fun _ => ?_))
  · exact Triple.modify ⟨rfl, rfl⟩
  · exact Triple.pure' ⟨rfl, rfl⟩
  · exact Triple.pure' ⟨rfl, rfl⟩

theorem cpu1Unpark_spec (s : Sys) :
    Triple (cpu1Unpark : Act Sys ε Unit) s
      (fun _ s' => s'.store = s.store ∧ SameSession s.ota s'.ota) (fun _ _ => False) := by
  unfold cpu1Unpark Sys.act Sys.modifyOta
  refine Triple.get_bind (Triple.ite (fun _ => Triple.modify_bind (Triple.ite (fun _ => ?_)
    (fun _ => ?_))) (fun _ => ?_))
  · exact Triple.modify_bind (Triple.modify ⟨rfl, rfl⟩)
  · exact Triple.pure' ⟨rfl, rfl⟩
  · exact Triple.pure' ⟨rfl, rfl⟩

theorem drainServe_spec (s : Sys) :
    Triple drainServe s (fun _ s' => s'.store = s.store ∧ s'.ota = s.ota)
      (fun e s' => e = .refuse .ebusy ∧ s'.store = s.store ∧ s'.ota = s.ota) := by
  unfold drainServe Sys.act
  refine Triple.gets_bind (Triple.ite (fun _ => Triple.modify_bind (Triple.ite (fun _ => ?_)
    (fun _ => ?_))) (fun _ => ?_))
  · exact Triple.pure' ⟨rfl, rfl⟩
  · exact Triple.modify_bind (Triple.throw ⟨rfl, rfl, rfl⟩)
  · exact Triple.pure' ⟨rfl, rfl⟩

-- ---------------------------------------------------------------------------
-- Whole calls
-- ---------------------------------------------------------------------------

/-- A call ends as its locked section does; a failed session is put in ERROR. -/
theorem otaCall_spec {locked : OtaM Unit} {Q : Sys → Prop} {E : Exit → Sys → Prop}
    (h : Triple locked s (fun _ => Q) E) :
    Triple (otaCall locked) s (fun _ => Q)
      (fun e s' => E (.refuse e) s' ∨ s'.ota.state = .error ∧
        ∃ s₁, E (.fail e) s₁ ∧ s'.store = s₁.store) := by
  unfold otaCall
  refine Triple.attempt_bind h (fun _ _ hq => Triple.pure' hq) ?_
  intro x s₁ he
  cases x with
  | refuse e => exact Triple.throw (.inl he)
  | fail e =>
    dsimp only
    unfold enterError Sys.modifyOta
    refine Triple.bind (Triple.modify_bind (cpu1Unpark_spec _) |>.mono (fun _ _ h => h)
      fun _ _ h => h.elim) ?_
    rintro _ s₂ ⟨hst, hses⟩
    refine Triple.throw (.inr ⟨?_, s₁, he, hst⟩)
    rw [hses]

theorem orFail_spec {x : SysM α} {Q : α → Sys → Prop} {E : Errno → Sys → Prop}
    (h : Triple x s Q E) : Triple (orFail x) s Q (fun e s' => ∃ err, e = .fail err ∧ E err s') :=
  Triple.mapError (h.mono (fun _ _ h => h) fun e _ h => ⟨e, rfl, h⟩)

theorem Sys.onStore_spec {x : StoreM α} {Q : α → Store → Prop} {E : Errno → Store → Prop}
    (h : Triple x s.store Q E) :
    Triple (Sys.onStore x) s (fun a s' => Q a s'.store ∧ s' = { s with store := s'.store })
      (fun e s' => E e s'.store ∧ s' = { s with store := s'.store }) :=
  Triple.zoom (h.mono (fun _ _ hq => ⟨hq, rfl⟩) (fun _ _ he => ⟨he, rfl⟩))

/-- A frame on the flash, seen from the system. -/
theorem Sys.onFlash_within (cfg : Config) (slot : Nat) {x : FlashM α} (hx : Respects (Within (cfg.lay.slotOff slot)
      (cfg.lay.slotOff slot + cfg.lay.slotSize)) x)
    {Q : α → Flash → Prop} {E : Errno → Flash → Prop} (h : Triple x s.store.flash Q E) :
    Triple (Sys.onFlash x) s
      (fun a s' => Q a s'.store.flash ∧ Filled cfg slot s.store s'.store ∧
        s' = { s with store := s'.store })
      (fun e s' => E e s'.store.flash ∧ Filled cfg slot s.store s'.store ∧
        s' = { s with store := s'.store }) := by
  unfold Sys.onFlash
  refine (Sys.onStore_spec (Store.onFlash_spec (h.and (Triple.of_respects hx _)))).mono ?_ ?_
  all_goals
    rintro _ s' ⟨⟨⟨hq, hw⟩, hst⟩, hs⟩
    exact ⟨hq, ⟨hw, by rw [hst], by rw [hst]⟩, hs⟩

-- ---------------------------------------------------------------------------
-- Begin
-- ---------------------------------------------------------------------------

/-- What superseding a staged image can do. -/
inductive Superseded (cfg : Config) (t t' : Store) : Prop
  | same (hn : t.st.ready = true → t.st.reg.stagedSlot = slotNone) (h : t' = t)
  | cleared (hn : t.st.reg.stagedSlot ≠ slotNone) (h : CommitsTo cfg Reg.clearStaged t t')
  | kept (hn : t.st.reg.stagedSlot ≠ slotNone) (h : AbortsTo cfg Reg.clearStaged t t')

theorem Superseded.fits {t t' : Store} (h : Superseded cfg t t') (hf : t.st.reg.Fits cfg) :
    t'.st.reg.Fits cfg := by
  cases h with
  | same _ h => exact h ▸ hf
  | cleared _ h =>
    rw [h.reg]
    exact (Reg.clearStaged_fits hf).of_generation _
  | kept _ h => exact h.reg ▸ hf

theorem Superseded.later {t t' : Store} (h : Superseded cfg t t') :
    Flash.Later t.flash t'.flash := by
  cases h with
  | same _ h => exact h ▸ Std.Refl.refl _
  | cleared _ h => exact h.later
  | kept _ h => exact h.later

theorem supersede_spec (hv : layoutValid cfg) (hf : s.store.st.reg.Fits cfg) :
    Triple (supersede cfg : Act Sys ε Unit) s
      (fun _ s' => Superseded cfg s.store s'.store ∧ s' = { s with store := s'.store })
      (fun _ _ => False) := by
  unfold supersede
  refine Triple.gets_bind ?_
  split
  · rename_i hstaged
    refine Triple.attempt_bind (Sys.onStore_spec (storeClearStaged_spec hv hf)) ?_ ?_
    · rintro _ s₁ ⟨⟨hn, -⟩ | ⟨hn, h⟩, hs⟩
      · exact absurd hn hstaged.2
      · exact Triple.pure' ⟨.cleared hn h, hs⟩
    · rintro _ s₁ ⟨⟨hr, -⟩ | ⟨hn, h⟩, hs⟩
      · exact absurd hstaged.1 hr
      · exact Triple.pure' ⟨.kept hn h, hs⟩
  · rename_i hnone
    refine Triple.attempt_bind (Triple.pure' (Q := fun _ s' => s' = s) (E := fun _ _ => False) rfl)
      ?_ (fun _ _ h => h.elim)
    rintro _ s₁ rfl
    exact Triple.pure' ⟨.same (fun hr => by_contra fun hn => hnone ⟨hr, hn⟩) rfl, rfl⟩

theorem beginPrepare_spec (hv : layoutValid cfg) (hf : s.store.st.reg.Fits cfg)
    (name : List UInt8) (totalSize : Nat) :
    Triple (beginPrepare cfg name totalSize) s
      (fun slot s' => slot = stagingSlot cfg s.store.st.reg ∧ totalSize ≤ cfg.lay.slotSize ∧
        Superseded cfg s.store s'.store ∧ SameSession (s.ota.start slot name totalSize) s'.ota)
      (fun e s' => (∃ err, e = .refuse err) ∧ s'.store = s.store ∧ s'.ota = s.ota) := by
  unfold beginPrepare
  refine Triple.get_bind ?_
  dsimp only
  refine Triple.ite (fun _ => Triple.throw ⟨⟨_, rfl⟩, rfl, rfl⟩) (fun hle => ?_)
  refine Triple.bind ((drainServe_spec s).mono (fun _ _ h => h) fun _ _ h => ⟨⟨_, h.1⟩, h.2⟩) ?_
  rintro _ s₁ ⟨hst, hota⟩
  refine Triple.bind ((supersede_spec hv (hst ▸ hf)).mono (fun _ _ h => h) fun _ _ h => h.elim) ?_
  rintro _ s₂ ⟨hsup, hs₂⟩
  refine Triple.modify_bind ?_
  refine Triple.bind ((cpu1Park_spec _).mono (fun _ _ h => h) fun _ _ h => h.elim) ?_
  rintro _ s₃ ⟨hst₃, hses⟩
  have hota₂ : s₂.ota = s.ota := by rw [hs₂]; exact hota
  refine Triple.pure' ⟨rfl, by omega, ?_, ?_⟩
  · rw [hst₃]
    exact hst ▸ hsup
  · exact hota₂ ▸ hses

theorem beginErase_spec (hv : layoutValid cfg) (hf : s.store.st.reg.Fits cfg) (slot : Nat)
    (hle : totalSize ≤ cfg.lay.slotSize) :
    Triple (beginErase cfg slot totalSize) s
      (fun _ s' => ∃ t, Freed cfg slot s.store t ∧ Filled cfg slot t s'.store ∧
        Erased s'.store.flash.mem (cfg.lay.slotOff slot)
          (cfg.lay.slotOff slot + roundUp totalSize cfg.port.sectorSize) ∧
        s'.ota = { s.ota with state := .downloading })
      (fun e s' => (∃ err, e = .fail err) ∧ (NotFreed cfg slot s.store s'.store ∨
        ∃ t, Freed cfg slot s.store t ∧ Filled cfg slot t s'.store)) := by
  unfold beginErase
  refine Triple.bind (orFail_spec (Sys.onStore_spec (storeBeginStaging_spec hv hf slot)) |>.mono
    (fun _ _ h => h) ?_) ?_
  · rintro _ s₁ ⟨err, rfl, hn, -⟩
    exact ⟨⟨err, rfl⟩, .inl hn⟩
  rintro _ s₁ ⟨hfreed, hs₁⟩
  have hround := roundUp_le (Nat.dvd_of_mod_eq_zero hv.slotSize_aligned) hle cfg.port.sector_pos
  refine Triple.bind (orFail_spec (Sys.onFlash_within cfg slot
    (within_eraseSectors cfg.port (Nat.le_refl _) (Nat.add_le_add_left hround _))
    (Flash.eraseSectors_spec cfg.port _ _ _)) |>.mono (fun _ _ h => h) ?_) ?_
  · rintro _ s₂ ⟨err, rfl, -, hfill, -⟩
    exact ⟨⟨err, rfl⟩, .inr ⟨_, hfreed, hfill⟩⟩
  rintro _ s₂ ⟨⟨-, he, -⟩, hfill, hs₂⟩
  refine Triple.modify ⟨_, hfreed, hfill, he, ?_⟩
  rw [hs₂, hs₁]

/-- The way of the store to an open session in `slot`. -/
def Begins (cfg : Config) (slot totalSize : Nat) (t t' : Store) : Prop :=
  ∃ t₁ t₂, Superseded cfg t t₁ ∧ Freed cfg slot t₁ t₂ ∧ Filled cfg slot t₂ t' ∧
    Erased t'.flash.mem (cfg.lay.slotOff slot)
      (cfg.lay.slotOff slot + roundUp totalSize cfg.port.sectorSize)

/-- The ways of the store to a session that failed before it was open. -/
def BeginFails (cfg : Config) (slot : Nat) (t t' : Store) : Prop :=
  ∃ t₁, Superseded cfg t t₁ ∧
    (NotFreed cfg slot t₁ t' ∨ ∃ t₂, Freed cfg slot t₁ t₂ ∧ Filled cfg slot t₂ t')

theorem beginLocked_spec (hv : layoutValid cfg) (hf : s.store.st.reg.Fits cfg)
    (name : List UInt8) (totalSize : Nat) :
    Triple (beginLocked cfg name totalSize) s
      (fun _ s' => totalSize ≤ cfg.lay.slotSize ∧
        Begins cfg (stagingSlot cfg s.store.st.reg) totalSize s.store s'.store ∧
        SameSession { s.ota.start (stagingSlot cfg s.store.st.reg) name totalSize with
          state := .downloading } s'.ota)
      (fun e s' => (∃ err, e = .refuse err) ∧ s'.store = s.store ∧ s'.ota = s.ota ∨
        (∃ err, e = .fail err) ∧
          BeginFails cfg (stagingSlot cfg s.store.st.reg) s.store s'.store) := by
  unfold beginLocked
  refine Triple.bind ((beginPrepare_spec hv hf name totalSize).mono (fun _ _ h => h)
    fun _ _ h => .inl h) ?_
  rintro _ s₁ ⟨rfl, hle, hsup, hses⟩
  refine (beginErase_spec hv (hsup.fits hf) _ hle).mono ?_ ?_
  · rintro _ s' ⟨t, hfr, hfi, he, hota⟩
    refine ⟨hle, ⟨s₁.store, t, hsup, hfr, hfi, he⟩, ?_⟩
    rw [hota, hses]
    rfl
  · rintro _ s' ⟨he, h⟩
    exact .inr ⟨he, s₁.store, hsup, h⟩

/-- A session begins in the freed and erased staging slot; a refusal changes
nothing; any other failure leaves the session in ERROR. -/
theorem otaBegin_spec (hv : layoutValid cfg) (hf : s.store.st.reg.Fits cfg) (name : List UInt8)
    (totalSize : Nat) :
    Triple (otaBegin cfg name totalSize) s
      (fun _ s' => (s.store.st.ready = true ∧ synmHdrSize < totalSize ∧ totalSize ≤ cfg.lay.slotSize) ∧
        Begins cfg (stagingSlot cfg s.store.st.reg) totalSize s.store s'.store ∧
        SameSession { s.ota.start (stagingSlot cfg s.store.st.reg) name totalSize with
          state := .downloading } s'.ota)
      (fun _ s' => (s'.store = s.store ∧ s'.ota = s.ota) ∨ s'.ota.state = .error ∧
        BeginFails cfg (stagingSlot cfg s.store.st.reg) s.store s'.store) := by
  unfold otaBegin
  refine Triple.get_bind ?_
  refine Triple.ite (fun _ => Triple.throw (.inl ⟨rfl, rfl⟩)) (fun hn => ?_)
  refine Triple.ite (fun _ => Triple.throw (.inl ⟨rfl, rfl⟩)) (fun hr => ?_)
  have hgt : synmHdrSize < totalSize := by omega
  refine (otaCall_spec (beginLocked_spec hv hf name totalSize)).mono
    (fun _ _ h => ⟨⟨not_not.mp hr, hgt, h.1⟩, h.2⟩) ?_
  rintro e s' ((⟨-, h⟩ | ⟨⟨err, he⟩, -⟩) | ⟨hst, s₁, (⟨⟨err, he⟩, -⟩ | ⟨-, h⟩), hs'⟩)
  · exact .inl h
  · cases he
  · cases he
  · exact .inr ⟨hst, hs' ▸ h⟩

-- ---------------------------------------------------------------------------
-- Activate and roll back
-- ---------------------------------------------------------------------------

/-- The target becomes active; a failure in the store ends the session. -/
theorem otaActivate_spec (hv : layoutValid cfg) (hf : s.store.st.reg.Fits cfg) :
    Triple (otaActivate cfg) s
      (fun _ s' => ∃ slot, activateTarget s = some slot ∧
        ((s.store.st.reg.occupied slot ∧ slot ≠ s.store.st.reg.activeSlot) ∧
          Committed cfg ((Reg.activate slot).apply s.store.st.reg) s.store s'.store ∧
          Switches cfg slot s.store s'.store) ∧
        SameSession { s.ota with state := .idle } s'.ota)
      (fun _ s' => (activateTarget s = none ∧ s' = s) ∨ s'.ota.state = .error ∧
        ∃ slot, activateTarget s = some slot ∧
          (SameDisk s.store s'.store ∨
            (s.store.st.reg.occupied slot ∧ slot ≠ s.store.st.reg.activeSlot) ∧
              Aborted cfg ((Reg.activate slot).apply s.store.st.reg) s.store s'.store) ∧
          Models.SameCat s.store.models s'.store.models) := by
  have hlocked : Triple (otaActivateLocked cfg) s
      (fun _ s' => ∃ slot, activateTarget s = some slot ∧
        ((s.store.st.reg.occupied slot ∧ slot ≠ s.store.st.reg.activeSlot) ∧
          Committed cfg ((Reg.activate slot).apply s.store.st.reg) s.store s'.store ∧
          Switches cfg slot s.store s'.store) ∧
        SameSession { s.ota with state := .idle } s'.ota)
      (fun e s' => (e = .refuse .eperm ∧ activateTarget s = none ∧ s' = s) ∨ (∃ err, e = .fail err) ∧
        ∃ slot, activateTarget s = some slot ∧
          (SameDisk s.store s'.store ∨
            (s.store.st.reg.occupied slot ∧ slot ≠ s.store.st.reg.activeSlot) ∧
              Aborted cfg ((Reg.activate slot).apply s.store.st.reg) s.store s'.store) ∧
          Models.SameCat s.store.models s'.store.models) := by
    unfold otaActivateLocked
    refine Triple.get_bind ?_
    split
    next hn => exact Triple.throw (.inl ⟨rfl, hn, rfl⟩)
    next slot hs =>
      refine Triple.bind (orFail_spec (Sys.onStore_spec (storeActivate_spec hv hf slot)) |>.mono
        (fun _ _ h => h) ?_) ?_
      · rintro _ s₁ ⟨err, rfl, h, -⟩
        exact .inr ⟨⟨err, rfl⟩, slot, hs, h⟩
      · rintro _ s₁ ⟨h, hs₁⟩
        refine Triple.modify_bind ?_
        refine (cpu1Unpark_spec _).mono ?_ (fun _ _ h => h.elim)
        rintro _ s₂ ⟨hst, hses⟩
        refine ⟨slot, hs, hst ▸ h, ?_⟩
        have : s₁.ota = s.ota := by rw [hs₁]
        exact this ▸ hses
  refine (otaCall_spec hlocked).mono (fun _ _ h => h) ?_
  rintro e s' ((⟨-, h⟩ | ⟨⟨err, he⟩, -⟩) | ⟨hst, s₁, (⟨he, -⟩ | ⟨-, h⟩), hs'⟩)
  · exact .inl h
  · cases he
  · cases he
  · exact .inr ⟨hst, hs' ▸ h⟩

/-- A session in progress refuses a rollback; a rollback that fails leaves the
session alone. -/
theorem otaRollback_spec (hv : layoutValid cfg) (hf : s.store.st.reg.Fits cfg) :
    Triple (otaRollback cfg) s
      (fun _ s' => s.ota.state ≠ .downloading ∧ (∃ prev,
        rollbackTarget cfg s.store.st.reg = some prev ∧
          Committed cfg ((Reg.rollback prev).apply s.store.st.reg) s.store s'.store ∧
          Switches cfg prev s.store s'.store) ∧
        SameSession { s.ota with state := .idle } s'.ota)
      (fun _ s' => s'.ota = s.ota ∧ (SameDisk s.store s'.store ∨ ∃ prev,
          rollbackTarget cfg s.store.st.reg = some prev ∧
          Aborted cfg ((Reg.rollback prev).apply s.store.st.reg) s.store s'.store) ∧
        Models.SameCat s.store.models s'.store.models) := by
  have hlocked : Triple (otaRollbackLocked cfg) s
      (fun _ s' => s.ota.state ≠ .downloading ∧ (∃ prev,
        rollbackTarget cfg s.store.st.reg = some prev ∧
          Committed cfg ((Reg.rollback prev).apply s.store.st.reg) s.store s'.store ∧
          Switches cfg prev s.store s'.store) ∧
        SameSession { s.ota with state := .idle } s'.ota)
      (fun e s' => (∃ err, e = .refuse err) ∧ s'.ota = s.ota ∧ (SameDisk s.store s'.store ∨ ∃ prev,
          rollbackTarget cfg s.store.st.reg = some prev ∧
          Aborted cfg ((Reg.rollback prev).apply s.store.st.reg) s.store s'.store) ∧
        Models.SameCat s.store.models s'.store.models) := by
    unfold otaRollbackLocked
    refine Triple.gets_bind ?_
    refine Triple.ite (fun _ => Triple.throw ⟨⟨_, rfl⟩, rfl, .inl (Std.Refl.refl _), Std.Refl.refl _⟩)
      (fun hn => ?_)
    refine Triple.bind (Triple.mapError ((Sys.onStore_spec (storeRollback_spec hv hf)).mono
      (fun _ _ h => h) ?_)) ?_
    · rintro e s₁ ⟨h, hs₁⟩
      exact ⟨⟨_, rfl⟩, by rw [hs₁], h⟩
    · rintro _ s₁ ⟨h, hs₁⟩
      refine Triple.modify_bind ?_
      refine (cpu1Unpark_spec _).mono ?_ (fun _ _ h => h.elim)
      rintro _ s₂ ⟨hst, hses⟩
      have : s₁.ota = s.ota := by rw [hs₁]
      exact ⟨fun hd => hn (.inl hd), hst ▸ h, this ▸ hses⟩
  refine (otaCall_spec hlocked).mono (fun _ _ h => h) ?_
  rintro e s' (⟨-, h⟩ | ⟨-, s₁, ⟨⟨err, he⟩, -⟩, -⟩)
  · exact h
  · cases he

end SynapticOS
