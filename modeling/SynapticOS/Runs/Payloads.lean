import SynapticOS.Runs.Keeps
import SynapticOS.Store.RecordLaws

/-!
# Payloads along a run

Every registry that a boot might adopt describes complete payloads, and the
slot of an open session is free in all of them. A failed commit can leave a
registry ahead of the adopted one; the invariant lasts as long as no slot is
erased that such a registry occupies.
-/

namespace SynapticOS

open Lib

variable {cfg : Config} {o o' : Ota} {s s' : Store} {r : Reg} {slot : Nat} {u : RegUpdate}

-- ---------------------------------------------------------------------------
-- The invariant
-- ---------------------------------------------------------------------------

/-- The slot is free in every registry that a boot might adopt. -/
abbrev FreeSlot (cfg : Config) (slot : Nat) (s : Store) : Prop :=
  Guarded cfg (fun r => ¬r.occupied slot) s

structure Live (cfg : Config) (o : Ota) (s : Store) : Prop where
  sync : Sync cfg s
  payload : Guarded cfg (RegOk cfg s.flash.mem) s
  session : o.state = .downloading → FreeSlot cfg o.slot s

/-- The invariant under the assumption on torn images. -/
structure LiveInv (cfg : Config) (o : Ota) (s : Store) : Prop where
  ready : s.st.ready = true
  fits : s.st.reg.Fits cfg
  live : TornRejected cfg s.flash.trace → Live cfg o s

def Fillable (cfg : Config) (slot : Nat) (s : Store) : Prop :=
  TornRejected cfg s.flash.trace → FreeSlot cfg slot s

/-- The change describes complete payloads and leaves the open session alone. -/
def Sound (cfg : Config) (u : RegUpdate) (o : Ota) (s : Store) : Prop :=
  s.st.reg.Bounded ∧ (TornRejected cfg s.flash.trace →
    RegOk cfg s.flash.mem (u.apply s.st.reg) ∧
      (o.state = .downloading → ¬(u.apply s.st.reg).occupied o.slot))

namespace LiveInv

theorem ram (h : LiveInv cfg o s) (hd : SameDisk s s') : LiveInv cfg o s' := by
  obtain ⟨fl, st, m⟩ := s'
  obtain ⟨rfl, rfl⟩ := hd
  refine ⟨h.ready, h.fits, fun ht => ?_⟩
  have hl := h.live ht
  exact ⟨hl.sync.of_same rfl rfl, hl.payload.of_same rfl rfl, fun hs => (hl.session hs).of_same rfl rfl⟩

theorem fill (h : LiveInv cfg o s) (hv : layoutValid cfg) (hs : slot < cfg.lay.slotCount)
    (hfree : Fillable cfg slot s) (hf : Filled cfg slot s s') :
    LiveInv cfg o s' ∧ Fillable cfg slot s' := by
  have hc := hf.copies hv hs
  have hprefix := hf.within.later.trace
  refine ⟨⟨by rw [hf.st]; exact h.ready, by rw [hf.st]; exact h.fits, fun ht => ?_⟩,
    fun ht => (hfree (ht.earlier hprefix)).of_same hc hf.st⟩
  have hl := h.live (ht.earlier hprefix)
  have hpay : Guarded cfg (RegOk cfg s'.flash.mem) s :=
    (hl.payload.and (hfree (ht.earlier hprefix))).mono fun x hx => hx.1.filled hv hs hx.2 hf
  exact ⟨hl.sync.of_same hc hf.st, hpay.of_same hc hf.st, fun hd => (hl.session hd).of_same hc hf.st⟩

theorem commit (h : LiveInv cfg o s) (hv : layoutValid cfg) (hf : (u.apply s.st.reg).Fits cfg)
    (hu : Sound cfg u o s) (hc : Committed cfg (u.apply s.st.reg) s s') : LiveInv cfg o s' := by
  refine ⟨hc.ready.trans h.ready, hc.reg ▸ hf.of_generation _, fun ht => ?_⟩
  have ht₀ := ht.earlier hc.later.trace
  have hl := h.live ht₀
  obtain ⟨hreg, hses⟩ := hu.2 ht₀
  refine ⟨hc.sync hv hl.sync hf hu.1, hc.guarded hv hl.sync hu.1 ?_, fun hd =>
    hc.guarded hv hl.sync hu.1 ?_⟩
  · rw [hc.reg]
    exact (hreg.commitFrame hv hc.toCommitFrame).of_generation _
  · rw [hc.reg]
    exact hses hd

theorem abort (h : LiveInv cfg o s) (hv : layoutValid cfg) (hf : (u.apply s.st.reg).Fits cfg)
    (hu : Sound cfg u o s) (hc : Aborted cfg (u.apply s.st.reg) s s') : LiveInv cfg o s' := by
  refine ⟨hc.ready.trans h.ready, hc.reg ▸ h.fits, fun ht => ?_⟩
  have ht₀ := ht.earlier hc.later.trace
  have hl := h.live ht₀
  obtain ⟨hreg, hses⟩ := hu.2 ht₀
  have hpay : Guarded cfg (RegOk cfg s'.flash.mem) s :=
    hl.payload.mono fun x hx => hx.commitFrame hv hc.toCommitFrame
  exact ⟨hc.sync hv hl.sync hf hu.1 ht,
    hc.guarded hv hf ht hpay ((hreg.commitFrame hv hc.toCommitFrame).of_generation _),
    fun hd => hc.guarded hv hf ht (hl.session hd) (hses hd)⟩

end LiveInv

theorem liveInv_keeps (hv : layoutValid cfg) :
    Keeps cfg (LiveInv cfg) (Fillable cfg) (Sound cfg) where
  fits h := h.fits
  ram h hd := h.ram hd
  fill h hs hfree hf := h.fill hv hs hfree hf
  commit h hf hu hc := h.commit hv hf hu hc
  abort h hf hu hc := h.abort hv hf hu hc
  session h hd ht := (h.live ht).session hd
  close h hn := ⟨h.ready, h.fits, fun ht =>
    ⟨(h.live ht).sync, (h.live ht).payload, fun hd => absurd hd hn⟩⟩
  start h hfree := ⟨h.ready, h.fits, fun ht =>
    ⟨(h.live ht).sync, (h.live ht).payload, fun _ => hfree ht⟩⟩

-- ---------------------------------------------------------------------------
-- Safe calls
-- ---------------------------------------------------------------------------

/-- No failed commit has left a registry one generation ahead that occupies the
slot. -/
def FreeAhead (cfg : Config) (slot : Nat) (s : Store) : Prop :=
  ∀ x, copies cfg s s.st.target = some x → x.seqNo = s.st.reg.seqNo + 1 → ¬x.occupied slot

/-- There is room for `n` more generations. -/
def Room (n : Nat) (s : Store) : Prop := s.st.reg.seqNo + n < 2 ^ 32

theorem Sync.freeSlot (h : Sync cfg s) (hn : ¬s.st.reg.occupied slot) (ha : FreeAhead cfg slot s) :
    FreeSlot cfg slot s := Guards.of_tracks h.tracks hn ha

/-- A slot that `syn_store_begin_staging` has freed is free on the flash, unless
it was free already and a failed commit is ahead. -/
theorem Freed.freeSlot (hv : layoutValid cfg) (h : Freed cfg slot s s') (hs : Sync cfg s)
    (hb : s.st.reg.Bounded) (ha : ¬s.st.reg.occupied slot → FreeSlot cfg slot s) :
    FreeSlot cfg slot s' := by
  rcases h with ⟨hn, -, -, rfl⟩ | ⟨-, -, hc⟩
  · exact ha hn
  · refine hc.guarded hv hs hb ?_
    rw [hc.reg]
    exact fun ho => (Reg.occupied_evict.mp ho).2 rfl

theorem Freed.seqNo_le (h : Freed cfg slot s s') (hb : s.st.reg.Bounded) :
    s'.st.reg.seqNo ≤ s.st.reg.seqNo + 1 := by
  rcases h with ⟨-, -, -, rfl⟩ | ⟨-, -, hc⟩
  · omega
  · rw [hc.reg]
    exact Nat.le_of_eq hb.seqNo_succ

theorem Superseded.seqNo_le (h : Superseded cfg s s') (hb : s.st.reg.Bounded) :
    s'.st.reg.seqNo ≤ s.st.reg.seqNo + 1 := by
  cases h with
  | same _ h => rw [h]; omega
  | cleared _ h => rw [h.reg]; exact Nat.le_of_eq hb.seqNo_succ
  | kept _ h => rw [h.reg]; omega

/-- After superseding, a slot that is free in the adopted state is free on the
flash: the commit overwrote what a failed one had left ahead. -/
theorem Superseded.freeSlot (hv : layoutValid cfg) (h : Superseded cfg s s') (hs : Sync cfg s)
    (hb : s.st.reg.Bounded) (hr : s.st.ready = true) (ht : TornRejected cfg s'.flash.trace)
    (ha : ¬s.st.reg.occupied slot → FreeAhead cfg slot s ∨
      s.st.reg.stagedSlot ≠ slotNone ∧ Flash.Healthy s.flash)
    (hn : ¬s'.st.reg.occupied slot) : FreeSlot cfg slot s' := by
  cases h with
  | same hnone h =>
    subst h
    rcases ha hn with ha | ⟨hne, -⟩
    · exact hs.freeSlot hn ha
    · exact absurd (hnone hr) hne
  | cleared _ h => exact h.toCommitted.guarded hv hs hb hn
  | kept _ h =>
    rw [h.reg] at hn
    rcases ha hn with ha | ⟨-, hh⟩
    · refine h.toAborted.guarded hv (Reg.clearStaged_fits hs.fits) ht (hs.freeSlot hn ha) ?_
      exact fun ho => hn (Reg.occupied_clearStaged.mp ho).1
    · exact absurd hh fun hh => h.toAborted.not_healthy hh

/-- The calls that keep the payloads, by the state they start from. A record
that is staged by hand describes what its caller says. -/
def SafeCall (cfg : Config) (s : Sys) : Op → Prop
  | .boot => Flash.CutOnly s.store.flash
  | .install _ _ =>
    let slot := stagingSlot cfg s.store.st.reg
    Room 2 s.store ∧ (s.ota.state = .downloading → s.ota.slot ≠ slot) ∧
      (¬s.store.st.reg.occupied slot → FreeAhead cfg slot s.store)
  | .otaBegin _ _ =>
    let slot := stagingSlot cfg s.store.st.reg
    Room 2 s.store ∧ (¬s.store.st.reg.occupied slot → FreeAhead cfg slot s.store ∨
      s.store.st.reg.stagedSlot ≠ slotNone ∧ Flash.Healthy s.store.flash)
  | .markStaged _ _ => False
  | .otaWriteChunk _ => True
  | _ => Room 1 s.store

def SafeStep (cfg : Config) (s : Sys) (x : Env × Op) : Prop := SafeCall cfg (x.2.prepare x.1 s) x.2

theorem copies_accepts {r : Reg} (h : copies cfg s c = some r) :
    (StoreHdr.ofBytes (s.flash.mem.read (cfg.lay.registryOff c) hdrSize)).accepts cfg := by
  obtain ⟨x, hx, -⟩ := Option.map_eq_some_iff.mp h
  unfold copyView at hx
  dsimp only at hx
  split at hx
  · rename_i hc
    exact hc.2.1
  · cases hx

-- The header of an erased copy tells at once; `copyReg` looks at its whole page first.
instance (cfg : Config) (slot : Nat) (s : Store) : Decidable (FreeAhead cfg slot s) :=
  decidable_of_iff (¬(StoreHdr.ofBytes (s.flash.mem.read
      (cfg.lay.registryOff s.st.target) hdrSize)).accepts cfg ∨
    ((copies cfg s s.st.target).all fun x =>
      decide (x.seqNo = s.st.reg.seqNo + 1 → ¬x.occupied slot)) = true) (by
    rw [Option.all_eq_true]
    constructor
    · rintro (hn | hall) x hx
      · exact absurd (copies_accepts hx) hn
      · exact of_decide_eq_true (hall x hx)
    · exact fun h => .inr fun x hx => decide_eq_true (h x hx))

instance (n : Nat) (s : Store) : Decidable (Room n s) := by unfold Room; infer_instance

instance (cfg : Config) (s : Sys) (op : Op) : Decidable (SafeCall cfg s op) := by
  unfold SafeCall
  cases op <;> dsimp only <;> infer_instance

instance (cfg : Config) (s : Sys) (x : Env × Op) : Decidable (SafeStep cfg s x) := by
  unfold SafeStep; infer_instance

theorem Room.bounded (h : Room n s) (hn : 1 ≤ n) : s.st.reg.Bounded := by
  unfold Room at h
  unfold Reg.Bounded
  omega

/-- The changes that occupy no new slot are sound. -/
theorem LiveInv.sound_of_subset (h : LiveInv cfg o s) (hb : s.st.reg.Bounded)
    (ho : ∀ i, (u.apply s.st.reg).occupied i → s.st.reg.occupied i)
    (hrec : (u.apply s.st.reg).record = s.st.reg.record) : Sound cfg u o s :=
  ⟨hb, fun ht => ⟨(h.live ht).payload.base.of_subset ho hrec,
    fun hd hi => ((h.live ht).session hd).base (ho _ hi)⟩⟩

theorem LiveInv.sound_evict (h : LiveInv cfg o s) (hb : s.st.reg.Bounded) (slot : Nat) :
    Sound cfg (Reg.evict slot) o s :=
  h.sound_of_subset hb (fun _ hi => (Reg.occupied_evict.mp hi).1) rfl

theorem LiveInv.sound_clearStaged (h : LiveInv cfg o s) (hb : s.st.reg.Bounded) :
    Sound cfg Reg.clearStaged o s :=
  h.sound_of_subset hb (fun _ hi => (Reg.occupied_clearStaged.mp hi).1) rfl

theorem SafeCall.permits {s : Sys} {op : Op} (hv : layoutValid cfg) (h : Holds cfg (LiveInv cfg) s)
    (hsafe : SafeCall cfg s op) : Permits cfg (LiveInv cfg) (Fillable cfg) (Sound cfg) s op := by
  have hact : Room 1 s.store → ∀ slot, Keeps.CanActivate slot s.store →
      Sound cfg (Reg.activate slot) s.ota s.store := fun hr slot _ =>
    h.store.sound_of_subset (hr.bounded (Nat.le_refl 1)) (fun _ hi => hi) rfl
  have hback : Room 1 s.store → ∀ prev, rollbackTarget cfg s.store.st.reg = some prev →
      Sound cfg (Reg.rollback prev) s.ota s.store := fun hr prev _ =>
    h.store.sound_of_subset (hr.bounded (Nat.le_refl 1)) (fun _ hi => hi) rfl
  cases op with
  | boot => trivial
  | install info data =>
    obtain ⟨hroom, hne, hahead⟩ := hsafe
    have hb := hroom.bounded (by decide)
    intro hi
    refine ⟨fun _ => h.store.sound_evict hb _, fun t hf ht htorn => ?_, fun t t' hp ht' _ => ?_⟩
    · have hl := h.store.live (htorn.earlier hf.later.trace)
      exact hf.freeSlot hv hl.sync hb fun hn => hl.sync.freeSlot hn (hahead hn)
    · have hseq := hp.freed.seqNo_le hb
      have hst := hp.filled.st
      refine ⟨?_, fun htorn => ?_⟩
      · rw [hst]
        unfold Room at hroom
        unfold Reg.Bounded
        omega
      · have hl := ht'.live htorn
        have hs := hp.freed.lt
        refine ⟨hl.payload.base.install hv hs (recordOk_install hv hs hi.fits hp.crc), ?_⟩
        intro hd ho
        rcases (Reg.occupied_install (Nat.lt_of_lt_of_le hs hv.count_le)).mp ho with ho | ho
        · exact (hl.session hd).base ho
        · exact hne hd ho
  | beginStaging slot => exact fun _ => h.store.sound_evict (hsafe.bounded (Nat.le_refl 1)) slot
  | markStaged slot info => exact hsafe.elim
  | activate slot => exact hact hsafe slot
  | rollback => exact hback hsafe
  | clearStaged => exact fun _ => h.store.sound_clearStaged (hsafe.bounded (Nat.le_refl 1))
  | otaBegin name total =>
    obtain ⟨hroom, hahead⟩ := hsafe
    have hb := hroom.bounded (by decide)
    have hbt : ∀ t, Superseded cfg s.store t → t.st.reg.Bounded := by
      intro t hsup
      have := hsup.seqNo_le hb
      unfold Room at hroom
      unfold Reg.Bounded
      omega
    refine ⟨fun _ => h.store.sound_clearStaged hb, fun t hsup ht _ => ht.sound_evict (hbt t hsup) _,
      fun t t' hsup ht hf ht' htorn => ?_⟩
    have htorn₁ := htorn.earlier hf.later.trace
    have htorn₀ := htorn₁.earlier hsup.later.trace
    have hl := h.store.live htorn₀
    refine hf.freeSlot hv (ht.live htorn₁).sync (hbt t hsup) fun hn => ?_
    exact hsup.freeSlot hv hl.sync hb h.store.ready htorn₁ hahead hn
  | otaWriteChunk data => trivial
  | otaFinish =>
    intro t hf hok _ ht _
    have hses := h.ota hf.state
    have hs := hses.slot_lt
    have hst := hf.filled.st
    refine ⟨by rw [hst]; exact hsafe.bounded (Nat.le_refl 1), fun htorn => ?_⟩
    refine ⟨(ht.live htorn).payload.base.markStaged hv hs ⟨?_, hok⟩, fun hd => by cases hd⟩
    have htotal := hses.total_le
    have hgt := hses.total_gt
    have hsize : (otaRecord cfg s.ota).flashSize.toNat = s.ota.totalSize - synmHdrSize :=
      (hdrCheck_ok (hses.checked (by have := hf.complete; omega))).2.2.1
    omega
  | otaActivate => exact fun slot _ => hact hsafe slot
  | otaRollback => exact hback hsafe

-- ---------------------------------------------------------------------------
-- Steps and runs
-- ---------------------------------------------------------------------------

/-- What a boot finds is in order. -/
structure FlashOk (cfg : Config) (m : Mem) : Prop where
  gens : GensDiffer cfg m
  payload : ∀ c r, adopt Reg.seqNo (copyReg cfg m) = some (c, r) → RegOk cfg m r

theorem Live.flashOk (h : Live cfg o s) : FlashOk cfg s.flash.mem where
  gens := h.sync.gensDiffer
  payload _ _ ha := h.payload.adopt h.sync.tracks ha

/-- A store that has adopted the newest registry of a flash in order is live. -/
theorem Adopted.live (h : Adopted cfg s.flash.mem s.st) (hf : FlashOk cfg s.flash.mem)
    (hn : o.state ≠ .downloading) : Live cfg o s where
  sync := h.sync hf.gens
  payload := by
    cases ha : adopt Reg.seqNo (copies cfg s) with
    | none =>
      have hr : s.st.reg = Reg.empty := by rw [h.reg, ha]; rfl
      exact Guards.of_empty (adopt_none ha) (hr ▸ RegOk.empty cfg _)
    | some x =>
      obtain ⟨c, r⟩ := x
      have hr : s.st.reg = r := by rw [h.reg, ha]; rfl
      rw [Guarded, hr]
      exact Guards.of_adopt ha (fun b hb => hf.gens.ne (adopt_some ha).1 hb) (hf.payload c r ha)
  session hd := absurd hd hn

theorem FromHeader.fits (h : FromHeader cfg m r) : r.Fits cfg := by
  rcases h with rfl | ⟨c, hdr, record, hview, rfl⟩
  · exact Reg.empty_fits
  · exact copyView_fits hview record

/-- The flash is in order, and a powered system is live over it. -/
structure Sane (cfg : Config) (s : Sys) : Prop where
  flash : TornRejected cfg s.store.flash.trace → FlashOk cfg s.store.flash.mem
  live : s.store.flash.powered = true → Holds cfg (LiveInv cfg) s

theorem Sane.of_holds {s : Sys} (h : Holds cfg (LiveInv cfg) s) : Sane cfg s :=
  ⟨fun ht => (h.store.live ht).flashOk, fun _ => h⟩

/-- A boot comes up over a flash in order. -/
theorem Booted.sane {s : Sys} {t : Store} (hb : Booted cfg s.store t)
    (hcut : Flash.CutOnly s.store.flash)
    (hf : TornRejected cfg s.store.flash.trace → FlashOk cfg s.store.flash.mem) :
    Sane cfg { s with store := t, ota := Ota.zero } where
  flash ht := by
    show FlashOk cfg t.flash.mem
    rw [hb.mem]
    exact hf (ht.earlier hb.later.trace)
  live hp := by
    refine ⟨⟨hb.ready, hb.header.fits, fun ht => ?_⟩, OtaOk.zero cfg⟩
    have hok := hf (ht.earlier hb.later.trace)
    rw [← hb.mem] at hok
    exact (hb.mem ▸ hb.adopted hcut hp : Adopted cfg t.flash.mem t.st).live hok fun hd => by cases hd

/-- A safe step keeps the flash in order. -/
theorem sane_step {s : Sys} {x : Env × Op} (hv : layoutValid cfg) (h : Sane cfg s)
    (hsafe : SafeStep cfg s x) : Sane cfg (sysStep cfg s x) := by
  refine sysStep_ends (fun hboot => ?_) (fun hop hp => ?_) (fun _ => h)
  · have hcut : Flash.CutOnly (s.restart x.1).store.flash := by
      have := hsafe
      rw [SafeStep, hboot] at this
      exact this
    refine Ends.zoom (Ends.of_triple (storeInit_spec hv rfl) ?_ ?_)
    · exact fun _ t hb => Booted.sane (s := s.restart x.1) hb hcut h.flash
    · exact fun _ t hb => Booted.sane (s := s.restart x.1) hb hcut h.flash
  · have hl := h.live hp
    have henter : Holds cfg (LiveInv cfg) (s.enter x.1) :=
      ⟨⟨hl.store.ready, hl.store.fits, fun ht => by
        have hlive := hl.store.live ht
        exact ⟨hlive.sync.of_same rfl rfl, hlive.payload.of_same rfl rfl,
          fun hd => (hlive.session hd).of_same rfl rfl⟩⟩, hl.ota⟩
    have hcall : SafeCall cfg (s.enter x.1) x.2 := by
      have := hsafe
      obtain ⟨env, op⟩ := x
      cases op <;> first | exact absurd rfl hop | exact this
    exact ((liveInv_keeps hv).exec hv henter hop (hcall.permits hv henter)).mono
      fun _ ht => Sane.of_holds ht

theorem flashOk_erased (cfg : Config) : FlashOk cfg erasedMem where
  gens a b ha _ := absurd ((copyReg_erased cfg .zero).symm.trans ha) (by simp)
  payload c r ha := absurd ((copyReg_erased cfg c).symm.trans (adopt_some ha).1) (by simp)

theorem sane_run {l : List (Env × Op)} (hv : layoutValid cfg)
    (hl : Along (sysStep cfg) (SafeStep cfg) (Sys.cold erasedMem) l) :
    Sane cfg (run (sysStep cfg) (Sys.cold erasedMem) l) :=
  hl.invariant ⟨fun _ => flashOk_erased cfg, fun hp => by cases hp⟩ fun _ _ h hs => sane_step hv h hs

/-- A session replaces the first of two models; power is lost in the commit that
activates the update. -/
def cutUpdate : List (Env × Op) :=
  twoModels ++ [(quiet, .otaBegin [67] 66), (quiet, .otaWriteChunk (namedPackage 67)),
    (quiet, .otaFinish), ({ quiet with plan := [.powerLoss ⟨0, false⟩] }, .otaActivate),
    (quiet, .boot)]

theorem cutUpdate_ends :
    Along (sysStep smallDevice) (SafeStep smallDevice) (Sys.cold erasedMem) cutUpdate ∧
    let s := (run (sysStep smallDevice) (Sys.cold erasedMem) cutUpdate).store
    s.flash.trace.all (wholeImage smallDevice) = true ∧ s.flash.powered = true ∧
      s.st.reg.occupied 0 ∧ s.st.reg.occupied 1 := by
  decide +kernel

/-- The first installation fails in the read-back of its commit, after the image
landed; the second finds the slot free, and power is lost in its erase. -/
def ghostRegistry : List (Env × Op) :=
  [(quiet, .boot),
    ({ quiet with plan := [.none, .none, .none, .none, .none, .error ⟨0, false⟩] },
      .install (namedModel 65) [1]),
    ({ quiet with plan := [.powerLoss ⟨1, false⟩] }, .install (namedModel 66) [2]),
    (quiet, .boot)]

theorem ghostRegistry_ends :
    let s := (run (sysStep smallDevice) (Sys.cold erasedMem) ghostRegistry).store
    s.flash.trace.all (wholeImage smallDevice) = true ∧ s.flash.powered = true ∧
    s.st.reg.occupied 0 ∧
    crc32Ieee (s.flash.mem.read (payloadOff smallDevice 0) (s.st.reg.record 0).flashSize.toNat) ≠
      (s.st.reg.record 0).crc32 := by
  decide +kernel

end SynapticOS
