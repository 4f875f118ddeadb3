import SynapticOS.StreamLaws
import SynapticOS.System

/-!
# Invariants of the system

An invariant of the store that survives each commit, each failed commit and
each fill of a slot survives every call. `Keeps` collects these obligations:
`Fill slot` is what allows the bytes of a slot to be erased and programmed,
`Up u` what allows the change `u` to be committed. `Permits` is what a call
needs of them.
-/

namespace SynapticOS

open Lib

/-- `J` is kept by the moves of the store; it may depend on the open session,
whose slot stays free to be filled. -/
structure Keeps (cfg : Config) (J : Ota → Store → Prop) (Fill : Nat → Store → Prop)
    (Up : RegUpdate → Ota → Store → Prop) : Prop where
  fits : ∀ {o s}, J o s → s.st.reg.Fits cfg
  ram : ∀ {o s s'}, J o s → SameDisk s s' → J o s'
  fill : ∀ {o s s' slot}, J o s → slot < cfg.lay.slotCount → Fill slot s → Filled cfg slot s s' →
    J o s' ∧ Fill slot s'
  commit : ∀ {o s s' u}, J o s → (u.apply s.st.reg).Fits cfg → Up u o s →
    Committed cfg (u.apply s.st.reg) s s' → J o s'
  abort : ∀ {o s s' u}, J o s → (u.apply s.st.reg).Fits cfg → Up u o s →
    Aborted cfg (u.apply s.st.reg) s s' → J o s'
  session : ∀ {o s}, J o s → o.state = .downloading → Fill o.slot s
  close : ∀ {o o' s}, J o s → o'.state ≠ .downloading → J o' s
  start : ∀ {o o' s}, J o s → Fill o'.slot s → J o' s

namespace Keeps

variable {cfg : Config} {J : Ota → Store → Prop} {Fill : Nat → Store → Prop}
variable {Up : RegUpdate → Ota → Store → Prop} {o : Ota} {s s' t : Store} {slot : Nat}

-- ---------------------------------------------------------------------------
-- Operations of the store
-- ---------------------------------------------------------------------------

theorem freed (k : Keeps cfg J Fill Up) (h : J o s)
    (he : Evictable cfg slot s → Up (Reg.evict slot) o s) (hf : Freed cfg slot s s') : J o s' := by
  rcases hf with ⟨-, -, -, rfl⟩ | ⟨hev, -, hc⟩
  · exact h
  · exact k.commit h (Reg.evict_fits (k.fits h) slot) (he hev) hc

theorem notFreed (k : Keeps cfg J Fill Up) (h : J o s)
    (he : Evictable cfg slot s → Up (Reg.evict slot) o s) (hf : NotFreed cfg slot s s') : J o s' := by
  rcases hf with rfl | ⟨hev, ⟨hd, -⟩ | ⟨-, ha⟩⟩
  · exact h
  · exact k.ram h hd
  · exact k.abort h (Reg.evict_fits (k.fits h) slot) (he hev) ha

theorem beginStaging (k : Keeps cfg J Fill Up) (hv : layoutValid cfg) (h : J o s)
    (he : Evictable cfg slot s → Up (Reg.evict slot) o s) :
    Ends (storeBeginStaging cfg slot) s (J o) :=
  Ends.of_triple (storeBeginStaging_spec hv (k.fits h) slot) (fun _ _ hf => k.freed h he hf)
    fun _ _ hf => k.notFreed h he hf

theorem markStaged (k : Keeps cfg J Fill Up) (hv : layoutValid cfg) (h : J o s)
    (hu : slot < cfg.lay.slotCount → slot ≠ s.st.reg.activeSlot →
      Up (Reg.markStaged slot info) o s) : Ends (storeMarkStaged cfg slot info) s (J o) := by
  refine Ends.of_triple (storeMarkStaged_spec hv (k.fits h) slot info) ?_ ?_
  · rintro _ s' ⟨⟨hs, ha⟩, hc⟩
    exact k.commit h (Reg.markStaged_fits hv (k.fits h) hs info) (hu hs ha) hc.toCommitted
  · rintro _ s' (⟨-, rfl⟩ | ⟨⟨hs, ha⟩, hc⟩)
    · exact h
    · exact k.abort h (Reg.markStaged_fits hv (k.fits h) hs info) (hu hs ha) hc.toAborted

theorem clearStaged (k : Keeps cfg J Fill Up) (hv : layoutValid cfg) (h : J o s)
    (hu : s.st.reg.stagedSlot ≠ slotNone → Up Reg.clearStaged o s) :
    Ends (storeClearStaged cfg) s (J o) := by
  refine Ends.of_triple (storeClearStaged_spec hv (k.fits h)) ?_ ?_
  · rintro _ s' (⟨-, rfl⟩ | ⟨hn, hc⟩)
    · exact h
    · exact k.commit h (Reg.clearStaged_fits (k.fits h)) (hu hn) hc.toCommitted
  · rintro _ s' (⟨-, rfl⟩ | ⟨hn, hc⟩)
    · exact h
    · exact k.abort h (Reg.clearStaged_fits (k.fits h)) (hu hn) hc.toAborted

theorem superseded (k : Keeps cfg J Fill Up) (h : J o s)
    (hu : s.st.reg.stagedSlot ≠ slotNone → Up Reg.clearStaged o s) (hs : Superseded cfg s s') :
    J o s' := by
  cases hs with
  | same _ hs => exact hs ▸ h
  | cleared hn hc => exact k.commit h (Reg.clearStaged_fits (k.fits h)) (hu hn) hc.toCommitted
  | kept hn hc => exact k.abort h (Reg.clearStaged_fits (k.fits h)) (hu hn) hc.toAborted

/-- The guard of `syn_store_activate`. -/
abbrev CanActivate (slot : Nat) (s : Store) : Prop :=
  s.st.reg.occupied slot ∧ slot ≠ s.st.reg.activeSlot

theorem activateOk (k : Keeps cfg J Fill Up) (h : J o s) (hg : CanActivate slot s)
    (hu : CanActivate slot s → Up (Reg.activate slot) o s)
    (hc : Committed cfg ((Reg.activate slot).apply s.st.reg) s s') : J o s' :=
  k.commit h (Reg.activate_fits (k.fits h) ((k.fits h).mask slot hg.1)) (hu hg) hc

theorem activateFails (k : Keeps cfg J Fill Up) (h : J o s)
    (hu : CanActivate slot s → Up (Reg.activate slot) o s)
    (hd : SameDisk s s' ∨ CanActivate slot s ∧
      Aborted cfg ((Reg.activate slot).apply s.st.reg) s s') : J o s' := by
  rcases hd with hd | ⟨hg, hc⟩
  · exact k.ram h hd
  · exact k.abort h (Reg.activate_fits (k.fits h) ((k.fits h).mask slot hg.1)) (hu hg) hc

theorem activate (k : Keeps cfg J Fill Up) (hv : layoutValid cfg) (h : J o s)
    (hu : CanActivate slot s → Up (Reg.activate slot) o s) :
    Ends (storeActivate cfg slot) s (J o) :=
  Ends.of_triple (storeActivate_spec hv (k.fits h) slot)
    (fun _ _ hq => k.activateOk h hq.1 hu hq.2.1) fun _ _ he => k.activateFails h hu he.1

theorem rollbackOk (k : Keeps cfg J Fill Up) (h : J o s)
    (hp : rollbackTarget cfg s.st.reg = some slot)
    (hu : ∀ prev, rollbackTarget cfg s.st.reg = some prev → Up (Reg.rollback prev) o s)
    (hc : Committed cfg ((Reg.rollback slot).apply s.st.reg) s s') : J o s' :=
  k.commit h (Reg.rollback_fits (k.fits h) (rollbackTarget_spec (k.fits h) hp).1) (hu slot hp) hc

theorem rollbackFails (k : Keeps cfg J Fill Up) (h : J o s)
    (hu : ∀ prev, rollbackTarget cfg s.st.reg = some prev → Up (Reg.rollback prev) o s)
    (hd : SameDisk s s' ∨ ∃ prev, rollbackTarget cfg s.st.reg = some prev ∧
      Aborted cfg ((Reg.rollback prev).apply s.st.reg) s s') : J o s' := by
  rcases hd with hd | ⟨prev, hp, hc⟩
  · exact k.ram h hd
  · exact k.abort h (Reg.rollback_fits (k.fits h) (rollbackTarget_spec (k.fits h) hp).1)
      (hu prev hp) hc

theorem rollback (k : Keeps cfg J Fill Up) (hv : layoutValid cfg) (h : J o s)
    (hu : ∀ prev, rollbackTarget cfg s.st.reg = some prev → Up (Reg.rollback prev) o s) :
    Ends (storeRollback cfg) s (J o) :=
  Ends.of_triple (storeRollback_spec hv (k.fits h))
    (fun _ _ ⟨_, hp, hc, _⟩ => k.rollbackOk h hp hu hc) fun _ _ he => k.rollbackFails h hu he.1

theorem install (k : Keeps cfg J Fill Up) (hv : layoutValid cfg) (info : ModelInfo)
    (data : List UInt8) (h : J o s) (hslot : slot = stagingSlot cfg s.st.reg)
    (he : Installable cfg info data → Evictable cfg slot s → Up (Reg.evict slot) o s)
    (hfree : Installable cfg info data → ∀ t, Freed cfg slot s t → J o t → Fill slot t)
    (hu : Installable cfg info data → ∀ t t', Programmed cfg slot data s t t' → J o t' →
      Fill slot t' → Up (Reg.install slot (installRecord cfg slot info data)) o t') :
    Ends (storeInstall cfg info data) s (J o) := by
  subst hslot
  generalize hslot : stagingSlot cfg s.st.reg = slot at *
  have hspec := storeInstall_spec hv (k.fits h) info data
  dsimp only at hspec
  rw [hslot] at hspec
  have hfill : Installable cfg info data → ∀ t t', Freed cfg slot s t → Filled cfg slot t t' →
      J o t' ∧ Fill slot t' := fun hi t t' hf hw => by
    have ht := k.freed h (he hi) hf
    exact k.fill ht hf.lt (hfree hi t hf ht) hw
  have hends : Installable cfg info data → ∀ t t' s' r, Programmed cfg slot data s t t' →
      InstallEnds cfg slot (installRecord cfg slot info data) t' s' r → J o s' := by
    rintro hi t t' s' r hp ⟨s₁, hc, hd, -⟩
    obtain ⟨ht, hft⟩ := hfill hi t t' hp.freed hp.filled
    exact k.ram (k.commit ht (Reg.install_fits hv (k.fits ht) hp.freed.lt _)
      (hu hi t t' hp ht hft) hc.toCommitted) hd
  refine Ends.of_triple hspec ?_ ?_
  · rintro _ s' ⟨hi, t, t', hp, hend⟩
    exact hends hi t t' s' _ hp hend
  · rintro _ s' (rfl | ⟨hi, hn | ⟨t, hf, hw⟩ | ⟨t, t', hp, ha | hend⟩⟩)
    · exact h
    · exact k.notFreed h (he hi) hn
    · exact (hfill hi t s' hf hw).1
    · obtain ⟨ht, hft⟩ := hfill hi t t' hp.freed hp.filled
      exact k.abort ht (Reg.install_fits hv (k.fits ht) hp.freed.lt _) (hu hi t t' hp ht hft)
        ha.toAborted
    · exact hends hi t t' s' _ hp hend

end Keeps

-- ---------------------------------------------------------------------------
-- Calls
-- ---------------------------------------------------------------------------

/-- What a call needs in order to keep `J`. -/
def Permits (cfg : Config) (J : Ota → Store → Prop) (Fill : Nat → Store → Prop)
    (Up : RegUpdate → Ota → Store → Prop) (s : Sys) : Op → Prop
  | .boot => True
  | .install info data => Installable cfg info data →
    let slot := stagingSlot cfg s.store.st.reg
    (Evictable cfg slot s.store → Up (Reg.evict slot) s.ota s.store) ∧
    (∀ t, Freed cfg slot s.store t → J s.ota t → Fill slot t) ∧
    ∀ t t', Programmed cfg slot data s.store t t' → J s.ota t' → Fill slot t' →
      Up (Reg.install slot (installRecord cfg slot info data)) s.ota t'
  | .beginStaging slot => Evictable cfg slot s.store → Up (Reg.evict slot) s.ota s.store
  | .markStaged slot info => slot < cfg.lay.slotCount → slot ≠ s.store.st.reg.activeSlot →
    Up (Reg.markStaged slot info) s.ota s.store
  | .activate slot => Keeps.CanActivate slot s.store → Up (Reg.activate slot) s.ota s.store
  | .rollback | .otaRollback => ∀ prev, rollbackTarget cfg s.store.st.reg = some prev →
    Up (Reg.rollback prev) s.ota s.store
  | .clearStaged => s.store.st.reg.stagedSlot ≠ slotNone → Up Reg.clearStaged s.ota s.store
  | .otaBegin _ _ =>
    let slot := stagingSlot cfg s.store.st.reg
    (s.store.st.reg.stagedSlot ≠ slotNone → Up Reg.clearStaged s.ota s.store) ∧
    (∀ t, Superseded cfg s.store t → J s.ota t → Evictable cfg slot t → Up (Reg.evict slot) s.ota t) ∧
    ∀ t t', Superseded cfg s.store t → J s.ota t → Freed cfg slot t t' → J s.ota t' → Fill slot t'
  | .otaWriteChunk _ => True
  | .otaFinish => ∀ t, Flushed cfg s t → PayloadOk cfg s.ota t.flash.mem →
    s.ota.slot ≠ s.store.st.reg.activeSlot → J s.ota t → Fill s.ota.slot t →
      Up (Reg.markStaged s.ota.slot (otaRecord cfg s.ota)) { s.ota with state := .staging } t
  | .otaActivate => ∀ slot, activateTarget s = some slot → Keeps.CanActivate slot s.store →
    Up (Reg.activate slot) s.ota s.store

/-- The invariant with the books of the open session. -/
structure Holds (cfg : Config) (J : Ota → Store → Prop) (s : Sys) : Prop where
  store : J s.ota s.store
  ota : OtaOk cfg s.ota

namespace Keeps

variable {cfg : Config} {J : Ota → Store → Prop} {Fill : Nat → Store → Prop}
variable {Up : RegUpdate → Ota → Store → Prop} {s : Sys} {op : Op}

theorem onStore {x : StoreM α} (h : Holds cfg J s) (hx : Ends x s.store (J s.ota)) :
    Ends (Sys.onStore x) s (Holds cfg J) :=
  Ends.zoom (hx.mono fun _ ht => ⟨ht, h.ota⟩)

/-- A session that is closed owes nothing. -/
theorem closed (k : Keeps cfg J Fill Up) {o : Ota} {t : Store} (o' : Ota) (h : J o t)
    (hs : o'.state ≠ .downloading) : J o' t ∧ OtaOk cfg o' := ⟨k.close h hs, OtaOk.of_state hs⟩

theorem otaBegin (k : Keeps cfg J Fill Up) (hv : layoutValid cfg) (h : Holds cfg J s)
    (name : List UInt8) (total : Nat) (hp : Permits cfg J Fill Up s (.otaBegin name total)) :
    Ends (otaBegin cfg name total) s (Holds cfg J) := by
  obtain ⟨hclear, hev, hfree⟩ := hp
  refine Ends.of_triple (otaBegin_spec hv (k.fits h.store) name total) ?_ ?_
  · rintro _ s' ⟨⟨-, hgt, hle⟩, ⟨t, t', hsup, hfr, hfi, -⟩, hses⟩
    have ht := k.superseded h.store hclear hsup
    have ht' := k.freed ht (hev t hsup ht) hfr
    obtain ⟨hj, hfl⟩ := k.fill ht' hfr.lt (hfree t t' hsup ht hfr ht') hfi
    have hslot : s'.ota.slot = stagingSlot cfg s.store.st.reg := by rw [hses]; rfl
    exact ⟨k.start hj (hslot ▸ hfl), OtaOk.begun hses hfr.lt hgt hle⟩
  · rintro _ s' (⟨hst, hota⟩ | ⟨herr, t, hsup, hn⟩)
    · exact ⟨by rw [hst, hota]; exact h.store, hota ▸ h.ota⟩
    · have ht := k.superseded h.store hclear hsup
      have hne : s'.ota.state ≠ .downloading := by rw [herr]; decide
      rcases hn with hn | ⟨t', hfr, hfi⟩
      · obtain ⟨h1, h2⟩ := k.closed _ (k.notFreed ht (hev t hsup ht) hn) hne
        exact ⟨h1, h2⟩
      · have ht' := k.freed ht (hev t hsup ht) hfr
        obtain ⟨h1, h2⟩ := k.closed _ (k.fill ht' hfr.lt (hfree t t' hsup ht hfr ht') hfi).1 hne
        exact ⟨h1, h2⟩

theorem otaWriteChunk (k : Keeps cfg J Fill Up) (hv : layoutValid cfg) (h : Holds cfg J s)
    (data : List UInt8) : Ends (otaWriteChunk cfg data) s (Holds cfg J) := by
  refine Ends.of_triple (otaWriteChunk_spec hv h.ota data) ?_ ?_
  · rintro _ s' ⟨n, hw⟩
    have hses := h.ota hw.state
    obtain ⟨hj, hfl⟩ := k.fill h.store hses.slot_lt (k.session h.store hw.state) hw.filled
    have hslot : s'.ota.slot = s.ota.slot := by rw [hw.ota]
    exact ⟨k.start hj (hslot ▸ hfl), fun _ => hw.sessionOk hses⟩
  · rintro _ s' (⟨-, rfl⟩ | ⟨hd, herr, hf⟩)
    · exact h
    · obtain ⟨h1, h2⟩ := k.closed s'.ota (k.fill h.store (h.ota hd).slot_lt (k.session h.store hd)
        hf.filled).1 (by rw [herr]; decide)
      exact ⟨h1, h2⟩

theorem otaFinish (k : Keeps cfg J Fill Up) (hv : layoutValid cfg) (h : Holds cfg J s)
    (hp : Permits cfg J Fill Up s .otaFinish) : Ends (otaFinish cfg) s (Holds cfg J) := by
  have hflushed : ∀ t, s.ota.state = .downloading → Filled cfg s.ota.slot s.store t →
      J s.ota t ∧ Fill s.ota.slot t := fun t hd hf =>
    k.fill h.store (h.ota hd).slot_lt (k.session h.store hd) hf
  have hfits : ∀ t, Flushed cfg s t →
      ((Reg.markStaged s.ota.slot (otaRecord cfg s.ota)).apply t.st.reg).Fits cfg := fun t hf =>
    Reg.markStaged_fits hv (k.fits (hflushed t hf.state hf.filled).1) (h.ota hf.state).slot_lt _
  refine Ends.of_triple (otaFinish_spec hv h.ota (k.fits h.store)) ?_ ?_
  · rintro _ s' ⟨t, hf⟩
    obtain ⟨ht, hfl⟩ := hflushed t hf.flushed.state hf.flushed.filled
    -- the session accepts no more chunks when its record is committed
    have ht' : J { s.ota with state := .staging } t := k.close ht fun hd => by cases hd
    obtain ⟨h1, h2⟩ := k.closed s'.ota (k.commit ht' (hfits t hf.flushed)
      (hp t hf.flushed hf.payload hf.ne_active ht hfl) hf.commits.toCommitted)
        (by rw [hf.state]; decide)
    exact ⟨h1, h2⟩
  · rintro _ s' (⟨-, rfl⟩ | ⟨hd, herr, hf⟩)
    · exact h
    suffices hj : ∃ o, J o s'.store by
      obtain ⟨o, hj⟩ := hj
      obtain ⟨h1, h2⟩ := k.closed s'.ota hj (by rw [herr]; decide)
      exact ⟨h1, h2⟩
    cases hf with
    | short _ ht => exact ⟨s.ota, ht ▸ h.store⟩
    | flash ht _ => exact ⟨s.ota, (hflushed _ hd ht).1⟩
    | crc hf _ => exact ⟨s.ota, (hflushed _ hd hf.filled).1⟩
    | refused hf _ _ => exact ⟨s.ota, (hflushed _ hd hf.filled).1⟩
    | commit t hf hok hne ha =>
      obtain ⟨ht, hfl⟩ := hflushed t hd hf.filled
      have ht' : J { s.ota with state := .staging } t := k.close ht fun hd => by cases hd
      exact ⟨_, k.abort ht' (hfits t hf) (hp t hf hok hne ht hfl) ha.toAborted⟩

theorem otaActivate (k : Keeps cfg J Fill Up) (hv : layoutValid cfg) (h : Holds cfg J s)
    (hp : Permits cfg J Fill Up s .otaActivate) : Ends (otaActivate cfg) s (Holds cfg J) := by
  refine Ends.of_triple (otaActivate_spec hv (k.fits h.store)) ?_ ?_
  · rintro _ s' ⟨slot, hs, ⟨hg, hc, -⟩, hses⟩
    have hj := k.activateOk h.store hg (hp slot hs) hc
    exact ⟨k.close hj (by rw [hses]; exact fun hd => by cases hd), OtaOk.idle hses⟩
  · rintro _ s' (⟨-, rfl⟩ | ⟨herr, slot, hs, hd, -⟩)
    · exact h
    · obtain ⟨h1, h2⟩ := k.closed s'.ota (k.activateFails h.store (hp slot hs) hd)
        (by rw [herr]; decide)
      exact ⟨h1, h2⟩

theorem otaRollback (k : Keeps cfg J Fill Up) (hv : layoutValid cfg) (h : Holds cfg J s)
    (hp : Permits cfg J Fill Up s .otaRollback) : Ends (otaRollback cfg) s (Holds cfg J) := by
  refine Ends.of_triple (otaRollback_spec hv (k.fits h.store)) ?_ ?_
  · rintro _ s' ⟨-, ⟨prev, ht, hc, -⟩, hses⟩
    have hj := k.rollbackOk h.store ht hp hc
    exact ⟨k.close hj (by rw [hses]; exact fun hd => by cases hd), OtaOk.idle hses⟩
  · rintro _ s' ⟨hota, hd, -⟩
    exact ⟨hota ▸ k.rollbackFails h.store hp hd, hota ▸ h.ota⟩

/-- A permitted call keeps the invariant, however it ends. -/
theorem exec (k : Keeps cfg J Fill Up) (hv : layoutValid cfg) (h : Holds cfg J s)
    (hop : op ≠ .boot) (hp : Permits cfg J Fill Up s op) : Ends (exec cfg op) s (Holds cfg J) := by
  cases op with
  | boot => exact absurd rfl hop
  | install info data =>
    have hx : Ends (storeInstall cfg info data) s.store (J s.ota) :=
      k.install hv info data h.store rfl (fun hi => (hp hi).1) (fun hi => (hp hi).2.1)
        fun hi => (hp hi).2.2
    exact Ends.bind (onStore h hx) fun _ _ ht => Ends.pure' ht
  | beginStaging slot => exact onStore h (k.beginStaging hv h.store hp)
  | markStaged slot info => exact onStore h (k.markStaged hv h.store hp)
  | activate slot => exact onStore h (k.activate hv h.store hp)
  | rollback => exact onStore h (k.rollback hv h.store hp)
  | clearStaged => exact onStore h (k.clearStaged hv h.store hp)
  | otaBegin name total => exact k.otaBegin hv h name total hp
  | otaWriteChunk data => exact k.otaWriteChunk hv h data
  | otaFinish => exact k.otaFinish hv h hp
  | otaActivate => exact k.otaActivate hv h hp
  | otaRollback => exact k.otaRollback hv h hp

end Keeps

end SynapticOS
