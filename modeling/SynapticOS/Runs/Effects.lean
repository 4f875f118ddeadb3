import SynapticOS.Runs.Images
import SynapticOS.Store.Effects

/-!
# What a call does to the store

The calls of the engine are made of what the store's operations are made of. A
session's commands go to the slot that its begin has chosen.
-/

namespace SynapticOS

open Lib Flash

variable {cfg : Config} {A : Nat → Prop} {R : Store → Store → Prop} {s s' : Sys}

/-- The store moves in `R`, and the engine's slot stays. -/
def OnSlot (R : Store → Store → Prop) (s s' : Sys) : Prop :=
  R s.store s'.store ∧ s'.ota.slot = s.ota.slot

instance [IsPreorder Store R] : IsPreorder Sys (OnSlot R) where
  refl _ := ⟨Std.Refl.refl _, rfl⟩
  trans _ _ _ h h' := ⟨IsTrans.trans _ _ _ h.1 h'.1, h'.2.trans h.2⟩

/-- The slot that a call's commands go to. -/
def Op.target (cfg : Config) (s : Sys) : Op → Option Nat
  | .install .. | .otaBegin .. => some (stagingSlot cfg s.store.st.reg)
  | .otaWriteChunk _ | .otaFinish => some s.ota.slot
  | .boot | .beginStaging _ | .markStaged .. | .activate _ | .rollback | .clearStaged
  | .otaActivate | .otaRollback => none

theorem onSlot_onStore {x : StoreM α} (hx : Respects R x) :
    Respects (OnSlot R) (Sys.onStore x) := Respects.zoom hx fun _ _ h => ⟨h, rfl⟩

section
variable [IsPreorder Store R]

theorem onSlot_modifyOta {f : Ota → Ota} (hf : ∀ o, (f o).slot = o.slot) :
    Respects (OnSlot R) (Sys.modifyOta f : Act Sys ε Unit) :=
  Respects.modify fun s => ⟨Std.Refl.refl _, hf s.ota⟩

theorem onSlot_act (a : CpuAct) : Respects (OnSlot R) (Sys.act a : Act Sys ε Unit) :=
  Respects.modify fun _ => ⟨Std.Refl.refl _, rfl⟩

theorem onSlot_cpu1Park : Respects (OnSlot R) (cpu1Park : Act Sys ε Unit) :=
  Respects.bind (Respects.gets _) fun _ => Respects.ite (Respects.bind (onSlot_act _) fun _ =>
    Respects.ite (onSlot_modifyOta fun _ => rfl) (Respects.pure' _)) (Respects.pure' _)

theorem onSlot_cpu1Unpark : Respects (OnSlot R) (cpu1Unpark : Act Sys ε Unit) :=
  Respects.bind Respects.get fun _ => Respects.ite (Respects.bind (onSlot_act _) fun _ =>
    Respects.ite (Respects.bind (onSlot_modifyOta fun _ => rfl) fun _ => onSlot_act _)
      (Respects.pure' _)) (Respects.pure' _)

theorem onSlot_drainServe : Respects (OnSlot R) drainServe :=
  Respects.bind (Respects.gets _) fun _ => Respects.ite (Respects.bind (onSlot_act _) fun _ =>
    Respects.ite (Respects.pure' _) (Respects.bind (onSlot_act _) fun _ => Respects.throw _))
      (Respects.pure' _)

theorem onSlot_enterError (e : Errno) : Respects (OnSlot R) (enterError e : Act Sys ε Unit) :=
  Respects.bind (onSlot_modifyOta fun _ => rfl) fun _ => onSlot_cpu1Unpark

theorem onSlot_otaCall {locked : OtaM Unit} {b : Sys} (h : Ends locked s (OnSlot R b)) :
    Ends (otaCall locked) s (OnSlot R b) := by
  refine Ends.bind (Ends.attempt h) fun r s₁ h₁ => ?_
  rcases r with (e | e) | u
  · exact Ends.throw h₁
  · exact Respects.ends (Respects.bind (onSlot_enterError e) fun _ => Respects.throw _) h₁
  · exact Ends.pure' h₁

end

namespace Effects

variable [IsPreorder Store R] (h : Effects cfg A R)
include h

-- ---------------------------------------------------------------------------
-- Begin
-- ---------------------------------------------------------------------------

theorem supersede : Respects (OnSlot R) (supersede cfg : Act Sys ε Unit) := by
  refine Respects.bind (Respects.gets _) fun st => Respects.bind (Respects.attempt ?_)
    fun _ => Respects.pure' _
  split
  · exact onSlot_onStore h.clearStaged
  · exact Respects.pure' _

theorem beginPrepare (name : List UInt8) (totalSize : Nat) :
    Triple (beginPrepare cfg name totalSize) s
      (fun slot s' => R s.store s'.store ∧ slot = stagingSlot cfg s.store.st.reg ∧
        s'.ota.slot = slot ∧ totalSize ≤ cfg.lay.slotSize)
      (fun _ s' => R s.store s'.store) := by
  refine Triple.get_bind ?_
  dsimp only
  refine Triple.ite (fun _ => Triple.throw (Std.Refl.refl _)) fun hle => ?_
  refine Triple.bind ((Respects.ends onSlot_drainServe (Std.Refl.refl s)).triple.mono
    (fun _ _ h => h) fun _ _ h => h.1) fun _ s₁ h₁ => ?_
  refine Triple.bind ((Respects.ends h.supersede h₁).triple.mono (fun _ _ h => h)
    fun _ _ h => h.1) fun _ s₂ h₂ => ?_
  refine Triple.modify_bind ?_
  refine Triple.bind ((Respects.ends onSlot_cpu1Park (Std.Refl.refl _)).triple.mono
    (fun _ _ h => h) fun _ _ h => IsTrans.trans _ _ _ h₂.1 h.1) fun _ s₄ h₄ => ?_
  exact Triple.pure' ⟨IsTrans.trans _ _ _ h₂.1 h₄.1, rfl, h₄.2, Nat.le_of_not_lt hle⟩

theorem beginErase (hv : layoutValid cfg) {slot totalSize : Nat}
    (hs : slot < cfg.lay.slotCount) (hA : A slot) (hle : totalSize ≤ cfg.lay.slotSize) :
    Respects (OnSlot R) (beginErase cfg slot totalSize) :=
  Respects.bind (Respects.mapError (onSlot_onStore (h.beginStaging slot))) fun _ =>
    Respects.bind (Respects.mapError (onSlot_onStore
      (h.slot hs hA fun _ _ hR => hR.eraseSlot hv hle))) fun _ => onSlot_modifyOta fun _ => rfl

/-- A session goes to the slot that is chosen when it begins. -/
theorem otaBegin (hv : layoutValid cfg) (name : List UInt8) (totalSize : Nat)
    (hA : A (stagingSlot cfg s.store.st.reg)) :
    Triple (otaBegin cfg name totalSize) s
      (fun _ s' => R s.store s'.store ∧ s'.ota.slot = stagingSlot cfg s.store.st.reg)
      (fun _ s' => R s.store s'.store) := by
  have hlocked : Triple (beginLocked cfg name totalSize) s
      (fun _ s' => R s.store s'.store ∧ s'.ota.slot = stagingSlot cfg s.store.st.reg)
      (fun _ s' => R s.store s'.store) := by
    refine Triple.bind (h.beginPrepare name totalSize) ?_
    rintro _ s₁ ⟨h₁, rfl, hslot, hle⟩
    have hs := (stagingSlot_spec hv s.store.st.reg).1
    refine (Respects.ends (h.beginErase hv hs hA hle) (Std.Refl.refl s₁)).triple.mono ?_ ?_
    · exact fun _ _ h₂ => ⟨IsTrans.trans _ _ _ h₁ h₂.1, h₂.2.trans hslot⟩
    · exact fun _ _ h₂ => IsTrans.trans _ _ _ h₁ h₂.1
  refine Triple.get_bind (Triple.ite (fun _ => Triple.throw (Std.Refl.refl _)) fun _ =>
    Triple.ite (fun _ => Triple.throw (Std.Refl.refl _)) fun _ => ?_)
  refine Triple.attempt_bind hlocked (fun _ _ hq => Triple.pure' hq) fun e s₁ h₁ => ?_
  cases e with
  | refuse e => exact Triple.throw h₁
  | fail e =>
    refine Triple.bind ((Respects.ends (onSlot_enterError e) (Std.Refl.refl s₁)).triple.mono
      (fun _ _ h₂ => h₂) fun _ _ h₂ => IsTrans.trans _ _ _ h₁ h₂.1) fun _ s₂ h₂ => ?_
    exact Triple.throw (IsTrans.trans _ _ _ h₁ h₂.1)

-- ---------------------------------------------------------------------------
-- Write
-- ---------------------------------------------------------------------------

theorem flushPages (hv : layoutValid cfg) (final : Bool) (hs : s.ota.slot < cfg.lay.slotCount)
    (hA : A s.ota.slot) (ha : s.ota.writeOff % ioBufSize = 0)
    (hb : s.ota.writeOff + s.ota.pageBuf.length ≤ cfg.lay.slotSize) :
    Ends (flushPages cfg final) s (OnSlot R s) := by
  have hle := writable_le hv final ha hb
  refine Ends.gets_bind ?_
  dsimp only
  generalize (if final then roundUp s.ota.pageBuf.length cfg.port.pageSize
    else s.ota.pageBuf.length / cfg.port.pageSize * cfg.port.pageSize) = writable at hle
  refine Ends.ite (fun _ => Ends.pure' (Std.Refl.refl _)) fun _ => ?_
  refine Respects.ends (Respects.bind (onSlot_onStore (h.slot hs hA fun _ _ hR =>
    hR.write (Nat.le_add_right _ _) ?_)) fun _ => onSlot_modifyOta fun _ => rfl) (Std.Refl.refl _)
  rw [length_padTo, List.length_take]
  omega

theorem fillPages (hv : layoutValid cfg) (fuel : Nat) (src : List UInt8)
    (hs : s.ota.slot < cfg.lay.slotCount) (hA : A s.ota.slot)
    (ha : s.ota.writeOff % ioBufSize = 0) (hbuf : s.ota.pageBuf.length < ioBufSize)
    (hb : s.ota.writeOff + s.ota.pageBuf.length + src.length ≤ cfg.lay.slotSize) :
    Ends (fillPages cfg fuel src) s (OnSlot R s) := by
  induction fuel generalizing src s with
  | zero => exact Ends.pure' (Std.Refl.refl _)
  | succ fuel ih =>
    refine Ends.ite (fun _ => Ends.pure' (Std.Refl.refl _)) fun h0 => Ends.gets_bind ?_
    dsimp only
    have hpos := List.length_pos_of_ne_nil h0
    generalize hn : min (ioBufSize - s.ota.pageBuf.length) src.length = n
    refine Ends.modify_bind ?_
    generalize hs₁ : ({ s with ota := { s.ota with
      pageBuf := s.ota.pageBuf ++ src.take n } } : Sys) = s₁
    have h₁ : OnSlot R s s₁ := by
      rw [← hs₁]
      exact ⟨Std.Refl.refl _, rfl⟩
    have hota₁ : s₁.ota = { s.ota with pageBuf := s.ota.pageBuf ++ src.take n } := by rw [← hs₁]
    have hlen₁ : s₁.ota.pageBuf.length = s.ota.pageBuf.length + n := by
      rw [hota₁]
      simp only [List.length_append, List.length_take]
      omega
    have hslot₁ : s₁.ota.slot = s.ota.slot := h₁.2
    have hoff₁ : s₁.ota.writeOff = s.ota.writeOff := by rw [hota₁]
    have hdrop : (src.drop n).length = src.length - n := List.length_drop
    refine Ends.ite (fun hfull => ?_) (fun hpart => ?_)
    · have hb₁ : s₁.ota.writeOff + s₁.ota.pageBuf.length ≤ cfg.lay.slotSize := by omega
      have hwr : ioBufSize / cfg.port.pageSize * cfg.port.pageSize = ioBufSize :=
        Nat.div_mul_cancel hv.page_dvd_buf
      have hflush := (flushPages_spec hv false (hslot₁ ▸ hs) (hoff₁ ▸ ha) hb₁).and
        (h.flushPages hv false (hslot₁ ▸ hs) (hslot₁ ▸ hA) (hoff₁ ▸ ha) hb₁).triple
      refine Ends.bind_triple (hflush.mono (fun _ _ h => h)
        fun _ _ h => IsTrans.trans _ _ _ h₁ h.2) ?_
      rintro _ s₂ ⟨⟨-, -, hota₂, -⟩, h₂⟩
      simp only [Bool.false_eq_true, ↓reduceIte, hlen₁, hfull, hwr] at hota₂
      have hlen₂ : s₂.ota.pageBuf.length = 0 := by
        rw [hota₂, List.length_drop]
        omega
      have hslot₂ : s₂.ota.slot = s.ota.slot := h₂.2.trans hslot₁
      have hoff₂ : s₂.ota.writeOff = s.ota.writeOff + ioBufSize := by rw [hota₂, hoff₁]
      refine (ih (s := s₂) (src.drop n) (hslot₂ ▸ hs) (hslot₂ ▸ hA)
        (by rw [hoff₂, Nat.add_mod_right, ha]) (by rw [hlen₂]; decide) (by omega)).mono
        fun s' h' => ?_
      exact IsTrans.trans _ _ _ h₁ (IsTrans.trans _ _ _ h₂ h')
    · refine (ih (s := s₁) (src.drop n) (hslot₁ ▸ hs) (hslot₁ ▸ hA) (hoff₁ ▸ ha) (by omega)
        (by omega)).mono fun s' h' => IsTrans.trans _ _ _ h₁ h'

omit h in
theorem captureHdr (data : List UInt8) : Respects (OnSlot R) (captureHdr data) := by
  refine Respects.bind (Respects.gets _) fun o => Respects.ite (Respects.bind
    (onSlot_modifyOta fun _ => rfl) fun _ => Respects.ite ?_ (Respects.pure' _)) (Respects.pure' _)
  split
  · exact Respects.throw _
  · exact Respects.pure' _

theorem otaWriteChunk (hv : layoutValid cfg) (ho : OtaOk cfg s.ota) (hA : A s.ota.slot)
    (data : List UInt8) : Ends (otaWriteChunk cfg data) s (OnSlot R s) := by
  refine Ends.ite (fun _ => Ends.throw (Std.Refl.refl _)) fun _ => onSlot_otaCall ?_
  refine Ends.gets_bind (Ends.ite (fun _ => Ends.throw (Std.Refl.refl _)) fun hd =>
    Ends.ite (fun _ => Ends.throw (Std.Refl.refl _)) fun hfits => ?_)
  have hses := ho (not_not.mp hd)
  have hrec := hses.received
  have htot := hses.total_le
  have hkeeps : Ends (SynapticOS.captureHdr data) s (OnSlot R s) := captureHdr data s
  have hcap := (captureHdr_spec data s).and hkeeps.triple
  refine Ends.bind_triple (Triple.mapError (hcap.mono (fun _ _ h => h) fun _ _ h => h.2)) ?_
  rintro _ s₁ ⟨⟨rfl, -⟩, h₁⟩
  have hfill := h.fillPages (s := s.setHdr (s.ota.capture data)) hv data.length data
    hses.slot_lt hA hses.aligned hses.buffered ?_
  · exact Ends.bind (Ends.mapError (hfill.mono fun s' h => IsTrans.trans _ _ _ h₁ h))
      fun _ s₂ h₂ => Respects.ends (onSlot_modifyOta fun _ => rfl) h₂
  · show s.ota.writeOff + s.ota.pageBuf.length + data.length ≤ cfg.lay.slotSize
    omega

-- ---------------------------------------------------------------------------
-- Finish, activate and roll back
-- ---------------------------------------------------------------------------

theorem validate : Respects (OnSlot R) (validate cfg) := by
  refine Respects.bind (onSlot_modifyOta fun _ => rfl) fun _ => Respects.bind (Respects.gets _)
    fun o => Respects.bind (onSlot_onStore (h.read ?_)) fun crc =>
      Respects.ite (Respects.throw _) (Respects.pure' _)
  exact Respects.chunks (fun _ => True) (fun _ _ _ _ =>
    Respects.bind (read_untouched _ _ _) fun _ => Respects.pure' _) (fun _ _ _ => trivial) _ _ _
      trivial

theorem stage : Respects (OnSlot R) (stage cfg) :=
  Respects.bind (onSlot_modifyOta fun _ => rfl) fun _ => Respects.bind (Respects.gets _) fun _ =>
    Respects.bind (onSlot_onStore (h.markStaged _ _)) fun _ => onSlot_modifyOta fun _ => rfl

theorem otaFinish (hv : layoutValid cfg) (ho : OtaOk cfg s.ota) (hA : A s.ota.slot) :
    Ends (otaFinish cfg) s (OnSlot R s) := by
  refine onSlot_otaCall (Ends.gets_bind (Ends.ite (fun _ => Ends.throw (Std.Refl.refl _))
    fun hd => Ends.ite (fun _ => Ends.throw (Std.Refl.refl _)) fun _ => ?_))
  have hses := ho (not_not.mp hd)
  have hrec := hses.received
  have hbound := hses.bound
  have htot := hses.total_le
  refine Ends.bind (Ends.mapError (h.flushPages hv true hses.slot_lt hA hses.aligned (by omega)))
    fun _ s₁ h₁ => ?_
  exact Respects.ends (Respects.bind (Respects.mapError h.validate) fun _ =>
    Respects.mapError h.stage) h₁

theorem otaActivate : Ends (otaActivate cfg) s (OnSlot R s) := by
  refine onSlot_otaCall (Ends.get_bind ?_)
  split
  · exact Ends.throw (Std.Refl.refl _)
  · exact Respects.ends (Respects.bind (Respects.mapError (onSlot_onStore (h.activate _)))
      fun _ => Respects.bind (onSlot_modifyOta fun _ => rfl) fun _ => onSlot_cpu1Unpark)
        (Std.Refl.refl _)

theorem otaRollback : Ends (otaRollback cfg) s (OnSlot R s) := by
  refine onSlot_otaCall (Ends.gets_bind (Ends.ite (fun _ => Ends.throw (Std.Refl.refl _))
    fun _ => ?_))
  exact Respects.ends (Respects.bind (Respects.mapError (onSlot_onStore h.rollback))
    fun _ => Respects.bind (onSlot_modifyOta fun _ => rfl) fun _ => onSlot_cpu1Unpark)
      (Std.Refl.refl _)

-- ---------------------------------------------------------------------------
-- All calls
-- ---------------------------------------------------------------------------

/-- Every call but a boot moves the store in `R`, and only a begin chooses a slot. -/
theorem exec (hv : layoutValid cfg) (ho : OtaOk cfg s.ota) {op : Op} (hop : op ≠ .boot)
    (hA : ∀ slot, op.target cfg s = some slot → A slot) :
    Ends (exec cfg op) s fun s' => R s.store s'.store ∧
      ((∀ name total, op ≠ .otaBegin name total) → s'.ota.slot = s.ota.slot) := by
  have hkeep : ∀ {x : SysM Unit}, Ends x s (OnSlot R s) → Ends x s fun s' =>
      R s.store s'.store ∧ ((∀ name total, op ≠ .otaBegin name total) →
        s'.ota.slot = s.ota.slot) := fun hx => hx.mono fun _ h => ⟨h.1, fun _ => h.2⟩
  have hstore : ∀ {x : StoreM Unit}, Respects R x → Ends (Sys.onStore x) s (OnSlot R s) :=
    fun hx => Respects.ends (onSlot_onStore hx) (Std.Refl.refl s)
  cases op with
  | boot => exact absurd rfl hop
  | install info data =>
    refine hkeep (Ends.bind (I := OnSlot R s) (Ends.zoom ?_) fun _ _ h => Ends.pure' h)
    exact (h.install hv info data (hA _ rfl)).mono fun t ht => ⟨ht, rfl⟩
  | beginStaging slot => exact hkeep (hstore (h.beginStaging slot))
  | markStaged slot info => exact hkeep (hstore (h.markStaged slot info))
  | activate slot => exact hkeep (hstore (h.activate slot))
  | rollback => exact hkeep (hstore h.rollback)
  | clearStaged => exact hkeep (hstore h.clearStaged)
  | otaBegin name total =>
    refine Ends.of_triple (h.otaBegin hv name total (hA _ rfl)) ?_ ?_
    · exact fun _ _ hq => ⟨hq.1, fun hn => absurd rfl (hn name total)⟩
    · exact fun _ _ hq => ⟨hq, fun hn => absurd rfl (hn name total)⟩
  | otaWriteChunk data => exact hkeep (h.otaWriteChunk hv ho (hA _ rfl) data)
  | otaFinish => exact hkeep (h.otaFinish hv ho (hA _ rfl))
  | otaActivate => exact hkeep h.otaActivate
  | otaRollback => exact hkeep h.otaRollback

end Effects

end SynapticOS
