import SynapticOS.Store.Effects

/-!
# Wear counters

The count of a copy's erases lives in RAM and in the header of the copy's image, and
nowhere else. An erase that reports success is followed by the program of an image that
counts it (`Rewritten`); whatever else the store does touches neither (`Wears`).
-/

namespace SynapticOS

open Lib Flash

variable {cfg : Config} {c d : Copy} {s s' : Store} {fl fl' : Flash} {trace ops : List FlashOp}

-- ---------------------------------------------------------------------------
-- Counting commands
-- ---------------------------------------------------------------------------

/-- An erase of a whole copy that landed. -/
def FlashOp.erases (cfg : Config) (c : Copy) : FlashOp → Bool
  | .erase off len done => off = cfg.lay.registryOff c ∧ len = cfg.lay.registrySize ∧ done = len
  | .program .. => false

def completedErases (cfg : Config) (c : Copy) (trace : List FlashOp) : Nat :=
  trace.countP (FlashOp.erases cfg c)

/-- A program of a copy. -/
def FlashOp.writes (cfg : Config) (c : Copy) : FlashOp → Bool
  | .program off _ _ => off = cfg.lay.registryOff c
  | .erase .. => false

def imageWrites (cfg : Config) (c : Copy) (trace : List FlashOp) : Nat :=
  trace.countP (FlashOp.writes cfg c)

/-- Every erase of the copy that landed whole was reported done: its image follows. -/
def reported (cfg : Config) (c : Copy) : List FlashOp → Bool
  | [] => true
  | op :: rest => (!op.erases cfg c || rest.head?.any (FlashOp.writes cfg c)) && reported cfg c rest

theorem imageWrites_append : imageWrites cfg c (trace ++ ops) =
    imageWrites cfg c trace + imageWrites cfg c ops := List.countP_append

theorem completedErases_append : completedErases cfg c (trace ++ ops) =
    completedErases cfg c trace + completedErases cfg c ops := List.countP_append

theorem imageWrites_none (h : ∀ op ∈ ops, op.writes cfg c = false) :
    imageWrites cfg c ops = 0 :=
  List.countP_eq_zero.mpr fun op hop => by simp [h op hop]

theorem FlashOp.writes_of_off {op : FlashOp} (h : op.off ≠ cfg.lay.registryOff c) :
    op.writes cfg c = false := by
  cases op with
  | erase => rfl
  | program off data n => exact decide_eq_false h

/-- An erase that was reported done has its image right behind it. -/
theorem completedErases_le (h : reported cfg c trace = true) :
    completedErases cfg c trace + (trace.head?.any (FlashOp.writes cfg c)).toNat ≤
      imageWrites cfg c trace := by
  induction trace with
  | nil => exact Nat.le_refl _
  | cons op rest ih =>
    simp only [reported, Bool.and_eq_true, Bool.or_eq_true, Bool.not_eq_true'] at h
    have ih := ih h.2
    simp only [completedErases, imageWrites, List.countP_cons, List.head?_cons,
      Option.any_some] at ih ⊢
    cases op with
    | program off data n =>
      have he : (FlashOp.program off data n).erases cfg c = false := rfl
      rw [he]
      cases (FlashOp.program off data n).writes cfg c <;> simp <;> omega
    | erase off len done =>
      have hw : (FlashOp.erase off len done).writes cfg c = false := rfl
      simp only [hw, Bool.false_eq_true, if_false]
      rcases h.1 with he | hnext
      · simp only [he, Bool.false_eq_true, if_false, Bool.toNat_false]
        omega
      · rw [hnext, Bool.toNat_true] at ih
        rw [Bool.toNat_false]
        split <;> omega

-- ---------------------------------------------------------------------------
-- Writing a copy
-- ---------------------------------------------------------------------------

/-- An erase is one command, and a success is a whole one. -/
theorem Flash.erase_issues (p : Port) (off len : Nat) (fl : Flash) :
    Triple (Flash.erase p off len) fl
      (fun _ fl' => fl'.trace = fl.trace ++ [.erase off len len])
      (fun _ fl' => ∃ ops, fl'.trace = fl.trace ++ ops ∧
        ∀ op ∈ ops, ∃ n, op = .erase off len n) := by
  have hnone : ∀ fl' : Flash, fl'.trace = fl.trace →
      ∃ ops, fl'.trace = fl.trace ++ ops ∧ ∀ op ∈ ops, ∃ n, op = .erase off len n := fun fl' h =>
    ⟨[], by rw [h, List.append_nil], fun _ h => (List.not_mem_nil h).elim⟩
  refine Triple.ite (fun _ => Triple.ite (fun _ => Triple.throw (hnone fl rfl)) (fun _ => ?_))
    (fun _ => Triple.throw (hnone fl rfl))
  rcases prim_cases (ramErase p off len) fl with ⟨-, hr⟩ | ⟨t, rest, on, -, -, -, -, hr⟩
  · exact Triple.of_run_error hr (hnone fl rfl)
  · cases t with
    | none => exact Triple.of_run hr rfl
    | some t =>
      exact Triple.of_run_error hr ⟨_, rfl, fun op hop => ⟨_, List.mem_singleton.mp hop⟩⟩

/-- A well-formed program is issued, however much of it lands. -/
theorem Flash.write_issues {p : Port} {off : Nat} {data : List UInt8} (hp : fl.powered = true)
    (hc : checkRange p off data.length) (ho : off % p.pageSize = 0)
    (hl : data.length % p.pageSize = 0) :
    Ends (Flash.write p off data) fl fun fl' => ∃ n ≤ data.length,
      fl'.mem = fl.mem.put off (data.take n) ∧
        fl'.trace = fl.trace ++ [.program off data n] := by
  unfold Flash.write
  rw [if_pos hc, if_neg (by simp [ho, hl])]
  rcases prim_cases (ramWrite p off data) fl with ⟨hoff, -⟩ | ⟨t, rest, on, -, -, -, -, hr⟩
  · rw [hp] at hoff
    cases hoff
  · unfold Ends
    rw [hr]
    have hle := programPages_le p.pageSize fl.mem (data.length / p.pageSize) t off
    rw [Nat.div_mul_cancel (Nat.dvd_of_mod_eq_zero hl)] at hle
    exact ⟨_, hle, rfl, rfl⟩

/-- Neither the flash nor the state has changed. -/
def Unmoved (s s' : Store) : Prop := Untouched s.flash s'.flash ∧ s'.st = s.st

instance : IsPreorder Store Unmoved where
  refl _ := ⟨Std.Refl.refl _, rfl⟩
  trans _ _ _ h h' := ⟨IsTrans.trans _ _ _ h.1 h'.1, h'.2.trans h.2⟩

theorem verifyRound_unmoved (cfg : Config) (off : Nat) (img : List UInt8) (pos n : Nat) :
    Respects Unmoved (verifyRound cfg off img pos n) :=
  Respects.bind (Respects.zoom (read_untouched _ _ _) fun _ _ h => ⟨h, rfl⟩) fun _ =>
    Respects.ite (Respects.pure' _) (Respects.throw _)

/-- What writing a copy leaves of the flash and the counters: the erase failed, or it is
counted and the image that counts it is programmed, torn or not. -/
inductive Rewritten (cfg : Config) (c : Copy) (s s' : Store) : Prop
  | unerased (ops : List FlashOp) (done : Nat) (ht : s'.flash.trace = s.flash.trace ++ ops)
      (hops : ∀ op ∈ ops, ∃ off len n, op = .erase off len n)
      (hm : s'.flash.mem = s.flash.mem.put (cfg.lay.registryOff c)
        (List.replicate done erasedByte))
      (hd : done = 0 ∨ cfg.port.sectorSize ≤ done) (hle : done ≤ cfg.lay.registrySize)
      (hw : s'.st.wear = s.st.wear)
  | programmed (r : Reg) (gen : UInt32) (n : Nat)
      (hn : n ≤ (imageBuild cfg r gen (s.st.wear c + 1)).length)
      (ht : s'.flash.trace = s.flash.trace ++
        [.erase (cfg.lay.registryOff c) cfg.lay.registrySize cfg.lay.registrySize,
          .program (cfg.lay.registryOff c) (imageBuild cfg r gen (s.st.wear c + 1)) n])
      (hm : s'.flash.mem = (s.flash.mem.put (cfg.lay.registryOff c)
        (List.replicate cfg.lay.registrySize erasedByte)).put (cfg.lay.registryOff c)
          ((imageBuild cfg r gen (s.st.wear c + 1)).take n))
      (hw : s'.st.wear = Function.update s.st.wear c (s.st.wear c + 1))

theorem Rewritten.unmoved {s'' : Store} (h : Rewritten cfg c s s') (hu : Unmoved s' s'') :
    Rewritten cfg c s s'' := by
  obtain ⟨⟨hm', ht'⟩, hst⟩ := hu
  cases h with
  | unerased ops done ht hops hm hd hle hw =>
    exact .unerased ops done (ht'.trans ht) hops (hm'.trans hm) hd hle (by rw [hst, hw])
  | programmed r gen n hn ht hm hw =>
    exact .programmed r gen n hn (ht'.trans ht) (hm'.trans hm) (by rw [hst, hw])

theorem copyWrite_rewrites (hv : layoutValid cfg) (c : Copy) (gen : UInt32) (s : Store) :
    Ends (copyWrite cfg c gen) s (Rewritten cfg c s) := by
  have hwin := hv.copy_in_window c
  have hfit := hv.image_fits
  unfold copyWrite
  refine Ends.get_bind ?_
  dsimp only
  have hlen := length_imageBuild cfg s.st.reg gen (s.st.wear c + 1)
  have hrange : checkRange cfg.port (cfg.lay.registryOff c)
      (imageBuild cfg s.st.reg gen (s.st.wear c + 1)).length := by
    have := hv.page_le_registry
    have h0 := align_le_roundUp (imgSize_pos cfg.lay.slotCount) cfg.port.page_pos
    have h1 := cfg.port.page_pos
    rw [hlen]
    exact ⟨by omega, by omega, by omega⟩
  -- the erase
  refine Ends.bind_triple ((Store.onFlash_spec ((Flash.erase_spec cfg.port (cfg.lay.registryOff c)
    cfg.lay.registrySize s.flash).and (erase_issues _ _ _ _))).mono (fun _ _ h => h) ?_) ?_
  · rintro e s₁ ⟨⟨⟨⟨done, hle, hm, hd⟩, -⟩, ops, ht, hops⟩, hs₁⟩
    refine .unerased ops done ht (fun op hop => ?_) hm hd hle (by rw [hs₁])
    obtain ⟨n, hn⟩ := hops op hop
    exact ⟨_, _, n, hn⟩
  rintro _ s₁ ⟨⟨⟨hm, hp, -⟩, ht⟩, hs₁⟩
  refine Ends.modify_bind ?_
  -- the program, and the reads behind it
  have hwrite := write_issues hp hrange (hv.copy_page_aligned c)
    (by rw [hlen]; exact roundUp_mod _ _)
  have hfull : ∀ s₂ : Store, (∃ n ≤ (imageBuild cfg s.st.reg gen (s.st.wear c + 1)).length,
      s₂.flash.mem = s₁.flash.mem.put (cfg.lay.registryOff c)
        ((imageBuild cfg s.st.reg gen (s.st.wear c + 1)).take n) ∧
      s₂.flash.trace = s₁.flash.trace ++ [.program (cfg.lay.registryOff c)
        (imageBuild cfg s.st.reg gen (s.st.wear c + 1)) n]) →
      s₂.st.wear = Function.update s₁.st.wear c (s.st.wear c + 1) → Rewritten cfg c s s₂ := by
    rintro s₂ ⟨n, hn, hm₂, ht₂⟩ hw
    refine .programmed s.st.reg gen n hn ?_ (by rw [hm₂, hm]) (by rw [hw, hs₁])
    rw [ht₂, ht, List.append_assoc]
    rfl
  refine Ends.bind (I := Rewritten cfg c s) ?_ fun _ s₂ h₂ => ?_
  · refine Ends.zoom (hwrite.mono fun fl h => ?_)
    exact hfull _ h rfl
  · exact h₂.unmoved (Respects.chunks (fun _ => True)
      (fun _ _ _ _ => verifyRound_unmoved _ _ _ _ _) (fun _ _ _ => trivial) _ _ _ trivial s₂)

-- ---------------------------------------------------------------------------
-- The counters
-- ---------------------------------------------------------------------------

/-- What the flash records of the erases of a copy. -/
structure Recorded (cfg : Config) (c : Copy) (fl : Flash) : Prop where
  erased : imageWrites cfg c fl.trace ≤ completedErases cfg c fl.trace
  stored : TornRejected cfg fl.trace → ∀ h, copyView cfg fl.mem c = some h →
    h.wear = UInt32.ofNat (imageWrites cfg c fl.trace)

/-- RAM has the count as well. -/
structure WearOk (cfg : Config) (c : Copy) (s : Store) : Prop where
  recorded : Recorded cfg c s.flash
  counted : TornRejected cfg s.flash.trace →
    s.st.wear c = UInt32.ofNat (imageWrites cfg c s.flash.trace)

/-- Commands that program nothing into the copy, and leave it as it was or blank. -/
theorem Recorded.idle (h : Recorded cfg c fl) (ht : fl'.trace = fl.trace ++ ops)
    (hops : ∀ op ∈ ops, op.writes cfg c = false)
    (hm : copyView cfg fl'.mem c = copyView cfg fl.mem c ∨ copyView cfg fl'.mem c = none) :
    Recorded cfg c fl' ∧ imageWrites cfg c fl'.trace = imageWrites cfg c fl.trace := by
  have hsame : imageWrites cfg c fl'.trace = imageWrites cfg c fl.trace := by
    rw [ht, imageWrites_append, imageWrites_none hops, Nat.add_zero]
  refine ⟨⟨?_, fun htorn x hx => ?_⟩, hsame⟩
  · rw [hsame, ht, completedErases_append]
    exact h.erased.trans (Nat.le_add_right _ _)
  · rw [hsame]
    rcases hm with he | hn
    · exact h.stored (htorn.earlier (ht ▸ List.prefix_append _ _)) x (he ▸ hx)
    · rw [hn] at hx
      cases hx

theorem WearOk.idle (h : WearOk cfg c s) (ht : s'.flash.trace = s.flash.trace ++ ops)
    (hops : ∀ op ∈ ops, op.writes cfg c = false)
    (hm : copyView cfg s'.flash.mem c = copyView cfg s.flash.mem c ∨
      copyView cfg s'.flash.mem c = none)
    (hw : s'.st.wear c = s.st.wear c) : WearOk cfg c s' := by
  obtain ⟨hr, hsame⟩ := h.recorded.idle ht hops hm
  refine ⟨hr, fun htorn => ?_⟩
  rw [hw, h.counted (htorn.earlier (ht ▸ List.prefix_append _ _)), hsame]

theorem copyView_none (h : copyReg cfg m c = none) : copyView cfg m c = none :=
  Option.map_eq_none_iff.mp h

theorem registryOff_ne (hv : layoutValid cfg) (h : c ≠ d) :
    cfg.lay.registryOff c ≠ cfg.lay.registryOff d := by
  have hpos := cfg.port.sector_pos
  have hsize := hv.sector_le_registry
  obtain rfl : c = d.other := (Copy.eq_or_other d c).resolve_left h
  have := hv.copies_apart d
  unfold Apart at this
  dsimp only at this
  omega

/-- What is outside a copy's region is not seen by loads of the other copy. -/
theorem copyView_other (hv : layoutValid cfg) (h : c ≠ d) {m m' : Mem}
    (hm : Mem.SameOutside (cfg.lay.registryOff d)
      (cfg.lay.registryOff d + cfg.lay.registrySize) m m') :
    copyView cfg m' c = copyView cfg m c := by
  obtain rfl : c = d.other := (Copy.eq_or_other d c).resolve_left h
  refine copyView_congr hv (hm.sameOn ?_)
  rcases hv.copies_apart d with ha | ha
  · exact .inr ha
  · exact .inl ha

/-- A load of a copy that was erased and programmed reports the wear in the image. -/
theorem wear_of_program (hv : layoutValid cfg) {m m' : Mem} {r : Reg} {gen wear : UInt32} {n : Nat}
    (ht : TornRejected cfg trace)
    (hp : .program (cfg.lay.registryOff c) (imageBuild cfg r gen wear) n ∈ trace)
    (hm : m' = (m.put (cfg.lay.registryOff c)
      (List.replicate cfg.lay.registrySize erasedByte)).put (cfg.lay.registryOff c)
        ((imageBuild cfg r gen wear).take n)) {h : StoreHdr} (hc : copyView cfg m' c = some h) :
    h.wear = wear := by
  rw [copyView_congr hv (sameOn_torn hm)] at hc
  suffices hread : (tornMem cfg c (imageBuild cfg r gen wear) n).read (cfg.lay.registryOff c)
      (imgSize cfg.lay.slotCount) = imageCore cfg r gen wear from wear_of_image hread hc
  rw [← take_imageBuild]
  by_cases hn : n < imgSize cfg.lay.slotCount
  · refine (ht c _ n hp hn).resolve_left fun hnone => ?_
    rw [copyView_none hnone] at hc
    cases hc
  · have hlen := length_imageBuild cfg r gen wear
    have hround := le_roundUp (v := imgSize cfg.lay.slotCount) cfg.port.page_pos
    rw [tornMem, Mem.read_put_take (by simp only [List.length_take]; omega), List.take_take,
      Nat.min_eq_left (by omega)]

theorem Rewritten.wearOk (hv : layoutValid cfg) (h : Rewritten cfg d s s')
    (hw : WearOk cfg c s) : WearOk cfg c s' := by
  cases h with
  | unerased ops done ht hops hm hd hle hst =>
    refine hw.idle ht (fun op hop => ?_) ?_ (by rw [hst])
    · obtain ⟨off, len, n, rfl⟩ := hops op hop
      rfl
    · rcases hd with rfl | hd
      · exact .inl (by rw [hm]; simp)
      by_cases hc : c = d
      · subst hc
        exact .inr (copyView_none (hm ▸ blank_of_erased hd))
      · refine .inl (copyView_other hv hc (hm ▸ Mem.sameOutside_put ?_))
        rw [List.length_replicate]
        omega
  | programmed r gen n hn ht hm hst =>
    by_cases hc : c = d
    case neg =>
      have hne := registryOff_ne hv hc
      refine hw.idle ht (fun op hop => FlashOp.writes_of_off ?_) (.inl (copyView_other hv hc ?_))
        (by rw [hst, Function.update_of_ne hc])
      · simp only [List.mem_cons, List.not_mem_nil, or_false] at hop
        rcases hop with rfl | rfl <;> exact hne.symm
      · have hlen := length_imageBuild cfg r gen (s.st.wear d + 1)
        have hfit := hv.image_fits
        rw [hm]
        exact (Mem.sameOutside_put (by rw [List.length_replicate])).trans
          (Mem.sameOutside_put (by simp only [List.length_take]; omega))
    subst hc
    have hone : imageWrites cfg c s'.flash.trace = imageWrites cfg c s.flash.trace + 1 := by
      rw [ht, imageWrites_append]
      simp [imageWrites, FlashOp.writes]
    have hwear : TornRejected cfg s'.flash.trace →
        s.st.wear c + 1 = UInt32.ofNat (imageWrites cfg c s'.flash.trace) := fun htorn => by
      rw [hw.counted (htorn.earlier (ht ▸ List.prefix_append _ _)), hone, UInt32.ofNat_add]
      rfl
    refine ⟨⟨?_, fun htorn x hx => ?_⟩, fun htorn => ?_⟩
    · have hle := hw.recorded.erased
      rw [hone, ht, completedErases_append]
      have : completedErases cfg c [FlashOp.erase (cfg.lay.registryOff c) cfg.lay.registrySize
          cfg.lay.registrySize, .program (cfg.lay.registryOff c)
            (imageBuild cfg r gen (s.st.wear c + 1)) n] = 1 := by
        simp [completedErases, FlashOp.erases]
      omega
    · rw [← hwear htorn]
      exact wear_of_program hv htorn (ht ▸ by simp) hm hx
    · rw [hst, Function.update_self, hwear htorn]

-- ---------------------------------------------------------------------------
-- What keeps the count
-- ---------------------------------------------------------------------------

/-- Whatever a step returns, the trace grows and the count stays right. -/
def Wears (cfg : Config) (c : Copy) (s s' : Store) : Prop :=
  s.flash.trace <+: s'.flash.trace ∧ (WearOk cfg c s → WearOk cfg c s')

instance : IsPreorder Store (Wears cfg c) where
  refl _ := ⟨List.prefix_rfl, id⟩
  trans _ _ _ h h' := ⟨h.1.trans h'.1, h'.2 ∘ h.2⟩

theorem Unmoved.wears (h : Unmoved s s') : Wears cfg c s s' := by
  obtain ⟨⟨hm, ht⟩, hst⟩ := h
  have hnone : s'.flash.trace = s.flash.trace ++ [] := by rw [ht, List.append_nil]
  exact ⟨ht ▸ List.prefix_rfl, fun hw => hw.idle hnone (fun _ h => (List.not_mem_nil h).elim)
    (.inl (by rw [hm])) (by rw [hst])⟩

/-- A change of the state that is none of the counter. -/
theorem wears_modifySt {f : St → St} (h : ∀ st, (f st).wear = st.wear) :
    Respects (Wears cfg c) (Store.modifySt f) := fun s =>
  ⟨List.prefix_rfl, fun hw => ⟨hw.recorded, fun ht => (congrFun (h s.st) c).trans (hw.counted ht)⟩⟩

theorem wears_onModels (x : ModelsM α) : Respects (Wears cfg c) (Store.onModels x) := fun _ =>
  Unmoved.wears ⟨Std.Refl.refl _, rfl⟩

/-- Commands and bytes that stay in a slot. -/
theorem wears_slot (hv : layoutValid cfg) {slot : Nat} (hs : slot < cfg.lay.slotCount)
    (hw : Within (cfg.lay.slotOff slot) (cfg.lay.slotOff slot + cfg.lay.slotSize) s.flash fl)
    (hi : Issued (cfg.lay.slotOff slot) (cfg.lay.slotOff slot + cfg.lay.slotSize) s.flash fl) :
    Wears cfg c s { s with flash := fl } := by
  obtain ⟨ops, ht, hops⟩ := hi
  have hapart := hv.copy_slot_apart c hs
  refine ⟨hw.later.trace, fun h => h.idle ht (fun op hop => FlashOp.writes_of_off ?_)
    (.inl (copyView_congr hv (hw.mem.sameOn ?_))) rfl⟩
  · have := hops op hop
    have hpos := cfg.port.sector_pos
    have hsize := hv.sector_le_registry
    unfold Apart at hapart
    dsimp only at hapart
    omega
  · rcases hapart with ha | ha
    · exact .inl ha
    · exact .inr ha

section
variable (hv : layoutValid cfg)
include hv

theorem wears_copyCommit (d : Copy) (gen : UInt32) :
    Respects (Wears cfg c) (copyCommit cfg d gen) := by
  refine Respects.bind (Respects.attempt fun s => ?_) fun r => ?_
  · have h := copyWrite_rewrites hv d gen s
    refine ⟨?_, h.wearOk hv⟩
    cases h with
    | unerased ops done ht => exact ht ▸ List.prefix_append _ _
    | programmed r gen n hn ht => exact ht ▸ List.prefix_append _ _
  · cases r with
    | error e => exact Respects.bind (wears_modifySt fun _ => rfl) fun _ => Respects.throw _
    | ok u => exact wears_modifySt fun _ => rfl

/-- All operations keep the count, whatever slots they go to. -/
theorem wears_effects : Effects cfg (fun _ => True) (Wears cfg c) where
  commit := Respects.bind (Respects.gets _) fun _ => wears_copyCommit hv _ _
  modifyReg _ := wears_modifySt fun _ => rfl
  onModels x := wears_onModels x
  read hx s := Unmoved.wears ⟨hx s.flash, rfl⟩
  slot hs _ hx s := wears_slot hv hs (hx _ (confines_within _ _ _) s.flash)
    (hx _ (confines_issued _ _ _) s.flash)

end

end SynapticOS
