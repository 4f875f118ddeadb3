import SynapticOS.Layered.Plan

/-!
# Plans are sound

A plan depends on the blob alone (`planLive_const`). In a plan that was accepted
(`Planned`) a layer reads buffers written before it, every buffer lives until
its last reader, and buffers that live at the same time share no byte.
-/

namespace SynapticOS.Layered

open Lib

variable {lim : Limits} {data : List UInt8} {p p' q : Plan}

-- ---------------------------------------------------------------------------
-- Parsing
-- ---------------------------------------------------------------------------

/-- A layer reads what was written before it, and writes something. -/
structure LayerOk (i : Nat) (l : Layer) : Prop where
  out : 0 < l.outSize
  srcA : l.srcA ≤ i
  srcB : ∀ b, l.srcB = some b → b ≤ i

def LayersOk (layers : List Layer) : Prop := ∀ i l, layers[i]? = some l → LayerOk i l

theorem resolveSrc_le (h : resolveSrc raw i none? = .ok (some b)) : b ≤ i := by
  unfold resolveSrc at h
  split at h
  · split at h <;> cases h
  · split at h
    · cases h
      exact Nat.le_refl _
    · split at h
      · cases h
        exact Nat.zero_le _
      · split at h
        · rename_i hlt
          cases h
          omega
        · cases h

theorem parseLayer_ok (h : parseLayer lim dag data i = .ok l) : LayerOk i l := by
  unfold parseLayer at h
  dsimp only at h
  generalize hdrSize + i * (if dag then 8 else 4) = d at h
  generalize (if dag then rds16 data (d + 4) else srcPrev) = rawA at h
  generalize (if dag then rds16 data (d + 6) else srcNone) = rawB at h
  split at h
  · cases h
  · rename_i hout
    split at h
    · rename_i a b ha hb
      cases h
      refine ⟨by dsimp only; omega, resolveSrc_le ha, fun c hc => ?_⟩
      dsimp only at hc
      subst hc
      exact resolveSrc_le hb
    · cases h

theorem LayersOk.append (h : LayersOk layers) (hl : LayerOk layers.length l) :
    LayersOk (layers ++ [l]) := by
  intro i x hx
  rcases Nat.lt_trichotomy i layers.length with hlt | rfl | hgt
  · rw [List.getElem?_append_left hlt] at hx
    exact h i x hx
  · rw [List.getElem?_append_right (Nat.le_refl _), Nat.sub_self] at hx
    cases hx
    exact hl
  · rw [List.getElem?_eq_none (by simp; omega)] at hx
    cases hx

theorem parseLayers_spec (lim : Limits) (dag : Bool) (data : List UInt8) (k i : Nat) (p : Plan)
    (hi : p.layers.length = i) (h : LayersOk p.layers) :
    Triple (parseLayers lim dag data k i) p
      (fun _ p' => p' = { p with layers := p'.layers } ∧ p'.layers.length = i + k ∧
        LayersOk p'.layers) (fun _ _ => True) := by
  induction k generalizing i p with
  | zero => exact Triple.pure' ⟨rfl, hi, h⟩
  | succ k ih =>
    unfold parseLayers
    split
    · exact Triple.throw trivial
    · rename_i l hl
      refine Triple.modify_bind ?_
      have hl' : LayerOk p.layers.length l := hi ▸ parseLayer_ok hl
      refine (ih (i + 1) _ (by simp [hi]) (h.append hl')).mono ?_ (fun _ _ h => h)
      rintro _ p' ⟨he, hlen, hok⟩
      exact ⟨he, by omega, hok⟩

/-- What a blob has to be for its header to be accepted. -/
theorem parseHeader_ok (h : parseHeader lim data = .ok (dag, n, input)) :
    0 < n ∧ n ≤ maxLayers ∧ 0 < input ∧ input ≤ lim.actMax := by
  unfold parseHeader at h
  dsimp only at h
  generalize hd : decide (u32At data 0 = dagMagic) = d at h
  generalize hdrSize + rd16 data 4 * (if d then 8 else 4) = len at h
  split at h
  · cases h
  · split at h
    · cases h
    · split at h
      · cases h
      · split at h
        · cases h
        · cases h
          omega

-- ---------------------------------------------------------------------------
-- Lifetimes
-- ---------------------------------------------------------------------------

theorem le_raise (t : Nat → Nat) (b i c : Nat) : t c ≤ raise t b i c := by
  unfold raise
  split
  · rw [Function.update_apply]
    split
    · rename_i hlt heq
      subst heq
      omega
    · exact Nat.le_refl _
  · exact Nat.le_refl _

theorem raise_self (t : Nat → Nat) (b i : Nat) : i ≤ raise t b i b := by
  unfold raise
  split
  · rw [Function.update_self]
  · omega

theorem Layer.le_reads (l : Layer) (i : Nat) (t : Nat → Nat) (b : Nat) : t b ≤ l.reads i t b := by
  unfold reads
  cases l.srcB with
  | none => exact le_raise t _ _ _
  | some c => exact (le_raise t _ _ _).trans (le_raise _ _ _ _)

theorem Layer.reads_src (l : Layer) (i : Nat) (t : Nat → Nat) :
    i ≤ l.reads i t l.srcA ∧ ∀ b, l.srcB = some b → i ≤ l.reads i t b := by
  unfold reads
  cases l.srcB with
  | none => exact ⟨raise_self t _ _, fun _ h => by cases h⟩
  | some c =>
    refine ⟨(raise_self t _ _).trans (le_raise _ _ _ _), fun b h => ?_⟩
    cases h
    exact raise_self _ _ _

theorem le_lastReads (layers : List Layer) (i : Nat) (t : Nat → Nat) (b : Nat) :
    t b ≤ lastReads layers i t b := by
  induction layers generalizing i t with
  | nil => exact Nat.le_refl _
  | cons l rest ih => exact (l.le_reads i t b).trans (ih _ _)

/-- Every source of a layer is read at the layer's time. -/
theorem lastReads_src (layers : List Layer) (i : Nat) (t : Nat → Nat) (j : Nat) (l : Layer)
    (hl : layers[j]? = some l) : i + j ≤ lastReads layers i t l.srcA ∧
      ∀ b, l.srcB = some b → i + j ≤ lastReads layers i t b := by
  induction layers generalizing i t j with
  | nil => simp at hl
  | cons x rest ih =>
    unfold lastReads
    cases j with
    | zero =>
      simp only [List.getElem?_cons_zero, Option.some.injEq] at hl
      subst hl
      obtain ⟨ha, hb⟩ := x.reads_src i t
      exact ⟨ha.trans (le_lastReads rest _ _ _),
        fun b h => (hb b h).trans (le_lastReads rest _ _ _)⟩
    | succ j =>
      simp only [List.getElem?_cons_succ] at hl
      obtain ⟨ha, hb⟩ := ih (i + 1) (x.reads i t) j hl
      refine ⟨by omega, fun b h => ?_⟩
      have := hb b h
      omega

namespace Plan

theorem last_output (p : Plan) : p.last p.layerCount = p.layerCount := by
  rw [last, Function.update_self]

theorem last_of_lt (h : b < p.layerCount) : p.last b = lastReads p.layers 0 defTime b := by
  rw [last, Function.update_of_ne (by omega)]

theorem defTime_le_last (h : b ≤ p.layerCount) : defTime b ≤ p.last b := by
  rcases Nat.lt_or_eq_of_le h with hlt | rfl
  · rw [last_of_lt hlt]
    exact le_lastReads _ _ _ _
  · rw [last_output]
    exact Nat.sub_le _ _

/-- A buffer stays until each of its readers has run. -/
theorem src_le_last (hok : LayersOk p.layers) (hl : p.layers[i]? = some l) :
    i ≤ p.last l.srcA ∧ ∀ b, l.srcB = some b → i ≤ p.last b := by
  have hlt : i < p.layerCount := (List.getElem?_eq_some_iff.mp hl).1
  have h := lastReads_src p.layers 0 defTime i l hl
  have hsrc := hok i l hl
  refine ⟨?_, fun b hb => ?_⟩
  · rw [last_of_lt (Nat.lt_of_le_of_lt hsrc.srcA hlt)]
    exact (Nat.zero_add i ▸ h.1)
  · rw [last_of_lt (Nat.lt_of_le_of_lt (hsrc.srcB b hb) hlt)]
    exact (Nat.zero_add i ▸ h.2 b hb)

end Plan

-- ---------------------------------------------------------------------------
-- First fit
-- ---------------------------------------------------------------------------

section
variable {off : Nat} {placed : List Placed} (born last size : Nat)

/-- A pass that moves nothing found no clash; a pass that moves stops at the end
of a placed buffer beyond where it started. -/
theorem fitPass_spec (placed : List Placed) (off : Nat) (moved : Bool) :
    let r := fitPass born last size placed off moved
    (r.2 = false → r.1 = off ∧ moved = false ∧
      ∀ o ∈ placed, ¬o.clashes born last size off) ∧
    (r.2 = true → moved = true ∧ r.1 = off ∨
      off < r.1 ∧ ∃ o ∈ placed, r.1 = o.off + o.size) := by
  induction placed generalizing off moved with
  | nil =>
    refine ⟨fun h => ⟨rfl, h, fun o ho => by simp at ho⟩, fun h => .inl ⟨h, rfl⟩⟩
  | cons o rest ih =>
    unfold fitPass
    split
    · rename_i hc
      have hlt : off < o.off + o.size := hc.2.1
      obtain ⟨h1, h2⟩ := ih (o.off + o.size) true
      refine ⟨fun h => absurd (h1 h).2.1 (by simp), fun h => .inr ?_⟩
      rcases h2 h with ⟨-, he⟩ | ⟨hgt, x, hx, he⟩
      · exact ⟨by omega, o, List.mem_cons_self, he⟩
      · exact ⟨by omega, x, List.mem_cons_of_mem _ hx, he⟩
    · rename_i hc
      obtain ⟨h1, h2⟩ := ih off moved
      refine ⟨fun h => ?_, fun h => ?_⟩
      · obtain ⟨he, hm, hall⟩ := h1 h
        refine ⟨he, hm, fun x hx => ?_⟩
        rcases List.mem_cons.mp hx with rfl | hx
        · exact hc
        · exact hall x hx
      · rcases h2 h with h | ⟨hgt, x, hx, he⟩
        · exact .inl h
        · exact .inr ⟨hgt, x, List.mem_cons_of_mem _ hx, he⟩

/-- How many placed buffers end beyond `off`: no pass can repeat an offset. -/
def ahead (placed : List Placed) (off : Nat) : Nat :=
  (placed.filter fun o => off < o.off + o.size).length

theorem ahead_lt {o : Placed} (ho : o ∈ placed) (h : off < o.off + o.size) :
    ahead placed (o.off + o.size) < ahead placed off := by
  induction placed with
  | nil => simp at ho
  | cons x rest ih =>
    have hmono : ahead rest (o.off + o.size) ≤ ahead rest off := by
      refine List.Sublist.length_le (List.monotone_filter_right rest fun y hy => ?_)
      simp only [decide_eq_true_eq] at hy ⊢
      omega
    unfold ahead at *
    rcases List.mem_cons.mp ho with rfl | ho
    · rw [List.filter_cons_of_neg (by simp), List.filter_cons_of_pos (by simpa using h),
        List.length_cons]
      omega
    · have := ih ho
      by_cases hx : o.off + o.size < x.off + x.size
      · rw [List.filter_cons_of_pos (by simpa using hx),
          List.filter_cons_of_pos (by simp only [decide_eq_true_eq]; omega)]
        simpa using this
      · rw [List.filter_cons_of_neg (by simpa using hx)]
        by_cases hx' : off < x.off + x.size
        · rw [List.filter_cons_of_pos (by simpa using hx')]
          simp only [List.length_cons]
          omega
        · rw [List.filter_cons_of_neg (by simpa using hx')]
          exact this

/-- With enough passes the offset clashes with no placed buffer. -/
theorem fit_spec (fuel off : Nat) (h : ahead placed off < fuel) :
    ∀ o ∈ placed, ¬o.clashes born last size (fit born last size placed fuel off) := by
  induction fuel generalizing off with
  | zero => omega
  | succ fuel ih =>
    unfold fit
    have hs := fitPass_spec born last size placed off false
    dsimp only at hs
    split
    next off' hp =>
      rw [hp] at hs
      rcases hs.2 rfl with ⟨hm, -⟩ | ⟨hgt, o, ho, he⟩
      · cases hm
      · refine ih off' ?_
        subst he
        have := ahead_lt ho hgt
        omega
    next off' hp =>
      rw [hp] at hs
      obtain ⟨he, -, hall⟩ := hs.1 rfl
      dsimp only at he
      subst he
      exact hall

end

-- ---------------------------------------------------------------------------
-- Placement
-- ---------------------------------------------------------------------------

/-- Buffers `b` and `c` share no byte. -/
def Plan.Disjoint (p : Plan) (b c : Nat) : Prop :=
  p.off b + p.bufSize b ≤ p.off c ∨ p.off c + p.bufSize c ≤ p.off b

theorem Plan.Disjoint.symm (h : p.Disjoint b c) : p.Disjoint c b := Or.symm h

/-- The first `n` buffers are placed below the peak, apart where they live at the
same time. -/
structure PlacedOk (lim : Limits) (last : Nat → Nat) (n peak : Nat) (p : Plan) : Prop where
  length : p.bufOff.length = n
  below : ∀ b < n, p.off b + p.bufSize b ≤ peak
  peak_le : peak ≤ lim.planMax
  apart : ∀ b < n, ∀ c < b, defTime b ≤ last c → defTime c ≤ last b → p.Disjoint b c

theorem placeBuffer_spec (lim : Limits) (last : Nat → Nat) (n peak : Nat) (p : Plan)
    (h : PlacedOk lim last n peak p) :
    Triple (placeBuffer lim last n) p
      (fun top p' => p' = { p with bufOff := p'.bufOff } ∧
        PlacedOk lim last (n + 1) (max peak top) p') (fun _ _ => True) := by
  unfold placeBuffer
  refine Triple.get_bind ?_
  dsimp only
  generalize hoff : fit (defTime n) (last n) (p.bufSize n) (p.placed last) (n + 1) 0 = off
  refine Triple.ite (fun _ => Triple.throw trivial) (fun hle => Triple.modify_bind
    (Triple.pure' ⟨rfl, ?_⟩))
  have hlen := h.length
  have hahead : ahead (p.placed last) 0 < n + 1 := by
    refine Nat.lt_succ_of_le ((List.length_filter_le _ _).trans ?_)
    simp [Plan.placed, hlen]
  have hclear := fit_spec (defTime n) (last n) (p.bufSize n) (n + 1) 0 hahead
  rw [hoff] at hclear
  -- offsets of earlier buffers are as before
  have hold : ∀ b < n, (p.bufOff ++ [off]).getD b 0 = p.off b := fun b hb => by
    simp [Plan.off, List.getElem?_append_left (hlen ▸ hb)]
  have hnew : (p.bufOff ++ [off]).getD n 0 = off := by simp [← hlen]
  refine ⟨by simp [hlen], fun b hb => ?_, ?_, fun b hb c hc h1 h2 => ?_⟩
  · show (p.bufOff ++ [off]).getD b 0 + p.bufSize b ≤ max peak (off + p.bufSize n)
    rcases Nat.lt_succ_iff_lt_or_eq.mp hb with hlt | rfl
    · rw [hold b hlt]
      exact (h.below b hlt).trans (Nat.le_max_left _ _)
    · rw [hnew]
      exact Nat.le_max_right _ _
  · exact Nat.max_le.mpr ⟨h.peak_le, by omega⟩
  · show (p.bufOff ++ [off]).getD b 0 + p.bufSize b ≤ (p.bufOff ++ [off]).getD c 0 ∨
      (p.bufOff ++ [off]).getD c 0 + p.bufSize c ≤ (p.bufOff ++ [off]).getD b 0
    rcases Nat.lt_succ_iff_lt_or_eq.mp hb with hlt | rfl
    · rw [hold b hlt, hold c (by omega)]
      exact h.apart b hlt c hc h1 h2
    · rw [hnew, hold c hc]
      have hmem : (⟨defTime c, last c, p.off c, p.bufSize c⟩ : Placed) ∈ p.placed last := by
        refine List.mem_map.mpr ⟨(p.off c, c), ?_, rfl⟩
        rw [List.mem_zipIdx_iff_getElem?]
        simp [Plan.off, hlen, hc]
      have := hclear _ hmem
      simp only [Placed.clashes, not_and, Nat.not_lt] at this
      by_cases ho : off < p.off c + p.bufSize c
      · left
        exact this ⟨h1, h2⟩ ho
      · right
        omega

theorem placeFrom_spec (lim : Limits) (last : Nat → Nat) (k n peak : Nat) (p : Plan)
    (h : PlacedOk lim last n peak p) :
    Triple (placeFrom lim last k n peak) p
      (fun _ p' => p' = { p with bufOff := p'.bufOff, plannedPeak := p'.plannedPeak } ∧
        PlacedOk lim last (n + k) p'.plannedPeak p') (fun _ _ => True) := by
  induction k generalizing n peak p with
  | zero => exact Triple.modify ⟨rfl, h.length, h.below, h.peak_le, h.apart⟩
  | succ k ih =>
    unfold placeFrom
    refine Triple.bind (placeBuffer_spec lim last n peak p h) ?_
    rintro top p₁ ⟨he, h₁⟩
    refine (ih (n + 1) (max peak top) p₁ h₁).mono ?_ (fun _ _ h => h)
    rintro _ p₂ ⟨he₂, h₂⟩
    refine ⟨by rw [he₂, he], ?_⟩
    rw [show n + (k + 1) = n + 1 + k by omega]
    exact h₂

/-- A plan that was accepted for a blob. -/
structure Planned (lim : Limits) (data : List UInt8) (p : Plan) : Prop where
  model : p.model = data
  layers : LayersOk p.layers
  count : 0 < p.layerCount
  input : 0 < p.inputSize
  placed : PlacedOk lim p.last (p.layerCount + 1) p.plannedPeak p

theorem planLive_spec (lim : Limits) (data : List UInt8) (p : Plan) :
    Triple (planLive lim data) p (fun _ p' => Planned lim data p') (fun _ _ => True) := by
  unfold planLive
  refine Triple.bind (Q := fun _ p' => p'.model = data ∧ LayersOk p'.layers ∧
    0 < p'.layerCount ∧ 0 < p'.inputSize) ?_ ?_
  · unfold parseModel
    split
    · exact Triple.throw trivial
    · rename_i dag n input hh
      obtain ⟨hn, -, hin, -⟩ := parseHeader_ok hh
      refine Triple.modify_bind ?_
      refine (parseLayers_spec lim dag data n 0 _ rfl (fun i l hl => by simp at hl)).mono ?_
        (fun _ _ h => h)
      rintro _ p' ⟨he, hlen, hok⟩
      exact ⟨by rw [he], hok, by rw [Plan.layerCount]; omega, by rw [he]; exact hin⟩
  · rintro _ p₁ ⟨hm, hok, hn, hin⟩
    unfold placeBuffers
    refine Triple.get_bind (Triple.modify_bind ?_)
    refine (placeFrom_spec lim p₁.last (p₁.layerCount + 1) 0 0 _ ⟨rfl, fun b hb => by omega,
      Nat.zero_le _, fun b hb => by omega⟩).mono ?_ (fun _ _ h => h)
    rintro _ p' ⟨he, h⟩
    rw [Nat.zero_add] at h
    have hl : p'.layers = p₁.layers := by rw [he]
    have hlast : p'.last = p₁.last := by rw [Plan.last, Plan.last, Plan.layerCount, hl]; rfl
    exact ⟨by rw [he]; exact hm, hl ▸ hok, by rw [Plan.layerCount, hl]; exact hn,
      by rw [he]; exact hin, by rw [hlast, Plan.layerCount, hl]; exact h⟩

-- ---------------------------------------------------------------------------
-- Planning again
-- ---------------------------------------------------------------------------

theorem parseLayers_again (hq : q.layers = p.layers)
    (h : (parseLayers lim dag data k i).run p = (.ok (), p')) :
    (parseLayers lim dag data k i).run q = (.ok (), { q with layers := p'.layers }) := by
  induction k generalizing i p q with
  | zero =>
    cases h
    rw [← hq]
    rfl
  | succ k ih =>
    unfold parseLayers at h ⊢
    cases hl : parseLayer lim dag data i with
    | error e =>
      rw [hl] at h
      cases h
    | ok l =>
      rw [hl] at h
      exact ih (q := { q with layers := q.layers ++ [l] }) (by rw [hq]) h

/-- Same buffers, and the first of them at the same offsets. -/
structure Plan.Same (p q : Plan) : Prop where
  layers : q.layers = p.layers
  input : q.inputSize = p.inputSize
  bufOff : q.bufOff = p.bufOff

theorem Plan.Same.bufSize (h : p.Same q) : q.bufSize = p.bufSize := by
  funext b
  cases b with
  | zero => exact h.input
  | succ i => rw [Plan.bufSize, Plan.bufSize, h.layers]

theorem Plan.Same.placed (h : p.Same q) (t : Nat → Nat) : q.placed t = p.placed t := by
  rw [Plan.placed, Plan.placed, h.bufSize, h.bufOff]

theorem placeBuffer_again (hq : p.Same q) (h : (placeBuffer lim t n).run p = (.ok top, p')) :
    (placeBuffer lim t n).run q = (.ok top, { q with bufOff := p'.bufOff }) ∧
      p' = { p with bufOff := p'.bufOff } := by
  have he : ∀ r : Plan, (placeBuffer lim t n).run r =
      if lim.planMax < fit (defTime n) (t n) (r.bufSize n) (r.placed t) (n + 1) 0 + r.bufSize n
      then (.error .enomem, r)
      else (.ok (fit (defTime n) (t n) (r.bufSize n) (r.placed t) (n + 1) 0 + r.bufSize n),
        { r with bufOff := r.bufOff ++
          [fit (defTime n) (t n) (r.bufSize n) (r.placed t) (n + 1) 0] }) := by
    intro r
    unfold placeBuffer
    rw [Act.run_bind, Act.run_get]
    dsimp only
    rw [Act.run_ite]
    rfl
  rw [he] at h ⊢
  rw [hq.bufSize, hq.placed, hq.bufOff]
  split at h
  · cases h
  · rename_i hlt
    cases h
    rw [if_neg hlt]
    exact ⟨rfl, rfl⟩

theorem placeFrom_again (hq : p.Same q)
    (h : (placeFrom lim t k n peak).run p = (.ok (), p')) :
    (placeFrom lim t k n peak).run q =
      (.ok (), { q with bufOff := p'.bufOff, plannedPeak := p'.plannedPeak }) := by
  induction k generalizing n peak p q with
  | zero =>
    cases h
    rw [← hq.bufOff]
    rfl
  | succ k ih =>
    unfold placeFrom at h ⊢
    cases hp : (placeBuffer lim t n).run p with
    | mk r p₁ =>
      cases r with
      | error e =>
        rw [Act.run_bind_error hp] at h
        cases h
      | ok top =>
        obtain ⟨hb, he⟩ := placeBuffer_again hq hp
        rw [Act.run_bind_ok hp] at h
        rw [Act.run_bind_ok hb]
        refine ih (p := p₁) ⟨?_, ?_, rfl⟩ h
        · rw [he]
          exact hq.layers
        · rw [he]
          exact hq.input

/-- What placement starts from: the parsed part alone matters. -/
theorem placeBuffers_again (hm : q.model = p.model) (hi : q.inputSize = p.inputSize)
    (hl : q.layers = p.layers) (h : (placeBuffers lim).run p = (.ok (), p')) :
    (placeBuffers lim).run q = (.ok (), p') := by
  cases p with
  | mk model input layers off peak naive =>
    cases q with
    | mk model' input' layers' off' peak' naive' =>
      dsimp only at hm hi hl
      subst hm hi hl
      generalize hp : (⟨model', input', layers', [], peak, ((List.range (layers'.length + 1)).map
        (Plan.bufSize ⟨model', input', layers', off, peak, naive⟩)).sum⟩ : Plan) = start
      have hs : (placeFrom lim (Plan.last ⟨model', input', layers', off, peak, naive⟩)
          (layers'.length + 1) 0 0).run start = (.ok (), p') := hp ▸ h
      have hself := placeFrom_again (q := start) ⟨rfl, rfl, rfl⟩ hs
      have he : p' = { start with bufOff := p'.bufOff, plannedPeak := p'.plannedPeak } :=
        congrArg Prod.snd (hs.symm.trans hself)
      have hq := placeFrom_again (p := start) (q := { start with plannedPeak := peak' }) ⟨rfl, rfl, rfl⟩ hs
      rw [he]
      subst hp
      exact hq

/-- Planning again gives the same plan, whatever the static plan held. -/
theorem planLive_const (h : (planLive lim data).run p = (.ok (), p')) (q : Plan) :
    (planLive lim data).run q = (.ok (), p') := by
  cases hh : parseHeader lim data with
  | error e =>
    unfold planLive parseModel at h
    rw [hh] at h
    cases h
  | ok x =>
    obtain ⟨dag, n, input⟩ := x
    have hrun : ∀ r : Plan, (planLive lim data).run r =
        ((parseLayers lim dag data n 0 >>= fun _ => placeBuffers lim) : PlanM Unit).run
          { r with model := data, inputSize := input, layers := [] } := by
      intro r
      unfold planLive parseModel
      rw [hh]
      rfl
    rw [hrun] at h ⊢
    generalize hp₀ : ({ p with model := data, inputSize := input, layers := [] } : Plan) = p₀ at h
    generalize hq₀ : ({ q with model := data, inputSize := input, layers := [] } : Plan) = q₀
    have hm : q₀.model = p₀.model := by rw [← hp₀, ← hq₀]
    have hi : q₀.inputSize = p₀.inputSize := by rw [← hp₀, ← hq₀]
    have hl : q₀.layers = p₀.layers := by rw [← hp₀, ← hq₀]
    cases hp : (parseLayers lim dag data n 0).run p₀ with
    | mk r p₁ =>
      cases r with
      | error e =>
        rw [Act.run_bind_error hp] at h
        cases h
      | ok _ =>
        have he : p₁ = { p₀ with layers := p₁.layers } :=
          congrArg Prod.snd (hp.symm.trans (parseLayers_again rfl hp))
        rw [Act.run_bind_ok hp] at h
        rw [Act.run_bind_ok (parseLayers_again hl hp)]
        exact placeBuffers_again (p := p₁) (by rw [he]; exact hm) (by rw [he]; exact hi) rfl h

namespace Planned

/-- Buffers that live at the same time share no byte. -/
theorem disjoint (h : Planned lim data p) (hb : b ≤ p.layerCount) (hc : c ≤ p.layerCount)
    (hne : b ≠ c) (h1 : defTime b ≤ p.last c) (h2 : defTime c ≤ p.last b) : p.Disjoint b c := by
  rcases Nat.lt_or_gt_of_ne hne with hlt | hgt
  · exact (h.placed.apart c (by omega) b hlt h2 h1).symm
  · exact h.placed.apart b (by omega) c hgt h1 h2

theorem size_pos (h : Planned lim data p) (hb : b ≤ p.layerCount) : 0 < p.bufSize b := by
  cases b with
  | zero => exact h.input
  | succ i =>
    rw [Plan.bufSize, List.getElem?_eq_getElem hb]
    exact (h.layers i _ (List.getElem?_eq_getElem hb)).out

theorem in_peak (h : Planned lim data p) (hb : b ≤ p.layerCount) :
    p.off b + p.bufSize b ≤ p.plannedPeak := h.placed.below b (by omega)

end Planned

end SynapticOS.Layered
