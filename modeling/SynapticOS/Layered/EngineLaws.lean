import SynapticOS.Layered.Engine
import SynapticOS.Layered.PlanLaws

/-!
# Sharing the plan area is exact

Between two layers the plan area holds every buffer that a later layer or the
output still reads, with the reference's content (`Holds`). A layer writes its
own buffer only, which shares no byte with these (`runLayer_spec`), so a session
finishes with the reference's output (`finish_spec`).
-/

namespace SynapticOS.Layered

open Lib

variable {lim : Limits} {p : Plan} {m m' : Mem} {i : Nat} {l : Layer}

-- ---------------------------------------------------------------------------
-- The reference
-- ---------------------------------------------------------------------------

/-- What buffer `b` holds in the reference. -/
def refBuf (layers : List Layer) (input : List UInt8) (b : Nat) : List UInt8 :=
  (refBufs (layers.take b) 0 [input]).getD b []

theorem refBufs_append (a b : List Layer) (i : Nat) (bufs : List (List UInt8)) :
    refBufs (a ++ b) i bufs = refBufs b (i + a.length) (refBufs a i bufs) := by
  induction a generalizing i bufs with
  | nil => rfl
  | cons x rest ih =>
    simp only [List.cons_append, refBufs, List.length_cons]
    rw [ih, Nat.add_assoc, Nat.add_comm 1]

theorem length_refBufs (layers : List Layer) (i : Nat) (bufs : List (List UInt8)) :
    (refBufs layers i bufs).length = bufs.length + layers.length := by
  induction layers generalizing i bufs with
  | nil => rfl
  | cons x rest ih =>
    rw [refBufs, ih, List.length_append, List.length_cons, List.length_cons, List.length_nil]
    omega

theorem refBufs_getD (layers : List Layer) (i : Nat) (bufs : List (List UInt8))
    (h : b < bufs.length) : (refBufs layers i bufs).getD b [] = bufs.getD b [] := by
  induction layers generalizing i bufs with
  | nil => rfl
  | cons x rest ih =>
    rw [refBufs, ih _ _ (by simp; omega)]
    simp [List.getElem?_append_left h]

/-- Later layers leave the earlier buffers alone. -/
theorem refBufs_take (layers : List Layer) (input : List UInt8) (hb : b ≤ i)
    (hi : i ≤ layers.length) :
    (refBufs (layers.take i) 0 [input]).getD b [] = refBuf layers input b := by
  have h : layers.take i = layers.take b ++ (layers.take i).drop b := by
    have := (List.take_append_drop b (layers.take i)).symm
    rwa [List.take_take, Nat.min_eq_left hb] at this
  rw [h, refBufs_append, refBufs_getD]
  · rfl
  · rw [length_refBufs]
    simp
    omega

theorem reference_eq (layers : List Layer) (input : List UInt8) :
    reference layers input = refBuf layers input layers.length := by
  rw [reference, refBuf, List.take_length]

theorem refBuf_zero (layers : List Layer) (input : List UInt8) : refBuf layers input 0 = input := rfl

theorem refBuf_succ (input : List UInt8) (hl : layers[i]? = some l) :
    refBuf layers input (i + 1) = refLayer (refBufs (layers.take i) 0 [input]) i l := by
  have hi : i < layers.length := (List.getElem?_eq_some_iff.mp hl).1
  have ht : layers.take (i + 1) = layers.take i ++ [l] := by
    rw [List.take_add_one, hl]
    rfl
  have hlen : (refBufs (layers.take i) 0 [input]).length = i + 1 := by
    rw [length_refBufs]
    simp
    omega
  rw [refBuf, ht, refBufs_append, List.length_take, Nat.min_eq_left (Nat.le_of_lt hi), Nat.zero_add]
  simp [refBufs, hlen]

-- ---------------------------------------------------------------------------
-- One layer
-- ---------------------------------------------------------------------------

/-- The sources give the same bytes. -/
structure Source.Same (a a' : Source) : Prop where
  size : a'.size = a.size
  pos : 0 < a.size
  byte : ∀ k < a.size, a'.byte k = a.byte k

theorem mix_congr {a a' : Source} {b b' : Option Source} (ha : a.Same a')
    (hb : Option.Rel Source.Same b b') (i j : Nat) : mix i j a' b' = mix i j a b := by
  unfold mix
  rw [ha.size, ha.byte _ (Nat.mod_lt _ ha.pos), ha.byte _ (Nat.mod_lt _ ha.pos)]
  cases hb with
  | none => rfl
  | some hs =>
    dsimp only [Option.elim_some]
    rw [hs.size, hs.byte _ (Nat.mod_lt _ hs.pos)]

theorem optionRel_map {r : β → β → Prop} {f g : α → β} (o : Option α)
    (h : ∀ x, o = some x → r (f x) (g x)) : Option.Rel r (o.map f) (o.map g) := by
  cases o with
  | none => exact .none
  | some x => exact .some (h x rfl)

/-- The loop of a layer, from byte `j`, when its sources share no byte with its
output. -/
theorem runLayer_spec (m₀ : Mem)
    (hsep : ∀ m' j, Mem.SameOutside (p.off (i + 1)) (p.off (i + 1) + l.outSize) m₀ m' →
      mix i j (p.source m' l.srcA) (l.srcB.map (p.source m')) =
        mix i j (p.source m₀ l.srcA) (l.srcB.map (p.source m₀)))
    (k j : Nat) (m : Mem) (hj : j + k = l.outSize)
    (hout : Mem.SameOutside (p.off (i + 1)) (p.off (i + 1) + l.outSize) m₀ m)
    (hdone : ∀ t < j, m (p.off (i + 1) + t) =
      mix i t (p.source m₀ l.srcA) (l.srcB.map (p.source m₀))) :
    Mem.SameOutside (p.off (i + 1)) (p.off (i + 1) + l.outSize) m₀ (runLayer p i l k j m) ∧
      (runLayer p i l k j m).read (p.off (i + 1)) l.outSize =
        (List.range l.outSize).map fun j =>
          mix i j (p.source m₀ l.srcA) (l.srcB.map (p.source m₀)) := by
  induction k generalizing j m with
  | zero =>
    refine ⟨hout, Mem.read_eq (by simp) fun t ht => ?_⟩
    simp only [List.getElem_map, List.getElem_range]
    exact hdone t (by simp at ht; omega)
  | succ k ih =>
    unfold runLayer
    dsimp only
    rw [hsep m j hout]
    generalize hbyte : mix i j (p.source m₀ l.srcA) (l.srcB.map (p.source m₀)) = byte
    refine ih (j + 1) _ (by omega) (hout.trans ?_) fun t ht => ?_
    · exact (Mem.sameOutside_put (by simp; omega)).mono (Nat.le_add_right _ _) (Nat.le_refl _)
    · rcases Nat.lt_succ_iff_lt_or_eq.mp ht with hlt | rfl
      · rw [Mem.put_of_lt (by omega)]
        exact hdone t hlt
      · have hput : m.put (p.off (i + 1) + t) [byte] (p.off (i + 1) + t + 0) = byte :=
          Mem.put_add (by simp)
        rw [hbyte]
        exact hput

-- ---------------------------------------------------------------------------
-- Between layers
-- ---------------------------------------------------------------------------

/-- Before layer `i` every buffer that is still read holds what the reference has
in it. -/
def Holds (p : Plan) (m : Mem) (i : Nat) (input : List UInt8) : Prop :=
  ∀ b ≤ i, i ≤ p.last b → m.read (p.off b) (p.bufSize b) = refBuf p.layers input b

theorem Holds.start (h : input.length = p.inputSize) : Holds p (m.put (p.off 0) input) 0 input := by
  intro b hb _
  obtain rfl : b = 0 := by omega
  rw [refBuf_zero, Plan.bufSize, ← h]
  exact Mem.read_put

/-- Only the bytes below the planned peak matter. -/
theorem Holds.congr (hp : Planned lim data p) (h : Holds p m i input) (hi : i ≤ p.layerCount)
    (hs : Mem.SameOn 0 p.plannedPeak m m') : Holds p m' i input := by
  intro b hb hl
  rw [← h b hb hl]
  exact Mem.read_congr (hs.mono (Nat.zero_le _) (hp.in_peak (hb.trans hi)))

/-- A source as the layer reads it is the reference's. -/
theorem source_same (hp : Planned lim data p) (h : Holds p m i input) (hi : i ≤ p.layerCount)
    (hb : b ≤ i) (hlast : i ≤ p.last b) :
    (p.source m b).Same (refSource (refBufs (p.layers.take i) 0 [input]) b) := by
  have hread := h b hb hlast
  have hsize : (refBuf p.layers input b).length = p.bufSize b := by rw [← hread, Mem.length_read]
  have href := refBufs_take p.layers input hb hi
  refine ⟨?_, hp.size_pos (hb.trans hi), fun k hk => ?_⟩
  · show ((refBufs (p.layers.take i) 0 [input]).getD b []).length = p.bufSize b
    rw [href, hsize]
  · show ((refBufs (p.layers.take i) 0 [input]).getD b []).getD k 0 = m (p.off b + k)
    rw [href, ← hread, List.getD_eq_getElem?_getD,
      List.getElem?_eq_getElem (by rw [Mem.length_read]; exact hk), Mem.getElem_read]
    rfl

/-- Running layer `i` keeps what later layers read. -/
theorem Holds.step (hp : Planned lim data p) (h : Holds p m i input) (hl : p.layers[i]? = some l) :
    Holds p (runLayer p i l l.outSize 0 m) (i + 1) input := by
  have hi : i < p.layerCount := (List.getElem?_eq_some_iff.mp hl).1
  have hsize : p.bufSize (i + 1) = l.outSize := by rw [Plan.bufSize, hl]; rfl
  have hok := hp.layers i l hl
  have hsrc := Plan.src_le_last hp.layers hl
  -- the output buffer is apart from every buffer that is still read
  have happart : ∀ b ≤ i, i ≤ p.last b → p.Disjoint (i + 1) b := fun b hb hlast =>
    hp.disjoint hi (hb.trans (Nat.le_of_lt hi)) (by omega) hlast
      (Nat.le_trans (Nat.sub_le _ _) (hb.trans ((Nat.le_of_eq rfl).trans
        (Plan.defTime_le_last (b := i + 1) hi))))
  have hstable : ∀ b ≤ i, i ≤ p.last b → ∀ m', Mem.SameOutside (p.off (i + 1))
      (p.off (i + 1) + l.outSize) m m' → Mem.SameOn (p.off b) (p.off b + p.bufSize b) m m' := by
    intro b hb hlast m' hs
    have := happart b hb hlast
    rw [Plan.Disjoint, hsize] at this
    exact hs.sameOn this.symm
  have hsame : ∀ b ≤ i, i ≤ p.last b → ∀ m', Mem.SameOutside (p.off (i + 1))
      (p.off (i + 1) + l.outSize) m m' → (p.source m b).Same (p.source m' b) := by
    intro b hb hlast m' hs
    exact ⟨rfl, hp.size_pos (hb.trans (Nat.le_of_lt hi)), fun k hk =>
      hstable b hb hlast m' hs _ (Nat.le_add_right _ _) (Nat.add_lt_add_left hk _)⟩
  obtain ⟨hout, hnew⟩ := runLayer_spec m (fun m' j hs => mix_congr
    (hsame _ hok.srcA hsrc.1 m' hs) (optionRel_map _ fun b hb =>
      hsame b (hok.srcB b hb) (hsrc.2 b hb) m' hs) i j) l.outSize 0 m (Nat.zero_add _)
    Mem.SameOutside.rfl (fun t ht => by omega)
  intro b hb hlast
  rcases Nat.lt_succ_iff_lt_or_eq.mp (Nat.lt_succ_of_le hb) with hlt | rfl
  · rw [← h b (by omega) (by omega)]
    exact Mem.read_congr (hstable b (by omega) (by omega) _ hout)
  · rw [hsize, hnew, refBuf_succ input hl, refLayer]
    refine List.map_congr_left fun j _ => ?_
    exact (mix_congr (source_same hp h (Nat.le_of_lt hi) hok.srcA hsrc.1) (optionRel_map _
      fun b hb => source_same hp h (Nat.le_of_lt hi) (hok.srcB b hb) (hsrc.2 b hb)) i j).symm

-- ---------------------------------------------------------------------------
-- Sessions
-- ---------------------------------------------------------------------------

/-- The live session of `e` is `s`, so far as it has run. -/
structure Live (lim : Limits) (s : Session) (e : Engine) : Prop where
  plan : (planLive lim s.blob).run e.plan = (.ok (), e.plan)
  active : e.active = true
  next : e.next ≤ e.plan.layerCount
  input : s.input.length = e.plan.inputSize
  holds : Holds e.plan e.area e.next s.input

/-- A parked session `s`. -/
structure IsParked (lim : Limits) (s : Session) (k : Parked) : Prop where
  model : k.model = s.blob
  live : ∃ e, Live lim s e ∧ k.next = e.next ∧ k.area = e.area.read 0 e.plan.plannedPeak

section
variable {s : Session} {e : Engine}

theorem Live.planned (h : Live lim s e) : Planned lim s.blob e.plan :=
  (planLive_spec lim s.blob e.plan).ok h.plan

/-- Nothing of the engine but the live context matters to a session. -/
theorem Live.of_same (h : Live lim s e) {e' : Engine} (hp : e'.plan = e.plan)
    (ha : e'.area = e.area) (hn : e'.next = e.next) (hl : e'.active = e.active) : Live lim s e' := by
  obtain ⟨h1, h2, h3, h4, h5⟩ := h
  refine ⟨?_, ?_, ?_, ?_, ?_⟩
  · rwa [hp]
  · rwa [hl]
  · rwa [hp, hn]
  · rwa [hp]
  · rwa [hp, ha, hn]

/-- The engine after another planning. -/
def Engine.withPlan (e : Engine) (p : Plan) : Engine := { e with plan := p }

theorem livePlan_run (h : (planLive lim blob).run q = (.ok (), p)) (e : Engine) :
    (livePlan lim blob).run e = (.ok (), e.withPlan p) := by
  rw [livePlan, Act.run_zoom, planLive_const h]
  rfl

theorem planLive_fixed (h : (planLive lim blob).run q = (.ok (), p)) :
    (planLive lim blob).run p = (.ok (), p) := planLive_const h p

/-- The engine after a session has begun. -/
def Engine.begun (e : Engine) (p : Plan) (input : List UInt8) : Engine :=
  { e with plan := p, area := e.area.put (p.off 0) input, next := 0, active := true }

theorem begin_run (hr : e.resident = some s.blob) (h : (planLive lim s.blob).run q = (.ok (), p))
    (hin : s.input.length = p.inputSize) :
    (begin lim s.input).run e = (.ok p.layerCount, e.begun p s.input) := by
  rw [begin, Act.run_bind, Act.run_get]
  dsimp only
  rw [hr]
  dsimp only
  rw [Act.run_bind, Act.run_attempt, livePlan_run h]
  dsimp only
  rw [Act.run_bind, Act.run_get]
  dsimp only
  rw [Act.run_ite]
  exact if_neg (not_not.mpr hin)

theorem begun_live (h : (planLive lim s.blob).run q = (.ok (), p))
    (hin : s.input.length = p.inputSize) (e : Engine) : Live lim s (e.begun p s.input) :=
  ⟨planLive_fixed h, rfl, Nat.zero_le _, hin, Holds.start hin⟩

/-- The engine after the next layer. -/
def Engine.stepped (e : Engine) (l : Layer) : Engine :=
  { e with area := runLayer e.plan e.next l l.outSize 0 e.area, next := e.next + 1 }

theorem step_run (ha : e.active = true) (hl : e.plan.layers[e.next]? = some l) :
    step.run e = (.ok (e.plan.layerCount - (e.next + 1)), e.stepped l) := by
  rw [step, Act.run_bind, Act.run_get]
  dsimp only
  rw [ha, hl]
  rfl

theorem Live.stepped (h : Live lim s e) (hl : e.plan.layers[e.next]? = some l) :
    Live lim s (e.stepped l) :=
  ⟨h.plan, h.active, (List.getElem?_eq_some_iff.mp hl).1, h.input, h.holds.step h.planned hl⟩

theorem stepN_run (k : Nat) (h : Live lim s e) (hk : e.next + k = e.plan.layerCount) :
    ∃ e', (stepN k).run e = (.ok (), e') ∧ Live lim s e' ∧ e'.plan = e.plan ∧
      e'.next = e.plan.layerCount := by
  induction k generalizing e with
  | zero => exact ⟨e, rfl, h, rfl, hk⟩
  | succ k ih =>
    have hlt : e.next < e.plan.layers.length := by rw [Plan.layerCount] at hk; omega
    have hl := List.getElem?_eq_getElem hlt
    obtain ⟨e', hr, hlive, hp, hn⟩ := ih (h.stepped hl) (by
      show e.next + 1 + k = e.plan.layerCount
      omega)
    exact ⟨e', by rw [stepN, Act.run_bind_ok (step_run h.active hl), hr], hlive, hp, hn⟩

/-- What a session ends with. -/
def result (p : Plan) (input : List UInt8) (cap : Nat) : Except Errno (List UInt8) :=
  if cap < p.bufSize p.layerCount then .error .enomem else .ok (reference p.layers input)

theorem output_run (h : Live lim s e) (hn : e.next = e.plan.layerCount) (cap : Nat) :
    ((output cap).run e).1 = result e.plan s.input cap := by
  rw [output, Act.run_bind, Act.run_get]
  dsimp only
  rw [Act.run_ite, if_neg (by rw [h.active]; exact Bool.noConfusion), Act.run_ite,
    if_neg (by omega), Act.run_ite, result]
  split
  · rfl
  · have := h.holds e.next (Nat.le_refl _) (by rw [hn, Plan.last_output])
    rw [reference_eq, ← Plan.layerCount, ← hn, ← this, hn]
    rfl

/-- A live session finishes with the reference's output. -/
theorem finish_spec (h : Live lim s e) (cap : Nat) :
    ((finish cap).run e).1 = result e.plan s.input cap := by
  obtain ⟨e', hr, hlive, hp, hn⟩ := stepN_run (e.plan.layerCount - e.next) h (by
    have := h.next
    omega)
  have hrem : remaining.run e = (.ok (e.plan.layerCount - e.next), e) := by
    rw [remaining, Act.run_bind, Act.run_get]
    dsimp only
    rw [h.active]
    rfl
  rw [finish, Act.run_bind_ok hrem, Act.run_bind_ok hr, output_run hlive (by rw [hp]; exact hn), hp]

theorem onLoad_run (h : (planLive lim blob).run q = (.ok (), p)) (e : Engine) :
    (onLoad lim blob).run e = (.ok (), { e with resident := some blob }) := by
  have hp := planLive_const h Engine.boot.plan
  unfold planLive at hp
  rw [onLoad, Act.run_modify]
  cases hq : (parseModel lim blob).run Engine.boot.plan with
  | mk r p₁ =>
    cases r with
    | error e =>
      rw [Act.run_bind_error hq] at hp
      cases hp
    | ok _ => rfl

theorem infer_run (e : Engine) (h : (planLive lim s.blob).run q = (.ok (), p))
    (hin : s.input.length = p.inputSize) (cap : Nat) :
    ((infer lim s cap).run e).1 = result p s.input cap := by
  have hb := begin_run (e := { e with resident := some s.blob }) rfl h hin
  rw [infer, Act.run_bind_ok (onLoad_run h e), Act.run_bind_ok hb,
    finish_spec (begun_live h hin _)]
  rfl

end

/-- Execution in the shared plan area equals execution with every activation in
its own buffer. -/
theorem infer_eq_reference (e : Engine) (s : Session) (p : Plan) (cap : Nat)
    (hfits : (planLive lim s.blob).run e.plan = (.ok (), p))
    (hin : s.input.length = p.inputSize) (hcap : p.bufSize p.layerCount ≤ cap) :
    ((infer lim s cap).run e).1 = .ok (reference p.layers s.input) := by
  rw [infer_run e hfits hin, result, if_neg (Nat.not_lt.mpr hcap)]

def smallLimits : Limits := ⟨64, 128, by decide, by decide⟩

/-- Three layers: the second has a skip edge to the input, whose bytes the third
reuses. -/
def skipBlob : List UInt8 :=
  [0x53, 0x59, 0x4E, 0x44, 3, 0, 2, 0,
   3, 0, 0, 0, 0xFE, 0xFF, 0xFD, 0xFF,
   2, 0, 0, 0, 0, 0, 0xFE, 0xFF,
   2, 0, 0, 0, 1, 0, 0xFD, 0xFF]

def skipPlan : Plan :=
  { model := skipBlob, inputSize := 2
    layers := [⟨3, 0, 0, none⟩, ⟨2, 0, 1, some 0⟩, ⟨2, 0, 2, none⟩]
    bufOff := [0, 2, 5, 0], plannedPeak := 7, naivePeak := 9 }

theorem infer_eq_reference_skip :
    ((infer smallLimits ⟨skipBlob, [5, 9]⟩ 8).run Engine.boot).1 =
      .ok (reference skipPlan.layers [5, 9]) :=
  infer_eq_reference Engine.boot ⟨skipBlob, [5, 9]⟩ skipPlan 8 rfl rfl (by decide)

end SynapticOS.Layered
