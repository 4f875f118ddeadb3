import Mathlib.Data.List.TakeWhile
import SynapticOS.Lib.Run
import SynapticOS.Remote.Exchange

/-!
# Answers belong to their requests

One exchange is followed from the request in the slot to the answer in it
(`Flight`). Where no call begins while an earlier exchange is still in flight, a
call only gets what was made for it, and the cores take turns at the slot
(`answers_belong`).
-/

namespace SynapticOS.Remote

open Lib

variable {s : Link}

-- ---------------------------------------------------------------------------
-- What is in flight
-- ---------------------------------------------------------------------------

/-- The messages of the protocol in a ring. -/
def exchange (l : List Msg) : List Msg := l.filter fun m => decide (m.kind ≠ .other)

/-- What an exchange depends on. -/
structure View where
  slot : Slot
  toCpu0 : List Msg
  toCpu1 : List Msg
  cpu0 : Cpu0
  cpu1 : Cpu1
  rx : Rx
  respMsg : Msg
  respSem : Bool
  made : List Made

def Link.view (s : Link) : View :=
  ⟨s.slot, exchange s.toCpu0, exchange s.toCpu1, s.cpu0, s.cpu1, s.rx, s.respMsg, s.respSem, s.made⟩

variable {v : View}

/-- Nothing of an exchange is in flight. -/
structure Quiet (v : View) : Prop where
  toCpu0 : v.toCpu0 = []
  toCpu1 : v.toCpu1 = []
  cpu0 : v.cpu0 = .idle
  rx : v.rx = .idle

instance (v : View) : Decidable (Quiet v) :=
  decidable_of_iff (v.toCpu0 = [] ∧ v.toCpu1 = [] ∧ v.cpu0 = .idle ∧ v.rx = .idle)
    ⟨fun h => ⟨h.1, h.2.1, h.2.2.1, h.2.2.2⟩, fun h => ⟨h.toCpu0, h.toCpu1, h.cpu0, h.rx⟩⟩

/-- A call that passes its checks begins. -/
def Link.begins (s : Link) : Op → Bool
  | .lookup name => decide (s.cpu1 = .idle ∧ (cstr name).length < nameSize)
  | .infer _ src _ _ => decide (s.cpu1 = .idle ∧ (src.input s.slot).length ≠ 0 ∧
    (src.input s.slot).length ≤ inputSize)
  | _ => false

/-- A call that begins finds nothing in flight. -/
def Calm (s : Link) (o : Op) : Prop := s.begins o = true → Quiet s.view

instance (s : Link) (o : Op) : Decidable (Calm s o) := by
  unfold Calm; infer_instance

-- ---------------------------------------------------------------------------
-- The request and the answer in the slot
-- ---------------------------------------------------------------------------

/-- Names are strings that fit. -/
def Req.Ok : Req → Prop
  | .lookup name => name.length < nameSize ∧ ∀ b ∈ name, b ≠ 0
  | .infer _ _ _ _ => True

/-- `n` bytes of the name or the input are written. -/
def Written (slot : Slot) (n : Nat) : Req → Prop
  | .lookup name => n ≤ (name ++ [0]).length ∧ slot.modelName.read 0 n = (name ++ [0]).take n
  | .infer model input _ _ => slot.model = model ∧ slot.inputLen = input.length ∧
    n ≤ input.length ∧ slot.input.read 0 n = input.take n

/-- The slot holds the request. -/
def Holds (slot : Slot) : Req → Prop
  | .lookup name => slot.modelName.read 0 (name ++ [0]).length = name ++ [0]
  | .infer model input _ _ => slot.model = model ∧ slot.inputLen = input.length ∧
    slot.input.read 0 input.length = input

/-- The slot holds an answer that was made for the call. -/
def Ready (v : View) (ask : Ask) : Prop :=
  match ask.req with
  | .lookup name => .handle ask.call name v.slot.model ∈ v.made
  | .infer model input _ _ => ∃ out, .output ask.call model input out ∈ v.made ∧
    v.slot.outputLen = out.length ∧ v.slot.output.read 0 out.length = out

/-- The handler works on the call. -/
def Serves (v : View) (ask : Ask) : Cpu0 → Prop
  | .idle => False
  | .lookup m => m.call = ask.call ∧ ask.req.kind = .modelLoad ∧ Holds v.slot ask.req
  | .found _ ret handle => ∃ name, ask.req = .lookup name ∧
    (ret = 0 → .handle ask.call name handle ∈ v.made)
  | .clearing m | .gate m | .info m | .length m | .alloc m =>
    m.call = ask.call ∧ ask.req.kind = .inferReq ∧ Holds v.slot ask.req
  | .copying m len bytes => m.call = ask.call ∧ ∃ model input cap priority,
    ask.req = .infer model input cap priority ∧ Holds v.slot ask.req ∧ len = input.length ∧
      bytes = input.take bytes.length
  | .starting m bytes => m.call = ask.call ∧ ∃ model cap priority,
    ask.req = .infer model bytes cap priority ∧ v.slot.model = model
  | .running m model input => m.call = ask.call ∧ ∃ cap priority,
    ask.req = .infer model input cap priority
  | .writing _ out n => ∃ model input cap priority, ask.req = .infer model input cap priority ∧
    .output ask.call model input out ∈ v.made ∧ n ≤ out.length ∧
      v.slot.output.read 0 n = out.take n
  | .status _ ret => ret = 0 → Ready v ask
  | .sending _ kind ret _ => kind ≠ .other ∧ (ret = 0 → Ready v ask)

/-- Where the exchange of a waiting call is. -/
inductive Flight (v : View) (ask : Ask) : Prop
  | asked (m : Msg) (h0 : v.toCpu0 = [m]) (h1 : v.toCpu1 = []) (hc : v.cpu0 = .idle)
    (hr : v.rx = .idle) (hs : v.respSem = false) (hm : m.call = ask.call)
    (hk : m.kind = ask.req.kind) (h : Holds v.slot ask.req)
  | serving (h0 : v.toCpu0 = []) (h1 : v.toCpu1 = []) (hr : v.rx = .idle)
    (hs : v.respSem = false) (h : Serves v ask v.cpu0)
  | replied (m : Msg) (h0 : v.toCpu0 = []) (h1 : v.toCpu1 = [m]) (hc : v.cpu0 = .idle)
    (hr : v.rx = .idle) (hs : v.respSem = false) (h : m.status = 0 → Ready v ask)
  | delivered (h0 : v.toCpu0 = []) (h1 : v.toCpu1 = []) (hc : v.cpu0 = .idle)
    (hr : v.rx = .giving) (hs : v.respSem = false) (h : v.respMsg.status = 0 → Ready v ask)
  /-- The token is there, or the exchange got lost. -/
  | ended (hq : Quiet v) (h : v.respSem = true → v.respMsg.status = 0 → Ready v ask)

/-- What holds while the call on CPU1 is at a point. -/
def At (v : View) : Cpu1 → Prop
  | .idle => True
  | .heading ask inPlace => Quiet v ∧ ask.req.Ok ∧ ∃ model input cap priority,
    ask.req = .infer model input cap priority ∧
      (inPlace = true → v.slot.input.read 0 input.length = input)
  | .writing ask n => Quiet v ∧ ask.req.Ok ∧ Written v.slot n ask.req
  | .resetting ask => Quiet v ∧ ask.req.Ok ∧ Holds v.slot ask.req
  | .sending ask _ => Quiet v ∧ ask.req.Ok ∧ Holds v.slot ask.req ∧ v.respSem = false
  | .waiting ask => ask.req.Ok ∧ Flight v ask
  | .answered ask => Quiet v ∧ (v.respMsg.status = 0 → Ready v ask)
  | .reading ask => Quiet v ∧ Ready v ask
  | .copying ask len bytes => Quiet v ∧ ∃ model input cap priority out,
    ask.req = .infer model input cap priority ∧ .output ask.call model input out ∈ v.made ∧
      v.slot.outputLen = out.length ∧ v.slot.output.read 0 out.length = out ∧
      len = out.length ∧ bytes = out.take bytes.length

def Phase (v : View) : Prop := At v v.cpu1

-- ---------------------------------------------------------------------------
-- Bytes
-- ---------------------------------------------------------------------------

/-- One more byte is written. -/
theorem read_put_next {m : Mem} {l : List UInt8} {b : UInt8} (h : m.read 0 n = l.take n)
    (hb : l[n]? = some b) : (m.put n [b]).read 0 (n + 1) = l.take (n + 1) := by
  have hlow : (m.put n [b]).read 0 n = m.read 0 n :=
    Mem.read_congr fun a _ ha => Mem.put_of_lt (by omega)
  have hnew : (m.put n [b]).read (0 + n) 1 = [b] := by
    rw [Nat.zero_add]
    exact Mem.read_put
  rw [Mem.read_add, hlow, hnew, h, List.take_add_one, hb]
  rfl

/-- One more byte is copied. -/
theorem take_append_next {m : Mem} {l : List UInt8} (h : m.read 0 l.length = l)
    (hb : bytes = l.take bytes.length) (hlt : bytes.length < l.length) :
    bytes ++ [m bytes.length] = l.take (bytes ++ [m bytes.length]).length := by
  have hget : m bytes.length = l[bytes.length] := by
    have hin : bytes.length < (m.read 0 l.length).length := by simpa using hlt
    have hread : (m.read 0 l.length)[bytes.length] = m (0 + bytes.length) := Mem.getElem_read hin
    simp only [h, Nat.zero_add] at hread
    exact hread.symm
  rw [List.length_append, List.length_singleton, List.take_add_one, ← hb, hget,
    List.getElem?_eq_getElem hlt]
  rfl

theorem take_all {l : List UInt8} (hb : bytes = l.take bytes.length)
    (hge : l.length ≤ bytes.length) : bytes = l := by
  rw [List.take_of_length_le hge] at hb
  exact hb

/-- A name that was written is the string that is read. -/
theorem cstr_written {m : Mem} {name : List UInt8} (hl : name.length < nameSize)
    (hz : ∀ b ∈ name, b ≠ 0) (h : m.read 0 (name ++ [0]).length = name ++ [0]) :
    cstr ((m.put (nameSize - 1) [0]).read 0 nameSize) = name := by
  have hend : ∀ a, a < nameSize → m.put (nameSize - 1) [0] a = if a = nameSize - 1 then 0 else m a := by
    intro a ha
    split
    · rename_i he
      have hput : m.put (nameSize - 1) [0] (nameSize - 1 + 0) = 0 := Mem.put_add (by simp)
      rw [he]
      exact hput
    · exact Mem.put_of_lt (by omega)
  have hget : ∀ i, i < name.length + 1 → m i = (name ++ [0]).getD i 0 := by
    intro i hi
    have hi' : i < (m.read 0 (name ++ [0]).length).length := by simpa using hi
    have hread : (m.read 0 (name ++ [0]).length)[i] = m (0 + i) := Mem.getElem_read hi'
    simp only [h, Nat.zero_add] at hread
    rw [← hread, List.getD_eq_getElem?_getD, List.getElem?_eq_getElem (by simpa using hi)]
    rfl
  have hput : (m.put (nameSize - 1) [0]).read 0 (name.length + 1) = name ++ [0] := by
    refine Mem.read_eq (by simp) fun i hi => ?_
    have hi' : i < name.length + 1 := by simpa using hi
    rw [Nat.zero_add, hend i (by omega)]
    split
    · -- the last place of the array is the end of the longest name
      rename_i he
      have hlen : name.length = nameSize - 1 := by omega
      simp [he, hlen]
    · rw [hget i hi', List.getD_eq_getElem?_getD, List.getElem?_eq_getElem hi]
      rfl
  have hsplit : nameSize = (name.length + 1) + (nameSize - (name.length + 1)) := by omega
  rw [hsplit, Mem.read_add, ← hsplit, hput]
  unfold cstr
  rw [List.append_assoc, List.takeWhile_append_of_pos (by simpa using hz)]
  simp

-- ---------------------------------------------------------------------------
-- CPU1
-- ---------------------------------------------------------------------------

theorem Holds.of_written {slot : Slot} {req : Req} (h : Written slot n req)
    (hn : match req with
      | .lookup name => (name ++ [0])[n]? = none
      | .infer _ input _ _ => input[n]? = none) : Holds slot req := by
  cases req with
  | lookup name =>
    have hge := List.getElem?_eq_none_iff.mp hn
    obtain ⟨hle, hw⟩ := h
    have he : n = (name ++ [0]).length := by omega
    subst he
    exact hw.trans List.take_length
  | infer model input cap priority =>
    have hge := List.getElem?_eq_none_iff.mp hn
    obtain ⟨hm, hl, hle, hw⟩ := h
    have he : n = input.length := by omega
    subst he
    exact ⟨hm, hl, hw.trans List.take_length⟩

theorem cstr_ok {name : List UInt8} (h : (cstr name).length < nameSize) :
    (Req.lookup (cstr name)).Ok :=
  ⟨h, fun b hb => by simpa using List.mem_takeWhile_imp hb⟩

theorem phase_beginLookup (h : Phase s.view) (name : List UInt8)
    (hc : s.begins (.lookup name) = true → Quiet s.view) : Phase (beginLookup name s).view := by
  unfold beginLookup
  split
  · rename_i hb
    have hq := hc (decide_eq_true hb)
    exact ⟨⟨hq.toCpu0, hq.toCpu1, hq.cpu0, hq.rx⟩, cstr_ok hb.2, Nat.zero_le _, rfl⟩
  · exact h

theorem phase_beginInfer (h : Phase s.view) (model : Nat) (src : Source) (cap priority : Nat)
    (hc : s.begins (.infer model src cap priority) = true → Quiet s.view) :
    Phase (beginInfer model src cap priority s).view := by
  unfold beginInfer
  dsimp only
  split
  · rename_i hb
    have hq := hc (decide_eq_true hb)
    refine ⟨⟨hq.toCpu0, hq.toCpu1, hq.cpu0, hq.rx⟩, trivial, _, _, _, _, rfl, fun hi => ?_⟩
    cases src with
    | bytes input => cases hi
    | inPlace len =>
      show s.slot.input.read 0 (s.slot.input.read 0 len).length = s.slot.input.read 0 len
      rw [Mem.length_read]
  · exact h

theorem phase_stepCpu1 (h : Phase s.view) (ring : Nat) : Phase (stepCpu1 ring s).view := by
  have hat : At s.view s.cpu1 := h
  unfold stepCpu1
  split
  · exact h
  · rename_i ask inPlace hpc
    rw [hpc] at hat
    obtain ⟨hq, hok, model, input, cap, priority, hreq, hplace⟩ := hat
    rw [hreq]
    refine ⟨⟨hq.toCpu0, hq.toCpu1, hq.cpu0, hq.rx⟩, hok, ?_⟩
    rw [hreq]
    refine ⟨rfl, rfl, ?_, ?_⟩
    · split
      · exact Nat.le_refl _
      · exact Nat.zero_le _
    · show s.slot.input.read 0 _ = _
      split
      · rename_i hi
        rw [List.take_length]
        exact hplace hi
      · rfl
  · rename_i ask n hpc
    rw [hpc] at hat
    obtain ⟨hq, hok, hw⟩ := hat
    split
    · rename_i name hreq
      rw [hreq] at hw
      split
      · rename_i b hb
        refine ⟨⟨hq.toCpu0, hq.toCpu1, hq.cpu0, hq.rx⟩, hok, ?_⟩
        rw [hreq]
        exact ⟨(List.getElem?_eq_some_iff.mp hb).1, read_put_next hw.2 hb⟩
      · rename_i hb
        refine ⟨⟨hq.toCpu0, hq.toCpu1, hq.cpu0, hq.rx⟩, hok, ?_⟩
        rw [hreq]
        exact Holds.of_written hw hb
    · rename_i model input cap priority hreq
      rw [hreq] at hw
      split
      · rename_i b hb
        refine ⟨⟨hq.toCpu0, hq.toCpu1, hq.cpu0, hq.rx⟩, hok, ?_⟩
        rw [hreq]
        obtain ⟨hm, hl, -, hr⟩ := hw
        exact ⟨hm, hl, (List.getElem?_eq_some_iff.mp hb).1, read_put_next hr hb⟩
      · rename_i hb
        refine ⟨⟨hq.toCpu0, hq.toCpu1, hq.cpu0, hq.rx⟩, hok, ?_⟩
        rw [hreq]
        exact Holds.of_written hw hb
  · rename_i ask hpc
    rw [hpc] at hat
    obtain ⟨hq, hok, hh⟩ := hat
    exact ⟨⟨hq.toCpu0, hq.toCpu1, hq.cpu0, hq.rx⟩, hok, hh, rfl⟩
  · rename_i ask tries hpc
    rw [hpc] at hat
    obtain ⟨hq, hok, hh, hs⟩ := hat
    dsimp only
    split
    · have hmsg : exchange (s.toCpu0 ++ [ask.msg (nextId s.nextId1)]) = [ask.msg (nextId s.nextId1)] := by
        have hk : (ask.msg (nextId s.nextId1)).kind ≠ .other := by
          show ask.req.kind ≠ .other
          cases ask.req <;> exact fun h => nomatch h
        have h0 : exchange s.toCpu0 = [] := hq.toCpu0
        rw [exchange, List.filter_append, ← exchange, h0]
        simp [hk]
      exact ⟨hok, .asked _ hmsg hq.toCpu1 hq.cpu0 hq.rx hs rfl rfl hh⟩
    · split
      · exact ⟨⟨hq.toCpu0, hq.toCpu1, hq.cpu0, hq.rx⟩, hok, hh, hs⟩
      · trivial
  · rename_i ask hpc
    rw [hpc] at hat
    split
    · rename_i hsem
      obtain ⟨-, hf⟩ := hat
      cases hf with
      | ended hq hr => exact ⟨⟨hq.toCpu0, hq.toCpu1, hq.cpu0, hq.rx⟩, hr hsem⟩
      | asked _ _ _ _ _ hs => rw [show s.respSem = false from hs] at hsem; cases hsem
      | serving _ _ _ hs => rw [show s.respSem = false from hs] at hsem; cases hsem
      | replied _ _ _ _ _ hs => rw [show s.respSem = false from hs] at hsem; cases hsem
      | delivered _ _ _ _ hs => rw [show s.respSem = false from hs] at hsem; cases hsem
    · exact h
  · rename_i ask hpc
    rw [hpc] at hat
    obtain ⟨hq, hr⟩ := hat
    split
    · rename_i hst
      exact ⟨⟨hq.toCpu0, hq.toCpu1, hq.cpu0, hq.rx⟩, hr hst⟩
    · trivial
  · rename_i ask hpc
    rw [hpc] at hat
    obtain ⟨hq, hr⟩ := hat
    split
    · trivial
    · rename_i model input cap priority hreq
      split
      · unfold Ready at hr
        rw [hreq] at hr
        obtain ⟨out, hmade, hlen, hout⟩ := hr
        exact ⟨⟨hq.toCpu0, hq.toCpu1, hq.cpu0, hq.rx⟩, _, _, _, _, out, hreq, hmade, hlen, hout,
          hlen, rfl⟩
      · trivial
  · rename_i ask len bytes hpc
    rw [hpc] at hat
    obtain ⟨hq, model, input, cap, priority, out, hreq, hmade, hlen, hout, he, hb⟩ := hat
    split
    · rename_i hlt
      refine ⟨⟨hq.toCpu0, hq.toCpu1, hq.cpu0, hq.rx⟩, _, _, _, _, out, hreq, hmade, hlen, hout, he,
        take_append_next hout hb ?_⟩
      rw [← he]
      exact hlt
    · trivial

theorem phase_timeout (h : Phase s.view) : Phase (timeout s).view := by
  unfold timeout
  split
  · trivial
  · exact h

theorem exchange_cons_other {m : Msg} {l : List Msg} (h : m.kind = .other) :
    exchange (m :: l) = exchange l := by
  simp [exchange, h]

theorem exchange_cons {m : Msg} {l : List Msg} (h : m.kind ≠ .other) :
    exchange (m :: l) = m :: exchange l := by
  simp [exchange, h]

theorem phase_of_idle (h : s.cpu1 = .idle) : Phase s.view := by
  show At s.view s.cpu1
  rw [h]
  trivial

/-- While something of an exchange is in flight, CPU1 waits for it or has given up. -/
theorem waits_of_flight (h : Phase s.view) (hq : ¬Quiet s.view) :
    s.cpu1 = .idle ∨ ∃ ask, s.cpu1 = .waiting ask ∧ ask.req.Ok ∧ Flight s.view ask := by
  have hat : At s.view s.cpu1 := h
  cases hpc : s.cpu1 with
  | idle => exact .inl rfl
  | waiting ask =>
    rw [hpc] at hat
    exact .inr ⟨ask, rfl, hat⟩
  | _ =>
    rw [hpc] at hat
    exact absurd hat.1 hq

theorem phase_of_waiting {s : Link} (hpc : s.cpu1 = .waiting ask) (hok : ask.req.Ok)
    (hf : Flight s.view ask) : Phase s.view := by
  show At s.view s.cpu1
  rw [hpc]
  exact ⟨hok, hf⟩

/-- The step changes nothing that an exchange depends on. -/
theorem Phase.of_view {s' : Link} (h : Phase s.view) (hv : s'.view = s.view) : Phase s'.view := by
  rw [hv]
  exact h

theorem Msg.forCpu1_kind {m : Msg} (h : m.forCpu1 = true) : m.kind ≠ .other := by
  unfold Msg.forCpu1 at h
  intro he
  simp [he] at h

theorem phase_deliver (h : Phase s.view) : Phase (deliver s).view := by
  unfold deliver
  split
  · rename_i m rest hrx hl
    by_cases hm : m.kind = .other
    · rw [if_neg fun hb => Msg.forCpu1_kind hb.2 hm]
      refine h.of_view ?_
      unfold Link.view
      rw [hl, exchange_cons_other hm]
    · have hx : exchange s.toCpu1 = m :: exchange rest := by rw [hl, exchange_cons hm]
      have hq : ¬Quiet s.view := fun hq => by
        have h1 : exchange s.toCpu1 = [] := hq.toCpu1
        rw [hx] at h1
        cases h1
      rcases waits_of_flight h hq with hi | ⟨ask, hpc, hok, hf⟩
      · split <;> exact phase_of_idle hi
      · -- the only message of the protocol in this ring is the answer
        cases hf with
        | replied m' h0 h1 hc hr hs hrep =>
          rw [show s.view.toCpu1 = exchange s.toCpu1 from rfl, hx] at h1
          obtain ⟨rfl, hrest⟩ := List.cons.inj h1
          split
          · exact phase_of_waiting hpc hok (.delivered h0 hrest hc rfl hs hrep)
          · refine phase_of_waiting hpc hok (.ended ⟨h0, hrest, hc, hr⟩ fun ht => ?_)
            rw [show s.respSem = false from hs] at ht
            cases ht
        | ended hq' => exact absurd hq' hq
        | asked _ _ h1 =>
          rw [show s.view.toCpu1 = exchange s.toCpu1 from rfl, hx] at h1
          cases h1
        | serving _ h1 =>
          rw [show s.view.toCpu1 = exchange s.toCpu1 from rfl, hx] at h1
          cases h1
        | delivered _ h1 =>
          rw [show s.view.toCpu1 = exchange s.toCpu1 from rfl, hx] at h1
          cases h1
  · exact h

theorem phase_give (h : Phase s.view) : Phase (give s).view := by
  unfold give
  split
  · rename_i hrx
    have hq : ¬Quiet s.view := fun hq => by
      have hr : s.rx = .idle := hq.rx
      rw [hrx] at hr
      cases hr
    have hno : ¬s.view.rx = .idle := fun hr => by
      rw [show s.view.rx = .giving from hrx] at hr
      cases hr
    rcases waits_of_flight h hq with hi | ⟨ask, hpc, hok, hf⟩
    · exact phase_of_idle hi
    · cases hf with
      | delivered h0 h1 hc _ _ hr =>
        exact phase_of_waiting hpc hok (.ended ⟨h0, h1, hc, rfl⟩ fun _ => hr)
      | asked _ _ _ _ hr => exact absurd hr hno
      | serving _ _ hr => exact absurd hr hno
      | replied _ _ _ _ hr => exact absurd hr hno
      | ended hq' => exact absurd hq' hq
  · exact h

-- ---------------------------------------------------------------------------
-- CPU0
-- ---------------------------------------------------------------------------

theorem phase_take (h : Phase s.view) : Phase (take s).view := by
  unfold take
  split
  · rename_i m rest hc hl
    dsimp only
    by_cases hm : m.kind = .other
    · have hv : ({ s with toCpu0 := rest } : Link).view = s.view := by
        unfold Link.view
        rw [hl, exchange_cons_other hm]
      rw [hm]
      dsimp only
      rw [ite_self]
      exact h.of_view hv
    · have hx : exchange s.toCpu0 = m :: exchange rest := by rw [hl, exchange_cons hm]
      have hq : ¬Quiet s.view := fun hq => by
        have h0 : exchange s.toCpu0 = [] := hq.toCpu0
        rw [hx] at h0
        cases h0
      rcases waits_of_flight h hq with hi | ⟨ask, hpc, hok, hf⟩
      · repeat' split
        all_goals exact phase_of_idle hi
      · cases hf with
        | asked m' h0 h1 _ hr hs hcall hkind hh =>
          rw [show s.view.toCpu0 = exchange s.toCpu0 from rfl, hx] at h0
          obtain ⟨rfl, hrest⟩ := List.cons.inj h0
          -- where CPU0 does not serve, the request gets lost
          have hlost : Phase ({ s with toCpu0 := rest } : Link).view := by
            refine phase_of_waiting hpc hok (.ended ⟨hrest, h1, hc, hr⟩ fun ht => ?_)
            rw [show s.respSem = false from hs] at ht
            cases ht
          split
          · split
            · rename_i hk
              exact phase_of_waiting hpc hok (.serving hrest h1 hr hs ⟨hcall, hkind ▸ hk, hh⟩)
            · rename_i hk
              exact phase_of_waiting hpc hok (.serving hrest h1 hr hs ⟨hcall, hkind ▸ hk, hh⟩)
            · exact hlost
          · exact hlost
        | ended hq' => exact absurd hq' hq
        | serving h0 =>
          rw [show s.view.toCpu0 = exchange s.toCpu0 from rfl, hx] at h0
          cases h0
        | replied _ h0 =>
          rw [show s.view.toCpu0 = exchange s.toCpu0 from rfl, hx] at h0
          cases h0
        | delivered h0 =>
          rw [show s.view.toCpu0 = exchange s.toCpu0 from rfl, hx] at h0
          cases h0
  · exact h

/-- A call that CPU0 serves is waited for, or given up. -/
theorem serves_of_busy (h : Phase s.view) (hc : s.cpu0 ≠ .idle) :
    s.cpu1 = .idle ∨ ∃ ask, s.cpu1 = .waiting ask ∧ ask.req.Ok ∧ exchange s.toCpu0 = [] ∧
      exchange s.toCpu1 = [] ∧ s.rx = .idle ∧ s.respSem = false ∧ Serves s.view ask s.cpu0 := by
  rcases waits_of_flight h fun hq => hc hq.cpu0 with hi | ⟨ask, hpc, hok, hf⟩
  · exact .inl hi
  · cases hf with
    | serving h0 h1 hr hs hserves => exact .inr ⟨ask, hpc, hok, h0, h1, hr, hs, hserves⟩
    | asked _ _ _ hc' => exact absurd hc' hc
    | replied _ _ _ hc' => exact absurd hc' hc
    | delivered _ _ hc' => exact absurd hc' hc
    | ended hq => exact absurd hq.cpu0 hc

theorem phase_stepCpu0 (h : Phase s.view) (ring : Nat) (res : Ret) (handle : Nat)
    (out : List UInt8) : Phase (stepCpu0 ring res handle out s).view := by
  by_cases hc : s.cpu0 = .idle
  · unfold stepCpu0
    rw [hc]
    exact h
  have hcpu1 : (stepCpu0 ring res handle out s).cpu1 = s.cpu1 := by
    unfold stepCpu0
    repeat' split
    all_goals rfl
  rcases serves_of_busy h hc with hi | ⟨ask, hpc, hok, h0, h1, hr, hs, hserves⟩
  · exact phase_of_idle (hcpu1.trans hi)
  refine phase_of_waiting (hcpu1.trans hpc) hok ?_
  -- the handler goes on with the same call
  unfold stepCpu0
  split
  · rename_i hidle
    exact absurd hidle hc
  · rename_i m hpc0
    rw [hpc0] at hserves
    obtain ⟨hcall, hkind, hh⟩ := hserves
    obtain ⟨name, hreq⟩ : ∃ name, ask.req = .lookup name := by
      cases hreq : ask.req with
      | lookup name => exact ⟨name, rfl⟩
      | infer => rw [hreq] at hkind; cases hkind
    rw [hreq] at hh hok
    have hname : cstr ((s.slot.modelName.put (nameSize - 1) [0]).read 0 nameSize) = name :=
      cstr_written hok.1 hok.2 hh
    dsimp only
    split
    · refine .serving h0 h1 hr hs ⟨name, hreq, fun _ => ?_⟩
      show _ ∈ s.made ++ _
      rw [hcall, hname]
      exact List.mem_append_right _ (List.mem_singleton_self _)
    · rename_i hres
      exact .serving h0 h1 hr hs ⟨name, hreq, fun hz => absurd hz hres⟩
  · rename_i m ret hd hpc0
    rw [hpc0] at hserves
    obtain ⟨name, hreq, hmade⟩ := hserves
    refine .serving h0 h1 hr hs ⟨fun hk => (nomatch hk), fun hz => ?_⟩
    unfold Ready
    rw [hreq]
    exact hmade hz
  · rename_i m hpc0
    rw [hpc0] at hserves
    obtain ⟨hcall, hkind, hh⟩ := hserves
    refine .serving h0 h1 hr hs ⟨hcall, hkind, ?_⟩
    cases hreq : ask.req with
    | lookup name => rw [hreq] at hkind; cases hkind
    | infer => rw [hreq] at hh; exact hh
  · rename_i m hpc0
    rw [hpc0] at hserves
    split
    · exact .serving h0 h1 hr hs hserves
    · exact .serving h0 h1 hr hs fun hz => nomatch hz
  · rename_i m hpc0
    rw [hpc0] at hserves
    split
    · exact .serving h0 h1 hr hs hserves
    · rename_i hres
      exact .serving h0 h1 hr hs fun hz => absurd hz hres
  · rename_i m hpc0
    rw [hpc0] at hserves
    split
    · exact .serving h0 h1 hr hs fun hz => nomatch hz
    · exact .serving h0 h1 hr hs hserves
  · rename_i m hpc0
    rw [hpc0] at hserves
    obtain ⟨hcall, hkind, hh⟩ := hserves
    split
    · cases hreq : ask.req with
      | lookup name => rw [hreq] at hkind; cases hkind
      | infer model input cap priority =>
        rw [hreq] at hh
        refine .serving h0 h1 hr hs ⟨hcall, _, _, _, _, hreq, ?_, hh.2.1, rfl⟩
        rw [hreq]
        exact hh
    · exact .serving h0 h1 hr hs fun hz => nomatch hz
  · rename_i m len bytes hpc0
    rw [hpc0] at hserves
    obtain ⟨hcall, model, input, cap, priority, hreq, hh, hlen, hb⟩ := hserves
    have hh' := hh
    rw [hreq] at hh'
    obtain ⟨hmodel, -, hin⟩ := hh'
    split
    · rename_i hlt
      refine .serving h0 h1 hr hs ⟨hcall, _, _, _, _, hreq, hh, hlen, take_append_next hin hb ?_⟩
      rw [← hlen]
      exact hlt
    · rename_i hge
      refine .serving h0 h1 hr hs ⟨hcall, model, cap, priority, ?_, hmodel⟩
      rw [hreq, take_all hb (by omega)]
  · rename_i m bytes hpc0
    rw [hpc0] at hserves
    obtain ⟨hcall, model, cap, priority, hreq, hmodel⟩ := hserves
    refine .serving h0 h1 hr hs ⟨hcall, cap, priority, ?_⟩
    rw [hreq, ← hmodel]
    rfl
  · rename_i m model input hpc0
    rw [hpc0] at hserves
    obtain ⟨hcall, cap, priority, hreq⟩ := hserves
    split
    · rename_i hres
      exact .serving h0 h1 hr hs fun hz => absurd hz hres
    · split
      · refine .serving h0 h1 hr hs ⟨_, _, _, _, hreq, ?_, Nat.zero_le _, rfl⟩
        rw [← hcall]
        exact List.mem_append_right _ (List.mem_singleton_self _)
      · exact .serving h0 h1 hr hs fun hz => nomatch hz
  · rename_i m res n hpc0
    rw [hpc0] at hserves
    obtain ⟨model, input, cap, priority, hreq, hmade, hn, hout⟩ := hserves
    split
    · rename_i b hb
      exact .serving h0 h1 hr hs ⟨_, _, _, _, hreq, hmade, (List.getElem?_eq_some_iff.mp hb).1,
        read_put_next hout hb⟩
    · rename_i hb
      refine .serving h0 h1 hr hs fun _ => ?_
      have hge := List.getElem?_eq_none_iff.mp hb
      have he : n = res.length := by omega
      subst he
      unfold Ready
      rw [hreq]
      exact ⟨res, hmade, rfl, hout.trans List.take_length⟩
  · rename_i m ret hpc0
    rw [hpc0] at hserves
    exact .serving h0 h1 hr hs ⟨fun hk => (nomatch hk), hserves⟩
  · rename_i m kind ret tries hpc0
    rw [hpc0] at hserves
    obtain ⟨hkind, hready⟩ := hserves
    dsimp only
    split
    · refine .replied (m.reply kind (nextId s.nextId0) ret) h0 ?_ rfl hr hs hready
      show exchange (s.toCpu1 ++ _) = _
      rw [exchange, List.filter_append, ← exchange, h1]
      simp [Msg.reply, hkind]
    · split
      · exact .serving h0 h1 hr hs ⟨hkind, hready⟩
      · -- the answer is not sent
        refine .ended ⟨h0, h1, rfl, hr⟩ fun ht => ?_
        rw [show s.respSem = false from hs] at ht
        cases ht

-- ---------------------------------------------------------------------------
-- Runs
-- ---------------------------------------------------------------------------

theorem phase_step (h : Phase s.view) (ring : Nat) (o : Op) (hc : Calm s o) :
    Phase (step ring s o).view := by
  cases o with
  | serveInit => exact h
  | lookup name => exact phase_beginLookup h name hc
  | infer model src cap priority => exact phase_beginInfer h model src cap priority hc
  | cpu1 => exact phase_stepCpu1 h ring
  | timeout => exact phase_timeout h
  | deliver => exact phase_deliver h
  | give => exact phase_give h
  | take => exact phase_take h
  | cpu0 res handle out => exact phase_stepCpu0 h ring res handle out
  | other0 =>
    unfold step
    dsimp only
    split
    · refine h.of_view ?_
      simp [Link.view, exchange, Msg.zero]
    · exact h
  | other1 =>
    unfold step
    dsimp only
    split
    · refine h.of_view ?_
      simp [Link.view, exchange, Msg.zero]
    · exact h

/-- While CPU1 rewrites the slot, CPU0 is not at it. -/
theorem Phase.apart (h : Phase s.view) (hw : s.cpu1.rewrites = true) : s.cpu0.reads = false := by
  have hat : At s.view s.cpu1 := h
  have hidle : s.cpu0 = .idle := by
    cases hpc : s.cpu1 with
    | heading ask inPlace =>
      rw [hpc] at hat
      exact hat.1.cpu0
    | writing ask n =>
      rw [hpc] at hat
      exact hat.1.cpu0
    | _ =>
      rw [hpc] at hw
      cases hw
  rw [hidle]
  rfl

theorem Ask.answeredBy.mono {ask : Ask} {made made' : List Made} {a : Answer}
    (h : ask.answeredBy made a) (hm : ∀ x ∈ made, x ∈ made') : ask.answeredBy made' a := by
  cases a with
  | handle handle =>
    obtain ⟨name, hreq, hmem⟩ := h
    exact ⟨name, hreq, hm _ hmem⟩
  | output bytes len =>
    obtain ⟨model, input, cap, priority, hreq, hmem, hlen⟩ := h
    exact ⟨model, input, cap, priority, hreq, hm _ hmem, hlen⟩

/-- What CPU0 has made stays made. -/
theorem made_step (ring : Nat) (s : Link) (o : Op) : ∀ x ∈ s.made, x ∈ (step ring s o).made := by
  intro x hx
  cases o with
  | cpu0 res handle out =>
    unfold step stepCpu0
    dsimp only
    repeat' split
    all_goals first
      | exact hx
      | exact List.mem_append_left _ hx
  | lookup name =>
    unfold step beginLookup
    dsimp only
    split <;> exact hx
  | infer model src cap priority =>
    unfold step beginInfer
    dsimp only
    split <;> exact hx
  | cpu1 =>
    unfold step stepCpu1
    dsimp only
    repeat' split
    all_goals exact hx
  | timeout =>
    unfold step timeout
    dsimp only
    split <;> exact hx
  | deliver =>
    unfold step deliver
    dsimp only
    repeat' split
    all_goals exact hx
  | give =>
    unfold step give
    dsimp only
    split <;> exact hx
  | take =>
    unfold step take
    dsimp only
    repeat' split
    all_goals exact hx
  | serveInit => exact hx
  | other0 =>
    unfold step
    dsimp only
    split <;> exact hx
  | other1 =>
    unfold step
    dsimp only
    split <;> exact hx

/-- A step returns at most one answer, and it was made for the call. -/
theorem returns_step (h : Phase s.view) (ring : Nat) (o : Op) :
    (step ring s o).returns = s.returns ∨ ∃ ask a, (step ring s o).returns = s.returns ++ [(ask, a)] ∧
      ask.answeredBy (step ring s o).made a := by
  have hat : At s.view s.cpu1 := h
  cases o with
  | cpu1 =>
    unfold step stepCpu1
    dsimp only
    split
    · exact .inl rfl
    · split <;> exact .inl rfl
    · repeat' split
      all_goals exact .inl rfl
    · exact .inl rfl
    · split <;> exact .inl rfl
    · split <;> exact .inl rfl
    · exact .inl rfl
    · rename_i ask hpc
      rw [hpc] at hat
      obtain ⟨-, hr⟩ := hat
      split
      · rename_i name hreq
        unfold Ready at hr
        rw [hreq] at hr
        exact .inr ⟨ask, _, rfl, name, hreq, hr⟩
      · exact .inl rfl
    · rename_i ask len bytes hpc
      rw [hpc] at hat
      obtain ⟨-, model, input, cap, priority, out, hreq, hmade, hlen, -, he, hb⟩ := hat
      split
      · exact .inl rfl
      · have hall : bytes = out := take_all hb (by omega)
        refine .inr ⟨ask, _, rfl, model, input, cap, priority, hreq, ?_, ?_⟩
        · rw [hall]
          exact hmade
        · rw [hall]
          exact hlen
  | cpu0 res handle out =>
    refine .inl ?_
    unfold step stepCpu0
    dsimp only
    repeat' split
    all_goals rfl
  | lookup name =>
    refine .inl ?_
    unfold step beginLookup
    dsimp only
    split <;> rfl
  | infer model src cap priority =>
    refine .inl ?_
    unfold step beginInfer
    dsimp only
    split <;> rfl
  | timeout =>
    refine .inl ?_
    unfold step timeout
    dsimp only
    split <;> rfl
  | deliver =>
    refine .inl ?_
    unfold step deliver
    dsimp only
    repeat' split
    all_goals rfl
  | give =>
    refine .inl ?_
    unfold step give
    dsimp only
    split <;> rfl
  | take =>
    refine .inl ?_
    unfold step take
    dsimp only
    repeat' split
    all_goals rfl
  | serveInit => exact .inl rfl
  | other0 =>
    refine .inl ?_
    unfold step
    dsimp only
    split <;> rfl
  | other1 =>
    refine .inl ?_
    unfold step
    dsimp only
    split <;> rfl

/-- Every answer that was returned was made for its call. -/
def Answered (s : Link) : Prop := ∀ r ∈ s.returns, r.1.answeredBy s.made r.2

theorem answered_step (h : Phase s.view) (ha : Answered s) (ring : Nat) (o : Op) :
    Answered (step ring s o) := by
  intro r hr
  rcases returns_step h ring o with he | ⟨ask, a, he, hmade⟩
  · rw [he] at hr
    exact (ha r hr).mono (made_step ring s o)
  · rw [he] at hr
    rcases List.mem_append.mp hr with hr | hr
    · exact (ha r hr).mono (made_step ring s o)
    · rw [List.mem_singleton.mp hr]
      exact hmade

/-- Answers belong to their requests. -/
theorem answers_belong (ring : Nat) (ops : List Op) (h : Along (step ring) Calm Link.init ops) :
    Belongs (run (step ring) Link.init ops) := by
  obtain ⟨hphase, hanswered⟩ := h.invariant
    (I := fun s => Phase s.view ∧ Answered s) ⟨phase_of_idle rfl, fun _ hr => nomatch hr⟩
    fun _ o hi hc => ⟨phase_step hi.1 ring o hc, answered_step hi.1 hi.2 ring o⟩
  exact ⟨hanswered, hphase.apart⟩

/-- One call, served without delay. -/
def servedOps (model b : Nat) : List Op :=
  .infer model (.bytes [UInt8.ofNat b]) 4 0 :: List.replicate 5 .cpu1 ++
    .take :: List.replicate 8 (.cpu0 0 0 []) ++ .cpu0 0 0 [UInt8.ofNat (b + 1)] ::
    List.replicate 4 (.cpu0 0 0 []) ++ [.deliver, .give] ++ List.replicate 5 .cpu1

theorem answers_belong_twice : Belongs (run (step 2) Link.init (.serveInit :: servedOps 1 10 ++ servedOps 2 20)) :=
  answers_belong 2 _ (by decide +kernel)

/-- The first call times out while CPU0 runs its inference; the answer to it comes
while the second call waits. -/
def lateOps : List Op :=
  .serveInit :: .infer 1 (.bytes [10]) 4 0 :: List.replicate 5 .cpu1 ++
    .take :: List.replicate 8 (.cpu0 0 0 []) ++ .timeout ::
    .infer 2 (.bytes [20]) 4 0 :: List.replicate 5 .cpu1 ++ .cpu0 0 0 [11] ::
    List.replicate 4 (.cpu0 0 0 []) ++ [.deliver, .give] ++ List.replicate 5 .cpu1

theorem late_answer : ¬Belongs (run (step 2) Link.init lateOps) := by
  intro h
  have hr := h.answers (⟨1, .infer 2 [20] 4 0⟩, .output [11] 1) (by decide +kernel)
  obtain ⟨model, input, cap, priority, hreq, hmade, -⟩ := hr
  cases hreq
  revert hmade
  decide +kernel

end SynapticOS.Remote
