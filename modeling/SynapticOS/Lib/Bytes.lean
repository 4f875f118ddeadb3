import Mathlib.Tactic.Ring
import Mathlib.Tactic.Common

/-!
# Byte memories, slices and little-endian numbers

A memory is a total function from addresses to bytes. `put` stores a list of
bytes at an address, `read` takes them out again, and `SameOutside` is the
frame of a store. `slice` cuts a field out of a list of bytes; `toLe` and
`ofLe` are the little-endian digits of a number.
-/

namespace Lib

abbrev Mem := Nat → UInt8

namespace Mem

def put (m : Mem) (off : Nat) (bs : List UInt8) : Mem :=
  fun a => if a < off then m a else bs.getD (a - off) (m a)

def read (m : Mem) (off n : Nat) : List UInt8 := (List.range n).map fun i => m (off + i)

/-- Only addresses in `[lo, hi)` may differ. -/
def SameOutside (lo hi : Nat) (m m' : Mem) : Prop := ∀ a, a < lo ∨ hi ≤ a → m' a = m a

/-- The bytes in `[lo, hi)` are the same. -/
def SameOn (lo hi : Nat) (m m' : Mem) : Prop := ∀ a, lo ≤ a → a < hi → m' a = m a

variable {m m' m'' : Mem} {off n lo hi : Nat} {bs : List UInt8}

-- ---------------------------------------------------------------------------
-- Stores
-- ---------------------------------------------------------------------------

theorem put_of_lt (h : a < off) : m.put off bs a = m a := by simp [put, h]

theorem put_of_ge (h : off + bs.length ≤ a) : m.put off bs a = m a := by
  have h1 : ¬a < off := by omega
  have h2 : bs.length ≤ a - off := by omega
  simp [put, h1, List.getElem?_eq_none h2]

theorem put_add (h : i < bs.length) : m.put off bs (off + i) = bs[i] := by
  have h1 : ¬off + i < off := by omega
  simp [put, h]

@[simp] theorem put_nil : m.put off [] = m := by
  funext a
  simp [put]

theorem put_append (a b : List UInt8) :
    m.put off (a ++ b) = (m.put off a).put (off + a.length) b := by
  funext x
  by_cases h1 : x < off
  · rw [put_of_lt h1, put_of_lt (by omega), put_of_lt h1]
  · obtain ⟨i, rfl⟩ := Nat.exists_eq_add_of_le (Nat.le_of_not_lt h1)
    by_cases h2 : i < a.length
    · rw [put_add (by simp; omega), put_of_lt (by omega), put_add h2, List.getElem_append_left h2]
    · obtain ⟨j, rfl⟩ := Nat.exists_eq_add_of_le (Nat.le_of_not_lt h2)
      by_cases h3 : j < b.length
      · rw [put_add (by simp; omega), ← Nat.add_assoc, put_add h3, List.getElem_append_right (by omega)]
        simp
      · rw [put_of_ge (by simp; omega), put_of_ge (by omega), put_of_ge (by omega)]

-- ---------------------------------------------------------------------------
-- Frames
-- ---------------------------------------------------------------------------

theorem SameOutside.rfl : SameOutside lo hi m m := fun _ _ => Eq.refl _

theorem SameOutside.trans (h : SameOutside lo hi m m') (h' : SameOutside lo hi m' m'') :
    SameOutside lo hi m m'' := fun a ha => (h' a ha).trans (h a ha)

theorem SameOutside.mono (h : SameOutside lo hi m m') (hlo : lo' ≤ lo) (hhi : hi ≤ hi') :
    SameOutside lo' hi' m m' := fun a ha => h a (by omega)

theorem SameOutside.sameOn (h : SameOutside lo hi m m') (hd : b ≤ lo ∨ hi ≤ a) :
    SameOn a b m m' := fun x ha hb => h x (by omega)

theorem sameOutside_put (h : off + bs.length ≤ hi) : SameOutside off hi m (m.put off bs) := by
  intro a ha
  rcases ha with ha | ha
  · exact put_of_lt ha
  · exact put_of_ge (by omega)

theorem SameOn.mono (h : SameOn lo hi m m') (hlo : lo ≤ lo') (hhi : hi' ≤ hi) :
    SameOn lo' hi' m m' := fun a h1 h2 => h a (by omega) (by omega)

theorem SameOn.symm (h : SameOn lo hi m m') : SameOn lo hi m' m := fun a h1 h2 => (h a h1 h2).symm

-- ---------------------------------------------------------------------------
-- Reads
-- ---------------------------------------------------------------------------

@[simp] theorem length_read : (m.read off n).length = n := by simp [read]

@[simp] theorem getElem_read (h : i < (m.read off n).length) : (m.read off n)[i] = m (off + i) := by
  simp [read]

theorem read_eq (hl : bs.length = n) (h : ∀ i (hi : i < bs.length), m (off + i) = bs[i]) :
    m.read off n = bs := by
  apply List.ext_getElem (by simp [hl])
  intro i h1 h2
  simpa using h i h2

theorem read_congr (h : SameOn off (off + n) m m') : m'.read off n = m.read off n := by
  refine read_eq (by simp) fun i hi => ?_
  rw [getElem_read]
  exact h _ (by omega) (by simp at hi; omega)

/-- Equal reads are equal bytes. -/
theorem sameOn_of_read (h : m.read off n = m'.read off n) : SameOn off (off + n) m m' := by
  intro a h1 h2
  obtain ⟨i, rfl⟩ := Nat.exists_eq_add_of_le h1
  have hi := congrArg (fun bs => bs[i]?) h
  simp only [read, List.getElem?_map, List.getElem?_range (show i < n by omega), Option.map_some,
    Option.some.injEq] at hi
  exact hi.symm

theorem read_put : (m.put off bs).read off bs.length = bs :=
  read_eq (Eq.refl _) fun _ hi => put_add hi

theorem read_put_take (h : n ≤ bs.length) : (m.put off bs).read off n = bs.take n := by
  refine read_eq (by simp [h]) fun i hi => ?_
  rw [put_add (by simp at hi; omega), List.getElem_take]

theorem read_add (k : Nat) : m.read off (n + k) = m.read off n ++ m.read (off + n) k := by
  apply List.ext_getElem (by simp)
  intro i h1 h2
  by_cases h : i < n
  · rw [List.getElem_append_left (by simpa using h)]; simp
  · rw [List.getElem_append_right (by simpa using h)]
    simp only [length_read, getElem_read]
    congr 1
    omega

theorem read_take (h : k ≤ n) : (m.read off n).take k = m.read off k := by
  obtain ⟨j, rfl⟩ := Nat.exists_eq_add_of_le h
  rw [read_add, List.take_left' length_read]

theorem read_drop (h : k ≤ n) : (m.read off n).drop k = m.read (off + k) (n - k) := by
  obtain ⟨j, rfl⟩ := Nat.exists_eq_add_of_le h
  rw [read_add, List.drop_left' length_read, Nat.add_sub_cancel_left]

end Mem

-- ---------------------------------------------------------------------------
-- Slices
-- ---------------------------------------------------------------------------

def slice (b : List UInt8) (off n : Nat) : List UInt8 := (b.drop off).take n

theorem slice_left {a : List UInt8} (h : off + n ≤ a.length) : slice (a ++ b) off n = slice a off n := by
  simp only [slice]
  rw [List.drop_append_of_le_length (by omega), List.take_append_of_le_length (by simp; omega)]

theorem slice_right {a : List UInt8} (h : a.length = k) : slice (a ++ b) (k + off) n = slice b off n := by
  subst h
  rw [slice, List.drop_append, List.drop_eq_nil_of_le (by omega), List.nil_append,
    Nat.add_sub_cancel_left, slice]

theorem slice_right_zero {a : List UInt8} (h : a.length = k) : slice (a ++ b) k n = slice b 0 n := by
  simpa using (slice_right h : slice (a ++ b) (k + 0) n = slice b 0 n)

theorem slice_all (h : a.length = n) : slice a 0 n = a := by
  subst h
  simp [slice]

theorem slice_front {a : List UInt8} (h : a.length = n) : slice (a ++ b) 0 n = a := by
  rw [slice_left (by omega), slice_all h]

theorem slice_take (b : List UInt8) (h : off + n ≤ k) : slice (b.take k) off n = slice b off n := by
  rw [slice, slice, List.drop_take, List.take_take]
  congr 1
  omega

theorem slice_read (m : Mem) (a : Nat) (h : off + n ≤ k) :
    slice (m.read a k) off n = m.read (a + off) n := by
  rw [slice, Mem.read_drop (by omega), Mem.read_take (by omega)]

/-- The `i`-th block of a concatenation of blocks of one size. -/
theorem slice_flatMap {f : α → List UInt8} (hf : ∀ x, (f x).length = k) (l : List α) (h : i < l.length) :
    slice (l.flatMap f) (k * i) k = f l[i] := by
  induction l generalizing i with
  | nil => simp at h
  | cons x xs ih =>
    rw [List.flatMap_cons]
    cases i with
    | zero => exact slice_front (hf x)
    | succ i =>
      rw [Nat.mul_succ, Nat.add_comm (k * i) k, slice_right (hf x)]
      simpa using ih (by simpa using h)

theorem length_flatMap_const {f : α → List UInt8} (hf : ∀ x, (f x).length = k) (l : List α) :
    (l.flatMap f).length = k * l.length := by
  induction l with
  | nil => rfl
  | cons x xs ih => rw [List.flatMap_cons, List.length_append, hf, ih, List.length_cons]; ring

-- ---------------------------------------------------------------------------
-- Little-endian numbers
-- ---------------------------------------------------------------------------

/-- The `k` low little-endian digits of `n`. -/
def toLe (n : Nat) : Nat → List UInt8
  | 0 => []
  | k + 1 => UInt8.ofNat n :: toLe (n / 256) k

def ofLe : List UInt8 → Nat
  | [] => 0
  | b :: bs => b.toNat + 256 * ofLe bs

@[simp] theorem length_toLe (n k : Nat) : (toLe n k).length = k := by
  induction k generalizing n with
  | zero => rfl
  | succ k ih => simp [toLe, ih]

theorem ofLe_toLe (h : n < 256 ^ k) : ofLe (toLe n k) = n := by
  induction k generalizing n with
  | zero => simp at h; simp [toLe, ofLe, h]
  | succ k ih =>
    have hd : n / 256 < 256 ^ k := by
      rw [Nat.div_lt_iff_lt_mul (by decide)]
      calc n < 256 ^ (k + 1) := h
        _ = 256 ^ k * 256 := by ring
    simp only [toLe, ofLe, ih hd, UInt8.toNat_ofNat']
    omega

end Lib
