/-
One ring, two languages: the segment of `streams/ring.py` and of `class Ring`.

Python computes byte offsets in unbounded integers and lets numpy index from them; C++
keeps three pointers and adds `size_t`s to them. Both are transcribed here over the same
flat memory of 64-bit words, offsets and all, and neither is taken from the other.

[`append_eq`] is the point of it all: of a ring that `create` can allocate, the two appends
are the same function of the memory, whatever the memory holds besides a write count.

Words are 64-bit patterns. A payload word is the pattern of a `double`, a stamp or a
timestamp the two's complement of an `int64_t`. A write count that cannot be incremented
any more ends both appends with an error: numpy raises `OverflowError`, and in C++ the
increment has no defined result.
-/
import DualFlexivControl.Native.Setpoints
import Mathlib.Data.BitVec

set_option autoImplicit false

open Interleave Relation DualFlexivControl.Ring

namespace DualFlexivControl.Native

/-! ## The segment -/

/-- A mapped segment: its length in bytes and its words. -/
structure Segment where
  size : ℕ
  words : ℕ → BitVec 64

/-- The word at a byte offset. -/
def Segment.get (g : Segment) (off : ℕ) : BitVec 64 := g.words (off / 8)

def Segment.put (g : Segment) (off : ℕ) (v : BitVec 64) : Segment :=
  { g with words := fun i => if i = off / 8 then v else g.words i }

/-- What the two implementations raise or throw. -/
inductive RingError where
  | bad_magic
  | other_dtype
  | truncated
  /-- `ftruncate` takes a signed 64-bit length. -/
  | too_large
  | dimension
  | count_overflow
  deriving DecidableEq

/-! ## `streams/ring.py` -/

namespace Py

def HEADER_LEN : ℕ := 8
def H_MAGIC : ℕ := 0
def H_VERSION : ℕ := 1
def H_CAPACITY : ℕ := 2
def H_DIM : ℕ := 3
def H_DTYPE_CODE : ℕ := 4
def H_WRITE_COUNT : ℕ := 5

/-- "DFBRRING", folded into the range of an `int64`. -/
def MAGIC : ℕ := 0x4446425252494E47 &&& 0x7FFFFFFFFFFFFFFF

def VERSION : ℕ := 1

/-- The dtype code of `float64`. -/
def FLOAT64 : ℕ := 1

/-- `_shm_size`. -/
def shm_size (capacity dim itemsize : ℕ) : ℕ :=
  (HEADER_LEN + 2 * capacity) * 8 + capacity * dim * itemsize

/-- A `SharedRingBuffer` of `float64`: its parameters and where its arrays start. -/
structure SharedRingBuffer where
  capacity : ℕ
  dim : ℕ
  seq_off : ℕ
  ts_off : ℕ
  data_off : ℕ

/-- `header[i]`. -/
def header (g : Segment) (i : ℕ) : BitVec 64 := g.get (i * 8)

/-- `header[i] = v`. -/
def set_header (i v : ℕ) (g : Segment) : Segment := g.put (i * 8) (BitVec.ofNat 64 v)

/-- The offsets `__init__` computes. -/
def SharedRingBuffer.views (capacity dim : ℕ) : SharedRingBuffer where
  capacity := capacity
  dim := dim
  seq_off := HEADER_LEN * 8
  ts_off := HEADER_LEN * 8 + capacity * 8
  data_off := HEADER_LEN * 8 + capacity * 8 + capacity * 8

/-- `__init__`. numpy refuses an array that does not fit its buffer. -/
def SharedRingBuffer.init (g : Segment) : Except RingError SharedRingBuffer :=
  if header g H_MAGIC ≠ BitVec.ofNat 64 MAGIC then .error .bad_magic
  else if header g H_DTYPE_CODE ≠ BitVec.ofNat 64 FLOAT64 then .error .other_dtype
  else
    let r := SharedRingBuffer.views (header g H_CAPACITY).toNat (header g H_DIM).toNat
    if g.size < r.data_off + r.capacity * r.dim * 8 then .error .truncated
    else .ok r

/-- `seq[:] = -1`. -/
def mark_empty (capacity : ℕ) (g : Segment) : Segment :=
  (List.range capacity).foldl (fun g slot => g.put (HEADER_LEN * 8 + slot * 8) (-1)) g

/-- What `create` writes into a zero-filled segment, the magic last. -/
def format (capacity dim : ℕ) (g : Segment) : Segment :=
  set_header H_MAGIC MAGIC <| mark_empty capacity <| set_header H_WRITE_COUNT 0 <|
    set_header H_VERSION VERSION <| set_header H_DTYPE_CODE FLOAT64 <|
    set_header H_DIM dim <| set_header H_CAPACITY capacity g

/-- `create`, of a `float64` ring. -/
def create (capacity dim : ℕ) : Except RingError (Segment × SharedRingBuffer) := do
  let size := shm_size capacity dim 8
  if 2 ^ 63 ≤ size then .error .too_large
  else
    let g := format capacity dim ⟨size, fun _ => 0⟩
    return (g, ← SharedRingBuffer.init g)

/-- `_data[slot, :] = vec`, from element `j` on. -/
def write_row (r : SharedRingBuffer) (slot : ℕ) : ℕ → List (BitVec 64) → Segment → Segment
  | _, [], g => g
  | j, x :: vec, g => write_row r slot (j + 1) vec (g.put (r.data_off + (slot * r.dim + j) * 8) x)

/-- `append`. -/
def append (r : SharedRingBuffer) (vec : List (BitVec 64)) (t_ns : BitVec 64) (g : Segment) :
    Except RingError Segment :=
  if vec.length ≠ r.dim then .error .dimension
  else
    let idx := (header g H_WRITE_COUNT).toInt
    let slot := (idx % (r.capacity : ℤ)).toNat
    let g := g.put (r.seq_off + slot * 8) (-1)
    let g := write_row r slot 0 vec g
    let g := g.put (r.ts_off + slot * 8) t_ns
    let g := g.put (r.seq_off + slot * 8) (BitVec.ofInt 64 idx)
    if 2 ^ 63 ≤ idx + 1 then .error .count_overflow
    else .ok (g.put (H_WRITE_COUNT * 8) (BitVec.ofInt 64 (idx + 1)))

/-- The words of a segment as the arrays of a `SharedRingBuffer` show them. -/
def view (r : SharedRingBuffer) (g : Segment) : (a : Addr) → Word (BitVec 64) a
  | .write_count => (header g H_WRITE_COUNT).toInt.toNat
  | .seq slot => (g.get (r.seq_off + slot * 8)).toInt
  | .t_ns slot => (g.get (r.ts_off + slot * 8)).toInt
  | .data slot j => g.get (r.data_off + (slot * r.dim + j) * 8)

end Py

/-! ## `class Ring` -/

namespace Cpp

def kRingMagic : BitVec 64 := 0x4446425252494e47 &&& 0x7fffffffffffffff
def kRingVersion : BitVec 64 := 1
def kHeaderLength : BitVec 64 := 8
def kWriteCountIndex : BitVec 64 := 5
def kFloat64Code : BitVec 64 := 1

/-- The members of a `Ring`. Pointers are byte offsets from the mapping. -/
structure Ring where
  capacity_ : BitVec 64
  dim_ : BitVec 64
  seq_ : BitVec 64
  timestamps_ : BitVec 64
  data_ : BitVec 64

/-- `p + n` for a pointer to 8-byte elements. -/
def element (p n : BitVec 64) : BitVec 64 := p + n * 8

/-- `*p`. -/
def load (g : Segment) (p : BitVec 64) : BitVec 64 := g.get p.toNat

/-- `*p = v`. -/
def store (p v : BitVec 64) (g : Segment) : Segment := g.put p.toNat v

/-- `header_[i]`. -/
def header_ (g : Segment) (i : BitVec 64) : BitVec 64 := load g (element 0 i)

/-- The members the constructor sets from the header. -/
def Ring.members (capacity_ dim_ : BitVec 64) : Ring :=
  let seq_ := element 0 kHeaderLength
  let timestamps_ := element seq_ capacity_
  { capacity_, dim_, seq_, timestamps_, data_ := element timestamps_ capacity_ }

/-- The number of bytes the constructor asks for. -/
def required (capacity_ dim_ : BitVec 64) : BitVec 64 :=
  (kHeaderLength + 2 * capacity_) * 8 + capacity_ * dim_ * 8

/-- `Ring::Ring`. -/
def Ring.construct (g : Segment) : Except RingError Ring :=
  let size_ := BitVec.ofNat 64 g.size
  if header_ g 0 ≠ kRingMagic ∨ header_ g 1 ≠ kRingVersion then .error .bad_magic
  else
    let capacity_ := header_ g 2
    let dim_ := header_ g 3
    if header_ g 4 ≠ kFloat64Code then .error .other_dtype
    else if required capacity_ dim_ > size_ then .error .truncated
    else .ok (.members capacity_ dim_)

/-- `std::copy_n`. -/
def copy_n : List (BitVec 64) → BitVec 64 → Segment → Segment
  | [], _, g => g
  | x :: values, dst, g => copy_n values (element dst 1) (store dst x g)

/-- `Ring::Append`. -/
def append (c : Ring) (values : List (BitVec 64)) (timestamp : BitVec 64) (g : Segment) :
    Except RingError Segment :=
  if values.length ≠ c.dim_.toNat then .error .dimension
  else
    let index := header_ g kWriteCountIndex
    let slot := index % c.capacity_
    let g := store (element c.seq_ slot) (-1) g
    let g := copy_n values (element c.data_ (slot * c.dim_)) g
    let g := store (element c.timestamps_ slot) timestamp g
    let g := store (element c.seq_ slot) index g
    -- signed overflow
    if index = BitVec.intMax 64 then .error .count_overflow
    else .ok (store (element 0 kWriteCountIndex) (index + 1) g)

/-- The words of a segment as a `Ring` addresses them. -/
def view (c : Ring) (g : Segment) : (a : Addr) → Word (BitVec 64) a
  | .write_count => (header_ g kWriteCountIndex).toInt.toNat
  | .seq slot => (load g (element c.seq_ (BitVec.ofNat 64 slot))).toInt
  | .t_ns slot => (load g (element c.timestamps_ (BitVec.ofNat 64 slot))).toInt
  | .data slot j =>
    load g (element (element c.data_ (BitVec.ofNat 64 slot * c.dim_)) (BitVec.ofNat 64 j))

end Cpp

/-! ## The same addresses -/

section Addresses

variable {capacity dim : ℕ}

/-- Pointer arithmetic that stays below `2^64`. -/
theorem toNat_element {p n : BitVec 64} (h : p.toNat + n.toNat * 8 < 2 ^ 64) :
    (Cpp.element p n).toNat = p.toNat + n.toNat * 8 := by
  have hmul : n.toNat * 8 < 2 ^ 64 := by omega
  unfold Cpp.element
  rw [BitVec.toNat_add, BitVec.toNat_mul, show (8 : BitVec 64).toNat = 8 from rfl,
    Nat.mod_eq_of_lt hmul, Nat.mod_eq_of_lt h]

theorem toNat_ofNat_of_lt {n : ℕ} (h : n < 2 ^ 64) : (BitVec.ofNat 64 n).toNat = n := by
  rw [BitVec.toNat_ofNat, Nat.mod_eq_of_lt h]

/-- A ring that `create` can allocate. -/
structure Allocates (capacity dim : ℕ) : Prop where
  pos : 1 ≤ capacity
  size : Py.shm_size capacity dim 8 < 2 ^ 63

namespace Allocates

variable (h : Allocates capacity dim)

include h

theorem size_eq : 64 + capacity * 16 + capacity * dim * 8 < 2 ^ 63 := by
  have hsize := h.size
  unfold Py.shm_size Py.HEADER_LEN at hsize
  omega

theorem dim_le : dim ≤ capacity * dim := Nat.le_mul_of_pos_left dim h.pos

theorem toNat_capacity : (BitVec.ofNat 64 capacity).toNat = capacity := by
  have hsize := h.size_eq
  exact toNat_ofNat_of_lt (by omega)

theorem toNat_dim : (BitVec.ofNat 64 dim).toNat = dim := by
  have hsize := h.size_eq
  have hdim := h.dim_le
  exact toNat_ofNat_of_lt (by omega)

/-- The bytes the constructor asks for are the bytes `create` allocates, computed in words of 64
bits on one side and in integers on the other. -/
theorem toNat_required :
    (Cpp.required (BitVec.ofNat 64 capacity) (BitVec.ofNat 64 dim)).toNat =
      Py.shm_size capacity dim 8 := by
  have hsize := h.size_eq
  unfold Cpp.required Py.shm_size Py.HEADER_LEN
  rw [BitVec.toNat_add, BitVec.toNat_mul, BitVec.toNat_add, BitVec.toNat_mul, BitVec.toNat_mul,
    BitVec.toNat_mul, h.toNat_capacity, h.toNat_dim]
  rw [show Cpp.kHeaderLength.toNat = 8 from rfl, show (2 : BitVec 64).toNat = 2 from rfl,
    show (8 : BitVec 64).toNat = 8 from rfl]
  -- from the inside out, nothing wraps
  rw [Nat.mod_eq_of_lt (show 2 * capacity < 2 ^ 64 by omega),
    Nat.mod_eq_of_lt (show 8 + 2 * capacity < 2 ^ 64 by omega),
    Nat.mod_eq_of_lt (show (8 + 2 * capacity) * 8 < 2 ^ 64 by omega),
    Nat.mod_eq_of_lt (show capacity * dim < 2 ^ 64 by omega),
    Nat.mod_eq_of_lt (show capacity * dim * 8 < 2 ^ 64 by omega)]
  exact Nat.mod_eq_of_lt (by omega)

end Allocates

/-- The ring of the given size, as Python and as C++ hold it. -/
abbrev py_ring (capacity dim : ℕ) : Py.SharedRingBuffer := .views capacity dim

abbrev cpp_ring (capacity dim : ℕ) : Cpp.Ring :=
  .members (BitVec.ofNat 64 capacity) (BitVec.ofNat 64 dim)

theorem toNat_seq : (cpp_ring capacity dim).seq_.toNat = (py_ring capacity dim).seq_off := rfl

/-- A word of a slot's row is a word of the payload. -/
theorem row_lt {slot j : ℕ} (hslot : slot < capacity) (hj : j ≤ dim) :
    slot * dim + j ≤ capacity * dim := by
  have hrow : (slot + 1) * dim ≤ capacity * dim := Nat.mul_le_mul_right dim hslot
  rw [Nat.succ_mul] at hrow
  omega

section Pointers

variable (h : Allocates capacity dim)

include h

theorem toNat_timestamps :
    (cpp_ring capacity dim).timestamps_.toNat = (py_ring capacity dim).ts_off := by
  have hsize := h.size_eq
  have hseq := @toNat_seq capacity dim
  show (Cpp.element (cpp_ring capacity dim).seq_ (BitVec.ofNat 64 capacity)).toNat = _
  rw [toNat_element (by rw [hseq, h.toNat_capacity]; show 64 + _ < _; omega), hseq,
    h.toNat_capacity]
  rfl

theorem toNat_data :
    (cpp_ring capacity dim).data_.toNat = (py_ring capacity dim).data_off := by
  have hsize := h.size_eq
  have hts := toNat_timestamps h
  show (Cpp.element (cpp_ring capacity dim).timestamps_ (BitVec.ofNat 64 capacity)).toNat = _
  rw [toNat_element (by rw [hts, h.toNat_capacity]; show 64 + _ + _ < _; omega), hts,
    h.toNat_capacity]
  rfl

variable {slot : BitVec 64} (hslot : slot.toNat < capacity)

include hslot

theorem toNat_seq_slot : (Cpp.element (cpp_ring capacity dim).seq_ slot).toNat =
    (py_ring capacity dim).seq_off + slot.toNat * 8 := by
  have hsize := h.size_eq
  rw [toNat_element (by rw [toNat_seq]; show 64 + _ < _; omega), toNat_seq]

theorem toNat_timestamps_slot : (Cpp.element (cpp_ring capacity dim).timestamps_ slot).toNat =
    (py_ring capacity dim).ts_off + slot.toNat * 8 := by
  have hsize := h.size_eq
  rw [toNat_element (by rw [toNat_timestamps h]; show 64 + _ + _ < _; omega),
    toNat_timestamps h]

theorem toNat_data_slot :
    (Cpp.element (cpp_ring capacity dim).data_ (slot * BitVec.ofNat 64 dim)).toNat =
      (py_ring capacity dim).data_off + slot.toNat * dim * 8 := by
  have hsize := h.size_eq
  have hrow := row_lt hslot (Nat.zero_le dim)
  have hmul : (slot * BitVec.ofNat 64 dim).toNat = slot.toNat * dim := by
    rw [BitVec.toNat_mul, h.toNat_dim, Nat.mod_eq_of_lt (by omega)]
  rw [toNat_element (by rw [hmul, toNat_data h]; show 64 + _ + _ + _ < _; omega), hmul,
    toNat_data h]

end Pointers

/-! ## The same append -/

section Append

variable (h : Allocates capacity dim)

include h

/-- The payload loops, from element `j` on, write the same words to the same places in both
languages. -/
theorem copy_n_eq {slot j : ℕ} (hslot : slot < capacity) {vec : List (BitVec 64)}
    (hlen : j + vec.length ≤ dim) {dst : BitVec 64}
    (hdst : dst.toNat = (py_ring capacity dim).data_off + (slot * dim + j) * 8) (g : Segment) :
    Cpp.copy_n vec dst g = Py.write_row (py_ring capacity dim) slot j vec g := by
  induction vec generalizing j dst g with
  | nil => rfl
  | cons x vec ih =>
    have hsize := h.size_eq
    rw [List.length_cons] at hlen
    have hrow := row_lt hslot (show j ≤ dim by omega)
    have hoff : (py_ring capacity dim).data_off = 64 + capacity * 8 + capacity * 8 := rfl
    have hnext : (Cpp.element dst 1).toNat =
        (py_ring capacity dim).data_off + (slot * dim + (j + 1)) * 8 := by
      rw [toNat_element (by rw [hdst, hoff]; show _ + 1 * 8 < _; omega), hdst,
        show (1 : BitVec 64).toNat = 1 from rfl]
      omega
    show Cpp.copy_n vec (Cpp.element dst 1) (Cpp.store dst x g) = _
    rw [ih (by omega) hnext]
    unfold Cpp.store
    rw [hdst]
    rfl

/-- **The two appends are the same function** of a memory with a write count, whatever the
other words hold. -/
theorem append_eq (vec : List (BitVec 64)) (t_ns : BitVec 64) {g : Segment}
    (hwc : 0 ≤ (Py.header g Py.H_WRITE_COUNT).toInt) :
    Cpp.append (cpp_ring capacity dim) vec t_ns g =
      Py.append (py_ring capacity dim) vec t_ns g := by
  have hpos := h.pos
  have hindex : Cpp.header_ g Cpp.kWriteCountIndex = Py.header g Py.H_WRITE_COUNT := rfl
  have hcapacity : (cpp_ring capacity dim).capacity_ = BitVec.ofNat 64 capacity := rfl
  have hdim : (cpp_ring capacity dim).dim_ = BitVec.ofNat 64 dim := rfl
  unfold Cpp.append Py.append
  rw [hdim, h.toNat_dim]
  by_cases hlen : vec.length = dim
  · rw [if_neg (not_not_intro hlen), if_neg (not_not_intro (show _ = (py_ring _ _).dim from hlen))]
    rw [hindex, hcapacity]
    generalize Py.header g Py.H_WRITE_COUNT = index at *
    -- a count that is not negative is the same signed and unsigned
    have hnat : index.toInt = (index.toNat : ℤ) := by
      rw [BitVec.toInt_eq_toNat_cond]
      rw [BitVec.toInt_eq_toNat_cond] at hwc
      split at hwc
      · rw [if_pos ‹_›]
      · have hlt := index.isLt
        omega
    have hslot : (index % BitVec.ofNat 64 capacity).toNat = index.toNat % capacity := by
      rw [BitVec.toNat_umod, h.toNat_capacity]
    have hslot_lt : (index % BitVec.ofNat 64 capacity).toNat < capacity := by
      rw [hslot]
      exact Nat.mod_lt _ hpos
    have hpy : (index.toInt % ((py_ring capacity dim).capacity : ℤ)).toNat =
        (index % BitVec.ofNat 64 capacity).toNat := by
      rw [hnat, hslot]
      exact Int.toNat_natCast _
    simp only [Cpp.store, toNat_seq_slot h hslot_lt, toNat_timestamps_slot h hslot_lt, hpy]
    rw [copy_n_eq h hslot_lt (j := 0) (by omega) (by rw [toNat_data_slot h hslot_lt]; rfl)]
    rw [BitVec.ofInt_add, BitVec.ofInt_toInt]
    -- at the largest count both would overflow
    by_cases hmax : index = BitVec.intMax 64
    · rw [if_pos hmax, if_pos (by rw [hmax]; decide)]
    · rw [if_neg hmax, if_neg]
      · rfl
      · intro hle
        apply hmax
        apply BitVec.eq_of_toNat_eq
        have hlt := index.toInt_lt
        show index.toNat = 2 ^ 63 - 1
        omega
  · rw [if_pos hlen, if_pos (show ¬ _ = (py_ring _ _).dim from hlen)]

end Append

end Addresses

end DualFlexivControl.Native
