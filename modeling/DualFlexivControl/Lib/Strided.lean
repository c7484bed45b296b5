/-
Arrays in memory: a shape, where the first item is, and how far apart neighbours along an axis
are. A slice, a transpose or a flip of an array is another view of the same bytes.

[`View.tobytes`] walks the positions in C order, the last axis fastest, and [`contiguous`] reads
such bytes as an array of a shape. The two undo each other at every position ([`item_contiguous`]):
the place of a position in the walk is the sum of its coordinates by the strides of that shape.

An item of a dtype of numbers is a number in base 256, its lowest byte first ([`of_bytes`],
[`to_bytes`]); arithmetic on an array makes a new one out of the items ([`View.map_items`]).
-/
import Mathlib.Algebra.BigOperators.Group.List.Basic
import Mathlib.Algebra.Order.Ring.Int
import Mathlib.Data.List.Forall2
import Mathlib.Data.List.GetD
import Mathlib.Data.Nat.Digits.Defs
import Mathlib.Tactic.Ring

set_option autoImplicit false

namespace Strided

/-! ## Positions -/

/-- A position of an array has a coordinate for each axis, below its length. -/
def Inside (shape idx : List ℕ) : Prop := List.Forall₂ (· < ·) idx shape

/-- The positions in C order. -/
def indices : List ℕ → List (List ℕ)
  | [] => [[]]
  | n :: rest => (List.range n).flatMap fun i => (indices rest).map (i :: ·)

/-- The place of a position in that order. -/
def ravel : List ℕ → List ℕ → ℕ
  | _ :: rest, i :: idx => i * rest.prod + ravel rest idx
  | _, _ => 0

section Blocks

variable {α β : Type}

/-- A list of blocks of one length, read at a place of one of the blocks. -/
theorem getElem?_flatMap {f : α → List β} {n : ℕ} {l : List α} (h : ∀ a ∈ l, (f a).length = n)
    {k : ℕ} {a : α} (hk : l[k]? = some a) {j : ℕ} (hj : j < n) :
    (l.flatMap f)[k * n + j]? = (f a)[j]? := by
  induction l generalizing k with
  | nil => cases hk
  | cons b rest ih =>
    have hb : (f b).length = n := h b List.mem_cons_self
    rw [List.flatMap_cons]
    cases k with
    | zero =>
      obtain rfl := Option.some.inj hk
      rw [Nat.zero_mul, Nat.zero_add, List.getElem?_append_left (by omega)]
    | succ k =>
      have hplace : (k + 1) * n + j - (f b).length = k * n + j := by
        rw [hb, Nat.succ_mul]
        omega
      rw [List.getElem?_append_right (by rw [hb, Nat.succ_mul]; omega), hplace]
      exact ih (fun c hc => h c (List.mem_cons_of_mem _ hc)) hk

/-- Pieces of one length, put together, are as long as their number times that. -/
theorem length_flatMap {f : α → List β} {n : ℕ} {l : List α} (h : ∀ a ∈ l, (f a).length = n) :
    (l.flatMap f).length = l.length * n := by
  induction l with
  | nil => simp
  | cons b rest ih =>
    rw [List.flatMap_cons, List.length_append, h b List.mem_cons_self,
      ih fun c hc => h c (List.mem_cons_of_mem _ hc), List.length_cons, Nat.succ_mul, Nat.add_comm]

end Blocks

/-- An array has as many indices as the product of its shape. -/
theorem length_indices (shape : List ℕ) : (indices shape).length = shape.prod := by
  induction shape with
  | nil => rfl
  | cons n rest ih =>
    rw [indices, length_flatMap (n := (indices rest).length) fun i _ => List.length_map _,
      List.length_range, List.prod_cons, ih]

/-- The flat place of an index lies within the array. -/
theorem ravel_lt {shape idx : List ℕ} (h : Inside shape idx) : ravel shape idx < shape.prod := by
  induction h with
  | nil => exact Nat.one_pos
  | @cons i n idx rest hlt _ ih =>
    show i * rest.prod + ravel rest idx < (n :: rest).prod
    rw [List.prod_cons]
    calc i * rest.prod + ravel rest idx < i * rest.prod + rest.prod := by omega
      _ = (i + 1) * rest.prod := (Nat.succ_mul _ _).symm
      _ ≤ n * rest.prod := Nat.mul_le_mul_right _ hlt

/-- The indices come in the order of their flat places, the last axis fastest. -/
theorem indices_ravel {shape idx : List ℕ} (h : Inside shape idx) :
    (indices shape)[ravel shape idx]? = some idx := by
  induction h with
  | nil => rfl
  | @cons i n idx rest hlt hrest ih =>
    have hblock : ∀ i ∈ List.range n, ((indices rest).map (i :: ·)).length = rest.prod := by
      intro i _
      rw [List.length_map, length_indices]
    show (indices (n :: rest))[i * rest.prod + ravel rest idx]? = _
    rw [indices, getElem?_flatMap hblock (List.getElem?_range hlt) (ravel_lt hrest),
      List.getElem?_map, ih]
    rfl

/-! ## Numbers -/

/-- The number that some bytes are, the lowest byte first. -/
def of_bytes (bytes : List UInt8) : ℕ := Nat.ofDigits 256 (bytes.map UInt8.toNat)

/-- The lowest bytes of a number. -/
def to_bytes : ℕ → ℕ → List UInt8
  | 0, _ => []
  | width + 1, n => UInt8.ofNat n :: to_bytes width (n / 256)

/-- A number is written as exactly so many bytes. -/
theorem length_to_bytes (width n : ℕ) : (to_bytes width n).length = width := by
  induction width generalizing n with
  | zero => rfl
  | succ width ih => rw [to_bytes, List.length_cons, ih]

/-- A number that fits is the number of its bytes. -/
theorem of_bytes_to_bytes {width n : ℕ} (h : n < 256 ^ width) :
    of_bytes (to_bytes width n) = n := by
  induction width generalizing n with
  | zero =>
    rw [pow_zero, Nat.lt_one_iff] at h
    exact h.symm
  | succ width ih =>
    have hrest : n / 256 < 256 ^ width := by
      rw [Nat.div_lt_iff_lt_mul (by omega), ← Nat.pow_succ]
      exact h
    have htail : Nat.ofDigits 256 ((to_bytes width (n / 256)).map UInt8.toNat) = n / 256 := ih hrest
    have hlow : (UInt8.ofNat n).toNat = n % 256 := UInt8.toNat_ofNat'
    rw [of_bytes, to_bytes, List.map_cons, Nat.ofDigits_cons, htail, hlow]
    omega

/-- And it has no more bytes than there are. -/
theorem of_bytes_lt (bytes : List UInt8) : of_bytes bytes < 256 ^ bytes.length := by
  have hdigit : ∀ d ∈ bytes.map UInt8.toNat, d < 256 := by
    intro d hd
    obtain ⟨b, _, rfl⟩ := List.mem_map.1 hd
    exact b.toNat_lt
  have hlt := Nat.ofDigits_lt_base_pow_length (by omega) hdigit
  rw [List.length_map] at hlt
  exact hlt

/-! ## Views -/

/-- Bytes at addresses, and how an array lies among them. -/
structure View where
  memory : ℤ → UInt8
  offset : ℤ
  itemsize : ℕ
  shape : List ℕ
  strides : List ℤ

namespace View

def address (v : View) (idx : List ℕ) : ℤ :=
  v.offset + (List.zipWith (fun (i : ℕ) (stride : ℤ) => (i : ℤ) * stride) idx v.strides).sum

/-- The bytes of the item at a position. -/
def item (v : View) (idx : List ℕ) : List UInt8 :=
  (List.range v.itemsize).map fun k : ℕ => v.memory (v.address idx + (k : ℤ))

/-- `a.tobytes()` -/
def tobytes (v : View) : List UInt8 := (indices v.shape).flatMap v.item

/-- An item is as long as the array's items are. -/
@[simp] theorem length_item (v : View) (idx : List ℕ) : (v.item idx).length = v.itemsize := by
  rw [item, List.length_map, List.length_range]

/-- The bytes of an array are those of all its items. -/
theorem length_tobytes (v : View) : v.tobytes.length = v.shape.prod * v.itemsize := by
  rw [tobytes, length_flatMap fun idx _ => v.length_item idx, length_indices]

end View

/-- How far apart neighbours are when nothing lies between the items. -/
def c_strides (itemsize : ℕ) : List ℕ → List ℤ
  | [] => []
  | _ :: rest => (rest.prod * itemsize : ℕ) :: c_strides itemsize rest

/-- `np.ndarray(buffer=data, dtype=..., shape=shape)` -/
def contiguous (itemsize : ℕ) (shape : List ℕ) (data : List UInt8) : View where
  memory k := data.getD k.toNat 0
  offset := 0
  itemsize := itemsize
  shape := shape
  strides := c_strides itemsize shape

/-- In C order the strides lead to the flat place of an index, counted in items. -/
theorem sum_c_strides (itemsize : ℕ) {shape idx : List ℕ} (h : Inside shape idx) :
    (List.zipWith (fun (i : ℕ) (stride : ℤ) => (i : ℤ) * stride) idx
      (c_strides itemsize shape)).sum = (ravel shape idx * itemsize : ℕ) := by
  induction h with
  | nil => simp [ravel]
  | @cons i n idx rest _ _ ih =>
    show ((i : ℤ) * (rest.prod * itemsize : ℕ) :: List.zipWith _ idx (c_strides itemsize rest)).sum
      = ((i * rest.prod + ravel rest idx) * itemsize : ℕ)
    rw [List.sum_cons, ih]
    push_cast
    ring

/-- In a contiguous array the bytes of an item lie one after the other at its flat place. -/
theorem address_contiguous {itemsize : ℕ} {shape idx : List ℕ} {data : List UInt8}
    (h : Inside shape idx) (k : ℕ) :
    (contiguous itemsize shape data).address idx + (k : ℤ) =
      (ravel shape idx * itemsize + k : ℕ) := by
  unfold View.address contiguous
  rw [sum_c_strides itemsize h]
  push_cast
  ring

/-- Bytes that are laid out position by position are read back position by position. -/
theorem item_laid_out {itemsize : ℕ} {shape : List ℕ} {f : List ℕ → List UInt8}
    (hf : ∀ idx, (f idx).length = itemsize) {idx : List ℕ} (h : Inside shape idx) :
    (contiguous itemsize shape ((indices shape).flatMap f)).item idx = f idx := by
  set data := (indices shape).flatMap f
  apply List.ext_getElem?
  intro j
  by_cases hj : j < itemsize
  · have haddress : (contiguous itemsize shape data).address idx + (j : ℤ) =
        (ravel shape idx * itemsize + j : ℕ) := address_contiguous h j
    have hplace : data[ravel shape idx * itemsize + j]? = (f idx)[j]? :=
      getElem?_flatMap (fun idx _ => hf idx) (indices_ravel h) hj
    have hlength : j < (f idx).length := hj.trans_eq (hf idx).symm
    have hbyte : (f idx)[j]? = some (f idx)[j] :=
      List.getElem?_eq_getElem _
    have hrange : (List.range (contiguous itemsize shape data).itemsize)[j]? = some j :=
      List.getElem?_range hj
    rw [View.item, List.getElem?_map, hrange, Option.map_some, haddress, hbyte]
    show some (data.getD (ravel shape idx * itemsize + j) 0) = _
    rw [List.getD_eq_getElem?_getD, hplace, hbyte]
    rfl
  · rw [List.getElem?_eq_none (by rw [View.length_item]; exact Nat.not_lt.1 hj),
      List.getElem?_eq_none (by rw [hf]; exact Nat.not_lt.1 hj)]

/-- The items of a view are those of its bytes, at every position. -/
theorem item_contiguous (v : View) {idx : List ℕ} (h : Inside v.shape idx) :
    (contiguous v.itemsize v.shape v.tobytes).item idx = v.item idx :=
  item_laid_out v.length_item h

/-! ## The bytes of what is contiguous -/

/-- Blocks of consecutive numbers, one after the other, are consecutive numbers. -/
theorem range_blocks (m n : ℕ) :
    ((List.range m).flatMap fun i => (List.range n).map (i * n + ·)) = List.range (m * n) := by
  induction m with
  | zero => simp
  | succ m ih =>
    rw [List.range_succ, List.flatMap_append, ih, List.flatMap_singleton, Nat.succ_mul,
      List.range_add]

/-- The positions in C order are at the places in order. -/
theorem map_ravel_indices (shape : List ℕ) :
    (indices shape).map (ravel shape) = List.range shape.prod := by
  induction shape with
  | nil => rfl
  | cons n rest ih =>
    rw [indices, List.map_flatMap, List.prod_cons, ← range_blocks]
    refine List.flatMap_congr fun i _ => ?_
    rw [← ih, List.map_map, List.map_map]
    rfl

/-- What is listed as an index of a shape is one. -/
theorem inside_of_mem {shape idx : List ℕ} (h : idx ∈ indices shape) : Inside shape idx := by
  induction shape generalizing idx with
  | nil =>
    rw [List.mem_singleton.1 h]
    exact .nil
  | cons n rest ih =>
    obtain ⟨i, hi, hmem⟩ := List.mem_flatMap.1 h
    obtain ⟨tail, htail, rfl⟩ := List.mem_map.1 hmem
    exact .cons (List.mem_range.1 hi) (ih htail)

/-- Bytes that fill a shape are the bytes of the array they are read as. -/
theorem tobytes_contiguous {itemsize : ℕ} {shape : List ℕ} {data : List UInt8}
    (h : data.length = shape.prod * itemsize) :
    (contiguous itemsize shape data).tobytes = data := by
  have hitem : ∀ idx ∈ indices shape, (contiguous itemsize shape data).item idx =
      ((List.range itemsize).map (ravel shape idx * itemsize + ·)).map (data.getD · 0) := by
    intro idx hidx
    rw [List.map_map]
    refine List.map_congr_left fun k _ => ?_
    have haddress : (contiguous itemsize shape data).address idx + (k : ℤ) =
        (ravel shape idx * itemsize + k : ℕ) := address_contiguous (inside_of_mem hidx) k
    show data.getD ((contiguous itemsize shape data).address idx + (k : ℤ)).toNat 0 = _
    rw [haddress]
    rfl
  calc (contiguous itemsize shape data).tobytes
      = (indices shape).flatMap fun idx =>
          ((List.range itemsize).map (ravel shape idx * itemsize + ·)).map (data.getD · 0) :=
        List.flatMap_congr hitem
    _ = (((indices shape).map (ravel shape)).flatMap fun k =>
          (List.range itemsize).map (k * itemsize + ·)).map (data.getD · 0) := by
        rw [List.flatMap_map, List.map_flatMap]
    _ = (List.range data.length).map (data.getD · 0) := by
        rw [map_ravel_indices, range_blocks, h]
    _ = data := by
        apply List.ext_getElem (by rw [List.length_map, List.length_range])
        intro i hi hi'
        rw [List.getElem_map, List.getElem_range, List.getD_eq_getElem data 0 hi']

/-! ## Other views of an array -/

namespace View

/-- `np.ascontiguousarray(a)` -/
def ascontiguousarray (v : View) : View := contiguous v.itemsize v.shape v.tobytes

/-- `a.reshape(shape)`, of an array that is contiguous. -/
def reshape (v : View) (shape : List ℕ) : View := contiguous v.itemsize shape v.tobytes

/-- `a.transpose(axes)` -/
def transpose (v : View) (axes : List ℕ) : View :=
  { v with
    shape := axes.map (v.shape.getD · 0)
    strides := axes.map (v.strides.getD · 0) }

/-- `a[None]` -/
def newaxis (v : View) : View := { v with shape := 1 :: v.shape, strides := 0 :: v.strides }

/-- `a[..., picks]` -/
def take_last (v : View) (picks : List ℕ) : View :=
  contiguous v.itemsize (v.shape.dropLast ++ [picks.length])
    ((indices (v.shape.dropLast ++ [picks.length])).flatMap fun idx =>
      v.item (idx.dropLast ++ [picks.getD (idx.getLastD 0) 0]))

/-- A new array, of a dtype with items of some size, from the items of one. -/
def map_items (v : View) (itemsize : ℕ) (f : List UInt8 → List UInt8) : View :=
  contiguous itemsize v.shape ((indices v.shape).flatMap fun idx => f (v.item idx))

/-- A contiguous copy has the same items, wherever the original had them in memory. -/
theorem item_ascontiguousarray (v : View) {idx : List ℕ} (h : Inside v.shape idx) :
    v.ascontiguousarray.item idx = v.item idx := item_contiguous v h

/-- A contiguous copy has the same bytes in C order. -/
theorem tobytes_ascontiguousarray (v : View) : v.ascontiguousarray.tobytes = v.tobytes :=
  tobytes_contiguous v.length_tobytes

/-- What is reshaped keeps its bytes. -/
theorem tobytes_reshape (v : View) {shape : List ℕ} (h : shape.prod = v.shape.prod) :
    (v.reshape shape).tobytes = v.tobytes :=
  tobytes_contiguous (by rw [v.length_tobytes, h])

/-- A new axis in front adds an index that is always zero. -/
theorem item_newaxis (v : View) (idx : List ℕ) : v.newaxis.item (0 :: idx) = v.item idx := by
  have haddress : v.newaxis.address (0 :: idx) = v.address idx := by
    unfold address newaxis
    simp
  unfold item
  rw [haddress]
  rfl

/-- Each item is made from the one at its position. -/
theorem item_map_items (v : View) {itemsize : ℕ} {f : List UInt8 → List UInt8}
    (hf : ∀ item, (f item).length = itemsize) {idx : List ℕ} (h : Inside v.shape idx) :
    (v.map_items itemsize f).item idx = f (v.item idx) :=
  item_laid_out (fun idx => hf (v.item idx)) h

/-- Picking along the last axis reads each item at the place that was picked. -/
theorem item_take_last (v : View) {picks idx : List ℕ} {k : ℕ}
    (h : Inside (v.shape.dropLast ++ [picks.length]) (idx ++ [k])) :
    (v.take_last picks).item (idx ++ [k]) = v.item (idx ++ [picks.getD k 0]) := by
  unfold take_last
  rw [item_laid_out (fun idx => v.length_item _) h, List.dropLast_concat]
  simp

/-- An address is the sum over the axes, by number, so that axes can be permuted in it. -/
theorem sum_zipWith_range {idx : List ℕ} {strides : List ℤ} (h : idx.length = strides.length) :
    (List.zipWith (fun (i : ℕ) (stride : ℤ) => (i : ℤ) * stride) idx strides).sum =
      ((List.range idx.length).map fun a => ((idx.getD a 0 : ℕ) : ℤ) * strides.getD a 0).sum := by
  congr 1
  apply List.ext_getElem (by simp [h])
  intro a ha ha'
  simp only [List.length_zipWith, h, min_self] at ha
  have hidx : a < idx.length := h ▸ ha
  rw [List.getElem_zipWith, List.getElem_map, List.getElem_range, List.getD_eq_getElem idx 0 hidx,
    List.getD_eq_getElem strides 0 ha]

/-- The item at the permuted coordinates. -/
theorem item_transpose (v : View) {axes idx : List ℕ} (hlength : idx.length = v.strides.length)
    (haxes : axes.Perm (List.range idx.length)) :
    (v.transpose axes).item (axes.map (idx.getD · 0)) = v.item idx := by
  have haddress : (v.transpose axes).address (axes.map (idx.getD · 0)) = v.address idx := by
    unfold address transpose
    dsimp only
    rw [sum_zipWith_range hlength, List.zipWith_map, List.zipWith_self]
    congr 1
    exact (haxes.map fun a => ((idx.getD a 0 : ℕ) : ℤ) * v.strides.getD a 0).sum_eq
  unfold item
  rw [haddress]
  rfl

end View

end Strided
