/-
What the policy client puts on the wire: its hooks `pack_array` and `unpack_array` of
`policy/client.py`, around whatever `msgpack` is installed.

`packb` asks the hook about every value whose type msgpack does not know, and packs what the hook
returns in its place; the values inside of that are asked about in turn. `unpackb` hands every dict
to the other hook once the values in it are unpacked. So a NumPy array travels as a dict with its
bytes, its dtype and its shape, and a dict of the payload that has one of the two markers among
its own keys would come back as something else. That much is in the library's documentation and is
all that is assumed of it ([`Library`]); one that does it is at the end ([`tree`]).

A `float64` is a Python `float` to msgpack, and NumPy's texts and bytes are a `str` and `bytes`:
the hook is never asked about those, and they come back as plain values. A tuple comes back as a
list. What NumPy does with a dtype's string, with a scalar and with a cast is left open
([`Numpy`]).
-/
import DualFlexivControl.Lib.Ieee
import DualFlexivControl.Lib.Results
import DualFlexivControl.Lib.Strided
import DualFlexivControl.Policy.Websocket

set_option autoImplicit false

namespace DualFlexivControl.Policy.Msgpack

open Client (Codec)
open Strided (View)

/-! ## Values -/

/-- `dtype.kind` -/
inductive Kind
  | boolean
  | signed
  | unsigned
  | floating
  | complex
  | timedelta
  | datetime
  | object
  | bytes
  | str
  | void
  deriving DecidableEq, Repr

/-- `dtype.kind in ("V", "O", "c")` -/
def Kind.refused : Kind → Bool
  | .void | .object | .complex => true
  | _ => false

/-- The truth values, integers and floating numbers. -/
def Kind.plain : Kind → Bool
  | .boolean | .signed | .unsigned | .floating => true
  | _ => false

/-- A kind of plain numbers is not one of those that are refused. -/
theorem Kind.refused_of_plain {k : Kind} (h : k.plain = true) : k.refused = false := by
  cases k with
  | boolean | signed | unsigned | floating => rfl
  | complex | timedelta | datetime | object | bytes | str | void => cases h

/-- A value of a type that msgpack knows, which is neither a list nor a dict. -/
inductive Atom (F : Type)
  | none
  | bool (b : Bool)
  | int (i : ℤ)
  | float (x : F)
  | str (s : String)
  | bytes (b : List UInt8)

/-- A key that `unpackb` takes. -/
inductive Key
  | str (s : String)
  | bytes (b : List UInt8)
  deriving DecidableEq, Repr

/-- `b"..."` -/
def ascii (s : String) : List UInt8 := s.toList.map fun c => c.toNat.toUInt8

/-- NumPy's dtypes and scalars. A dtype that is not refused is told by its string, and a plain
scalar by its dtype and its value. -/
structure Numpy (F S D : Type) where
  kind : D → Kind
  itemsize : D → ℕ
  name : D → String
  str : D → String
  /-- `np.dtype(x)` -/
  dtype : Atom F → Option D
  dtype_of : S → D
  /-- `obj.item()`, if msgpack knows its type. -/
  item : S → Option (Atom F)
  /-- What a scalar is to msgpack, if its type is one of Python's as well. -/
  native : S → Option (Atom F)
  /-- `dtype.type(x)` -/
  type : D → Atom F → Option S
  dtype_str : ∀ d, (kind d).refused = false → dtype (.str (str d)) = some d
  type_item : ∀ x a, (kind (dtype_of x)).plain = true → item x = some a →
    type (dtype_of x) a = some x

section Wire

variable {F S D : Type} (n : Numpy F S D)

/-- An array. -/
structure Ndarray where
  dtype : D
  view : View
  sized : view.itemsize = n.itemsize dtype

/-- A Python value. -/
inductive Obj
  | atom (x : Atom F)
  | list (xs : List Obj)
  | tuple (xs : List Obj)
  | dict (entries : List (Key × Obj))
  | ndarray (a : Ndarray n)
  | npgeneric (x : S)
  | other

/-! ## The hooks -/

/-- What `packb` raises, or the hook inside it. -/
inductive PackError
  | unsupported_dtype (message : String)
  | not_serializable
  | recursion_limit
  deriving DecidableEq, Repr

variable {n}

/-- An array's dict. -/
def array_dict (a : Ndarray n) : List (Key × Obj n) :=
  [(.bytes (ascii "__ndarray__"), .atom (.bool true)),
    (.bytes (ascii "data"), .atom (.bytes a.view.tobytes)),
    (.bytes (ascii "dtype"), .atom (.str (n.str a.dtype))),
    (.bytes (ascii "shape"), .tuple (a.view.shape.map fun k : ℕ => .atom (.int k)))]

/-- A scalar's dict. -/
def scalar_dict (x : S) : List (Key × Obj n) :=
  [(.bytes (ascii "__npgeneric__"), .atom (.bool true)),
    (.bytes (ascii "data"), (n.item x).elim .other .atom),
    (.bytes (ascii "dtype"), .atom (.str (n.str (n.dtype_of x))))]

/-- `pack_array` -/
def pack_array : Obj n → Except PackError (Obj n)
  | .ndarray a =>
    if (n.kind a.dtype).refused = true then
      .error (.unsupported_dtype s!"unsupported dtype: {n.name a.dtype}")
    else .ok (.dict (array_dict a))
  | .npgeneric x =>
    if (n.kind (n.dtype_of x)).refused = true then
      .error (.unsupported_dtype s!"unsupported dtype: {n.name (n.dtype_of x)}")
    else .ok (.dict (scalar_dict x))
  | obj => .ok obj

/-- What `unpackb` raises, or the hook inside it. -/
inductive UnpackError
  | too_nested
  | value_error
  | type_error
  | key_error
  deriving DecidableEq, Repr

/-- `obj[b"..."]` -/
def subscript (d : List (Key × Obj n)) (key : String) : Except UnpackError (Obj n) :=
  match d.lookup (.bytes (ascii key)) with
  | some value => .ok value
  | none => .error .key_error

/-- `np.dtype(obj)` -/
def np_dtype : Obj n → Except UnpackError D
  | .atom x =>
    match n.dtype x with
    | some d => .ok d
    | none => .error .type_error
  | _ => .error .type_error

/-- A length in a shape. -/
def dimension : Obj n → Except UnpackError ℤ
  | .atom (.int i) => .ok i
  | .atom (.bool b) => .ok (if b then 1 else 0)
  | _ => .error .type_error

/-- `tuple(obj)`, of lengths. -/
def shape_of : Obj n → Except UnpackError (List ℤ)
  | .list xs | .tuple xs => Results.collect dimension xs
  | _ => .error .type_error

/-- A buffer of bytes. -/
def buffer : Obj n → Except UnpackError (List UInt8)
  | .atom (.bytes b) => .ok b
  | _ => .error .type_error

/-- An array over a buffer. -/
def of_buffer (n : Numpy F S D) (data : List UInt8) (d : D) (shape : List ℕ) : Ndarray n where
  dtype := d
  view := Strided.contiguous (n.itemsize d) shape data
  sized := rfl

/-- `np.ndarray(buffer=data, dtype=dtype, shape=shape)` -/
def np_ndarray (data : List UInt8) (d : D) (shape : List ℤ) : Except UnpackError (Ndarray n) :=
  if n.itemsize d = 0 then .error .value_error
  else if shape = [-1] then .ok (of_buffer n data d [data.length / n.itemsize d])
  else if data.length < n.itemsize d * shape.prod then .error .type_error
  else if ∃ k ∈ shape, k < 0 then .error .value_error
  else .ok (of_buffer n data d (shape.map Int.toNat))

/-- `dtype.type(data)` -/
def np_scalar (d : D) : Obj n → Except UnpackError S
  | .atom x =>
    match n.type d x with
    | some s => .ok s
    | none => .error .value_error
  | _ => .error .type_error

/-- `unpack_array` -/
def unpack_array (obj : List (Key × Obj n)) : Except UnpackError (Obj n) :=
  if .bytes (ascii "__ndarray__") ∈ obj.map Prod.fst then do
    let data ← subscript obj "data"
    let dtype ← subscript obj "dtype"
    let dtype ← np_dtype dtype
    let shape ← subscript obj "shape"
    let shape ← shape_of shape
    let data ← buffer data
    let a ← np_ndarray data dtype shape
    pure (.ndarray a)
  else if .bytes (ascii "__npgeneric__") ∈ obj.map Prod.fst then do
    let dtype ← subscript obj "dtype"
    let dtype ← np_dtype dtype
    let data ← subscript obj "data"
    let x ← np_scalar dtype data
    pure (.npgeneric x)
  else pure (.dict obj)

/-! ## The library -/

/-- The values that msgpack has a type for. -/
def Known : Obj n → Prop
  | .atom _ | .list _ | .tuple _ | .dict _ => True
  | .npgeneric x => (n.native x).isSome
  | .ndarray _ | .other => False

/-- A value that can be packed: msgpack knows it, or knows what the hook has for it, and so on for
the values inside. -/
inductive Accepted (default : Obj n → Except PackError (Obj n)) : Obj n → Prop
  | atom (x : Atom F) : Accepted default (.atom x)
  | native {x : S} {a : Atom F} (h : n.native x = some a) : Accepted default (.npgeneric x)
  | list {xs : List (Obj n)} (h : ∀ x ∈ xs, Accepted default x) : Accepted default (.list xs)
  | tuple {xs : List (Obj n)} (h : ∀ x ∈ xs, Accepted default x) : Accepted default (.tuple xs)
  | dict {d : List (Key × Obj n)} (h : ∀ x ∈ d.map Prod.snd, Accepted default x) :
      Accepted default (.dict d)
  | default {obj obj' : Obj n} (unknown : ¬ Known obj) (hook : default obj = .ok obj')
      (known : Known obj') (h : Accepted default obj') : Accepted default obj

/-- What a value comes back as: a tuple as a list, a dict as what the other hook makes of it when
its values are back, and a value of no type of msgpack's as what the first hook had for it. -/
inductive Arrives (default : Obj n → Except PackError (Obj n))
    (object_hook : List (Key × Obj n) → Except UnpackError (Obj n)) : Obj n → Obj n → Prop
  | atom (x : Atom F) : Arrives default object_hook (.atom x) (.atom x)
  | native {x : S} {a : Atom F} (h : n.native x = some a) :
      Arrives default object_hook (.npgeneric x) (.atom a)
  | list {xs ys : List (Obj n)} (h : List.Forall₂ (Arrives default object_hook) xs ys) :
      Arrives default object_hook (.list xs) (.list ys)
  | tuple {xs ys : List (Obj n)} (h : List.Forall₂ (Arrives default object_hook) xs ys) :
      Arrives default object_hook (.tuple xs) (.list ys)
  | dict {d d' : List (Key × Obj n)} {obj : Obj n} (distinct : (d.map Prod.fst).Nodup)
      (keys : d.map Prod.fst = d'.map Prod.fst)
      (h : List.Forall₂ (Arrives default object_hook) (d.map Prod.snd) (d'.map Prod.snd))
      (hook : object_hook d' = .ok obj) : Arrives default object_hook (.dict d) obj
  | default {obj obj' back : Obj n} (unknown : ¬ Known obj) (hook : default obj = .ok obj')
      (known : Known obj') (h : Arrives default object_hook obj' back) :
      Arrives default object_hook obj back

end Wire

/-- `packb` and `unpackb` with a hook each, as the library documents them. Frames are bytes that
only it reads, and any exception is `none`. -/
structure Library {F S D : Type} (n : Numpy F S D) (Frame : Type) where
  packb : (Obj n → Except PackError (Obj n)) → Obj n → Option Frame
  unpackb : (List (Key × Obj n) → Except UnpackError (Obj n)) → Frame → Option (Obj n)
  accepts : ∀ default obj frame, packb default obj = some frame → Accepted default obj
  returns : ∀ default object_hook obj frame back, packb default obj = some frame →
    Arrives default object_hook obj back → unpackb object_hook frame = some back

section Wire

variable {F S D Frame : Type} {n : Numpy F S D}

/-- `packb(payload, default=pack_array)` and `unpackb(response, object_hook=unpack_array)` -/
def Library.codec (m : Library n Frame) : Codec (Obj n) Frame (Obj n) where
  packb := m.packb pack_array
  unpackb := m.unpackb unpack_array

/-! ## What comes back -/

/-- Arrays of one dtype and shape, with the same items. -/
structure SameItems (a b : Ndarray n) : Prop where
  dtype : a.dtype = b.dtype
  shape : a.view.shape = b.view.shape
  items : ∀ idx, Strided.Inside a.view.shape idx → a.view.item idx = b.view.item idx

/-- A value, and the one that stands for it at the other end. -/
inductive Same : Obj n → Obj n → Prop
  | atom (x : Atom F) : Same (.atom x) (.atom x)
  | list {xs ys : List (Obj n)} (h : List.Forall₂ Same xs ys) : Same (.list xs) (.list ys)
  | tuple {xs ys : List (Obj n)} (h : List.Forall₂ Same xs ys) : Same (.tuple xs) (.list ys)
  | dict {d d' : List (Key × Obj n)} (keys : d.map Prod.fst = d'.map Prod.fst)
      (h : List.Forall₂ Same (d.map Prod.snd) (d'.map Prod.snd)) : Same (.dict d) (.dict d')
  | ndarray {a b : Ndarray n} (h : SameItems a b) : Same (.ndarray a) (.ndarray b)
  | npgeneric (x : S) : Same (.npgeneric x) (.npgeneric x)
  | native {x : S} {a : Atom F} (h : n.native x = some a) : Same (.npgeneric x) (.atom a)

/-- The keys by which `unpack_array` tells an array and a scalar. -/
def markers : List Key := [.bytes (ascii "__ndarray__"), .bytes (ascii "__npgeneric__")]

/-- A payload: no dict in it has a marker for a key, no array has items of no bytes, and its
scalars are plain, or Python's own. -/
inductive Payload : Obj n → Prop
  | atom (x : Atom F) : Payload (.atom x)
  | list {xs : List (Obj n)} (h : ∀ x ∈ xs, Payload x) : Payload (.list xs)
  | tuple {xs : List (Obj n)} (h : ∀ x ∈ xs, Payload x) : Payload (.tuple xs)
  | dict {d : List (Key × Obj n)} (keys : (d.map Prod.fst).Nodup)
      (unmarked : ∀ key ∈ d.map Prod.fst, key ∉ markers)
      (h : ∀ x ∈ d.map Prod.snd, Payload x) : Payload (.dict d)
  | ndarray {a : Ndarray n} (h : 0 < n.itemsize a.dtype) : Payload (.ndarray a)
  | npgeneric {x : S} (h : n.native x = none → (n.kind (n.dtype_of x)).plain = true) :
      Payload (.npgeneric x)

/-- An array is somewhere in a value. -/
inductive Holds (a : Ndarray n) : Obj n → Prop
  | here : Holds a (.ndarray a)
  | list {xs : List (Obj n)} {x : Obj n} (hx : x ∈ xs) (h : Holds a x) : Holds a (.list xs)
  | tuple {xs : List (Obj n)} {x : Obj n} (hx : x ∈ xs) (h : Holds a x) : Holds a (.tuple xs)
  | dict {d : List (Key × Obj n)} {x : Obj n} (hx : x ∈ d.map Prod.snd) (h : Holds a x) :
      Holds a (.dict d)

/-! ### The hooks' dicts -/

/-- A shape survives being written as integers. -/
theorem toNat_shape (shape : List ℕ) : (shape.map fun k : ℕ => (k : ℤ)).map Int.toNat = shape := by
  rw [List.map_map]
  exact List.map_id'' (fun k => Int.toNat_natCast k) shape

/-- The number of entries may be computed before or after that. -/
theorem prod_shape (shape : List ℕ) :
    (shape.map fun k : ℕ => (k : ℤ)).prod = (shape.prod : ℕ) := by
  induction shape with
  | nil => rfl
  | cons k rest ih => rw [List.map_cons, List.prod_cons, List.prod_cons, ih, Nat.cast_mul]

/-- The bytes, the dtype and the shape of an array make an array with the same items. -/
theorem np_ndarray_back {a : Ndarray n} (h : 0 < n.itemsize a.dtype) :
    ∃ b, np_ndarray a.view.tobytes a.dtype (a.view.shape.map fun k : ℕ => (k : ℤ)) = .ok b ∧
      SameItems a b := by
  have hnonneg : ∀ k ∈ a.view.shape.map fun k : ℕ => (k : ℤ), 0 ≤ k := by
    intro k hk
    obtain ⟨m, _, rfl⟩ := List.mem_map.1 hk
    exact Int.natCast_nonneg m
  have hroom : ¬ (a.view.tobytes.length : ℤ) <
      n.itemsize a.dtype * (a.view.shape.map fun k : ℕ => (k : ℤ)).prod := by
    rw [prod_shape, View.length_tobytes, a.sized, Nat.mul_comm]
    exact lt_irrefl _
  refine ⟨of_buffer n a.view.tobytes a.dtype a.view.shape, ?_, rfl, rfl, ?_⟩
  · unfold np_ndarray
    rw [if_neg (Nat.pos_iff_ne_zero.1 h), if_neg, if_neg hroom, if_neg, toNat_shape]
    · rintro ⟨k, hk, hneg⟩
      exact absurd (hnonneg k hk) (not_le.2 hneg)
    · intro hminus
      have := hnonneg (-1) (hminus ▸ List.mem_singleton_self _)
      omega
  · intro idx hidx
    unfold of_buffer
    dsimp only
    rw [← a.sized, Strided.item_contiguous a.view hidx]

/-- The dict of an array when its values are back. -/
def array_back (a : Ndarray n) : List (Key × Obj n) :=
  [(.bytes (ascii "__ndarray__"), .atom (.bool true)),
    (.bytes (ascii "data"), .atom (.bytes a.view.tobytes)),
    (.bytes (ascii "dtype"), .atom (.str (n.str a.dtype))),
    (.bytes (ascii "shape"), .list (a.view.shape.map fun k : ℕ => .atom (.int k)))]

/-- A shape that was packed as a list is read back. -/
theorem shape_of_list (shape : List ℕ) :
    shape_of (.list (shape.map fun k : ℕ => .atom (.int k)) : Obj n) =
      .ok (shape.map fun k : ℕ => (k : ℤ)) := by
  apply Results.collect_ok.2
  rw [List.forall₂_map_left_iff, List.forall₂_map_right_iff]
  exact List.forall₂_same.2 fun k _ => rfl

/-- A dtype that was packed by its text is read back, where its kind is not refused. -/
theorem np_dtype_str {d : D} (h : (n.kind d).refused = false) :
    np_dtype (.atom (.str (n.str d)) : Obj n) = .ok d := by
  unfold np_dtype
  dsimp only
  rw [n.dtype_str _ h]

/-- The dict of an array becomes the array, with the items at every position, in C order. -/
theorem unpack_array_back {a : Ndarray n} (h : 0 < n.itemsize a.dtype)
    (hkind : (n.kind a.dtype).refused = false) :
    ∃ b, unpack_array (array_back a) = .ok (.ndarray b) ∧ SameItems a b := by
  obtain ⟨b, hb, hitems⟩ := np_ndarray_back h
  refine ⟨b, ?_, hitems⟩
  unfold unpack_array array_back
  rw [List.map_cons, if_pos List.mem_cons_self]
  show (do
    let dtype ← np_dtype (.atom (.str (n.str a.dtype)) : Obj n)
    let shape ← shape_of (.list (a.view.shape.map fun k : ℕ => .atom (.int k)) : Obj n)
    let a ← np_ndarray a.view.tobytes dtype shape
    pure (Obj.ndarray a)) = _
  rw [np_dtype_str hkind, shape_of_list]
  show (do
    let a ← np_ndarray a.view.tobytes a.dtype (a.view.shape.map fun k : ℕ => (k : ℤ))
    pure (Obj.ndarray a)) = _
  rw [hb]
  rfl

/-- The dict of a plain scalar becomes the scalar, of the same type and value. -/
theorem unpack_scalar_dict {x : S} (hplain : (n.kind (n.dtype_of x)).plain = true) {a : Atom F}
    (hitem : n.item x = some a) : unpack_array (scalar_dict x) = .ok (.npgeneric x : Obj n) := by
  have hscalar : np_scalar (n.dtype_of x) (.atom a : Obj n) = .ok x := by
    unfold np_scalar
    dsimp only
    rw [n.type_item x a hplain hitem]
  have hmarker : Key.bytes (ascii "__ndarray__") ∉ ([.bytes (ascii "__npgeneric__"),
      .bytes (ascii "data"), .bytes (ascii "dtype")] : List Key) := by decide
  unfold unpack_array scalar_dict
  rw [hitem]
  simp only [List.map_cons, List.map_nil]
  rw [if_neg hmarker, if_pos List.mem_cons_self]
  show (do
    let dtype ← np_dtype (.atom (.str (n.str (n.dtype_of x))) : Obj n)
    let x ← np_scalar dtype (.atom a : Obj n)
    pure (Obj.npgeneric x)) = _
  rw [np_dtype_str (Kind.refused_of_plain hplain)]
  show (do
    let x ← np_scalar (n.dtype_of x) (.atom a : Obj n)
    pure (Obj.npgeneric x)) = _
  rw [hscalar]
  rfl

/-- A dict without markers stays a dict. -/
theorem unpack_unmarked {d : List (Key × Obj n)} (h : ∀ key ∈ d.map Prod.fst, key ∉ markers) :
    unpack_array d = .ok (.dict d) := by
  have hmarker : ∀ key ∈ markers, key ∉ d.map Prod.fst := fun key hkey hmem => h key hmem hkey
  unfold unpack_array
  rw [if_neg (hmarker _ List.mem_cons_self),
    if_neg (hmarker _ (List.mem_cons_of_mem _ List.mem_cons_self))]
  rfl

/-- The keys under which an array is packed are distinct. -/
theorem nodup_array_dict (a : Ndarray n) : ((array_dict a).map Prod.fst).Nodup := by
  show ([.bytes (ascii "__ndarray__"), .bytes (ascii "data"), .bytes (ascii "dtype"),
    .bytes (ascii "shape")] : List Key).Nodup
  decide

/-- So are those of a NumPy scalar. -/
theorem nodup_scalar_dict (x : S) : ((scalar_dict x : List (Key × Obj n)).map Prod.fst).Nodup := by
  show ([.bytes (ascii "__npgeneric__"), .bytes (ascii "data"), .bytes (ascii "dtype")] :
    List Key).Nodup
  decide

/-- An array that the hook takes has no refused dtype. -/
theorem pack_array_ndarray {a : Ndarray n} {obj : Obj n} (h : pack_array (.ndarray a) = .ok obj) :
    (n.kind a.dtype).refused = false ∧ obj = .dict (array_dict a) := by
  unfold pack_array at h
  dsimp only at h
  split_ifs at h with hkind
  exact ⟨Bool.eq_false_iff.2 hkind, (Except.ok.inj h).symm⟩

/-- A NumPy scalar that is packed becomes the dict with its bytes and its dtype. -/
theorem pack_array_npgeneric {x : S} {obj : Obj n} (h : pack_array (.npgeneric x) = .ok obj) :
    obj = .dict (scalar_dict x) := by
  unfold pack_array at h
  dsimp only at h
  split_ifs at h
  exact (Except.ok.inj h).symm

/-- The hook is of no help with a value it does not know either. -/
theorem not_accepted_other : ¬ Accepted pack_array (.other : Obj n) := by
  intro h
  cases h with
  | default unknown hook known h =>
    obtain rfl := Except.ok.inj hook
    exact unknown known

/-! ### Payloads -/

/-- Partners in two relations at once, for each value of a list. -/
theorem exists_partners {α β : Type} {R T : α → β → Prop} {xs : List α}
    (h : ∀ x ∈ xs, ∃ y, R x y ∧ T x y) :
    ∃ ys, List.Forall₂ R xs ys ∧ List.Forall₂ T xs ys := by
  induction xs with
  | nil => exact ⟨[], .nil, .nil⟩
  | cons x rest ih =>
    obtain ⟨y, hr, ht⟩ := h x List.mem_cons_self
    obtain ⟨ys, hrs, hts⟩ := ih fun x hx => h x (List.mem_cons_of_mem _ hx)
    exact ⟨y :: ys, .cons hr hrs, .cons ht hts⟩

/-- A list, zipped with as many keys as it has values. -/
theorem zip_keys {d : List (Key × Obj n)} {ys : List (Obj n)} (h : d.length = ys.length) :
    ((d.map Prod.fst).zip ys).map Prod.fst = d.map Prod.fst ∧
      ((d.map Prod.fst).zip ys).map Prod.snd = ys := by
  constructor
  · exact List.map_fst_zip (by rw [List.length_map, h])
  · exact List.map_snd_zip (by rw [List.length_map, h])

/-- An array that the hook packs arrives: what is unpacked has its dtype, its shape and the items at
every position. -/
theorem ndarray_arrives {a : Ndarray n} (hsize : 0 < n.itemsize a.dtype) {obj : Obj n}
    (hook : pack_array (.ndarray a) = .ok obj) :
    ∃ back, Arrives pack_array unpack_array (.ndarray a) back ∧ Same (.ndarray a) back := by
  obtain ⟨hkind, rfl⟩ := pack_array_ndarray hook
  obtain ⟨b, hb, hitems⟩ := unpack_array_back hsize hkind
  refine ⟨.ndarray b, ?_, .ndarray hitems⟩
  refine .default (fun hknown => hknown) hook trivial ?_
  have hkeys : (array_dict a).map Prod.fst = (array_back a).map Prod.fst := rfl
  refine .dict (nodup_array_dict a) hkeys ?_ hb
  refine .cons (.atom _) (.cons (.atom _) (.cons (.atom _) (.cons (.tuple ?_) .nil)))
  rw [List.forall₂_map_left_iff, List.forall₂_map_right_iff]
  exact List.forall₂_same.2 fun k _ => .atom _

/-- And so does a scalar of a type of NumPy's own, if it has a plain value. -/
theorem npgeneric_arrives {x : S} (hunknown : ¬ Known (.npgeneric x : Obj n))
    (hplain : (n.kind (n.dtype_of x)).plain = true) {obj : Obj n}
    (hook : pack_array (.npgeneric x) = .ok obj) (h : Accepted pack_array obj) :
    ∃ back : Obj n, Arrives pack_array unpack_array (.npgeneric x) back ∧
      Same (.npgeneric x) back := by
  obtain rfl := pack_array_npgeneric hook
  have hvalues : ∀ y ∈ (scalar_dict x : List (Key × Obj n)).map Prod.snd,
      Accepted pack_array y := by
    cases h with
    | dict h => exact h
    | default unknown _ _ _ => exact absurd trivial unknown
  have hdata : Accepted pack_array ((n.item x).elim .other .atom : Obj n) :=
    hvalues _ (List.mem_cons_of_mem _ List.mem_cons_self)
  cases hitem : n.item x with
  | none =>
    rw [hitem] at hdata
    exact absurd hdata not_accepted_other
  | some a =>
    refine ⟨.npgeneric x, ?_, .npgeneric x⟩
    refine .default hunknown hook trivial ?_
    refine .dict (nodup_scalar_dict x) rfl ?_ (unpack_scalar_dict hplain hitem)
    refine .cons (.atom _) (.cons ?_ (.cons (.atom _) .nil))
    show Arrives _ _ ((n.item x).elim Obj.other Obj.atom) ((n.item x).elim Obj.other Obj.atom)
    rw [hitem]
    exact .atom a

/-- A payload that can be packed arrives as it was. By induction on how its parts can be packed:
the values inside of a list or a dict are payloads, and what the hook has for a value is a dict of
the hook's own. -/
theorem payload_arrives {obj : Obj n} (h : Accepted pack_array obj) (hobj : Payload obj) :
    ∃ back, Arrives pack_array unpack_array obj back ∧ Same obj back := by
  induction h with
  | atom x => exact ⟨.atom x, .atom x, .atom x⟩
  | @native x a h => exact ⟨.atom a, .native h, .native h⟩
  | @list xs _ ih =>
    cases hobj with
    | list hxs =>
      obtain ⟨ys, harrives, hsame⟩ := exists_partners fun x hx => ih x hx (hxs x hx)
      exact ⟨.list ys, .list harrives, .list hsame⟩
  | @tuple xs _ ih =>
    cases hobj with
    | tuple hxs =>
      obtain ⟨ys, harrives, hsame⟩ := exists_partners fun x hx => ih x hx (hxs x hx)
      exact ⟨.list ys, .tuple harrives, .tuple hsame⟩
  | @dict d _ ih =>
    cases hobj with
    | dict keys unmarked hvalues =>
      obtain ⟨ys, harrives, hsame⟩ := exists_partners fun x hx => ih x hx (hvalues x hx)
      have hlength : d.length = ys.length := by
        rw [← harrives.length_eq, List.length_map]
      obtain ⟨hkeys, hback⟩ := zip_keys hlength
      have hunmarked : ∀ key ∈ ((d.map Prod.fst).zip ys).map Prod.fst, key ∉ markers := by
        rwa [hkeys]
      refine ⟨.dict ((d.map Prod.fst).zip ys), ?_, .dict hkeys.symm (by rwa [hback])⟩
      exact .dict keys hkeys.symm (by rwa [hback]) (unpack_unmarked hunmarked)
  | @default obj obj' unknown hook known h _ =>
    cases hobj with
    | atom | list | tuple | dict => exact absurd trivial unknown
    | ndarray hsize => exact ndarray_arrives hsize hook
    | @npgeneric x hx =>
      have hnative : n.native x = none := Option.not_isSome_iff_eq_none.1 unknown
      exact npgeneric_arrives unknown (hx hnative) hook h

/-- No array of a refused dtype can be packed, wherever it is. -/
theorem kind_of_accepted {obj : Obj n} {a : Ndarray n} (hholds : Holds a obj)
    (h : Accepted pack_array obj) : (n.kind a.dtype).refused = false := by
  induction hholds with
  | here =>
    cases h with
    | default _ hook _ _ => exact (pack_array_ndarray hook).1
  | @list xs x hx _ ih =>
    cases h with
    | list h => exact ih (h x hx)
    | default unknown _ _ _ => exact absurd trivial unknown
  | @tuple xs x hx _ ih =>
    cases h with
    | tuple h => exact ih (h x hx)
    | default unknown _ _ _ => exact absurd trivial unknown
  | @dict d x hx _ ih =>
    cases h with
    | dict h => exact ih (h x hx)
    | default unknown _ _ _ => exact absurd trivial unknown

/-- Whichever library it is, a payload that is packed comes back as it was: every array with its dtype,
its shape and the items at every position, however it lay in memory, and a tuple as a list. None of
its arrays has a refused dtype. -/
theorem wire_round_trip (m : Library n Frame) {obj : Obj n} {frame : Frame} (hobj : Payload obj)
    (h : m.codec.packb obj = some frame) :
    (∃ obj', m.codec.unpackb frame = some obj' ∧ Same obj obj') ∧
      ∀ a, Holds a obj → (n.kind a.dtype).refused = false := by
  have haccepted := m.accepts pack_array obj frame h
  obtain ⟨back, harrives, hsame⟩ := payload_arrives haccepted hobj
  refine ⟨⟨back, ?_, hsame⟩, fun a ha => kind_of_accepted ha haccepted⟩
  exact m.returns pack_array unpack_array obj frame back h harrives

/-! ## One library -/

/-- What a frame holds. -/
inductive Msg (F : Type)
  | atom (x : Atom F)
  | array (xs : List (Msg F))
  | map (entries : List (Key × Msg F))

section Inner

variable (pack : Obj n → Except PackError (Msg F)) (unpack : Msg F → Except UnpackError (Obj n))

def pack_entry (entry : Key × Obj n) : Except PackError (Key × Msg F) := do
  let value ← pack entry.2
  pure (entry.1, value)

/-- A value of a type that msgpack knows; `none` for another. -/
def pack_known : Obj n → Option (Except PackError (Msg F))
  | .atom x => some (.ok (.atom x))
  | .list xs | .tuple xs => some ((Results.collect pack xs).map .array)
  | .dict entries => some ((Results.collect (pack_entry pack) entries).map .map)
  | .npgeneric x => (n.native x).map fun a => .ok (.atom a)
  | .ndarray _ | .other => none

def unpack_entry (entry : Key × Msg F) : Except UnpackError (Key × Obj n) := do
  let value ← unpack entry.2
  pure (entry.1, value)

end Inner

section Tree

variable (default : Obj n → Except PackError (Obj n))
  (object_hook : List (Key × Obj n) → Except UnpackError (Obj n))

/-- Packing, with so many levels of nesting left. -/
def pack : ℕ → Obj n → Except PackError (Msg F)
  | 0, _ => .error .recursion_limit
  | nest + 1, obj =>
    match pack_known (pack nest) obj with
    | some result => result
    | none => do
      let obj ← default obj
      (pack_known (pack nest) obj).getD (.error .not_serializable)

/-- Unpacking, with so much room on the stack. -/
def unpack : ℕ → Msg F → Except UnpackError (Obj n)
  | _, .atom x => .ok (.atom x)
  | 0, .array _ | 0, .map _ => .error .too_nested
  | depth + 1, .array xs => (Results.collect (unpack depth) xs).map .list
  | depth + 1, .map entries => do
    let d ← Results.collect (unpack_entry (unpack depth)) entries
    object_hook d

variable {default object_hook}

/-- A result that was mapped over comes from a result of the call. -/
theorem map_ok {ε α β : Type} {x : Except ε α} {f : α → β} {b : β} (h : x.map f = .ok b) :
    ∃ a, x = .ok a ∧ b = f a := by
  cases x with
  | error e => exact nomatch h
  | ok a => exact ⟨a, rfl, (Except.ok.inj h).symm⟩

/-- An entry that is packed keeps its key, and its value is packed. -/
theorem entry_ok {pack : Obj n → Except PackError (Msg F)} {entry : Key × Obj n}
    {packed : Key × Msg F} (h : pack_entry pack entry = .ok packed) :
    packed.1 = entry.1 ∧ pack entry.2 = .ok packed.2 := by
  obtain ⟨value, hvalue, h⟩ := Results.bind_ok.1 h
  obtain rfl := Except.ok.inj h
  exact ⟨rfl, hvalue⟩

/-- What msgpack packs by itself is an object of a kind that it knows. -/
theorem known_of_packed {pack : Obj n → Except PackError (Msg F)} {obj : Obj n}
    {result : Except PackError (Msg F)} (h : pack_known pack obj = some result) : Known obj := by
  cases obj with
  | atom | list | tuple | dict => exact trivial
  | npgeneric x =>
    obtain ⟨a, ha, _⟩ := Option.map_eq_some_iff.1 h
    exact Option.isSome_of_mem ha
  | ndarray | other => exact nomatch h

/-- A value is packed as it is, or as what the hook has for it. -/
theorem pack_cases {nest : ℕ} {obj : Obj n} {msg : Msg F}
    (h : pack default (nest + 1) obj = .ok msg) :
    pack_known (pack default nest) obj = some (.ok msg) ∨
    ¬ Known obj ∧ ∃ obj', default obj = .ok obj' ∧
      pack_known (pack default nest) obj' = some (.ok msg) := by
  rw [pack] at h
  cases hknown : pack_known (pack default nest) obj with
  | some result =>
    rw [hknown] at h
    exact .inl (congrArg some h)
  | none =>
    rw [hknown] at h
    obtain ⟨obj', hdefault, h⟩ := Results.bind_ok.1 h
    refine .inr ⟨fun hobj => ?_, obj', hdefault, ?_⟩
    · cases obj with
      | atom | list | tuple | dict => exact nomatch hknown
      | npgeneric x =>
        obtain ⟨a, ha⟩ := Option.isSome_iff_exists.1 hobj
        rw [pack_known, ha] at hknown
        exact nomatch hknown
      | ndarray | other => exact hobj
    · cases hinner : pack_known (pack default nest) obj' with
      | some result =>
        rw [hinner] at h
        exact congrArg some h
      | none =>
        rw [hinner] at h
        exact nomatch h

/-- One level of what is packed can be packed if the levels below can. -/
theorem accepted_of_known {nest : ℕ} (ih : ∀ {x : Obj n} {msg : Msg F},
      pack default nest x = .ok msg → Accepted default x) {obj : Obj n} {msg : Msg F}
    (h : pack_known (pack default nest) obj = some (.ok msg)) : Accepted default obj := by
  have hsequence : ∀ {xs : List (Obj n)},
      (Results.collect (pack default nest) xs).map Msg.array = .ok msg →
        ∀ x ∈ xs, Accepted default x := by
    intro xs h x hx
    obtain ⟨packed, hpacked, _⟩ := map_ok h
    obtain ⟨_, _, hmsg⟩ := Results.entry_of_collect hpacked x hx
    exact ih hmsg
  cases obj with
  | atom x => exact .atom x
  | list xs => exact .list (hsequence (Option.some.inj h))
  | tuple xs => exact .tuple (hsequence (Option.some.inj h))
  | dict d =>
    obtain ⟨packed, hpacked, _⟩ := map_ok (Option.some.inj h)
    refine .dict fun x hx => ?_
    obtain ⟨entry, hentry, rfl⟩ := List.mem_map.1 hx
    obtain ⟨_, _, hmsg⟩ := Results.entry_of_collect hpacked entry hentry
    exact ih (entry_ok hmsg).2
  | npgeneric x =>
    obtain ⟨a, ha, _⟩ := Option.map_eq_some_iff.1 h
    exact .native ha
  | ndarray | other => exact nomatch h

/-- By induction on the nesting: whatever is packed is accepted, by msgpack itself or through the
hook, at every depth. -/
theorem pack_accepts (nest : ℕ) : ∀ {obj : Obj n} {msg : Msg F},
    pack default nest obj = .ok msg → Accepted default obj := by
  induction nest with
  | zero => exact fun h => nomatch h
  | succ nest ih =>
    intro obj msg h
    rcases pack_cases h with hknown | ⟨hunknown, obj', hdefault, hknown⟩
    · exact accepted_of_known ih hknown
    · exact .default hunknown hdefault (known_of_packed hknown) (accepted_of_known ih hknown)

/-- Values that are packed one by one come back in a list. -/
theorem sequence_returns {nest depth : ℕ} (ih : ∀ {x : Obj n} {msg : Msg F} {back : Obj n},
      pack default nest x = .ok msg → Arrives default object_hook x back →
        unpack object_hook depth msg = .ok back)
    {xs ys : List (Obj n)} (h : List.Forall₂ (Arrives default object_hook) xs ys)
    {packed : List (Msg F)} (hpacked : Results.collect (pack default nest) xs = .ok packed) :
    Results.collect (unpack object_hook depth) packed = .ok ys := by
  induction h generalizing packed with
  | nil =>
    obtain rfl := Except.ok.inj hpacked
    rfl
  | @cons x y _ _ hx _ ihs =>
    obtain ⟨msg, rest, hmsg, hrest, rfl⟩ := Results.collect_cons.1 hpacked
    exact Results.collect_cons.2 ⟨y, _, ih hmsg hx, ihs hrest, rfl⟩

/-- And so do the entries of a dict, under their keys and in their order. -/
theorem entries_return {nest depth : ℕ} (ih : ∀ {x : Obj n} {msg : Msg F} {back : Obj n},
      pack default nest x = .ok msg → Arrives default object_hook x back →
        unpack object_hook depth msg = .ok back)
    {d d' : List (Key × Obj n)} (hkeys : d.map Prod.fst = d'.map Prod.fst)
    (h : List.Forall₂ (Arrives default object_hook) (d.map Prod.snd) (d'.map Prod.snd))
    {packed : List (Key × Msg F)}
    (hpacked : Results.collect (pack_entry (pack default nest)) d = .ok packed) :
    Results.collect (unpack_entry (unpack object_hook depth)) packed = .ok d' := by
  induction d generalizing d' packed with
  | nil =>
    obtain rfl := Except.ok.inj hpacked
    obtain rfl := List.map_eq_nil_iff.1 hkeys.symm
    rfl
  | cons entry rest ihd =>
    cases d' with
    | nil => exact nomatch hkeys
    | cons entry' rest' =>
      obtain ⟨hkey, hkeys⟩ := List.cons.inj hkeys
      obtain ⟨hvalue, hvalues⟩ := List.forall₂_cons.1 h
      obtain ⟨msg, msgs, hmsg, hrest, rfl⟩ := Results.collect_cons.1 hpacked
      obtain ⟨hname, hpacked⟩ := entry_ok hmsg
      refine Results.collect_cons.2 ⟨entry', rest', ?_, ihd hkeys hvalues hrest, rfl⟩
      unfold unpack_entry
      rw [ih hpacked hvalue, hname, hkey]
      rfl

/-- One level of what is packed comes back if the levels below do. -/
theorem known_returns {nest depth : ℕ} (ih : ∀ {x : Obj n} {msg : Msg F} {back : Obj n},
      pack default nest x = .ok msg → Arrives default object_hook x back →
        unpack object_hook depth msg = .ok back)
    {obj back : Obj n} {msg : Msg F} (h : pack_known (pack default nest) obj = some (.ok msg))
    (harrives : Arrives default object_hook obj back) :
    unpack object_hook (depth + 1) msg = .ok back := by
  cases harrives with
  | atom x =>
    obtain rfl := Except.ok.inj (Option.some.inj h)
    rfl
  | @native x a hnative =>
    rw [pack_known, hnative] at h
    obtain rfl := Except.ok.inj (Option.some.inj h)
    rfl
  | list hxs =>
    obtain ⟨packed, hpacked, rfl⟩ := map_ok (Option.some.inj h)
    rw [unpack, sequence_returns ih hxs hpacked]
    rfl
  | tuple hxs =>
    obtain ⟨packed, hpacked, rfl⟩ := map_ok (Option.some.inj h)
    rw [unpack, sequence_returns ih hxs hpacked]
    rfl
  | dict _ keys hvalues hook =>
    obtain ⟨packed, hpacked, rfl⟩ := map_ok (Option.some.inj h)
    rw [unpack, entries_return ih keys hvalues hpacked]
    exact hook
  | default unknown _ _ _ => exact absurd (known_of_packed h) unknown

/-- By induction on the nesting: what was packed is unpacked to what arrives of it, the hook
rebuilding arrays on the way. -/
theorem unpack_returns (nest : ℕ) : ∀ {obj : Obj n} {msg : Msg F} {back : Obj n} {depth : ℕ},
    nest ≤ depth → pack default nest obj = .ok msg → Arrives default object_hook obj back →
      unpack object_hook depth msg = .ok back := by
  induction nest with
  | zero => exact fun _ h => nomatch h
  | succ nest ih =>
    intro obj msg back depth hle h harrives
    obtain ⟨depth, rfl⟩ : ∃ k, depth = k + 1 := ⟨depth - 1, by omega⟩
    have hbelow : ∀ {x : Obj n} {msg : Msg F} {back : Obj n}, pack default nest x = .ok msg →
        Arrives default object_hook x back → unpack object_hook depth msg = .ok back :=
      fun h harrives => ih (by omega) h harrives
    rcases pack_cases h with hknown | ⟨hunknown, obj', hdefault, hknown⟩
    · exact known_returns hbelow hknown harrives
    · cases harrives with
      | default _ hook _ harrives =>
        obtain rfl := Except.ok.inj (hdefault.symm.trans hook)
        exact known_returns hbelow hknown harrives
      | atom | list | tuple | dict => exact absurd trivial hunknown
      | native hnative => exact absurd (Option.isSome_of_mem hnative) hunknown

end Tree

/-- An option that holds a value is a call that returned it. -/
theorem toOption_ok {ε α : Type} {x : Except ε α} {a : α} (h : x.toOption = some a) :
    x = .ok a := by
  cases x with
  | error e => exact nomatch h
  | ok b => exact congrArg Except.ok (Option.some.inj h)

/-- A library whose frames are the trees that are packed in them. It nests 512 levels deep, and
unpacks 1024. -/
def tree : Library n (Msg F) where
  packb default obj := (pack default 512 obj).toOption
  unpackb object_hook msg := (unpack object_hook 1024 msg).toOption
  accepts default obj frame h := pack_accepts 512 (toOption_ok h)
  returns default object_hook obj frame back h harrives := by
    rw [unpack_returns 512 (by omega : 512 ≤ 1024) (toOption_ok h) harrives]
    rfl

end Wire

/-! ### A payload -/

/-- Three of NumPy's dtypes. -/
inductive Dtype
  | float32
  | float64
  | complex64
  deriving DecidableEq, Repr

/-- And scalars of two of them. -/
inductive Scalar
  | float32 (x : Ieee)
  | float64 (x : Ieee)

def numpy : Numpy Ieee Scalar Dtype where
  kind
    | .float32 | .float64 => .floating
    | .complex64 => .complex
  itemsize
    | .float32 => 4
    | .float64 | .complex64 => 8
  name
    | .float32 => "float32"
    | .float64 => "float64"
    | .complex64 => "complex64"
  str
    | .float32 => "<f4"
    | .float64 => "<f8"
    | .complex64 => "<c8"
  dtype
    | .str "<f4" => some .float32
    | .str "<f8" => some .float64
    | .str "<c8" => some .complex64
    | _ => none
  dtype_of
    | .float32 _ => .float32
    | .float64 _ => .float64
  item
    | .float32 x | .float64 x => some (.float x)
  native
    | .float32 _ => none
    | .float64 x => some (.float x)
  type
    | .float32, .float x => some (.float32 x)
    | .float64, .float x => some (.float64 x)
    | _, _ => none
  dtype_str d h := by
    cases d with
    | float32 | float64 => rfl
    | complex64 => cases h
  type_item x a _ h := by
    cases x with
    | float32 x | float64 x =>
      obtain rfl := Option.some.inj h
      rfl

/-- The state `[1.0, 0.0]`, as a reversed view of `[0.0, 1.0]`. -/
def state : Ndarray numpy where
  dtype := .float32
  view :=
    { memory := fun k => [0, 0, 0, 0, 0, 0, 128, 63].getD k.toNat 0
      offset := 4
      itemsize := 4
      shape := [2]
      strides := [-4] }
  sized := rfl

def payload : Obj numpy :=
  .dict [(.str "observation/state", .ndarray state), (.str "prompt", .atom (.str "do the task")),
    (.str "rates", .tuple [.npgeneric (.float32 (.fin 30)), .npgeneric (.float64 (.fin 5))])]

def frame : Msg Ieee :=
  .map [(.str "observation/state", .map [(.bytes (ascii "__ndarray__"), .atom (.bool true)),
      (.bytes (ascii "data"), .atom (.bytes [0, 0, 128, 63, 0, 0, 0, 0])),
      (.bytes (ascii "dtype"), .atom (.str "<f4")),
      (.bytes (ascii "shape"), .array [.atom (.int 2)])]),
    (.str "prompt", .atom (.str "do the task")),
    (.str "rates", .array [.map [(.bytes (ascii "__npgeneric__"), .atom (.bool true)),
        (.bytes (ascii "data"), .atom (.float (.fin 30))),
        (.bytes (ascii "dtype"), .atom (.str "<f4"))],
      .atom (.float (.fin 5))])]

/-- The payload of the example is one: plain numbers under keys that are no markers. -/
theorem payload_ok : Payload payload := by
  refine .dict (by decide) (by decide) fun x hx => ?_
  simp only [List.map_cons, List.map_nil, List.mem_cons, List.not_mem_nil, or_false] at hx
  obtain rfl | rfl | rfl := hx
  · exact .ndarray (by decide)
  · exact .atom _
  · refine .tuple fun x hx => ?_
    simp only [List.mem_cons, List.not_mem_nil, or_false] at hx
    obtain rfl | rfl := hx
    · exact .npgeneric fun _ => rfl
    · exact .npgeneric fun _ => rfl

/-- A state whose array is a reversed view comes back with its entries in that order, packed with
its bytes copied. -/
theorem reversed_state_round_trip :
    (∃ obj', (tree (n := numpy)).codec.unpackb frame = some obj' ∧ Same payload obj') ∧
      ∀ a, Holds a payload → (numpy.kind a.dtype).refused = false :=
  wire_round_trip tree payload_ok rfl

end DualFlexivControl.Policy.Msgpack
