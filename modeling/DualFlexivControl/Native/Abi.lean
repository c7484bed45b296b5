/-
The cross-language ring ABI.

A segment that appends have built up is, word for word, the memory of the abstract producer
of `Streams.Ring` ([`Shows`], [`AtRest`]), whichever language appended. So what is known of
the readers there is true of the segment, and as both languages find every word of the
arrays in the same place ([`view_eq`]), they read the same samples.
-/
import DualFlexivControl.Native.Layout
import DualFlexivControl.Native.AtRest

set_option autoImplicit false

open Interleave Relation DualFlexivControl.Ring

namespace DualFlexivControl.Native

section Addresses

variable {capacity dim : ℕ}

/-! ## The memory and the abstract producer -/

/-- Both languages see the same word at every address of the arrays. -/
theorem view_eq {R : RingSpec} (h : Allocates R.capacity R.dim) (g : Segment) (a : Addr)
    (ha : InRange R a) :
    Cpp.view (cpp_ring R.capacity R.dim) g a = Py.view (py_ring R.capacity R.dim) g a := by
  have hsize := h.size_eq
  have hslot : ∀ slot < R.capacity, (BitVec.ofNat 64 slot).toNat = slot :=
    fun slot hlt => toNat_ofNat_of_lt (by omega)
  cases a with
  | write_count => rfl
  | seq slot =>
    have hlt : (BitVec.ofNat 64 slot).toNat < R.capacity := by rw [hslot slot ha]; exact ha
    simp only [Cpp.view, Py.view, Cpp.load]
    rw [toNat_seq_slot h hlt, hslot slot ha]
  | t_ns slot =>
    have hlt : (BitVec.ofNat 64 slot).toNat < R.capacity := by rw [hslot slot ha]; exact ha
    simp only [Cpp.view, Py.view, Cpp.load]
    rw [toNat_timestamps_slot h hlt, hslot slot ha]
  | data slot j =>
    obtain ⟨hs, hj⟩ := ha
    have hdim := h.dim_le
    have hrow := row_lt hs (Nat.le_of_lt hj)
    have hlt : (BitVec.ofNat 64 slot).toNat < R.capacity := by rw [hslot slot hs]; exact hs
    have hjj : (BitVec.ofNat 64 j).toNat = j := toNat_ofNat_of_lt (by omega)
    have hbase := toNat_data_slot h hlt
    rw [hslot slot hs] at hbase
    have hoff : (py_ring R.capacity R.dim).data_off = 64 + R.capacity * 8 + R.capacity * 8 := rfl
    simp only [Cpp.view, Py.view, Cpp.load]
    rw [toNat_element (by rw [hjj]; exact hbase ▸ by rw [hoff]; omega)]
    rw [show (Cpp.element (cpp_ring R.capacity R.dim).data_
      (BitVec.ofNat 64 slot * (cpp_ring R.capacity R.dim).dim_)).toNat = _ from hbase, hjj]
    congr 1
    show _ = _ + (slot * R.dim + j) * 8
    omega

/-- The byte offset of a word in the arrays of a `SharedRingBuffer`. -/
def offset (r : Py.SharedRingBuffer) : Addr → ℕ
  | .write_count => Py.H_WRITE_COUNT * 8
  | .seq slot => r.seq_off + slot * 8
  | .t_ns slot => r.ts_off + slot * 8
  | .data slot j => r.data_off + (slot * r.dim + j) * 8

/-- The word a store goes to, and the pattern it stores. -/
def target : Store (BitVec 64) → Addr
  | .seq slot _ => .seq slot
  | .data slot j _ => .data slot j
  | .t_ns slot _ => .t_ns slot
  | .write_count _ => .write_count

def pattern : Store (BitVec 64) → BitVec 64
  | .seq _ v => BitVec.ofInt 64 v
  | .data _ _ v => v
  | .t_ns _ v => BitVec.ofInt 64 v
  | .write_count v => BitVec.ofNat 64 v

/-- One store of the abstract producer, on the segment. -/
def put (r : Py.SharedRingBuffer) (g : Segment) (st : Store (BitVec 64)) : Segment :=
  g.put (offset r (target st)) (pattern st)

/-- A store of a value its word can hold. -/
def StoreFits (R : RingSpec) (st : Store (BitVec 64)) : Prop :=
  InRange R (target st) ∧
    match st with
    | .seq _ v => -2 ^ 63 ≤ v ∧ v < 2 ^ 63
    | .data _ _ _ => True
    | .t_ns _ v => -2 ^ 63 ≤ v ∧ v < 2 ^ 63
    | .write_count v => v < 2 ^ 63

/-- The segment shows the memory `m`. -/
structure Shows (R : RingSpec) (g : Segment) (m : Mem (BitVec 64)) : Prop where
  count : (Py.header g Py.H_WRITE_COUNT).toInt = (m.write_count : ℤ)
  words : ∀ a, InRange R a → Py.view (py_ring R.capacity R.dim) g a = m.read a

/-- A word of the segment after a store: the new one where both offsets lie in the same word, and
the old one elsewhere. -/
theorem get_put (g : Segment) (off off' : ℕ) (v : BitVec 64) :
    (g.put off v).get off' = if off' / 8 = off / 8 then v else g.get off' := rfl

/-- The word that was stored is read back from the offset it was stored at. -/
theorem get_put_self (g : Segment) (off : ℕ) (v : BitVec 64) : (g.put off v).get off = v :=
  if_pos rfl

/-- An integer that fits a signed word is read back from its pattern. -/
theorem toInt_ofInt_of_fits {v : ℤ} (hlo : -2 ^ 63 ≤ v) (hhi : v < 2 ^ 63) :
    (BitVec.ofInt 64 v).toInt = v :=
  BitVec.toInt_ofInt_eq_self (by decide) (by simpa using hlo) (by simpa using hhi)

/-- A count that fits a signed word is read back from its pattern. -/
theorem toInt_ofNat_of_fits {n : ℕ} (h : n < 2 ^ 63) : (BitVec.ofNat 64 n).toInt = (n : ℤ) := by
  rw [← BitVec.ofInt_natCast]
  exact toInt_ofInt_of_fits (by omega) (by omega)

/-- Two elements of the payload are at the same place only if they are the same. -/
theorem row_inj {s s' j j' : ℕ} (hj : j < dim) (hj' : j' < dim)
    (heq : s * dim + j = s' * dim + j') : s = s' ∧ j = j' := by
  have hdiv := congrArg (· / dim) heq
  have hmod := congrArg (· % dim) heq
  simp only [Nat.mul_add_mod_of_lt hj, Nat.mul_add_mod_of_lt hj'] at hmod
  simp only [Nat.mul_comm _ dim, Nat.mul_add_div (show dim > 0 by omega), Nat.div_eq_of_lt hj,
    Nat.div_eq_of_lt hj', Nat.add_zero] at hdiv
  exact ⟨hdiv, hmod⟩

section Stores

variable {R : RingSpec} {g : Segment} {m : Mem (BitVec 64)} {st : Store (BitVec 64)} {a : Addr}

/-- **No two words of the arrays share a place.** The sequence numbers, the time stamps and the
payload follow each other, and a row is as wide as its stride. -/
theorem offset_inj {a' : Addr} (ha : InRange R a) (ha' : InRange R a')
    (heq : offset (py_ring R.capacity R.dim) a / 8 = offset (py_ring R.capacity R.dim) a' / 8) :
    a = a' := by
  have hseq : (py_ring R.capacity R.dim).seq_off = 64 := rfl
  have hts : (py_ring R.capacity R.dim).ts_off = 64 + R.capacity * 8 := rfl
  have hdata : (py_ring R.capacity R.dim).data_off = 64 + R.capacity * 8 + R.capacity * 8 := rfl
  have hdim : (py_ring R.capacity R.dim).dim = R.dim := rfl
  cases a <;> cases a' <;>
    simp only [InRange, offset, Py.H_WRITE_COUNT, hseq, hts, hdata, hdim] at ha ha' heq
  -- within one array the index decides, and the arrays do not overlap
  case write_count.write_count => rfl
  case seq.seq s s' => rw [show s = s' by omega]
  case t_ns.t_ns s s' => rw [show s = s' by omega]
  case data.data s j s' j' =>
    obtain ⟨rfl, rfl⟩ := row_inj ha.2 ha'.2 (show s * R.dim + j = s' * R.dim + j' by omega)
    rfl
  all_goals omega

/-- A store leaves the other words alone, on the segment ... -/
theorem get_put_of_ne (hfits : StoreFits R st) (ha : InRange R a) (hne : a ≠ target st) :
    (put (py_ring R.capacity R.dim) g st).get (offset (py_ring R.capacity R.dim) a) =
      g.get (offset (py_ring R.capacity R.dim) a) := by
  unfold put
  rw [get_put, if_neg fun heq => hne (offset_inj ha hfits.1 heq)]

/-- ... and in the memory. -/
theorem read_store_of_ne (hne : a ≠ target st) : (m.store st).read a = m.read a := by
  cases st <;> cases a <;> simp_all [target, Mem.store, Mem.read]

/-- A store to another word of the arrays leaves what a reader sees of this one. -/
theorem view_put_of_ne (hfits : StoreFits R st) (ha : InRange R a) (hne : a ≠ target st) :
    Py.view (py_ring R.capacity R.dim) (put (py_ring R.capacity R.dim) g st) a =
      Py.view (py_ring R.capacity R.dim) g a := by
  have hget := @get_put_of_ne R g st a hfits ha hne
  cases a with
  | write_count => exact congrArg (fun w => (BitVec.toInt w).toNat) hget
  | seq slot => exact congrArg BitVec.toInt hget
  | t_ns slot => exact congrArg BitVec.toInt hget
  | data slot j => exact hget

/-- The word stored is the word shown: a value that fits its word is read back from the pattern,
whether it is signed or not. -/
theorem view_put_target (hfits : StoreFits R st) :
    Py.view (py_ring R.capacity R.dim) (put (py_ring R.capacity R.dim) g st) (target st) =
      (m.store st).read (target st) := by
  have hget := get_put_self g (offset (py_ring R.capacity R.dim) (target st)) (pattern st)
  cases st with
  | write_count v =>
    refine (congrArg (fun w => (BitVec.toInt w).toNat) hget).trans ?_
    show (BitVec.ofNat 64 v).toInt.toNat = v
    rw [toInt_ofNat_of_fits hfits.2, Int.toNat_natCast]
  | seq slot v =>
    refine (congrArg BitVec.toInt hget).trans ?_
    show (BitVec.ofInt 64 v).toInt = if slot = slot then v else m.seq slot
    rw [toInt_ofInt_of_fits hfits.2.1 hfits.2.2, if_pos rfl]
  | t_ns slot v =>
    refine (congrArg BitVec.toInt hget).trans ?_
    show (BitVec.ofInt 64 v).toInt = if slot = slot then v else m.t_ns slot
    rw [toInt_ofInt_of_fits hfits.2.1 hfits.2.2, if_pos rfl]
  | data slot j v =>
    refine hget.trans ?_
    show v = if slot = slot ∧ j = j then v else m.data slot j
    rw [if_pos ⟨rfl, rfl⟩]

/-- A store does to the segment what it does to the memory. -/
theorem Shows.put (h : Shows R g m) (hfits : StoreFits R st) :
    Shows R (put (py_ring R.capacity R.dim) g st) (m.store st) where
  count := by
    by_cases hcount : Addr.write_count = target st
    · cases st with
      | write_count v =>
        have hget := get_put_self g (Py.H_WRITE_COUNT * 8) (BitVec.ofNat 64 v)
        exact (congrArg BitVec.toInt hget).trans (toInt_ofNat_of_fits hfits.2)
      | _ => cases hcount
    · have hget := @get_put_of_ne R g st .write_count hfits trivial hcount
      have hread := @read_store_of_ne m st .write_count hcount
      have hold : (m.store st).write_count = m.write_count := hread
      rw [hold, ← h.count]
      exact congrArg BitVec.toInt hget
  words a ha := by
    by_cases hsame : a = target st
    · rw [hsame]
      exact view_put_target hfits
    · rw [view_put_of_ne hfits ha hsame, read_store_of_ne hsame]
      exact h.words a ha

/-- And so does a sequence of them. -/
theorem Shows.puts {sts : List (Store (BitVec 64))} (h : Shows R g m)
    (hfits : ∀ st ∈ sts, StoreFits R st) :
    Shows R (sts.foldl (Native.put (py_ring R.capacity R.dim)) g) (sts.foldl Mem.store m) := by
  induction sts generalizing g m with
  | nil => exact h
  | cons st sts ih =>
    exact ih (h.put (hfits st List.mem_cons_self))
      fun st' hst' => hfits st' (List.mem_cons_of_mem st hst')

end Stores

/-! ## A flat append is an append -/

section Simulation

variable {R : RingSpec} {g g' : Segment}

/-- The payload loop as stores: one for each entry of the row, in order, to the consecutive words of
the slot. -/
theorem write_row_eq (r : Py.SharedRingBuffer) (slot j : ℕ) (vec : List (BitVec 64))
    (g : Segment) : Py.write_row r slot j vec g =
      (vec.mapIdx fun i x => Store.data slot (j + i) x).foldl (put r) g := by
  induction vec generalizing j g with
  | nil => rfl
  | cons x vec ih =>
    rw [List.mapIdx_cons, List.foldl_cons]
    have hshift : (fun i x => Store.data slot (j + (i + 1)) x) =
        fun i (x : BitVec 64) => Store.data slot (j + 1 + i) x := by
      funext i x
      rw [Nat.add_comm i 1, Nat.add_assoc]
    rw [hshift]
    exact ih (j + 1) _

/-- An append that returns has done the stores of `append_stores`, in their order, on a row of the
right width and a count that still fits. -/
theorem append_stores_of_ok {vec : List (BitVec 64)} {t_ns : BitVec 64} {n : ℕ}
    (hn : (Py.header g Py.H_WRITE_COUNT).toInt = (n : ℤ))
    (h : Py.append (py_ring R.capacity R.dim) vec t_ns g = .ok g') :
    vec.length = R.dim ∧ n + 1 < 2 ^ 63 ∧
      g' = (append_stores R n vec t_ns.toInt).foldl (put (py_ring R.capacity R.dim)) g := by
  unfold Py.append at h
  split at h
  · cases h
  · rename_i hlen
    have hslot : ((n : ℤ) % ((py_ring R.capacity R.dim).capacity : ℤ)).toNat = R.slot n :=
      Int.toNat_natCast _
    simp only [hn, hslot] at h
    split at h
    · cases h
    -- The stores of the code, in its order, are those of the abstract append.
    · rename_i hmax
      refine ⟨not_not.mp hlen, by omega, ?_⟩
      rw [Except.ok.injEq] at h
      rw [← h, write_row_eq]
      unfold append_stores
      simp only [List.foldl_cons, List.foldl_append, List.foldl_nil, Nat.zero_add]
      unfold put
      simp only [target, pattern, offset, BitVec.ofInt_toInt]
      rfl

/-- The stores of an append stay in the arrays, so none of them reaches the header beside the count
or another slot. -/
theorem append_stores_fit {vec : List (BitVec 64)} {t_ns : BitVec 64} {n : ℕ}
    (hlen : vec.length = R.dim) (hn : n + 1 < 2 ^ 63) :
    ∀ st ∈ append_stores R n vec t_ns.toInt, StoreFits R st := by
  have hslot : R.slot n < R.capacity := Nat.mod_lt _ R.capacity_pos
  intro st hst
  unfold append_stores at hst
  simp only [List.mem_cons, List.mem_append, List.mem_mapIdx, List.not_mem_nil, or_false] at hst
  rcases hst with rfl | ⟨j, hj, rfl⟩ | rfl | rfl | rfl
  · exact ⟨hslot, by decide, by decide⟩
  · exact ⟨⟨hslot, hlen ▸ hj⟩, trivial⟩
  · exact ⟨hslot, t_ns.le_toInt, t_ns.toInt_lt⟩
  · exact ⟨hslot, by omega, by omega⟩
  · exact ⟨trivial, hn⟩

/-- The stores left of an append can be performed one after the other. -/
theorem runActs_stores {α : Type} (mem : Mem α) (log : List (List α × ℤ))
    (pending : List (Store α)) :
    runActs (Producer.step R) (List.replicate pending.length .store) ⟨mem, pending, log⟩ =
      some ⟨pending.foldl Mem.store mem, [], log⟩ := by
  induction pending generalizing mem with
  | nil => rfl
  | cons st pending ih => exact ih (mem.store st)

/-- A ring at rest: the producer is between two appends, and the segment shows its
memory. -/
structure AtRest (R : RingSpec) (g : Segment) (p : Producer (BitVec 64)) : Prop where
  reachable : Reachable R p
  idle : p.pending = []
  shows : Shows R g p.mem

/-- **Simulation.** An append on the segment is an append of the abstract producer. -/
theorem AtRest.append {p : Producer (BitVec 64)} (h : AtRest R g p) {vec : List (BitVec 64)}
    {t_ns : BitVec 64} (happend : Py.append (py_ring R.capacity R.dim) vec t_ns g = .ok g') :
    ∃ p', AtRest R g' p' := by
  obtain ⟨hlen, hn, rfl⟩ := append_stores_of_ok h.shows.count happend
  have hcall : Producer.step R (.append vec t_ns.toInt) p = some
      ⟨p.mem, append_stores R p.mem.write_count vec t_ns.toInt, p.log ++ [(vec, t_ns.toInt)]⟩ := by
    unfold Producer.step
    simp only [h.idle, List.isEmpty_nil, hlen, and_self, if_true]
  refine ⟨⟨(append_stores R p.mem.write_count vec t_ns.toInt).foldl Mem.store p.mem, [],
    p.log ++ [(vec, t_ns.toInt)]⟩, ?_, rfl, h.shows.puts (append_stores_fit hlen hn)⟩
  exact (h.reachable.tail ⟨_, hcall⟩).trans (runActs_reach (runActs_stores _ _ _))

end Simulation

/-! ## The segment `create` makes -/

section Create

/-- Marking the slots as empty writes `-1` to their sequence words, right behind the header, and to
no other word. -/
theorem get_mark_empty (n : ℕ) (g : Segment) (off : ℕ) :
    (Py.mark_empty n g).get off = if 8 ≤ off / 8 ∧ off / 8 < 8 + n then -1 else g.get off := by
  induction n with
  | zero =>
    rw [if_neg (by omega)]
    rfl
  | succ n ih =>
    unfold Py.mark_empty at ih ⊢
    rw [List.range_succ, List.foldl_append, List.foldl_cons, List.foldl_nil, get_put, ih]
    have hoff : (Py.HEADER_LEN * 8 + n * 8) / 8 = 8 + n := by unfold Py.HEADER_LEN; omega
    rw [hoff]
    by_cases hlast : off / 8 = 8 + n
    · rw [if_pos hlast, if_pos (by omega)]
    · rw [if_neg hlast]
      by_cases hin : 8 ≤ off / 8 ∧ off / 8 < 8 + n
      · rw [if_pos hin, if_pos (by omega)]
      · rw [if_neg hin, if_neg (by omega)]

/-- Marking the slots leaves the length of the segment. -/
theorem size_mark_empty (n : ℕ) (g : Segment) : (Py.mark_empty n g).size = g.size := by
  induction n with
  | zero => rfl
  | succ n ih =>
    unfold Py.mark_empty at ih ⊢
    rw [List.range_succ, List.foldl_append]
    exact ih

/-- Every word of a fresh segment: the magic, the version, the dimensions and the type in the
header, `-1` in the slots' sequence numbers, and zero elsewhere. -/
theorem get_format (size off : ℕ) : (Py.format capacity dim ⟨size, fun _ => 0⟩).get off =
    if off / 8 = 0 then BitVec.ofNat 64 Py.MAGIC
    else if 8 ≤ off / 8 ∧ off / 8 < 8 + capacity then -1
    else if off / 8 = 5 then 0
    else if off / 8 = 1 then 1
    else if off / 8 = 4 then 1
    else if off / 8 = 3 then BitVec.ofNat 64 dim
    else if off / 8 = 2 then BitVec.ofNat 64 capacity
    else 0 := by
  unfold Py.format Py.set_header
  simp only [get_put, get_mark_empty]
  rfl

/-- A formatted segment is as long as it was allocated. -/
theorem size_format (size : ℕ) :
    (Py.format capacity dim ⟨size, fun _ => 0⟩).size = size := size_mark_empty capacity _

/-- The header of a `float64` ring. -/
structure HasHeader (capacity dim : ℕ) (g : Segment) : Prop where
  magic : g.get 0 = BitVec.ofNat 64 Py.MAGIC
  version : g.get 8 = 1
  capacity : g.get 16 = BitVec.ofNat 64 capacity
  dim : g.get 24 = BitVec.ofNat 64 dim
  dtype : g.get 32 = 1

/-- Formatting writes the header of the ring that was asked for, before any slot is marked. -/
theorem hasHeader_format (size : ℕ) :
    HasHeader capacity dim (Py.format capacity dim ⟨size, fun _ => 0⟩) := by
  refine ⟨get_format size 0, ?_, ?_, ?_, ?_⟩
  all_goals
    rw [get_format]
    simp

/-- The constructor accepts a segment that was allocated and formatted for the same ring. -/
theorem init_format (h : Allocates capacity dim) :
    Py.SharedRingBuffer.init (Py.format capacity dim ⟨Py.shm_size capacity dim 8, fun _ => 0⟩) =
      .ok (py_ring capacity dim) := by
  have hsize := @size_format capacity dim (Py.shm_size capacity dim 8)
  obtain ⟨hmagic, -, hcap, hdim, hdtype⟩ := @hasHeader_format capacity dim
    (Py.shm_size capacity dim 8)
  generalize Py.format capacity dim ⟨Py.shm_size capacity dim 8, fun _ => 0⟩ = g at *
  have hcapacity : (Py.header g Py.H_CAPACITY).toNat = capacity :=
    (congrArg BitVec.toNat hcap).trans h.toNat_capacity
  have hdimension : (Py.header g Py.H_DIM).toNat = dim :=
    (congrArg BitVec.toNat hdim).trans h.toNat_dim
  unfold Py.SharedRingBuffer.init
  rw [if_neg (not_not_intro (show Py.header g Py.H_MAGIC = _ from hmagic)),
    if_neg (not_not_intro (show Py.header g Py.H_DTYPE_CODE = BitVec.ofNat 64 Py.FLOAT64 from
      hdtype)), hcapacity, hdimension]
  have hfits : ¬ g.size < 64 + capacity * 8 + capacity * 8 + capacity * dim * 8 := by
    rw [hsize]
    unfold Py.shm_size Py.HEADER_LEN
    omega
  exact if_neg hfits

/-- Where the allocation succeeds `create` returns the formatted segment, and the ring over it. -/
theorem create_of_allocates (h : Allocates capacity dim) : Py.create capacity dim =
    .ok (Py.format capacity dim ⟨Py.shm_size capacity dim 8, fun _ => 0⟩,
      py_ring capacity dim) := by
  have hsize := h.size
  unfold Py.create
  rw [if_neg (by omega)]
  simp only [init_format h]
  rfl

/-- What a `create` that returns has made: a segment of exactly the required size, formatted, and
the ring over it; the allocation was possible. -/
theorem create_ok {g : Segment} {r : Py.SharedRingBuffer} (hpos : 1 ≤ capacity)
    (h : Py.create capacity dim = .ok (g, r)) :
    Allocates capacity dim ∧
      g = Py.format capacity dim ⟨Py.shm_size capacity dim 8, fun _ => 0⟩ ∧
      r = py_ring capacity dim := by
  by_cases hsize : Py.shm_size capacity dim 8 < 2 ^ 63
  · have halloc : Allocates capacity dim := ⟨hpos, hsize⟩
    rw [create_of_allocates halloc] at h
    cases h
    exact ⟨halloc, rfl, rfl⟩
  · unfold Py.create at h
    rw [if_pos (by omega)] at h
    cases h

/-- A fresh segment shows the fresh memory of the abstract producer, which is the start of the
simulation. -/
theorem atRest_create (R : RingSpec) (size : ℕ) :
    AtRest R (Py.format R.capacity R.dim ⟨size, fun _ => 0⟩) .create := by
  refine ⟨.refl, rfl, ?_, fun a ha => ?_⟩
  · refine (congrArg BitVec.toInt (get_format size (Py.H_WRITE_COUNT * 8))).trans ?_
    rw [if_neg (by decide), if_neg (by unfold Py.H_WRITE_COUNT; omega), if_pos (by decide)]
    rfl
  · have hget := @get_format R.capacity R.dim size
      (offset (py_ring R.capacity R.dim) a)
    have hseq : (py_ring R.capacity R.dim).seq_off = 64 := rfl
    have hts : (py_ring R.capacity R.dim).ts_off = 64 + R.capacity * 8 := rfl
    have hdata : (py_ring R.capacity R.dim).data_off = 64 + R.capacity * 8 + R.capacity * 8 := rfl
    cases a with
    | write_count =>
      refine (congrArg (fun w => (BitVec.toInt w).toNat) hget).trans ?_
      simp only [offset, Py.H_WRITE_COUNT]
      rw [if_neg (by decide), if_neg (by omega), if_pos (by decide)]
      rfl
    | seq slot =>
      have hslot : slot < R.capacity := ha
      refine (congrArg BitVec.toInt hget).trans ?_
      simp only [offset, hseq]
      rw [if_neg (by omega), if_pos (by omega)]
      rfl
    | t_ns slot =>
      have hslot : slot < R.capacity := ha
      have hcap := R.capacity_pos
      refine (congrArg BitVec.toInt hget).trans ?_
      simp only [offset, hts]
      rw [if_neg (by omega), if_neg (by omega), if_neg (by omega), if_neg (by omega),
        if_neg (by omega), if_neg (by omega), if_neg (by omega)]
      rfl
    | data slot j =>
      have hcap := R.capacity_pos
      refine hget.trans ?_
      simp only [offset, hdata]
      rw [if_neg (by omega), if_neg (by omega), if_neg (by omega), if_neg (by omega),
        if_neg (by omega), if_neg (by omega), if_neg (by omega)]
      rfl

/-- The constructor takes a segment with that header exactly if it is long enough. -/
theorem construct_eq (h : Allocates capacity dim) {g : Segment}
    (hheader : HasHeader capacity dim g) (hsize : g.size < 2 ^ 64) :
    Cpp.Ring.construct g =
      if Py.shm_size capacity dim 8 ≤ g.size then .ok (cpp_ring capacity dim)
      else .error .truncated := by
  obtain ⟨hmagic, hversion, hcap, hdim, hdtype⟩ := hheader
  have hcmp : Cpp.required (BitVec.ofNat 64 capacity) (BitVec.ofNat 64 dim) >
      BitVec.ofNat 64 g.size ↔ ¬ Py.shm_size capacity dim 8 ≤ g.size := by
    rw [gt_iff_lt, BitVec.lt_def, h.toNat_required, toNat_ofNat_of_lt hsize]
    omega
  unfold Cpp.Ring.construct
  rw [show Cpp.header_ g 0 = _ from hmagic, show Cpp.header_ g 1 = _ from hversion,
    show Cpp.header_ g 2 = _ from hcap, show Cpp.header_ g 3 = _ from hdim,
    show Cpp.header_ g 4 = _ from hdtype, if_neg (by decide), if_neg (by decide)]
  by_cases hle : Py.shm_size capacity dim 8 ≤ g.size
  · rw [if_neg (fun hgt => hcmp.mp hgt hle), if_pos hle]
  · rw [if_pos (hcmp.mpr hle), if_neg hle]

end Create

end Addresses

/-! ## Mixed sequences -/

/-- Who appends. -/
inductive Lang where
  | python
  | cpp
  deriving DecidableEq

/-- A sample, and who appends it. -/
structure Append where
  lang : Lang
  vec : List (BitVec 64)
  t_ns : BitVec 64

/-- One append, by whoever does it. -/
def append_by (r : Py.SharedRingBuffer) (c : Cpp.Ring) (g : Segment) (a : Append) :
    Except RingError Segment :=
  match a.lang with
  | .python => Py.append r a.vec a.t_ns g
  | .cpp => Cpp.append c a.vec a.t_ns g

/-- The appends one after the other, up to the first that raises. -/
def run (r : Py.SharedRingBuffer) (c : Cpp.Ring) (appends : List Append) (g : Segment) :
    Except RingError Segment :=
  appends.foldlM (append_by r c) g

/-- The same samples, all appended by one implementation. -/
def all_by (lang : Lang) (appends : List Append) : List Append :=
  appends.map fun a => { a with lang := lang }

section Run

variable {R : RingSpec} {g g' : Segment}

/-- An append leaves a write count behind that is not negative, so the next append finds the count
it expects. -/
theorem append_count {r : Py.SharedRingBuffer} {vec : List (BitVec 64)} {t_ns : BitVec 64}
    (hwc : 0 ≤ (Py.header g Py.H_WRITE_COUNT).toInt) (h : Py.append r vec t_ns g = .ok g') :
    0 ≤ (Py.header g' Py.H_WRITE_COUNT).toInt := by
  unfold Py.append at h
  split at h
  · cases h
  · simp only at h
    split at h
    · cases h
    · rename_i hmax
      rw [Except.ok.injEq] at h
      generalize (Py.header g Py.H_WRITE_COUNT).toInt = idx at *
      rw [← h]
      unfold Py.header
      rw [get_put_self, toInt_ofInt_of_fits (by omega) (by omega)]
      omega

/-- Whichever language appends, the segment afterwards is the one that Python's append leaves. -/
theorem append_by_eq (h : Allocates R.capacity R.dim)
    (hwc : 0 ≤ (Py.header g Py.H_WRITE_COUNT).toInt) (a : Append) :
    append_by (py_ring R.capacity R.dim) (cpp_ring R.capacity R.dim) g a =
      Py.append (py_ring R.capacity R.dim) a.vec a.t_ns g := by
  unfold append_by
  cases a.lang with
  | python => rfl
  | cpp => exact append_eq h a.vec a.t_ns hwc

/-- Who appends makes no difference, from any memory with a write count. -/
theorem run_all_by (h : Allocates R.capacity R.dim) (lang : Lang) (appends : List Append)
    (hwc : 0 ≤ (Py.header g Py.H_WRITE_COUNT).toInt) :
    run (py_ring R.capacity R.dim) (cpp_ring R.capacity R.dim) appends g =
      run (py_ring R.capacity R.dim) (cpp_ring R.capacity R.dim) (all_by lang appends) g := by
  induction appends generalizing g with
  | nil => rfl
  | cons a appends ih =>
    unfold run all_by
    rw [List.map_cons, List.foldlM_cons, List.foldlM_cons, append_by_eq h hwc,
      append_by_eq h hwc]
    cases hstep : Py.append (py_ring R.capacity R.dim) a.vec a.t_ns g with
    | error err => rfl
    | ok g₁ => exact ih (append_count hwc hstep)

/-- A run of appends, by whichever language each, is a run of the abstract producer: the simulation
of one append, by induction over the list. -/
theorem AtRest.run (h : Allocates R.capacity R.dim) {p : Producer (BitVec 64)}
    (hrest : AtRest R g p) {appends : List Append}
    (hrun : run (py_ring R.capacity R.dim) (cpp_ring R.capacity R.dim) appends g = .ok g') :
    ∃ p', AtRest R g' p' := by
  induction appends generalizing g p with
  | nil =>
    cases hrun
    exact ⟨p, hrest⟩
  | cons a appends ih =>
    have hwc : 0 ≤ (Py.header g Py.H_WRITE_COUNT).toInt := by
      -- A ring at rest shows a write count, which the agreement of the two appends rests on.
      rw [hrest.shows.count]
      exact Int.natCast_nonneg _
    unfold Native.run at hrun ih
    rw [List.foldlM_cons, append_by_eq h hwc] at hrun
    cases hstep : Py.append (py_ring R.capacity R.dim) a.vec a.t_ns g with
    | error err =>
      rw [hstep] at hrun
      cases hrun
    | ok g₁ =>
      rw [hstep] at hrun
      obtain ⟨p₁, hrest₁⟩ := hrest.append hstep
      exact ih hrest₁ hrun

end Run

/-! ## The ABI -/

/-- Python's `last(k)` of a segment nobody is writing to. -/
def py_last (R : RingSpec) (r : Py.SharedRingBuffer) (g : Segment) (k : ℤ) :
    Samples (BitVec 64) :=
  (last R k).eval (Py.view r g)

/-- C++'s `ReadAt(index, out, &timestamp)` of the same segment. -/
def cpp_read_at (R : RingSpec) (c : Cpp.Ring) (g : Segment) (index : ℤ)
    (out : List (BitVec 64)) (timestamp : ℤ) : Read (BitVec 64) :=
  (read_at R index out timestamp).eval (Cpp.view c g)

/-- C++'s `Latest(out, timestamp)`. -/
def cpp_latest (R : RingSpec) (c : Cpp.Ring) (g : Segment) (out : List (BitVec 64))
    (timestamp : ℤ) : Read (BitVec 64) :=
  (Native.latest R out timestamp).eval (Cpp.view c g)

/-- The two implementations read the same samples. -/
structure SameReads (R : RingSpec) (r : Py.SharedRingBuffer) (c : Cpp.Ring) (g : Segment) :
    Prop where
  /-- `last(k)` has the newest `min(k, capacity, write_count)` indices. -/
  window : ∀ k, (py_last R r g k).seq =
    newest_indices R k.toNat (Py.header g Py.H_WRITE_COUNT).toInt.toNat ∧
    (py_last R r g k).overrun = false
  /-- Every row of `last(k)` is what `ReadAt` returns for its index. -/
  rows : ∀ (k : ℤ) (i idx : ℕ), (py_last R r g k).seq[i]? = some idx →
    ∃ row t, (py_last R r g k).data[i]? = some row ∧ (py_last R r g k).t_ns[i]? = some t ∧
      ∀ out ts, cpp_read_at R c g idx out ts = ⟨true, row, t⟩
  /-- `ReadAt` succeeds on no other index. -/
  indices : ∀ (index : ℤ) out ts, (cpp_read_at R c g index out ts).ok = true →
    ∃ idx ∈ (py_last R r g R.capacity).seq, index = (idx : ℤ)
  /-- `Latest` is `last(1)`. -/
  latest : ∀ out ts, cpp_latest R c g out ts =
    match (py_last R r g 1).newest, (py_last R r g 1).newest_t_ns with
    | some row, some t => ⟨true, row, t⟩
    | _, _ => ⟨false, out, ts⟩

section Abi

variable {R : RingSpec} {g : Segment} {p : Producer (BitVec 64)}

/-- Python's read of a segment at rest is the abstract read of the producer that the segment shows.
-/
theorem py_last_eq (hrest : AtRest R g p) (k : ℤ) :
    py_last R (py_ring R.capacity R.dim) g k = (last R k).eval (Ring.view p) :=
  (loads_last R k).eval_eq hrest.shows.words

/-- C++'s read of one row at rest is the abstract read of the same row. -/
theorem cpp_read_at_eq (h : Allocates R.capacity R.dim) (hrest : AtRest R g p) (index : ℤ)
    (out : List (BitVec 64)) (ts : ℤ) :
    cpp_read_at R (cpp_ring R.capacity R.dim) g index out ts =
      (read_at R index out ts).eval (Ring.view p) :=
  (loads_read_at R index out ts).eval_eq fun a ha =>
    (view_eq h g a ha).trans (hrest.shows.words a ha)

/-- C++'s read of the newest row at rest is the abstract one. -/
theorem cpp_latest_eq (h : Allocates R.capacity R.dim) (hrest : AtRest R g p)
    (out : List (BitVec 64)) (ts : ℤ) :
    cpp_latest R (cpp_ring R.capacity R.dim) g out ts =
      (Native.latest R out ts).eval (Ring.view p) :=
  (loads_latest R out ts).eval_eq fun a ha =>
    (view_eq h g a ha).trans (hrest.shows.words a ha)

/-- The newest indices are the last ones below the write count. -/
theorem mem_newest_indices {k wc idx : ℕ} :
    idx ∈ newest_indices R k wc ↔ wc - asked R k wc ≤ idx ∧ idx < wc := by
  have hasked := asked_le R k wc
  unfold newest_indices
  rw [List.mem_range'_1]
  omega

/-- At rest `ReadAt` of an index that `last` has returned is the row of that index. -/
theorem AtRest.read_at_row (hrest : AtRest R g p) (k : ℤ) {i idx : ℕ}
    (hidx : ((last R k).eval (Ring.view p)).seq[i]? = some idx) :
    ∃ row t, ((last R k).eval (Ring.view p)).data[i]? = some row ∧
      ((last R k).eval (Ring.view p)).t_ns[i]? = some t ∧
      ∀ out ts, (read_at R (idx : ℤ) out ts).eval (Ring.view p) = ⟨true, row, t⟩ := by
  have hinv := inv_of_reachable hrest.reachable
  have hread := read_at_at_rest hinv hrest.idle
  obtain ⟨hseq, -, hfrom⟩ := last_at_rest hinv hrest.idle k
  obtain ⟨⟨row, t⟩, hlog, hdata, ht⟩ := hfrom.row i idx hidx
  refine ⟨row, t, hdata, ht, fun out ts => ?_⟩
  have hmem : idx ∈ newest_indices R k.toNat (published p) :=
    hseq ▸ List.mem_iff_getElem?.mpr ⟨i, hidx⟩
  obtain ⟨hlo, hhi⟩ := mem_newest_indices.mp hmem
  -- An index that `last` returned is within the last `capacity`, where `ReadAt` succeeds.
  have hasked : asked R k.toNat (published p) ≤ R.capacity := by unfold asked; omega
  have hok := ((hread idx out ts).1).mpr ⟨idx, rfl, hhi, by omega⟩
  have hsample := (hread idx out ts).2 idx rfl hok
  rw [hlog, Option.some.injEq, Prod.mk.injEq] at hsample
  generalize (read_at R (idx : ℤ) out ts).eval (Ring.view p) = res at *
  obtain ⟨ok, out', ts'⟩ := res
  simp_all

/-- At rest `Latest` is `last(1)`: both look at the newest published row, and where nothing was
published neither touches its outputs. -/
theorem AtRest.latest_eq (hrest : AtRest R g p) (out : List (BitVec 64)) (ts : ℤ) :
    (Native.latest R out ts).eval (Ring.view p) =
      match ((last R 1).eval (Ring.view p)).newest, ((last R 1).eval (Ring.view p)).newest_t_ns with
      | some row, some t => ⟨true, row, t⟩
      | _, _ => ⟨false, out, ts⟩ := by
  have hinv := inv_of_reachable hrest.reachable
  have hcap := R.capacity_pos
  obtain ⟨hseq, -, hfrom⟩ := last_at_rest hinv hrest.idle 1
  rw [latest_at_rest hinv hrest.idle]
  -- Before the first sample `last(1)` is empty and `Latest` fails; afterwards both have the newest.
  by_cases hzero : published p = 0
  · have hnil : ((last R 1).eval (Ring.view p)).seq = [] := by
      rw [hseq, hzero, newest_indices, Nat.le_zero.mp (asked_le R _ 0), List.range'_zero]
    have hdata := hfrom.data_length
    rw [hnil, List.length_nil, List.length_eq_zero_iff] at hdata
    rw [if_pos hzero, Samples.newest, hdata]
    rfl
  · have hone : asked R (1 : ℤ).toNat (published p) = 1 := by
      show asked R 1 (published p) = 1
      unfold asked
      omega
    have hseq₁ : ((last R 1).eval (Ring.view p)).seq = [published p - 1] := by
      rw [hseq, newest_indices, hone, List.range'_one]
    obtain ⟨row, t, hdata, ht, hsame⟩ := hrest.read_at_row 1 (i := 0) (by rw [hseq₁]; rfl)
    have hdata_len := hfrom.data_length
    have ht_len := hfrom.t_ns_length
    rw [hseq₁] at hdata_len ht_len
    have hindex : ((published p : ℤ) - 1) = ((published p - 1 : ℕ) : ℤ) := by omega
    have hnewest : ((last R 1).eval (Ring.view p)).newest = some row := by
      unfold Samples.newest
      rw [List.getLast?_eq_getElem?, hdata_len]
      exact hdata
    have hnewest_t : ((last R 1).eval (Ring.view p)).newest_t_ns = some t := by
      unfold Samples.newest_t_ns
      rw [List.getLast?_eq_getElem?, ht_len]
      exact ht
    rw [if_neg hzero, hindex, hsame out ts, hnewest, hnewest_t]

/-- At rest the two implementations read the same samples, because each read is the abstract read of
one and the same producer. -/
theorem AtRest.sameReads (h : Allocates R.capacity R.dim) (hrest : AtRest R g p) :
    SameReads R (py_ring R.capacity R.dim) (cpp_ring R.capacity R.dim) g := by
  have hinv := inv_of_reachable hrest.reachable
  have hlast := last_at_rest hinv hrest.idle
  have hcount : (Py.header g Py.H_WRITE_COUNT).toInt.toNat = published p := by
    rw [hrest.shows.count]
    exact Int.toNat_natCast _
  refine ⟨fun k => ?_, fun k i idx hidx => ?_, fun index out ts hok => ?_, fun out ts => ?_⟩
  · rw [py_last_eq hrest, hcount]
    exact ⟨(hlast k).1, (hlast k).2.1⟩
  · rw [py_last_eq hrest] at hidx ⊢
    obtain ⟨row, t, hdata, ht, hsame⟩ := hrest.read_at_row k hidx
    refine ⟨row, t, hdata, ht, fun out ts => ?_⟩
    rw [cpp_read_at_eq h hrest]
    exact hsame out ts
  -- An index that `ReadAt` takes is in the window of the whole ring.
  · rw [cpp_read_at_eq h hrest] at hok
    obtain ⟨idx, hidx, hlt, hle⟩ := ((read_at_at_rest hinv hrest.idle index out ts).1).mp hok
    refine ⟨idx, ?_, hidx⟩
    rw [py_last_eq hrest, (hlast R.capacity).1, mem_newest_indices, Int.toNat_natCast]
    unfold asked
    omega
  · rw [cpp_latest_eq h hrest, py_last_eq hrest]
    exact hrest.latest_eq out ts

end Abi

/-- **Cross-language ring ABI.** Of a ring that `create` made: the C++ constructor takes
exactly the segments of at least its size; on any memory with a write count, a sequence of
appends by either implementation does what one of them would have done alone; and after any
such sequence from `create` on the two implementations read the same samples. -/
theorem ring_abi {capacity dim : ℕ} (hpos : 1 ≤ capacity) {g : Segment}
    {r : Py.SharedRingBuffer} (hcreate : Py.create capacity dim = .ok (g, r)) :
    (∀ size < 2 ^ 63, (∃ c, Cpp.Ring.construct { g with size := size } = .ok c) ↔
      g.size ≤ size) ∧
    ∃ c, Cpp.Ring.construct g = .ok c ∧
      (∀ (lang : Lang) (appends : List Append) (g₀ : Segment),
        0 ≤ (Py.header g₀ Py.H_WRITE_COUNT).toInt →
        run r c appends g₀ = run r c (all_by lang appends) g₀) ∧
      ∀ (appends : List Append) (g' : Segment), run r c appends g = .ok g' →
        SameReads ⟨capacity, dim, hpos⟩ r c g' := by
  obtain ⟨halloc, rfl, rfl⟩ := create_ok hpos hcreate
  have hsize := halloc.size
  refine ⟨fun size hlt => ?_, cpp_ring capacity dim, ?_, ?_, ?_⟩
  · have hheader : HasHeader capacity dim
        { Py.format capacity dim ⟨Py.shm_size capacity dim 8, fun _ => 0⟩ with size := size } :=
      { hasHeader_format (Py.shm_size capacity dim 8) with }
    -- The check of the size is the last one, and the header is the same for every size.
    rw [construct_eq halloc hheader (show size < _ by omega), size_format]
    by_cases hle : Py.shm_size capacity dim 8 ≤ size
    · rw [if_pos hle]
      exact ⟨fun _ => hle, fun _ => ⟨_, rfl⟩⟩
    · rw [if_neg hle]
      exact ⟨fun ⟨c, hc⟩ => (by cases hc), fun hge => absurd hge hle⟩
  · rw [construct_eq halloc (hasHeader_format _) (by rw [size_format]; omega), size_format,
      if_pos (Nat.le_refl _)]
  · exact fun lang appends g₀ hwc => run_all_by (R := ⟨capacity, dim, hpos⟩) halloc lang appends hwc
  · intro appends g' hrun
    obtain ⟨p, hrest⟩ := (atRest_create ⟨capacity, dim, hpos⟩ _).run halloc hrun
    exact hrest.sameReads halloc

/-- Three samples into two slots, in turns. -/
def three_appends : List Append := [⟨.python, [7], 5⟩, ⟨.cpp, [8], 6⟩, ⟨.python, [9], 7⟩]

/-- A ring of two one-word slots after a lap: the same words as if C++ had written them all,
and the same samples. -/
theorem ring_abi_two_slots : ∃ g r c g', Py.create 2 1 = .ok (g, r) ∧
    Cpp.Ring.construct g = .ok c ∧ run r c three_appends g = .ok g' ∧
    run r c (all_by .cpp three_appends) g = .ok g' ∧ SameReads ⟨2, 1, by decide⟩ r c g' ∧
    (py_last ⟨2, 1, by decide⟩ r g' 2).data = [[8], [9]] := by
  have hcreate := @create_of_allocates 2 1 ⟨by decide, by decide⟩
  obtain ⟨-, c, hc, hrun, hreads⟩ := ring_abi (by decide) hcreate
  have hc' : c = cpp_ring 2 1 := by
    rw [construct_eq ⟨by decide, by decide⟩ (hasHeader_format _) (by decide)] at hc
    exact (Except.ok.inj hc).symm
  subst hc'
  refine ⟨_, _, _, _, hcreate, hc, rfl, ?_, hreads three_appends _ rfl, rfl⟩
  rw [← hrun .cpp three_appends _ (by decide)]
  rfl

end DualFlexivControl.Native
