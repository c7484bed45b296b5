/-
`streams/ring.py`: the shared-memory ring, one producer and any number of readers.

Every load and every store of the module is one atomic step, in program order.
That is the module's own memory assumption (x86-TSO, aligned 8-byte words) made
literal, and it is the only thing assumed about the hardware.

* The **memory** is the segment after `create`: the write count of the header, and
  per slot a sequence stamp, a timestamp and `dim` payload words. The remaining
  header fields never change after `create` and are the parameters of `RingSpec`.
* The **producer** is a small machine: `append` loads the write count and leaves
  behind the list of stores it still has to do, in the order the source does them;
  a `store` action performs the first of them. Between two appends the list is
  empty. `log` is a ghost: the samples handed to `append`, by call order.
* A **reader** is a program of loads (`Interleave.Prog`), so `last` below is the
  source's loop line by line, with every fancy-indexed copy unfolded into the loads
  it stands for.

Payload words are an arbitrary type: the source's dtype is orthogonal to the
seqlock. Counters are natural numbers; the wrap of an `int64` write count after
`2^63` samples is outside the model.
-/
import DualFlexivControl.Lib.Interleave
import Mathlib.Data.Nat.ModEq
import Mathlib.Algebra.Group.Defs

set_option autoImplicit false

namespace DualFlexivControl.Ring

open Interleave Relation

/-! ## The segment -/

/-- The ring parameters `create` writes into the header. `StreamSpec` refuses a
capacity that is not positive. -/
structure RingSpec where
  capacity : ℕ
  dim : ℕ
  capacity_pos : 0 < capacity

/-- The slot of a global sample index. -/
def RingSpec.slot (R : RingSpec) (idx : ℕ) : ℕ := idx % R.capacity

/-- The mutable words of a segment. -/
inductive Addr where
  | write_count
  | seq (slot : ℕ)
  | t_ns (slot : ℕ)
  | data (slot j : ℕ)
  deriving DecidableEq

/-- What a word holds. Stamps are signed because `-1` marks an empty or dirty slot. -/
@[reducible] def Word (α : Type) : Addr → Type
  | .write_count => ℕ
  | .seq _ => ℤ
  | .t_ns _ => ℤ
  | .data _ _ => α

/-- The contents of a segment. -/
structure Mem (α : Type) where
  write_count : ℕ
  seq : ℕ → ℤ
  t_ns : ℕ → ℤ
  data : ℕ → ℕ → α

variable {α : Type}

def Mem.read (m : Mem α) : (a : Addr) → Word α a
  | .write_count => m.write_count
  | .seq slot => m.seq slot
  | .t_ns slot => m.t_ns slot
  | .data slot j => m.data slot j

/-- `SharedRingBuffer.create`: no sample yet, every slot marked empty. The payload
of a fresh POSIX segment is zero-filled. -/
def Mem.create [Zero α] : Mem α where
  write_count := 0
  seq _ := -1
  t_ns _ := 0
  data _ _ := 0

/-- One store instruction. -/
inductive Store (α : Type) where
  | seq (slot : ℕ) (v : ℤ)
  | data (slot j : ℕ) (v : α)
  | t_ns (slot : ℕ) (v : ℤ)
  | write_count (v : ℕ)

def Mem.store (m : Mem α) : Store α → Mem α
  | .seq slot v => { m with seq := fun s => if s = slot then v else m.seq s }
  | .data slot j v =>
    { m with data := fun s i => if s = slot ∧ i = j then v else m.data s i }
  | .t_ns slot v => { m with t_ns := fun s => if s = slot then v else m.t_ns s }
  | .write_count v => { m with write_count := v }

/-! ## The producer -/

/-- The stores of `append`, for the index it loaded: invalidate the slot, write the
payload and the timestamp, stamp the slot, publish the count. -/
def append_stores (R : RingSpec) (idx : ℕ) (vec : List α) (t_ns : ℤ) : List (Store α) :=
  let slot := R.slot idx
  -- the order is the source's, and the whole argument rests on it
  .seq slot (-1) :: (vec.mapIdx (fun j x => .data slot j x) ++
    [.t_ns slot t_ns, .seq slot idx, .write_count (idx + 1)])

/-- The producing process: the segment, the stores of an append in progress, and
the samples handed to `append` so far. -/
structure Producer (α : Type) where
  mem : Mem α
  pending : List (Store α)
  log : List (List α × ℤ)

/-- What the producer can do next. -/
inductive Act (α : Type) where
  /-- Call `append`, up to and including its load of the write count. -/
  | append (vec : List α) (t_ns : ℤ)
  /-- Perform the next store of the append in progress. -/
  | store

def Producer.create [Zero α] : Producer α := ⟨Mem.create, [], []⟩

/-- One micro-step of the producer. A sample of the wrong shape raises before any
store, so it is no step at all. -/
def Producer.step (R : RingSpec) : Act α → Producer α → Option (Producer α)
  | .append vec t_ns, p =>
    -- one producer: the previous call has returned
    if p.pending.isEmpty ∧ vec.length = R.dim then
      some { p with
        pending := append_stores R p.mem.write_count vec t_ns
        log := p.log ++ [(vec, t_ns)] }
    else none
  | .store, p =>
    match p.pending with
    | [] => none
    | s :: rest => some { p with mem := p.mem.store s, pending := rest }

/-- The producer's steps as a relation. -/
def Step (R : RingSpec) : Producer α → Producer α → Prop := ActStep (Producer.step R)

/-- What a reader sees of the producer's state. -/
def view (p : Producer α) : (a : Addr) → Word α a := p.mem.read

/-- States a single producer can bring a fresh ring into. -/
def Reachable [Zero α] (R : RingSpec) (p : Producer α) : Prop :=
  ReflTransGen (Step R) Producer.create p

/-- A whole `append`, with nobody else looking. -/
def Producer.post (R : RingSpec) (vec : List α) (t_ns : ℤ) (p : Producer α) :
    Option (Producer α) :=
  runActs (Producer.step R) (.append vec t_ns :: List.replicate (R.dim + 4) .store) p

/-! ## The reader -/

/-- A validated batch of samples, oldest first. -/
structure Samples (α : Type) where
  data : List (List α)
  t_ns : List ℤ
  seq : List ℕ
  overrun : Bool
  deriving DecidableEq

namespace Samples

def n (s : Samples α) : ℕ := s.data.length

def newest (s : Samples α) : Option (List α) := s.data.getLast?

def newest_t_ns (s : Samples α) : Option ℤ := s.t_ns.getLast?

/-- `_empty`. -/
def empty : Samples α := ⟨[], [], [], false⟩

end Samples

/-- Programs that only load from one ring. -/
abbrev Reader (α : Type) := Prog Addr (Word α)

def load_write_count : Reader α ℕ := Prog.get Addr.write_count

def load_seq (slot : ℕ) : Reader α ℤ := Prog.get (Addr.seq slot)

def load_t_ns (slot : ℕ) : Reader α ℤ := Prog.get (Addr.t_ns slot)

def load_data (slot j : ℕ) : Reader α α := Prog.get (Addr.data slot j)

/-- One payload row, element by element. -/
def load_row (R : RingSpec) (slot : ℕ) : Reader α (List α) :=
  (List.range R.dim).mapM (load_data slot)

/-- `_READ_RETRIES`. -/
def read_retries : ℕ := 4

/-- `(s1 == gidx) & (s2 == gidx)`. -/
def stamps_ok (gidx : List ℕ) (s1 s2 : List ℤ) : List Bool :=
  List.zipWith (fun (g : ℕ) (s : ℤ × ℤ) => s.1 == (g : ℤ) && s.2 == (g : ℤ)) gidx (s1.zip s2)

/-- `np.nonzero(~ok)[0]`. -/
def bad_rows (ok : List Bool) : List ℕ :=
  (List.range ok.length).filter (fun i => ok[i]? == some false)

/-- First row after the last bad one. -/
def salvage_start (ok : List Bool) : ℕ :=
  match (bad_rows ok).getLast? with
  | some b => b + 1
  | none => 0

/-- How one pass of the retry loop of `last` ends. -/
inductive Attempt (α : Type) where
  /-- Nothing published yet: `last` returns at once. -/
  | empty
  /-- Every row validated: `last` returns it. -/
  | valid (s : Samples α)
  /-- Some row was recycled meanwhile; the suffix worth keeping, if there is one. -/
  | torn (s : Option (Samples α))

/-- `n = min(k, cap, wc)`: how many rows a pass asks for at write count `wc`. -/
def asked (R : RingSpec) (k wc : ℕ) : ℕ := min (min k R.capacity) wc

/-- `gidx = arange(wc - n, wc)`. -/
def newest_indices (R : RingSpec) (k wc : ℕ) : List ℕ :=
  List.range' (wc - asked R k wc) (asked R k wc)

/-- What a pass makes of its copies: all rows, the rows after the last bad one, or
nothing. -/
def judge (gidx : List ℕ) (s1 s2 : List ℤ) (data : List (List α)) (t_ns : List ℤ) :
    Attempt α :=
  if (stamps_ok gidx s1 s2).all id then
    .valid ⟨data, t_ns, gidx, false⟩
  else if salvage_start (stamps_ok gidx s1 s2) < gidx.length then
    .torn (some ⟨data.drop (salvage_start (stamps_ok gidx s1 s2)),
      t_ns.drop (salvage_start (stamps_ok gidx s1 s2)),
      gidx.drop (salvage_start (stamps_ok gidx s1 s2)), true⟩)
  else
    .torn none

/-- One pass of the retry loop of `last`. -/
def attempt (R : RingSpec) (k : ℕ) : Reader α (Attempt α) := do
  let wc ← load_write_count
  if wc = 0 then
    return .empty
  else
    -- stamps, payload, timestamps, stamps again: no load is repeated within a line
    let s1 ← (newest_indices R k wc).mapM (fun g => load_seq (R.slot g))
    let data ← (newest_indices R k wc).mapM (fun g => load_row R (R.slot g))
    let t_ns ← (newest_indices R k wc).mapM (fun g => load_t_ns (R.slot g))
    let s2 ← (newest_indices R k wc).mapM (fun g => load_seq (R.slot g))
    return judge (newest_indices R k wc) s1 s2 data t_ns

/-- The retry loop of `last`, with the passes left and the suffix kept so far. -/
def last_loop (R : RingSpec) (k : ℕ) : ℕ → Option (Samples α) → Reader α (Samples α)
  | 0, last_ok => return last_ok.getD Samples.empty
  | retries + 1, last_ok => do
    match ← attempt R k with
    | .empty => return Samples.empty
    | .valid s => return s
    -- a later suffix replaces an earlier one, a hopeless pass does not
    | .torn (some s) => last_loop R k retries (some s)
    | .torn none => last_loop R k retries last_ok

/-- `SharedRingBuffer.last`. -/
def last (R : RingSpec) (k : ℤ) : Reader α (Samples α) :=
  if k ≤ 0 then return Samples.empty else last_loop R k.toNat read_retries none

/-- `SharedRingBuffer.latest`. -/
def latest (R : RingSpec) : Reader α (Samples α) := last R 1

end DualFlexivControl.Ring
