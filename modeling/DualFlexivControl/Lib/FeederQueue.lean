/-
A queue between processes whose `put` is asynchronous.

`put` only appends to a buffer in the putting process; a feeder thread moves the
buffer's items to a pipe, one at a time and in order; `get_nowait` takes from the pipe,
and finds it empty while items are still in the buffer. What the queue holds, oldest
first, is [`pending`]: the pipe and then the buffer. Every lemma here says what an
operation does to it.
-/
import Mathlib.Tactic.Common

set_option autoImplicit false

/-- The pipe and the feeder's buffer, both oldest first. -/
structure FeederQueue (α : Type) where
  pipe : List α := []
  buffer : List α := []
  deriving DecidableEq

namespace FeederQueue

variable {α : Type} (q : FeederQueue α)

/-- Everything that was put and not taken, oldest first. -/
def pending : List α := q.pipe ++ q.buffer

/-- `put`: the item goes to the feeder's buffer. -/
def put (a : α) : FeederQueue α := { q with buffer := q.buffer ++ [a] }

/-- The feeder delivers one item, if it has one. -/
def flush : FeederQueue α :=
  match q.buffer with
  | [] => q
  | a :: rest => ⟨q.pipe ++ [a], rest⟩

/-- `get_nowait`: `none` is `Empty`. -/
def get_nowait : Option (α × FeederQueue α) :=
  match q.pipe with
  | [] => none
  | a :: rest => some (a, { q with pipe := rest })

@[simp] theorem pending_put (a : α) : (q.put a).pending = q.pending ++ [a] := by
  simp [pending, put]

/-- Delivery changes where an item is, not what the queue holds. -/
@[simp] theorem pending_flush : q.flush.pending = q.pending := by
  unfold flush pending
  split
  · rfl
  · next h => simp [h]

/-- What is taken is the oldest item. -/
theorem pending_get {a : α} {q' : FeederQueue α} (h : q.get_nowait = some (a, q')) :
    q.pending = a :: q'.pending := by
  unfold get_nowait at h
  split at h
  · cases h
  · next hp =>
    cases h
    simp [pending, hp]

/-- `Empty` is reported with an empty pipe: what is left is in the buffer. -/
theorem pending_of_empty (h : q.get_nowait = none) : q.pending = q.buffer := by
  unfold get_nowait at h
  split at h
  · next hp => simp [pending, hp]
  · cases h

end FeederQueue
