/-
Runs of a system that is a total step function on events, with a guard that says which events
can happen.

The state after some events is a fold. What every step preserves holds wherever a valid run gets
to; and two conditions on a state and its next event that agree wherever an invariant holds agree
over whole runs.
-/
import Mathlib.Tactic.Common

set_option autoImplicit false

namespace Runs

variable {σ ε : Type} (step : σ → ε → σ) (valid : σ → ε → Prop)

/-- The state after some events. -/
def run (s : σ) (events : List ε) : σ := events.foldl step s

/-- Each event can happen where it does. -/
def Valid : σ → List ε → Prop
  | _, [] => True
  | s, e :: rest => valid s e ∧ Valid (step s e) rest

variable {step valid}

/-- An invariant of the steps holds wherever a run gets to. -/
theorem run_induct {inv : σ → Prop} (hstep : ∀ s e, valid s e → inv s → inv (step s e))
    (events : List ε) : ∀ s, inv s → Valid step valid s events → inv (run step s events) := by
  induction events with
  | nil =>
    intro s hs _
    exact hs
  | cons e rest ih =>
    intro s hs hvalid
    exact ih (step s e) (hstep s e hvalid.1 hs) hvalid.2

/-- The beginning of a run is a run. -/
theorem Valid.left {after : List ε} (before : List ε) :
    ∀ {s : σ}, Valid step valid s (before ++ after) → Valid step valid s before := by
  induction before with
  | nil =>
    intro s _
    trivial
  | cons e rest ih =>
    intro s hvalid
    exact ⟨hvalid.1, ih hvalid.2⟩

/-- And the rest of it is one, from where the beginning got to. -/
theorem Valid.right {after : List ε} (before : List ε) :
    ∀ {s : σ}, Valid step valid s (before ++ after) → Valid step valid (run step s before) after := by
  induction before with
  | nil =>
    intro s hvalid
    exact hvalid
  | cons e rest ih =>
    intro s hvalid
    exact ih hvalid.2

/-- An event of a run can happen where it does. -/
theorem Valid.at_event {e : ε} {after : List ε} (before : List ε) :
    ∀ {s : σ}, Valid step valid s (before ++ e :: after) → valid (run step s before) e := by
  induction before with
  | nil =>
    intro s hvalid
    exact hvalid.1
  | cons e' rest ih =>
    intro s hvalid
    exact ih hvalid.2

/-- Without a guard every run is one. -/
theorem Valid.of_forall (h : ∀ s e, valid s e) (events : List ε) :
    ∀ s, Valid step valid s events := by
  induction events with
  | nil =>
    intro s
    trivial
  | cons e rest ih =>
    intro s
    exact ⟨h s e, ih (step s e)⟩

variable (step)

/-- A property of every event of one kind in a run, and of the state it happens in. -/
def Each {κ : Type} (event : κ → ε) (s : σ) (events : List ε) (p : σ → κ → Prop) : Prop :=
  ∀ before k after, events = before ++ event k :: after → p (run step s before) k

variable {step}

/-- What an invariant implies of a state and its next event, every run has. -/
theorem each_of_inv {κ : Type} {event : κ → ε} {inv : σ → Prop} {p : σ → κ → Prop}
    (hstep : ∀ s e, valid s e → inv s → inv (step s e)) (hp : ∀ s k, inv s → p s k) {s : σ}
    (hs : inv s) {events : List ε} (hvalid : Valid step valid s events) :
    Each step event s events p := by
  intro before k after hevents
  rw [hevents] at hvalid
  exact hp _ k (run_induct hstep before s hs hvalid.left)

/-- Where an invariant makes two properties of the events that can happen the same, they are the
same over every run. -/
theorem each_iff {κ : Type} {event : κ → ε} {inv : σ → Prop} {p q : σ → κ → Prop}
    (hstep : ∀ s e, valid s e → inv s → inv (step s e))
    (hiff : ∀ s k, valid s (event k) → inv s → (p s k ↔ q s k)) {s : σ} (hs : inv s)
    {events : List ε} (hvalid : Valid step valid s events) :
    Each step event s events p ↔ Each step event s events q := by
  unfold Each
  refine forall₃_congr fun before k after => forall_congr' fun hevents => ?_
  rw [hevents] at hvalid
  exact hiff _ k (hvalid.at_event before) (run_induct hstep before s hs hvalid.left)

/-! ## Systems that answer -/

section Trace

variable {τ ω : Type}

/-- The answers to some events, and the state after them. -/
def trace (answer : σ → ε → ω × σ) : List ε → σ → List ω × σ
  | [], s => ([], s)
  | e :: rest, s =>
    ((answer s e).1 :: (trace answer rest (answer s e).2).1,
      (trace answer rest (answer s e).2).2)

/-- A system whose states represent another's, step by step, gives the same answers. -/
theorem trace_eq_of_represents {answer : σ → ε → ω × σ} {answer' : τ → ε → ω × τ}
    {represents : σ → τ → Prop}
    (hstep : ∀ s t e, represents s t →
      (answer s e).1 = (answer' t e).1 ∧ represents (answer s e).2 (answer' t e).2)
    (events : List ε) : ∀ s t, represents s t →
      (trace answer events s).1 = (trace answer' events t).1 ∧
        represents (trace answer events s).2 (trace answer' events t).2 := by
  induction events with
  | nil =>
    intro s t h
    exact ⟨rfl, h⟩
  | cons e rest ih =>
    intro s t h
    obtain ⟨hanswer, hnext⟩ := hstep s t e h
    obtain ⟨hanswers, hend⟩ := ih _ _ hnext
    unfold trace
    rw [hanswer, hanswers]
    exact ⟨rfl, hend⟩

end Trace

end Runs
