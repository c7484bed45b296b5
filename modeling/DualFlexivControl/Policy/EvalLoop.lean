/-
The order in which a rollout executes the policy's actions: `EvalLoop` of `policy/loop.py`.

A tick with no pending action observes, infers and queues a prefix of the returned chunk; then
it executes the next pending action. What the streams hold, what the policy does and when the
stop event is set are given from outside, one [`Step`] an iteration. The state carries a record
the code does not keep: the actions passed to `_execute` and those it finished, and the step of
every inference with what had been executed by then.

What a rollout should do is said of the steps alone: [`Schedule`] says at which of them the policy
is asked, [`EvalLoop.queued`] what each answer promises, [`Exhausted`] when the error budget is
used up. The invariant [`Steady`] is the accounting of the queue against them: what was passed to
`_execute`, followed by what is pending, is what the answers promise; and the error counter is the
streak of failures at their end. A tick that raises leaves the same books, short of the action it
was executing.
-/
import Mathlib.Data.Int.Notation
import DualFlexivControl.Brain.Writers
import DualFlexivControl.Layout
import DualFlexivControl.Lib.Effects
import DualFlexivControl.Lib.Streak

set_option autoImplicit false

namespace DualFlexivControl.Policy

open Results Tiling Control Brain Effect

/-! ## What the loop is given -/

/-- A returned chunk as an array: a vector, a matrix of rows of one width, or anything that is
neither. -/
inductive Chunk (F : Type)
  | vector (row : List F)
  | matrix (width : ℕ) (rows : List (List F)) (uniform : ∀ row ∈ rows, row.length = width)
  | other

/-- What `self.policy.infer` does: it returns, raises `PolicyError`, or raises otherwise. -/
inductive Outcome (F : Type)
  | chunk (returned : Chunk F)
  | policy_error
  | raises

/-- What one iteration meets: whether the stop event is set when the loop's head looks, the
newest samples, whether they make a complete observation, and what an inference would do. -/
structure Step (F : Type) where
  stop_is_set : Bool
  snapshot : String → Option (List F)
  complete : Bool
  outcome : Outcome F

/-- The loop's fixed attributes. The constructor asks every arm's control kind for its hold
fields, so a kind with no action mapping never gets here. -/
structure EvalLoop where
  layout : DFCStateActionLayout
  control_arms : List (String × ControlCfg)
  writers : Writers
  num_timesteps_arg : ℤ
  replan_steps : ℕ
  max_consecutive_errors_arg : ℤ
  mapped : ∀ arm ∈ control_arms, ∃ fields, arm.2.action_hold_fields = .ok fields

namespace EvalLoop

variable (loop : EvalLoop)

/-- `self.num_timesteps = max(1, int(num_timesteps))` -/
def num_timesteps : ℕ := (max 1 loop.num_timesteps_arg).toNat

/-- `self.max_consecutive_errors = max(1, int(max_consecutive_errors))` -/
def max_consecutive_errors : ℕ := (max 1 loop.max_consecutive_errors_arg).toNat

/-- `self._hold[side]` -/
def hold (side : String) : List String :=
  match loop.control_arms.lookup side with
  | none => []
  | some control =>
    match control.action_hold_fields with
    | .ok fields => fields
    | .error _ => []

/-- The rows of a chunk that are queued: `replan_steps` of them, or all when it is 0. -/
def chunk_prefix {F : Type} (rows : List (List F)) : List (List F) :=
  if loop.replan_steps > 0 then rows.take loop.replan_steps else rows

end EvalLoop

/-- What a tick raises. -/
inductive EvalError
  | policy_error
  | infer
  | chunk_shape
  | no_pending
  | layout (error : LayoutError)
  | no_target (side : String)
  | schema (error : SchemaError)
  | write (error : WriteError)
  deriving DecidableEq, Repr

/-- An inference: the step it was made at, and the actions executed by then. -/
structure Inference (F : Type) where
  step : Step F
  executed : List (List F)

/-- The loop's variables, and the record. -/
structure EvalState (F : Type) where
  timesteps_done : ℕ
  inferences : ℕ
  consecutive_policy_errors : ℕ
  holds : ℕ
  pending : List (List F)
  held : String → String → Option (List F)
  passed : List (List F)
  executed : List (List F)
  calls : List (Inference F)
  posts : List (String × List F)

/-- `_HOLD_SIGNAL` -/
def HOLD_SIGNAL : String → Option String
  | "pose_d" => some "eef"
  | "q_d" => some "q"
  | _ => none

section Loop

variable {F : Type}

/-- Before the first tick. -/
def EvalState.init : EvalState F := ⟨0, 0, 0, 0, [], fun _ _ => none, [], [], [], []⟩

/-- The steps at which the policy was asked. -/
def EvalState.asked (s : EvalState F) : List (Step F) := s.calls.map (·.step)

/-- A program of the loop. -/
abbrev EvalM (F : Type) := Effect EvalError (EvalState F)

/-- `_validate_chunk`: the rows of an `(horizon, action_dim)` array. -/
def validate_chunk (layout : DFCStateActionLayout) : Chunk F → Except EvalError (List (List F))
  | .vector row => if row.length ≠ layout.action_dim then .error .chunk_shape else .ok [row]
  | .matrix width rows _ =>
    if rows = [] ∨ width ≠ layout.action_dim then .error .chunk_shape else .ok rows
  | .other => .error .chunk_shape

/-- `_capture_holds`: latch the measured value of every held field whose stream has one. -/
def capture_holds (loop : EvalLoop) (snapshot : String → Option (List F))
    (held : String → String → Option (List F)) : String → String → Option (List F) :=
  fun side f =>
    if (loop.hold side).contains f then
      ((HOLD_SIGNAL f).bind fun signal => snapshot s!"{side}/{signal}").or (held side f)
    else held side f

/-- One side of `_execute`: pack the setpoint and post it; a setpoint that cannot be built is
held. -/
def post_arm [Zero F] (loop : EvalLoop) (targets : List (DFCStateActionLayout.SideAction F))
    (side : String) (control : ControlCfg) : EvalM F Unit := do
  let s ← get
  match targets.find? fun target => target.side == side with
  | none => throw (.no_target side)
  | some target =>
    match control.pack_action target.primary (s.held side) with
    | .error (.key_error field) => throw (.schema (.key_error field))
    | .error _ => pure ()
    | .ok setpoint =>
      match loop.writers.command side setpoint with
      | .error e => throw (.write e)
      | .ok _ => update fun s => { s with posts := s.posts ++ [(side, setpoint)] }

/-- `for side, arm in self.control_arms.items()` -/
def post_arms [Zero F] (loop : EvalLoop) (targets : List (DFCStateActionLayout.SideAction F)) :
    List (String × ControlCfg) → EvalM F Unit
  | [] => pure ()
  | (side, control) :: rest => do
    post_arm loop targets side control
    post_arms loop targets rest

/-- `_execute` -/
def execute [Zero F] (loop : EvalLoop) (action : List F) : EvalM F Unit := do
  update fun s => { s with passed := s.passed ++ [action] }
  let targets ← call ((loop.layout.split action).mapError EvalError.layout)
  post_arms loop targets loop.control_arms
  update fun s => { s with executed := s.executed ++ [action] }

/-- `self._execute(self._pending.popleft())` -/
def execute_next [Zero F] (loop : EvalLoop) : EvalM F Unit := do
  let s ← get
  match s.pending with
  | [] => throw .no_pending
  | action :: rest => do
    update fun s => { s with holds := 0, pending := rest }
    execute loop action

/-- An inference that raised `PolicyError`: abort when the budget is used up. -/
def on_policy_error (loop : EvalLoop) : EvalM F Bool := do
  update fun s => { s with consecutive_policy_errors := s.consecutive_policy_errors + 1 }
  let s ← get
  if s.consecutive_policy_errors ≥ loop.max_consecutive_errors then throw .policy_error
  else pure false

/-- An inference that returned: queue the prefix of its chunk. -/
def on_chunk (loop : EvalLoop) (chunk : Chunk F) : EvalM F Bool := do
  update fun s => { s with consecutive_policy_errors := 0, inferences := s.inferences + 1 }
  let rows ← call (validate_chunk loop.layout chunk)
  update fun s => { s with pending := s.pending ++ loop.chunk_prefix rows }
  pure true

/-- The first half of a tick, with nothing pending: whether there is an action to execute. -/
def infer (loop : EvalLoop) (step : Step F) : EvalM F Bool :=
  if step.complete = false then do
    update fun s => { s with holds := s.holds + 1 }
    pure false
  else do
    update fun s => { s with
      held := capture_holds loop step.snapshot s.held
      calls := s.calls ++ [⟨step, s.executed⟩] }
    match step.outcome with
    | .raises => throw .infer
    | .policy_error => on_policy_error loop
    | .chunk chunk => on_chunk loop chunk

/-- The second half of a tick: execute the next action, if there is one. -/
def act [Zero F] (loop : EvalLoop) (ready : Bool) : EvalM F Bool :=
  if ready then do
    execute_next loop
    pure true
  else pure false

/-- `tick` -/
def tick [Zero F] (loop : EvalLoop) (step : Step F) : EvalM F Bool := do
  let s ← get
  let ready ← if s.pending = [] then infer loop step else pure true
  act loop ready

/-- Count the tick that executed an action. -/
def count (executed : Bool) : EvalM F Unit :=
  if executed then update fun s => { s with timesteps_done := s.timesteps_done + 1 }
  else pure ()

/-- One iteration. -/
def turn [Zero F] (loop : EvalLoop) (step : Step F) : EvalM F Unit := do
  let executed ← tick loop step
  count executed

/-- `run`. Where the steps end, the head finds the stop event set. -/
def run [Zero F] (loop : EvalLoop) : List (Step F) → EvalM F Unit
  | [] => pure ()
  | step :: rest => do
    let s ← get
    if step.stop_is_set || decide (loop.num_timesteps ≤ s.timesteps_done) then pure ()
    else do
      turn loop step
      run loop rest

end Loop

/-! ## What the steps say of a rollout -/

section Steps

variable {F : Type} (loop : EvalLoop)

/-- The rows that are queued if the policy is asked at a step: those of the prefix of its chunk,
or none if it fails or its chunk has the wrong shape. -/
def EvalLoop.queued (step : Step F) : List (List F) :=
  match step.outcome with
  | .chunk chunk =>
    match validate_chunk loop.layout chunk with
    | .ok rows => loop.chunk_prefix rows
    | .error _ => []
  | .policy_error => []
  | .raises => []

/-- What the answers at some steps promise, in order. -/
def promised (asked : List (Step F)) : List (List F) := asked.flatMap loop.queued

/-- Whether an inference returned or raised `PolicyError`. -/
def Step.returned (step : Step F) : Option Bool :=
  match step.outcome with
  | .chunk _ => some true
  | .policy_error => some false
  | .raises => none

/-- As many `PolicyError`s as the budget allows, with no inference between them that
returned. -/
def Exhausted (asked : List (Step F)) : Prop :=
  List.replicate loop.max_consecutive_errors false <:+: asked.filterMap Step.returned

/-- The steps that were taken, those of them at which the policy is asked, and how many queued
rows are left: it is asked wherever nothing is queued and the observation is complete, and every
other step with a row in the queue takes one. -/
inductive Schedule : List (Step F) → List (Step F) → ℕ → Prop
  | start : Schedule [] [] 0
  | hold {taken asked : List (Step F)} (step : Step F) : Schedule taken asked 0 →
      step.complete = false → Schedule (taken ++ [step]) asked 0
  | ask {taken asked : List (Step F)} (step : Step F) : Schedule taken asked 0 →
      step.complete = true →
      Schedule (taken ++ [step]) (asked ++ [step]) ((loop.queued step).length - 1)
  | act {taken asked : List (Step F)} {n : ℕ} (step : Step F) : Schedule taken asked (n + 1) →
      Schedule (taken ++ [step]) asked n

end Steps

/-! ## The books of a rollout -/

/-- What holds at any point, after the steps taken so far: the policy was asked on schedule, the
passed actions are the promised ones so far, the executed ones are counted, and every inference
found everything executed that the ones before it promise. -/
structure Books {F : Type} (loop : EvalLoop) (taken : List (Step F)) (s : EvalState F) : Prop where
  schedule : Schedule loop taken s.asked s.pending.length
  in_order : s.passed <+: promised loop s.asked
  executed : s.executed <+: s.passed
  counted : s.timesteps_done = s.executed.length
  bounded : s.timesteps_done ≤ loop.num_timesteps
  inferences : ∀ before c after, s.calls = before ++ c :: after →
    c.executed = promised loop (before.map (·.step))

/-- What holds between two ticks and, with `left` one less than what is pending, between the two
halves of a tick: every passed action was executed, the rest of what was promised is pending, and
the counter is the streak of errors. -/
structure Steady {F : Type} (loop : EvalLoop) (taken : List (Step F)) (left : ℕ)
    (s : EvalState F) : Prop where
  schedule : Schedule loop taken s.asked left
  queue : s.passed ++ s.pending = promised loop s.asked
  executed : s.executed = s.passed
  counted : s.timesteps_done = s.executed.length
  bounded : s.timesteps_done ≤ loop.num_timesteps
  inferences : ∀ before c after, s.calls = before ++ c :: after →
    c.executed = promised loop (before.map (·.step))
  streak : s.consecutive_policy_errors = Streak.trailing false (s.asked.filterMap Step.returned)
  budget : s.consecutive_policy_errors < loop.max_consecutive_errors
  unspent : ¬ Exhausted loop s.asked

/-- What a part of the loop leaves where it raises: the books, and a `PolicyError` exactly when
the budget is used up. -/
structure Aborted {F : Type} (loop : EvalLoop) (taken : List (Step F)) (e : EvalError)
    (s : EvalState F) : Prop where
  books : Books loop taken s
  reason : e = .policy_error ↔ Exhausted loop s.asked

/-- What a part of the loop leaves: steady books, or the reason for an abort. -/
def Left {F : Type} (loop : EvalLoop) (taken : List (Step F)) {α : Type}
    (r : Except EvalError α) (s : EvalState F) : Prop :=
  match r with
  | .ok _ => Steady loop taken s.pending.length s
  | .error e => Aborted loop taken e s

/-- What the first half of a tick leaves: a row to execute, or steady books if there is none. -/
def Ready {F : Type} (loop : EvalLoop) (taken : List (Step F)) (r : Except EvalError Bool)
    (s : EvalState F) : Prop :=
  match r with
  | .ok true => s.pending ≠ [] ∧ Steady loop taken (s.pending.length - 1) s
  | .ok false => Steady loop taken s.pending.length s
  | .error e => Aborted loop taken e s

section Books

variable {F : Type} {loop : EvalLoop} {taken : List (Step F)} {s : EvalState F}

theorem Steady.books (h : Steady loop taken s.pending.length s) : Books loop taken s :=
  ⟨h.schedule, ⟨s.pending, h.queue⟩, by rw [h.executed], h.counted, h.bounded, h.inferences⟩

/-- Any exception but `PolicyError` leaves the budget unspent. -/
theorem Books.aborted (h : Books loop taken s) (hunspent : ¬ Exhausted loop s.asked)
    {e : EvalError} (he : e ≠ .policy_error) : Aborted loop taken e s :=
  ⟨h, fun heq => absurd heq he, fun hx => absurd hx hunspent⟩

/-- What the loop is like right after the policy was asked, before its answer is looked at: the
books of the steps before, and one more call. -/
structure Inferred (loop : EvalLoop) (taken : List (Step F)) (step : Step F) (s : EvalState F) :
    Prop where
  before : ∃ asked, Schedule loop taken asked 0 ∧ s.asked = asked ++ [step] ∧
    s.passed = promised loop asked ∧ ¬ Exhausted loop asked ∧
    s.consecutive_policy_errors = Streak.trailing false (asked.filterMap Step.returned)
  complete : step.complete = true
  pending : s.pending = []
  executed : s.executed = s.passed
  counted : s.timesteps_done = s.executed.length
  bounded : s.timesteps_done ≤ loop.num_timesteps
  inferences : ∀ before c after, s.calls = before ++ c :: after →
    c.executed = promised loop (before.map (·.step))
  budget : s.consecutive_policy_errors < loop.max_consecutive_errors

theorem promised_append (asked : List (Step F)) (step : Step F) :
    promised loop (asked ++ [step]) = promised loop asked ++ loop.queued step := by
  unfold promised
  rw [List.flatMap_append, List.flatMap_singleton]

/-- The call is recorded with what was executed by then, which is everything promised. -/
theorem Steady.ask (h : Steady loop taken s.pending.length s) (hpending : s.pending = []) {step : Step F}
    (hcomplete : step.complete = true) (held : String → String → Option (List F)) :
    Inferred loop taken step { s with held := held, calls := s.calls ++ [⟨step, s.executed⟩] } := by
  have hpassed : s.passed = promised loop s.asked := by
    rw [← h.queue, hpending, List.append_nil]
  have hschedule := h.schedule
  rw [hpending] at hschedule
  refine ⟨⟨s.asked, hschedule, ?_, hpassed, h.unspent, h.streak⟩, hcomplete, hpending, h.executed,
    h.counted, h.bounded, ?_, h.budget⟩
  · unfold EvalState.asked
    rw [List.map_append, List.map_singleton]
  · intro before c after hcalls
    change s.calls ++ [⟨step, s.executed⟩] = before ++ c :: after at hcalls
    rcases List.eq_nil_or_concat after with rfl | ⟨after, last, rfl⟩
    · obtain ⟨rfl, hc⟩ := List.append_inj' hcalls rfl
      rw [← List.singleton_inj.1 hc]
      exact h.executed.trans hpassed
    · rw [List.concat_eq_append, ← List.cons_append, ← List.append_assoc] at hcalls
      exact h.inferences before c after (List.append_inj' hcalls rfl).1

/-- The books that the answer of a failed inference leaves: nothing is promised. -/
theorem Inferred.books {step : Step F} (h : Inferred loop taken step s) (hqueued : loop.queued step = []) :
    Books loop (taken ++ [step]) s := by
  obtain ⟨asked, hschedule, hasked, hpassed, -, -⟩ := h.before
  refine ⟨?_, ?_, by rw [h.executed], h.counted, h.bounded, h.inferences⟩
  · have hask := hschedule.ask step h.complete
    rw [hqueued] at hask
    rw [hasked, h.pending]
    exact hask
  · rw [hasked, promised_append, hqueued, List.append_nil, hpassed]

/-- A `PolicyError` within the budget, or the one that uses it up. -/
theorem on_policy_error_spec {step : Step F} (h : Inferred loop taken step s)
    (houtcome : step.outcome = .policy_error) :
    Ensures (on_policy_error loop) s (Ready loop (taken ++ [step])) := by
  have hqueued : loop.queued step = [] := by
    unfold EvalLoop.queued
    rw [houtcome]
  have hbooks := h.books hqueued
  obtain ⟨asked, hschedule, hasked, hpassed, hunspent, hcounter⟩ := h.before
  have hresults : s.asked.filterMap Step.returned = asked.filterMap Step.returned ++ [false] := by
    rw [hasked, List.filterMap_append]
    unfold Step.returned
    simp only [List.filterMap_cons, houtcome, List.filterMap_nil]
  have hstreak : s.consecutive_policy_errors + 1 =
      Streak.trailing false (s.asked.filterMap Step.returned) := by
    rw [hresults, Streak.trailing_concat_self, hcounter]
  unfold on_policy_error
  rw [ensures_bind, ensures_update, ensures_get_bind]
  dsimp only
  split
  · rename_i hmax
    -- the counter reaches the budget: the streak at the end is the exhausted budget
    have hx : Exhausted loop s.asked := by
      refine (Streak.replicate_suffix_iff.2 ?_).isInfix
      rw [← hstreak]
      exact hmax
    exact ⟨⟨hbooks.schedule, hbooks.in_order, hbooks.executed, h.counted, h.bounded,
      h.inferences⟩, fun _ => hx, fun _ => rfl⟩
  · rename_i hmax
    refine ⟨hbooks.schedule, ?_, h.executed, h.counted, h.bounded, h.inferences, hstreak,
      Nat.lt_of_not_le hmax, ?_⟩
    · show s.passed ++ s.pending = promised loop s.asked
      rw [h.pending, List.append_nil, hasked, promised_append, hqueued, List.append_nil, hpassed]
    · show ¬ List.replicate _ false <:+: s.asked.filterMap Step.returned
      rw [hresults]
      refine Streak.not_infix_concat hunspent ?_
      rw [← hresults, ← hstreak]
      exact Nat.lt_of_not_le hmax

theorem validate_chunk_error {layout : DFCStateActionLayout} {chunk : Chunk F} {e : EvalError}
    (h : validate_chunk layout chunk = .error e) : e = .chunk_shape := by
  unfold validate_chunk at h
  split at h
  · split at h
    · exact (Except.error.inj h).symm
    · exact nomatch h
  · split at h
    · exact (Except.error.inj h).symm
    · exact nomatch h
  · exact (Except.error.inj h).symm

/-- An inference that returned a chunk of the right shape has a row for its own tick. -/
theorem chunk_prefix_ne_nil {rows : List (List F)} {chunk : Chunk F}
    (h : validate_chunk loop.layout chunk = .ok rows) : loop.chunk_prefix rows ≠ [] := by
  have hrows : rows ≠ [] := by
    unfold validate_chunk at h
    split at h
    · split at h
      · exact nomatch h
      · rw [← Except.ok.inj h]
        exact List.cons_ne_nil _ _
    · split at h
      · exact nomatch h
      · rename_i hshape
        rw [← Except.ok.inj h]
        exact fun hnil => hshape (.inl hnil)
    · exact nomatch h
  unfold EvalLoop.chunk_prefix
  split
  · intro hnil
    rw [List.take_eq_nil_iff] at hnil
    rcases hnil with hzero | hnil
    · omega
    · exact hrows hnil
  · exact hrows

/-- What an inference that returned leaves of the streak: it is broken, and the error budget is
whole again. -/
theorem Inferred.results {step : Step F} (h : Inferred loop taken step s) {chunk : Chunk F}
    (houtcome : step.outcome = .chunk chunk) :
    Streak.trailing false (s.asked.filterMap Step.returned) = 0 ∧ ¬ Exhausted loop s.asked := by
  obtain ⟨asked, -, hasked, -, hunspent, -⟩ := h.before
  have hresults : s.asked.filterMap Step.returned = asked.filterMap Step.returned ++ [true] := by
    rw [hasked, List.filterMap_append]
    unfold Step.returned
    simp only [List.filterMap_cons, houtcome, List.filterMap_nil]
  have hstreak : Streak.trailing false (s.asked.filterMap Step.returned) = 0 := by
    rw [hresults]
    exact Streak.trailing_concat_ne (by decide)
  refine ⟨hstreak, ?_⟩
  unfold Exhausted
  rw [hresults] at hstreak ⊢
  refine Streak.not_infix_concat hunspent ?_
  rw [hstreak]
  exact Nat.lt_of_le_of_lt (Nat.zero_le _) h.budget

/-- A chunk that is returned resets the counter; one of the right shape is queued. -/
theorem on_chunk_spec {step : Step F} (h : Inferred loop taken step s) {chunk : Chunk F}
    (houtcome : step.outcome = .chunk chunk) :
    Ensures (on_chunk loop chunk) s (Ready loop (taken ++ [step])) := by
  obtain ⟨hstreak, hunspent⟩ := h.results houtcome
  have hmax : 0 < loop.max_consecutive_errors := Nat.lt_of_le_of_lt (Nat.zero_le _) h.budget
  unfold on_chunk
  rw [ensures_bind, ensures_update]
  dsimp only
  rw [ensures_bind, returns_call.ensures_iff]
  cases hvalid : validate_chunk loop.layout chunk with
  -- a chunk of the wrong shape promises nothing, and the loop ends with it
  | error e =>
    have hbooks : Books loop (taken ++ [step]) s := by
      refine h.books ?_
      unfold EvalLoop.queued
      rw [houtcome]
      dsimp only
      rw [hvalid]
    have habort : Books loop (taken ++ [step])
        { s with consecutive_policy_errors := 0, inferences := s.inferences + 1 } :=
      ⟨hbooks.schedule, hbooks.in_order, hbooks.executed, h.counted, h.bounded, h.inferences⟩
    refine habort.aborted hunspent ?_
    rw [validate_chunk_error hvalid]
    decide
  -- the prefix is queued on an empty queue
  | ok rows =>
    have hqueued : loop.queued step = loop.chunk_prefix rows := by
      unfold EvalLoop.queued
      rw [houtcome]
      dsimp only
      rw [hvalid]
    obtain ⟨asked, hschedule, hasked, hpassed, -, -⟩ := h.before
    have hpending : s.pending ++ loop.chunk_prefix rows = loop.chunk_prefix rows := by
      rw [h.pending, List.nil_append]
    refine ⟨?_, ?_, ?_, h.executed, h.counted, h.bounded, h.inferences, hstreak.symm, hmax,
      hunspent⟩
    · show s.pending ++ loop.chunk_prefix rows ≠ []
      rw [hpending]
      exact chunk_prefix_ne_nil hvalid
    · show Schedule loop (taken ++ [step]) s.asked ((s.pending ++ loop.chunk_prefix rows).length - 1)
      rw [hpending, hasked, ← hqueued]
      exact hschedule.ask step h.complete
    · show s.passed ++ (s.pending ++ loop.chunk_prefix rows) = promised loop s.asked
      rw [hpending, hasked, promised_append, hpassed, hqueued]

/-- The inferring half of a tick: it is entered with nothing pending, asks the policy once, and
leaves a chunk, an error counted or an abort. -/
theorem infer_spec (h : Steady loop taken s.pending.length s) (hpending : s.pending = [])
    (step : Step F) : Ensures (infer loop step) s (Ready loop (taken ++ [step])) := by
  unfold infer
  split
  · rename_i hincomplete
    have hschedule := h.schedule
    rw [hpending] at hschedule
    refine ⟨?_, h.queue, h.executed, h.counted, h.bounded, h.inferences, h.streak, h.budget,
      h.unspent⟩
    show Schedule loop (taken ++ [step]) s.asked s.pending.length
    rw [hpending]
    exact hschedule.hold step hincomplete
  · rename_i hcomplete
    rw [ensures_bind, ensures_update]
    have hasked := h.ask hpending (Bool.not_eq_false _ ▸ hcomplete)
      (capture_holds loop step.snapshot s.held)
    dsimp only
    cases houtcome : step.outcome with
    | raises =>
      have hqueued : loop.queued step = [] := by
        unfold EvalLoop.queued
        rw [houtcome]
      refine (hasked.books hqueued).aborted ?_ (by decide)
      unfold Exhausted EvalState.asked
      rw [List.map_append, List.filterMap_append]
      have hnone : [step].filterMap Step.returned = [] := by
        unfold Step.returned
        simp only [List.filterMap_cons, houtcome, List.filterMap_nil]
      rw [List.map_singleton, hnone, List.append_nil]
      exact h.unspent
    | policy_error => exact on_policy_error_spec hasked houtcome
    | chunk chunk => exact on_chunk_spec hasked houtcome

end Books

/-! ## Executing an action -/

section Execute

variable {F : Type} [Zero F] {loop : EvalLoop} {taken : List (Step F)} {s : EvalState F}

end Execute

/-! ## The rows of one chunk -/

section OneChunk

variable {F : Type} [Zero F] {loop : EvalLoop} {rows : List (List F)}
  {held : String → String → Option (List F)} {before : List (String × List F)}

/-- The setpoint of a controlled arm, packed from its slice of one of the rows and the values the
loop holds. -/
def PackedFrom (loop : EvalLoop) (rows : List (List F))
    (held : String → String → Option (List F)) (post : String × List F) : Prop :=
  ∃ row ∈ rows, ∃ targets, loop.layout.split row = .ok targets ∧ ∃ target ∈ targets,
    target.side = post.1 ∧ ∃ control, (post.1, control) ∈ loop.control_arms ∧
      control.pack_action target.primary (held post.1) = .ok post.2

/-- What holds while a chunk is executed, with the rows in `left` still pending: the held values
are those of its inference, and everything posted since was packed from it. -/
structure Executing (loop : EvalLoop) (rows : List (List F))
    (held : String → String → Option (List F)) (before : List (String × List F))
    (left : List (List F)) (s : EvalState F) : Prop where
  latched : s.held = held
  pending : s.pending = left
  posts : ∃ new, s.posts = before ++ new ∧ ∀ post ∈ new, PackedFrom loop rows held post

variable {left : List (List F)}

theorem post_arm_executing {row : List F} (hrow : row ∈ rows)
    {targets : List (DFCStateActionLayout.SideAction F)}
    (hsplit : loop.layout.split row = .ok targets) {side : String} {control : ControlCfg}
    (harm : (side, control) ∈ loop.control_arms) :
    Keeps (Executing loop rows held before left) (post_arm loop targets side control) := by
  intro s h
  unfold post_arm
  rw [ensures_get_bind]
  cases hfind : targets.find? fun target => target.side == side with
  | none => exact h
  | some target =>
    dsimp only
    cases hpack : control.pack_action target.primary (s.held side) with
    | error e =>
      cases e with
      | key_error field => exact h
      | no_action_mapping kind => exact h
      | no_held_value kind field => exact h
    | ok setpoint =>
      dsimp only
      cases loop.writers.command side setpoint with
      | error e => exact h
      | ok _ =>
        obtain ⟨new, hnew, hpacked⟩ := h.posts
        refine ⟨h.latched, h.pending, new ++ [(side, setpoint)], ?_, ?_⟩
        · show s.posts ++ [(side, setpoint)] = before ++ (new ++ [(side, setpoint)])
          rw [hnew, List.append_assoc]
        · intro post hpost
          rcases List.mem_append.1 hpost with hpost | hpost
          · exact hpacked post hpost
          · rw [List.mem_singleton.1 hpost]
            have hside := List.find?_some
              (p := fun target : DFCStateActionLayout.SideAction F => target.side == side) hfind
            rw [h.latched] at hpack
            exact ⟨row, hrow, targets, hsplit, target, List.mem_of_find?_eq_some hfind,
              eq_of_beq hside, control, harm, hpack⟩

theorem post_arms_executing {row : List F} (hrow : row ∈ rows)
    {targets : List (DFCStateActionLayout.SideAction F)}
    (hsplit : loop.layout.split row = .ok targets) (arms : List (String × ControlCfg)) :
    (∀ arm ∈ arms, arm ∈ loop.control_arms) →
      Keeps (Executing loop rows held before left) (post_arms loop targets arms) := by
  induction arms with
  | nil =>
    intro _
    exact keeps_pure
  | cons arm rest ih =>
    intro harms
    apply keeps_bind (post_arm_executing hrow hsplit (harms arm List.mem_cons_self))
    intro _
    exact ih fun arm' harm' => harms arm' (List.mem_cons_of_mem _ harm')

/-- Whatever a row's execution posts is packed from it, also where it raises. -/
theorem execute_executing {row : List F} (hrow : row ∈ rows) :
    Keeps (Executing loop rows held before left) (execute loop row) := by
  unfold execute
  apply keeps_bind (keeps_update fun s h => ⟨h.latched, h.pending, h.posts⟩)
  intro _ s h
  rw [ensures_bind, returns_call.ensures_iff]
  cases hsplit : loop.layout.split row with
  | error e => exact h
  | ok targets =>
    apply keeps_bind (post_arms_executing hrow hsplit loop.control_arms fun _ harm => harm)
    · intro _
      exact keeps_update fun s' h' => ⟨h'.latched, h'.pending, h'.posts⟩
    · exact h

/-- The step lemma: with a row pending, a tick's second half executes it and nothing else. -/
theorem act_executing {row : List F} (hrow : row ∈ rows) {s : EvalState F}
    (h : Executing loop rows held before (row :: left) s) :
    Ensures (act loop true >>= count) s fun _ s' => Executing loop rows held before left s' := by
  have hcount : ∀ executed, Keeps (Executing loop rows held before left) (count executed) := by
    intro executed
    exact keeps_ite (keeps_update fun _ h' => ⟨h'.latched, h'.pending, h'.posts⟩) keeps_pure
  unfold act
  rw [if_pos rfl, bind_assoc]
  unfold execute_next
  rw [bind_assoc, ensures_get_bind, h.pending]
  dsimp only
  rw [bind_assoc, ensures_bind, ensures_update]
  dsimp only
  apply keeps_bind (execute_executing hrow) (fun _ => keeps_bind keeps_pure hcount)
  exact ⟨h.latched, rfl, h.posts⟩

/-- The run lemma: as long as rows are pending no observation is asked for, so every iteration
executes a row of the same chunk. -/
theorem run_executing (steps : List (Step F)) :
    ∀ {left : List (List F)} {s : EvalState F}, (∀ row ∈ left, row ∈ rows) →
      steps.length ≤ left.length → Executing loop rows held before left s →
      Ensures (run loop steps) s fun _ s' => ∃ left', Executing loop rows held before left' s' := by
  induction steps with
  | nil =>
    intro left s _ _ h
    exact ⟨left, h⟩
  | cons step rest ih =>
    intro left s hrows hlen h
    cases left with
    | nil => exact absurd hlen (Nat.not_succ_le_zero _)
    | cons row left =>
      unfold run
      rw [ensures_get_bind]
      split
      · exact ⟨row :: left, h⟩
      · have hturn : Ensures (turn loop step) s fun _ s' =>
            Executing loop rows held before left s' := by
          unfold turn tick
          rw [bind_assoc, ensures_get_bind, h.pending, if_neg (List.cons_ne_nil row left)]
          exact act_executing (hrows row List.mem_cons_self) h
        apply hturn.bind
        · intro _ s' h'
          exact ih (fun row' hrow' => hrows row' (List.mem_cons_of_mem _ hrow'))
            (Nat.le_of_succ_le_succ hlen) h'
        · intro e s' h'
          exact ⟨left, h'⟩

/-- From an inference that returns a chunk on, as long as its queued rows last: every setpoint
posted is packed from one of the chunk's rows and the values latched at that inference. -/
theorem chunk_posts {s : EvalState F} (hpending : s.pending = []) {step : Step F}
    (hcomplete : step.complete = true) {chunk : Chunk F} (houtcome : step.outcome = .chunk chunk)
    (hvalid : validate_chunk loop.layout chunk = .ok rows) {rest : List (Step F)}
    (hrest : rest.length < (loop.chunk_prefix rows).length) :
    ∃ new, (exec (run loop (step :: rest)) s).2.posts = s.posts ++ new ∧
      ∀ post ∈ new, PackedFrom loop rows (capture_holds loop step.snapshot s.held) post := by
  have hqueued : ∀ row ∈ loop.chunk_prefix rows, row ∈ rows := by
    intro row hrow
    unfold EvalLoop.chunk_prefix at hrow
    split at hrow
    · exact List.mem_of_mem_take hrow
    · exact hrow
  have hnothing : ∃ new, s.posts = s.posts ++ new ∧
      ∀ post ∈ new, PackedFrom loop rows (capture_holds loop step.snapshot s.held) post :=
    ⟨[], (List.append_nil _).symm, fun post hpost => absurd hpost List.not_mem_nil⟩
  cases hqueue : loop.chunk_prefix rows with
  | nil =>
    rw [hqueue] at hrest
    exact absurd hrest (Nat.not_lt_zero _)
  | cons row left =>
    rw [hqueue] at hqueued hrest
    -- the inference latches the held values and queues the rows, and the first is executed
    have hinfer : Ensures (infer loop step) s fun r s' => r = .ok true ∧
        Executing loop rows (capture_holds loop step.snapshot s.held) s.posts (row :: left) s' := by
      unfold infer
      rw [if_neg (by rw [hcomplete]; exact Bool.noConfusion), ensures_bind, ensures_update,
        houtcome]
      dsimp only
      unfold on_chunk
      rw [ensures_bind, ensures_update]
      dsimp only
      rw [ensures_bind, returns_call.ensures_iff, hvalid]
      refine ⟨rfl, rfl, ?_, hnothing⟩
      show s.pending ++ loop.chunk_prefix rows = row :: left
      rw [hpending, hqueue, List.nil_append]
    have hturn : Ensures (turn loop step) s fun _ s' =>
        Executing loop rows (capture_holds loop step.snapshot s.held) s.posts left s' := by
      unfold turn tick
      rw [bind_assoc, ensures_get_bind, if_pos hpending, bind_assoc]
      apply hinfer.bind
      · rintro ready s' ⟨hready, h'⟩
        rw [Except.ok.inj hready]
        exact act_executing (hqueued row List.mem_cons_self) h'
      · rintro e s' ⟨hready, _⟩
        exact nomatch hready
    have hrun : Ensures (run loop (step :: rest)) s fun _ s' => ∃ new, s'.posts = s.posts ++ new ∧
        ∀ post ∈ new, PackedFrom loop rows (capture_holds loop step.snapshot s.held) post := by
      unfold run
      rw [ensures_get_bind]
      split
      · exact hnothing
      · apply hturn.bind
        · intro _ s' h'
          have hlen : rest.length ≤ left.length := Nat.le_of_lt_succ hrest
          refine (run_executing rest (fun row' hrow' => hqueued row' (List.mem_cons_of_mem _ hrow'))
            hlen h').imp ?_
          rintro _ s'' ⟨left', h''⟩
          exact h''.posts
        · intro e s' h'
          exact h'.posts
    exact hrun

end OneChunk

end DualFlexivControl.Policy
