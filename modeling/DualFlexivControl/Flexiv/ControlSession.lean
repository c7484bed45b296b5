/-
`_control_session`: one control session, with every exit it has.

The session is a chain of calls, any of which may raise, inside a `try` whose `finally`
clears `control_active` and stops the robot. The results of the calls are the session's
environment ([`Env`]), so that every outcome the code can produce is some environment:
STOP, deadman, fault, safety halt, refusal, aborted bootstrap, timeouts, a manifest
without a segment, a native controller that fails.

The `finally` does its part always ([`control_session_always`]). Whether the arm can go on
is another matter, and [`Absorbed`] says exactly when: no call that is reached raises
anything but a `TimeoutError`, and a native hand-off manages to reopen the source -- a
`TimeoutError` from there is caught by the loop around the session, but leaves an arm that
has nothing to read telemetry from.
-/
import DualFlexivControl.Lib.Effects

set_option autoImplicit false

namespace DualFlexivControl.Flexiv

open Effect

/-! ## The arm -/

/-- The exception types the code raises or catches. -/
inductive Exc where
  | timeout_error
  | runtime_error
  | file_not_found
  | value_error
  | attribute_error
  | safety_halt
  | other
  deriving DecidableEq

/-- `_source`: connected, constructed but not connected, or `None`. -/
inductive Source where
  | connected
  | unconnected
  | closed
  deriving DecidableEq

/-- The arm's session state. `stops` counts the attempts to stop the robot. -/
structure Arm where
  control_active : Bool
  source : Source
  stops : ℕ
  deriving DecidableEq

/-- The fields of `ArmCfg` a session looks at; `dummy` is every stream being one. -/
structure ArmCfg where
  control_eager_enable : Bool
  control_safety_check : Bool
  gripper_enabled : Bool
  rt_streaming : Bool
  sim : Bool
  dummy : Bool

/-- The control kinds. -/
inductive ControlKind where
  | qpos
  | qvel
  | end_effector
  | eef_vel
  | force
  deriving DecidableEq

/-- The fields of an `EnterControl` message's `ControlCfg` a session branches on. -/
structure ControlCfg where
  kind : ControlKind
  nrt_joint_position : Bool

/-- What one iteration of `_await_channels` sees. -/
structure ChannelPoll where
  /-- `discover()`: both channels are there. -/
  discover : Except Exc Bool
  /-- Past the deadline. -/
  late : Bool
  telemetry : Except Exc Unit

/-- What one iteration of `_await_first_setpoint` sees. -/
structure FirstPoll where
  /-- `_drain_commands`: there was a STOP. -/
  drain_commands : Except Exc Bool
  /-- `latest()`: there is a setpoint. -/
  latest : Except Exc Bool
  late : Bool
  telemetry : Except Exc Unit

/-- What the setpoint mailbox's newest sample is to the deadman. -/
inductive Mailbox where
  | torn
  | fresh
  | soft_stale
  | hard_stale

/-- What one iteration of the merged loop sees. -/
structure Tick where
  telemetry : Except Exc Unit
  fault : Except Exc Bool
  drain_commands : Except Exc Bool
  latest : Except Exc Mailbox
  send_control : Except Exc Unit
  /-- The gripper mailbox, looked at only alongside actuation. -/
  gripper_latest : Except Exc Unit
  send_gripper : Except Exc Unit

/-- What the calls of one session return or raise, in the order of the code. A `while not
stop_event.is_set()` loop has one entry per iteration; where they end the event is set. -/
structure Env where
  /-- Servo on, eagerly or not: a fault that will not clear raises `RuntimeError`, an arm
  that does not become operational `TimeoutError`. -/
  enter_control : Except Exc Unit
  channel_polls : List ChannelPoll
  /-- A manifest whose segment is unlinked raises `FileNotFoundError`. -/
  attach_setpoint : Except Exc Unit
  attach_command : Except Exc Unit
  gripper_entry : Bool
  attach_gripper : Except Exc Unit
  first_polls : List FirstPoll
  /-- `FileNotFoundError` if the native controller is not built. -/
  find_controller : Except Exc Unit
  controller_args : Except Exc Unit
  popen : Except Exc Unit
  /-- The native controller's exit status; `TimeoutExpired` if it cannot be killed. -/
  returncode : Except Exc Int
  /-- `open_source` after the native controller. -/
  reopen : Except Exc Unit
  /-- `slice_streamed` of the first setpoint and `read()`. -/
  read : Except Exc Unit
  /-- The first target is farther away than the tolerance. -/
  preflight_far : Bool
  /-- `false` if the bootstrap was aborted. -/
  start_control : Except Exc Bool
  setup_gripper : Except Exc Bool
  ticks : List Tick

/-! ## The loops of a session -/

/-- `while not stop_event.is_set()`: an iteration goes on with the loop's variables or
returns, and a loop that is stopped returns `stopped`. -/
def until_stopped {σ ι α : Type} (iteration : σ → ι → Except Exc (σ ⊕ α)) (stopped : α) :
    σ → List ι → Except Exc α
  | _, [] => .ok stopped
  | s, i :: rest => do
    match ← iteration s i with
    | .inl s' => until_stopped iteration stopped s' rest
    | .inr x => .ok x

/-- One iteration of `_await_channels`. -/
def channels_poll (_ : Unit) (poll : ChannelPoll) : Except Exc (Unit ⊕ Bool) := do
  if ← poll.discover then pure (.inr true)
  else if poll.late then throw .timeout_error
  else do
    poll.telemetry
    pure (.inl ())

/-- `_await_channels`: whether the channels were found before a shutdown. -/
def await_channels (env : Env) : Except Exc Bool :=
  until_stopped channels_poll false () env.channel_polls

/-- One iteration of `_await_first_setpoint`. -/
def first_poll (_ : Unit) (poll : FirstPoll) : Except Exc (Unit ⊕ Bool) := do
  if ← poll.drain_commands then pure (.inr false)
  else if ← poll.latest then pure (.inr true)
  else if poll.late then pure (.inr false)
  else do
    poll.telemetry
    pure (.inl ())

/-- `_await_first_setpoint`: whether a setpoint came before a STOP, the deadline or a
shutdown. -/
def await_first_setpoint (env : Env) : Except Exc Bool :=
  until_stopped first_poll false () env.first_polls

/-- `send_control`, of which a `SafetyHalt` ends the loop: `true` if it did not. -/
def actuate (tick : Tick) : Except Exc Bool :=
  match tick.send_control with
  | .ok () => .ok true
  | .error .safety_halt => .ok false
  | .error e => .error e

/-- The gripper's part of an iteration: whether it is still driven in the next one. What
`send_gripper` raises is logged. -/
def drive_gripper (grip : Bool) (tick : Tick) : Except Exc Bool :=
  if grip then do
    tick.gripper_latest
    pure tick.send_gripper.isOk
  else pure false

/-- One iteration of the merged loop; `grip` is whether there is a gripper to drive. -/
def merged_tick (grip : Bool) (tick : Tick) : Except Exc (Bool ⊕ Unit) := do
  tick.telemetry
  if ← tick.fault then pure (.inr ())
  else if ← tick.drain_commands then pure (.inr ())
  else match ← tick.latest with
    -- `n == 0` and a soft hold go on to the next iteration without actuating
    | .torn => pure (.inl grip)
    | .hard_stale => pure (.inr ())
    | .soft_stale => pure (.inl grip)
    | .fresh => do
      if ← actuate tick then do
        let grip' ← drive_gripper grip tick
        pure (.inl grip')
      else pure (.inr ())

/-- The merged loop. -/
def merged_loop (grip : Bool) (env : Env) : Except Exc Unit :=
  until_stopped merged_tick () grip env.ticks

/-- `run_controller`: a status other than zero is a `RuntimeError`. -/
def run_controller (env : Env) : Except Exc Unit := do
  env.popen
  if (← env.returncode) = 0 then pure () else throw .runtime_error

/-! ## The session -/

/-- A call through `_source._robot`, which is `None` unless the source is connected. -/
def on_source {α : Type} (r : Except Exc α) : Effect Exc Arm α :=
  ExceptT.mk fun a => (if a.source = .connected then r else .error .attribute_error, a)

/-- `_uses_native_rt`. -/
def uses_native_rt (cfg : ArmCfg) (ctrl : ControlCfg) (source : Source) : Bool :=
  cfg.rt_streaming && !cfg.sim && (!(cfg.sim || cfg.dummy) && decide (source ≠ .closed)) &&
    decide (ctrl.kind = .qpos) && ctrl.nrt_joint_position

/-- `close_source`, then `run_controller` with `open_source` in a `finally`: an exception
of the latter replaces the former's. `open_source` assigns `_source` before it connects. -/
def hand_over (env : Env) : Effect Exc Arm Unit :=
  ExceptT.mk fun a =>
    match env.reopen with
    -- the `finally` runs whatever `run_controller` raised
    | .ok () => (run_controller env, { a with source := .connected })
    | .error e => (.error e, { a with source := .unconnected })

/-- `_run_native_rt`. -/
def run_native_rt (env : Env) : Effect Exc Arm Unit := do
  call env.find_controller
  call env.controller_args
  hand_over env

/-- The native branch of the session, from the first setpoint on. -/
def native_branch (env : Env) : Effect Exc Arm Unit := do
  let first ← call (await_first_setpoint env)
  if first then run_native_rt env else pure ()

/-- `grip_reader is not None`. -/
def grip_attached (cfg : ArmCfg) (env : Env) (native_rt : Bool) : Bool :=
  cfg.gripper_enabled && env.gripper_entry && !native_rt

/-- A call that is made only if `c`, with what it is taken to return if not. -/
def call_if {α : Type} (c : Bool) (r : Except Exc α) (x : α) : Effect Exc Arm α :=
  if c then call r else pure x

/-- The bootstrap, the gripper and the merged loop. -/
def bootstrap_and_loop (cfg : ArmCfg) (env : Env) : Effect Exc Arm Unit := do
  let started ← on_source env.start_control
  if started then do
    let grip ← call_if (grip_attached cfg env false) env.setup_gripper false
    call (merged_loop grip env)
  else pure ()

/-- `_source.enter_control()`, under a condition of the configuration. -/
def enter_control_if (c : Bool) (env : Env) : Effect Exc Arm Unit :=
  if c then on_source env.enter_control else pure ()

/-- The control preflight refuses the first target. -/
def refuses (cfg : ArmCfg) (ctrl : ControlCfg) (env : Env) : Bool :=
  decide (ctrl.kind = .qpos) && cfg.control_safety_check && env.preflight_far

/-- The Python branch of the session, from the servo enable on. -/
def python_branch (cfg : ArmCfg) (ctrl : ControlCfg) (env : Env) : Effect Exc Arm Unit := do
  enter_control_if (!cfg.control_eager_enable) env
  let first ← call (await_first_setpoint env)
  if first then do
    on_source env.read
    if refuses cfg ctrl env then throw .runtime_error else bootstrap_and_loop cfg env
  else pure ()

/-- The body of the `try`. -/
def session_body (cfg : ArmCfg) (ctrl : ControlCfg) (env : Env) (native_rt : Bool) :
    Effect Exc Arm Unit := do
  enter_control_if (cfg.control_eager_enable && !native_rt) env
  let found ← call (await_channels env)
  if found then do
    call env.attach_setpoint
    call env.attach_command
    call_if (grip_attached cfg env native_rt) env.attach_gripper ()
    if native_rt then native_branch env else python_branch cfg ctrl env
  else pure ()

/-- The `finally`: whatever `stop()` and the readers' `close()` raise is logged. -/
def session_finally (a : Arm) : Arm :=
  { a with
    control_active := false
    stops := if a.source = .closed then a.stops else a.stops + 1 }

/-- `_control_session`. -/
def control_session (cfg : ArmCfg) (ctrl : ControlCfg) (env : Env) : Effect Exc Arm Unit :=
  ExceptT.mk fun a => exec (do
    update fun a => { a with control_active := true }
    withFinally (session_body cfg ctrl env (uses_native_rt cfg ctrl a.source)) session_finally) a

/-! ## When a session is absorbed -/

/-- A call returned and what follows is `k`, or it raised what the loop catches. -/
def Calm {α : Type} (r : Except Exc α) (k : α → Prop) : Prop :=
  match r with
  | .ok x => k x
  | .error e => e = .timeout_error

/-- The calls of a loop, iteration by iteration, then `k`. -/
def LoopCalm {σ ι α : Type} (calm : σ → ι → (σ ⊕ α → Prop) → Prop) (stopped : α)
    (k : α → Prop) : σ → List ι → Prop
  | _, [] => k stopped
  | s, i :: rest => calm s i fun
    | .inl s' => LoopCalm calm stopped k s' rest
    | .inr x => k x

/-- The calls of an iteration of `_await_channels`. -/
def ChannelsPollCalm (_ : Unit) (poll : ChannelPoll) (k : Unit ⊕ Bool → Prop) : Prop :=
  Calm poll.discover fun found =>
    if found then k (.inr true)
    else poll.late = true ∨ Calm poll.telemetry fun _ => k (.inl ())

/-- The calls of an iteration of `_await_first_setpoint`. -/
def FirstPollCalm (_ : Unit) (poll : FirstPoll) (k : Unit ⊕ Bool → Prop) : Prop :=
  Calm poll.drain_commands fun stop =>
    if stop then k (.inr false)
    else Calm poll.latest fun posted =>
      if posted then k (.inr true)
      else if poll.late then k (.inr false)
      else Calm poll.telemetry fun _ => k (.inl ())

/-- The calls of an actuated iteration of the merged loop. -/
def ActuateCalm (grip : Bool) (tick : Tick) (k : Bool ⊕ Unit → Prop) : Prop :=
  if tick.send_control = .error .safety_halt then k (.inr ())
  else Calm tick.send_control fun _ =>
    if grip then Calm tick.gripper_latest fun _ => k (.inl tick.send_gripper.isOk)
    else k (.inl false)

/-- The calls of an iteration of the merged loop. -/
def MergedTickCalm (grip : Bool) (tick : Tick) (k : Bool ⊕ Unit → Prop) : Prop :=
  Calm tick.telemetry fun _ => Calm tick.fault fun fault =>
    if fault then k (.inr ())
    else Calm tick.drain_commands fun stop =>
      if stop then k (.inr ())
      else Calm tick.latest fun
        | .torn => k (.inl grip)
        | .hard_stale => k (.inr ())
        | .soft_stale => k (.inl grip)
        | .fresh => ActuateCalm grip tick k

/-- The calls of the native branch: here the controller has to exit cleanly and the source
to come back. -/
def NativeAbsorbed (env : Env) : Prop :=
  Calm env.find_controller fun _ => Calm env.controller_args fun _ =>
    env.reopen = .ok () ∧ Calm env.popen fun _ => Calm env.returncode fun status => status = 0

/-- The calls of the bootstrap and of the merged loop. -/
def LoopAbsorbed (cfg : ArmCfg) (env : Env) : Prop :=
  Calm env.start_control fun started => started = true →
    Calm (if grip_attached cfg env false then env.setup_gripper else .ok false) fun grip =>
      LoopCalm MergedTickCalm () (fun _ => True) grip env.ticks

/-- The wait for the first setpoint, and then `k` if one came. -/
def FirstAbsorbed (env : Env) (k : Prop) : Prop :=
  LoopCalm FirstPollCalm false (fun first => first = true → k) () env.first_polls

/-- The calls of the Python branch, and its refusal. -/
def PythonAbsorbed (cfg : ArmCfg) (ctrl : ControlCfg) (env : Env) : Prop :=
  Calm (if !cfg.control_eager_enable then env.enter_control else .ok ()) fun _ =>
    FirstAbsorbed env (Calm env.read fun _ => refuses cfg ctrl env = false ∧ LoopAbsorbed cfg env)

/-- The calls from the channels' discovery on. -/
def AttachedAbsorbed (cfg : ArmCfg) (ctrl : ControlCfg) (env : Env) (native_rt : Bool) : Prop :=
  Calm env.attach_setpoint fun _ => Calm env.attach_command fun _ =>
    Calm (if grip_attached cfg env native_rt then env.attach_gripper else .ok ()) fun _ =>
      if native_rt then FirstAbsorbed env (NativeAbsorbed env) else PythonAbsorbed cfg ctrl env

/-- No call a session reaches raises anything but `TimeoutError` (what the code catches
itself apart), its preflight does not refuse, its native controller exits with zero and
the source comes back afterwards. -/
def Absorbed (cfg : ArmCfg) (ctrl : ControlCfg) (env : Env) (native_rt : Bool) : Prop :=
  Calm (if cfg.control_eager_enable && !native_rt then env.enter_control else .ok ()) fun _ =>
    LoopCalm ChannelsPollCalm false
      (fun found => found = true → AttachedAbsorbed cfg ctrl env native_rt) () env.channel_polls

section Calm

variable {α β σ ι : Type}

/-- A call that returned is calm if what follows it is. -/
@[simp] theorem calm_ok {x : α} {k : α → Prop} : Calm (.ok x) k ↔ k x := Iff.rfl

/-- A value that is only handed on raises nothing. -/
@[simp] theorem calm_pure {x : α} {k : α → Prop} : Calm (pure x) k ↔ k x := Iff.rfl

/-- Of the exceptions only a `TimeoutError` is what the loop around the session catches. -/
@[simp] theorem calm_throw {e : Exc} {k : α → Prop} :
    Calm (throw e) k ↔ e = .timeout_error := Iff.rfl

/-- Calls in a row are calm when the first is, and the second at the value the first returned. -/
@[simp] theorem calm_bind {x : Except Exc α} {f : α → Except Exc β} {k : β → Prop} :
    Calm (x >>= f) k ↔ Calm x fun y => Calm (f y) k := by
  cases x with
  | ok y => rfl
  | error e => rfl

/-- Computing with a result raises nothing new. -/
@[simp] theorem calm_map {x : Except Exc α} {f : α → β} {k : β → Prop} :
    Calm (f <$> x) k ↔ Calm x fun y => k (f y) := by
  cases x with
  | ok y => rfl
  | error e => rfl

/-- What follows a call may be replaced by anything equivalent, value by value. -/
theorem calm_congr {r : Except Exc α} {k k' : α → Prop} (h : ∀ x, k x ↔ k' x) :
    Calm r k ↔ Calm r k' := by
  rw [show k = k' from funext fun x => propext (h x)]

/-- A loop is as calm as its iterations: exactly the calls of those that are reached before one ends
it must be. -/
theorem until_stopped_calm {iteration : σ → ι → Except Exc (σ ⊕ α)} {stopped : α}
    {calm : σ → ι → (σ ⊕ α → Prop) → Prop}
    (h : ∀ s i k, Calm (iteration s i) k ↔ calm s i k) {k : α → Prop} (s : σ) (rest : List ι) :
    Calm (until_stopped iteration stopped s rest) k ↔ LoopCalm calm stopped k s rest := by
  induction rest generalizing s with
  | nil => rfl
  | cons i rest ih =>
    unfold until_stopped LoopCalm
    rw [calm_bind, ← h]
    apply calm_congr
    intro next
    cases next with
    | inl s' => exact ih s'
    | inr x => rfl

/-- One pass of the wait for channels is calm exactly when the calls of its branch are. -/
theorem channels_poll_calm (u : Unit) (poll : ChannelPoll) (k : Unit ⊕ Bool → Prop) :
    Calm (channels_poll u poll) k ↔ ChannelsPollCalm u poll k := by
  unfold channels_poll ChannelsPollCalm
  rw [calm_bind]
  apply calm_congr
  intro found
  cases found with
  | true => simp
  | false => cases hlate : poll.late <;> simp

/-- One pass of the wait for a setpoint is calm exactly when the calls of its branch are. -/
theorem first_poll_calm (u : Unit) (poll : FirstPoll) (k : Unit ⊕ Bool → Prop) :
    Calm (first_poll u poll) k ↔ FirstPollCalm u poll k := by
  unfold first_poll FirstPollCalm
  rw [calm_bind]
  apply calm_congr
  intro stop
  cases stop with
  | true => simp
  | false =>
    simp only [Bool.false_eq_true, if_false]
    rw [calm_bind]
    apply calm_congr
    intro posted
    cases posted with
    | true => simp
    | false => cases hlate : poll.late <;> simp

/-- The motion and, unless it halted the loop, the gripper: calm exactly when the calls that are
reached are. -/
theorem actuate_calm (grip : Bool) (tick : Tick) (k : Bool ⊕ Unit → Prop) :
    (Calm (actuate tick) fun sent =>
      if sent then Calm (drive_gripper grip tick) fun grip' => k (.inl grip') else k (.inr ())) ↔
      ActuateCalm grip tick k := by
  unfold actuate ActuateCalm drive_gripper
  cases hsend : tick.send_control with
  | ok u => cases grip <;> simp
  | error e => cases e <;> simp [Calm]

/-- An iteration of the merged loop is calm exactly when the calls of the branch it takes are. -/
theorem merged_tick_calm (grip : Bool) (tick : Tick) (k : Bool ⊕ Unit → Prop) :
    Calm (merged_tick grip tick) k ↔ MergedTickCalm grip tick k := by
  unfold merged_tick MergedTickCalm
  rw [calm_bind]
  apply calm_congr
  intro _
  rw [calm_bind]
  apply calm_congr
  intro fault
  cases fault with
  | true => simp
  | false =>
    simp only [Bool.false_eq_true, if_false]
    rw [calm_bind]
    apply calm_congr
    intro stop
    cases stop with
    | true => simp
    | false =>
      simp only [Bool.false_eq_true, if_false]
      rw [calm_bind]
      apply calm_congr
      intro mailbox
      cases mailbox with
      | torn => rfl
      | hard_stale => rfl
      | soft_stale => rfl
      | fresh =>
        rw [← actuate_calm, calm_bind]
        apply calm_congr
        intro sent
        cases sent <;> simp

/-- The native controller's part: it was started and exited with status zero, as any other status is
raised. -/
theorem run_controller_calm (env : Env) :
    (Calm (run_controller env) fun _ => True) ↔
      Calm env.popen fun _ => Calm env.returncode fun status => status = 0 := by
  unfold run_controller
  rw [calm_bind]
  apply calm_congr
  intro _
  rw [calm_bind]
  apply calm_congr
  intro status
  split <;> simp_all

end Calm

/-- A program that leaves the arm as it was and raises nothing the loop does not catch. -/
def Settles {α : Type} (x : Effect Exc Arm α) (a : Arm) (k : α → Prop) : Prop :=
  Ensures x a fun r a' => Calm r k ∧ a' = a

section Settles

variable {α β : Type} {a : Arm} {r : Except Exc α} {k : α → Prop}

/-- A value settles if what is asked of it holds: nothing is called, so the arm is as it was. -/
@[simp] theorem settles_pure {x : α} : Settles (pure x) a k ↔ k x := by
  simp [Settles, Calm]

/-- A raised exception settles if it is the one that the loop catches. -/
@[simp] theorem settles_throw {e : Exc} : Settles (throw e) a k ↔ e = .timeout_error := by
  simp [Settles, Calm]

/-- A last call. -/
theorem settles_of_returns {x : Effect Exc Arm α} (hx : Returns x a r) :
    Settles x a k ↔ Calm r k := by
  unfold Settles
  rw [hx.ensures_iff]
  simp

/-- A call and what follows it. -/
theorem settles_bind {x : Effect Exc Arm α} {f : α → Effect Exc Arm β} {k : β → Prop}
    (hx : Returns x a r) : Settles (x >>= f) a k ↔ Calm r fun y => Settles (f y) a k := by
  unfold Settles
  rw [ensures_bind, hx.ensures_iff]
  cases r with
  | ok y => rfl
  | error e => simp [Calm]

/-- On a connected arm a call through the source gives what the robot gives. -/
theorem returns_on_source (ha : a.source = .connected) : Returns (on_source r) a r := by
  unfold Returns on_source
  show (if a.source = .connected then r else _, a) = (r, a)
  rw [if_pos ha]

/-- A conditional call gives its result or, where it is not made, the value it stands for. -/
theorem returns_call_if {c : Bool} {x : α} :
    Returns (call_if c r x) a (if c then r else .ok x) := by
  unfold call_if
  cases c with
  | true => exact returns_call
  | false => exact returns_pure

/-- Entering control on a connected arm, where the configuration asks for it. -/
theorem returns_enter_control_if (ha : a.source = .connected) {c : Bool} {env : Env} :
    Returns (enter_control_if c env) a (if c then env.enter_control else .ok ()) := by
  unfold enter_control_if
  cases c with
  | true => exact returns_on_source ha
  | false => exact returns_pure

end Settles

section Branches

variable {cfg : ArmCfg} {ctrl : ControlCfg} {env : Env} {a : Arm}

/-- The hand-off leaves a connected arm exactly if the source could be reopened. -/
theorem hand_over_settles (ha : a.source = .connected) :
    Settles (hand_over env) a (fun _ => True) ↔
      env.reopen = .ok () ∧
        Calm env.popen fun _ => Calm env.returncode fun status => status = 0 := by
  have hback : ({ a with source := .connected } : Arm) = a := by
    rw [← ha]
  have hlost : ({ a with source := .unconnected } : Arm) ≠ a := by
    intro h
    rw [← h] at ha
    cases ha
  rw [← run_controller_calm]
  unfold Settles Ensures hand_over
  cases hr : env.reopen with
  | ok u =>
    show Calm (run_controller env) _ ∧ ({ a with source := .connected } : Arm) = a ↔ _
    simp [hback]
  | error e =>
    show Calm _ _ ∧ ({ a with source := .unconnected } : Arm) = a ↔ _
    simp [hlost]

/-- The wait for the first setpoint and what follows it: the wait alone where it ends without one,
and both where one came. -/
theorem first_setpoint_settles {x : Effect Exc Arm Unit} {k : Prop}
    (hx : Settles x a (fun _ => True) ↔ k) :
    (Settles (call (await_first_setpoint env) >>= fun first => if first then x else pure ()) a
      fun _ => True) ↔ FirstAbsorbed env k := by
  unfold FirstAbsorbed
  rw [settles_bind returns_call, ← until_stopped_calm first_poll_calm]
  apply calm_congr
  intro first
  cases first with
  | true => simp [hx]
  | false => simp

/-- The native branch settles exactly when the controller exits cleanly and the source can be
reopened, once a setpoint came. -/
theorem native_branch_settles (ha : a.source = .connected) :
    Settles (native_branch env) a (fun _ => True) ↔ FirstAbsorbed env (NativeAbsorbed env) := by
  apply first_setpoint_settles
  unfold run_native_rt NativeAbsorbed
  simp [settles_bind returns_call, hand_over_settles ha]

/-- The Python loop settles exactly when every call that it reaches does or times out. -/
theorem bootstrap_and_loop_settles (ha : a.source = .connected) :
    Settles (bootstrap_and_loop cfg env) a (fun _ => True) ↔ LoopAbsorbed cfg env := by
  unfold bootstrap_and_loop LoopAbsorbed
  rw [settles_bind (returns_on_source ha)]
  apply calm_congr
  intro started
  cases started with
  | true =>
    simp only [if_true, forall_const]
    rw [settles_bind returns_call_if]
    apply calm_congr
    intro grip
    rw [settles_of_returns returns_call]
    exact until_stopped_calm merged_tick_calm grip env.ticks
  | false => simp

/-- The Python branch settles exactly under the condition on its calls, from the wait to the merged
loop. -/
theorem python_branch_settles (ha : a.source = .connected) :
    Settles (python_branch cfg ctrl env) a (fun _ => True) ↔ PythonAbsorbed cfg ctrl env := by
  unfold python_branch PythonAbsorbed
  rw [settles_bind (returns_enter_control_if ha)]
  apply calm_congr
  intro _
  apply first_setpoint_settles
  rw [settles_bind (returns_on_source ha)]
  apply calm_congr
  intro _
  cases h : refuses cfg ctrl env with
  | true => simp
  | false => simp [bootstrap_and_loop_settles ha]

/-- On a connected arm the body of the `try` settles exactly if the session is absorbed. -/
theorem session_body_settles (ha : a.source = .connected) (native_rt : Bool) :
    Settles (session_body cfg ctrl env native_rt) a (fun _ => True) ↔
      Absorbed cfg ctrl env native_rt := by
  unfold session_body Absorbed
  rw [settles_bind (returns_enter_control_if ha)]
  apply calm_congr
  intro _
  rw [settles_bind returns_call, ← until_stopped_calm channels_poll_calm]
  apply calm_congr
  intro found
  cases found with
  | false => simp
  | true =>
    simp only [if_true, forall_const, AttachedAbsorbed, settles_bind returns_call,
      settles_bind returns_call_if]
    cases native_rt with
    | true => simp [native_branch_settles ha]
    | false => simp [python_branch_settles ha]

end Branches

/-! ## One session -/

section Session

variable {cfg : ArmCfg} {ctrl : ControlCfg} {env : Env} {a : Arm}

/-- The arm is `start` with some source object. -/
def Hosted (start a : Arm) : Prop :=
  a.source ≠ .closed ∧ a.control_active = start.control_active ∧ a.stops = start.stops

/-- An arm that changed in its source alone, and has the old source, has not changed. -/
theorem Hosted.eq_start {start : Arm} (h : Hosted start a) (hsource : a.source = start.source) :
    a = start := by
  obtain ⟨-, hactive, hstops⟩ := h
  rw [Arm.mk.injEq a.control_active]
  exact ⟨hactive, hsource, hstops⟩

/-- A call on the robot changes nothing of the arm's own fields, whatever it gives. -/
theorem on_source_keeps {α : Type} (start : Arm) (r : Except Exc α) :
    Keeps (Hosted start) (on_source r) :=
  fun _ h => h

/-- The hand-off closes and reopens the source and touches nothing else of the arm. -/
theorem hand_over_keeps (start : Arm) : Keeps (Hosted start) (hand_over env) := by
  intro a h
  unfold Ensures hand_over
  -- whether `open_source` returns or raises, it has assigned `_source`
  cases env.reopen with
  | ok u =>
    refine ⟨?_, h.2⟩
    simp [exec, ExceptT.run, ExceptT.mk, StateT.run]
  | error e =>
    refine ⟨?_, h.2⟩
    simp [exec, ExceptT.run, ExceptT.mk, StateT.run]

/-- The native branch changes the source at most. -/
theorem native_branch_keeps (start : Arm) : Keeps (Hosted start) (native_branch env) := by
  apply keeps_bind keeps_call
  intro first
  apply keeps_ite _ keeps_pure
  exact keeps_bind keeps_call fun _ => keeps_bind keeps_call fun _ => hand_over_keeps start

/-- The Python branch does not even change the source: it neither closes nor reopens it, however it
ends. -/
theorem python_branch_keeps (start : Arm) : Keeps (Hosted start) (python_branch cfg ctrl env) := by
  have hloop : Keeps (Hosted start) (bootstrap_and_loop cfg env) := by
    apply keeps_bind (on_source_keeps start _)
    intro started
    apply keeps_ite _ keeps_pure
    exact keeps_bind (keeps_ite keeps_call keeps_pure) fun _ => keeps_call
  apply keeps_bind (keeps_ite (on_source_keeps start _) keeps_pure)
  intro _
  apply keeps_bind keeps_call
  intro first
  apply keeps_ite _ keeps_pure
  exact keeps_bind (on_source_keeps start _) fun _ => keeps_ite keeps_throw hloop

/-- A session never leaves the arm without a source object, and stops nothing itself. -/
theorem session_body_keeps (native_rt : Bool) (start : Arm) :
    Keeps (Hosted start) (session_body cfg ctrl env native_rt) := by
  apply keeps_bind (keeps_ite (on_source_keeps start _) keeps_pure)
  intro _
  apply keeps_bind keeps_call
  intro found
  apply keeps_ite _ keeps_pure
  apply keeps_bind keeps_call
  intro _
  apply keeps_bind keeps_call
  intro _
  apply keeps_bind (keeps_ite keeps_call keeps_pure)
  intro _
  exact keeps_ite (native_branch_keeps start) (python_branch_keeps start)

/-- The session is its body between two changes of the arm. -/
theorem ensures_control_session {Q : Except Exc Unit → Arm → Prop} :
    Ensures (control_session cfg ctrl env) a Q ↔
      Ensures (session_body cfg ctrl env (uses_native_rt cfg ctrl a.source))
        { a with control_active := true } fun r a' => Q r (session_finally a') := by
  show Ensures (update _ >>= fun _ => withFinally _ session_finally) a Q ↔ _
  rw [ensures_bind, ensures_update]
  exact ensures_withFinally

/-- Whatever a session does, it ends inactive and with one more stop attempted. -/
theorem control_session_always (ha : a.source = .connected) :
    Ensures (control_session cfg ctrl env) a fun _ a' =>
      a'.control_active = false ∧ a'.stops = a.stops + 1 := by
  have hbody := @session_body_keeps cfg ctrl env (uses_native_rt cfg ctrl a.source)
    { a with control_active := true } { a with control_active := true } ⟨(by simp [ha]), rfl, rfl⟩
  rw [ensures_control_session]
  unfold Ensures at hbody ⊢
  obtain ⟨hsource, -, hstops⟩ := hbody
  unfold session_finally
  refine ⟨rfl, ?_⟩
  show (if _ = Source.closed then _ else _) = _
  rw [if_neg hsource, hstops]

/-- A session ends with the source connected and nothing but a `TimeoutError` raised exactly
if it is absorbed. -/
theorem control_session_absorbed (ha : a.source = .connected) :
    (Ensures (control_session cfg ctrl env) a fun r a' =>
      Calm r (fun _ => True) ∧ a'.source = .connected) ↔
      Absorbed cfg ctrl env (uses_native_rt cfg ctrl .connected) := by
  have hbody := @session_body_keeps cfg ctrl env (uses_native_rt cfg ctrl a.source)
    { a with control_active := true } { a with control_active := true } ⟨(by simp [ha]), rfl, rfl⟩
  rw [ensures_control_session, ← ha,
    ← session_body_settles (a := { a with control_active := true }) ha]
  unfold Settles
  unfold Ensures at hbody ⊢
  constructor
  · intro h
    exact ⟨h.1, hbody.eq_start h.2⟩
  · intro h
    have hback := congrArg Arm.source h.2
    exact ⟨h.1, hback⟩

end Session

end DualFlexivControl.Flexiv
