/-
`_run_session_loop`: what a session-hosted arm survives.

The arm's process idles, publishing telemetry, until an `EnterControl` message makes it
run one control session; the loop around the session catches `TimeoutError` and nothing
else. So the arm survives a sequence of messages exactly if every session of it is
absorbed.
-/
import DualFlexivControl.Flexiv.ControlSession

set_option autoImplicit false

namespace DualFlexivControl.Flexiv

open Effect

/-! ## The loop -/

/-- What an iteration of the session loop finds in its queue. -/
inductive Event where
  | enter_control (ctrl : ControlCfg) (env : Env)
  | empty

/-- The arm's process. -/
inductive Node where
  | running (a : Arm)
  | died (e : Exc) (a : Arm)

/-- One iteration of `_run_session_loop`. -/
def loop_step (cfg : ArmCfg) : Node → Event → Node
  | .died e a, _ => .died e a
  | .running a, .enter_control ctrl env =>
    match exec (control_session cfg ctrl env) a with
    | (.ok (), a') => .running a'
    | (.error .timeout_error, a') => .running a'
    | (.error e, a') => .died e a'
  | .running a, .empty =>
    -- `_write_telemetry` reads the source
    match exec (on_source (.ok ())) a with
    | (.ok (), a') => .running a'
    | (.error e, a') => .died e a'

/-- `_run_session_loop`, until `stop_event`. -/
def run_session_loop (cfg : ArmCfg) (events : List Event) (a : Arm) : Node :=
  events.foldl (loop_step cfg) (.running a)

/-! ## Idle again -/

/-- Back in the telemetry loop: inactive, with a source to read, after `n` stops. -/
def Idle (n : ℕ) : Node → Prop
  | .running a => a.control_active = false ∧ a.source = .connected ∧ a.stops = n
  | .died _ _ => False

/-- The sessions among the events. -/
def sessions : List Event → ℕ
  | [] => 0
  | .enter_control _ _ :: events => sessions events + 1
  | .empty :: events => sessions events

/-- What an event asks of the arm. -/
def Event.Absorbed (cfg : ArmCfg) : Event → Prop
  | .enter_control ctrl env =>
    Flexiv.Absorbed cfg ctrl env (uses_native_rt cfg ctrl .connected)
  | .empty => True

section Loop

variable {cfg : ArmCfg} {a : Arm}

/-- One iteration, from an idle arm: it is idle again exactly if the event is absorbed. -/
theorem loop_step_idle (ha : a.control_active = false) (hsource : a.source = .connected)
    (event : Event) :
    Idle (a.stops + sessions [event]) (loop_step cfg (.running a) event) ↔
      event.Absorbed cfg := by
  cases event with
  | empty =>
    have htick : exec (on_source (.ok ())) a = (.ok (), a) := returns_on_source hsource
    simp [loop_step, htick, Idle, sessions, Event.Absorbed, ha, hsource]
  | enter_control ctrl env =>
    have halways := @control_session_always cfg ctrl env a hsource
    have habsorbed := @control_session_absorbed cfg ctrl env a hsource
    unfold Ensures at halways habsorbed
    show Idle (a.stops + 1) (match exec (control_session cfg ctrl env) a with
      | (.ok (), a') => .running a'
      | (.error .timeout_error, a') => .running a'
      | (.error e, a') => .died e a') ↔ Flexiv.Absorbed cfg ctrl env _
    rw [← habsorbed]
    clear habsorbed
    generalize exec (control_session cfg ctrl env) a = out at halways ⊢
    obtain ⟨r, a'⟩ := out
    obtain ⟨hactive, hstops⟩ := halways
    -- the handler catches `TimeoutError`; every other exception ends the process
    cases r with
    | ok u => simp_all [Idle, Calm]
    | error e => cases e <;> simp_all [Idle, Calm]

theorem sessions_cons (event : Event) (events : List Event) :
    sessions (event :: events) = sessions [event] + sessions events := by
  cases event with
  | enter_control ctrl env => simp [sessions, Nat.add_comm]
  | empty => simp [sessions]

/-- For every sequence of messages and outcomes: after each of them the arm is idle again,
inactive, connected and stopped once per session, exactly if all of them are absorbed. -/
theorem session_loop_survives (events : List Event) (ha : a.control_active = false)
    (hsource : a.source = .connected) :
    (∀ k, Idle (a.stops + sessions (events.take k))
        (run_session_loop cfg (events.take k) a)) ↔
      ∀ event ∈ events, event.Absorbed cfg := by
  induction events generalizing a with
  | nil => simp [run_session_loop, Idle, sessions, ha, hsource]
  | cons event events ih =>
    have hstep := @loop_step_idle cfg a ha hsource event
    have hrun : ∀ k, run_session_loop cfg ((event :: events).take (k + 1)) a =
        (events.take k).foldl (loop_step cfg) (loop_step cfg (.running a) event) := fun k => rfl
    -- once the first iteration is idle again, the rest is a run from its arm
    have hrest : event.Absorbed cfg →
        ((∀ k, Idle (a.stops + sessions ((event :: events).take (k + 1)))
          (run_session_loop cfg ((event :: events).take (k + 1)) a)) ↔
          ∀ event ∈ events, event.Absorbed cfg) := by
      intro hevent
      have hidle := hstep.2 hevent
      cases hnode : loop_step cfg (.running a) event with
      | died e a' =>
        rw [hnode] at hidle
        exact hidle.elim
      | running a' =>
        rw [hnode] at hidle
        obtain ⟨hactive, hconnected, hstops⟩ := hidle
        rw [← ih hactive hconnected]
        have hcount : ∀ k, a.stops + sessions ((event :: events).take (k + 1)) =
            a'.stops + sessions (events.take k) := by
          intro k
          rw [List.take_succ_cons, sessions_cons, hstops, Nat.add_assoc]
        simp only [hcount, hrun, hnode]
        exact Iff.rfl
    simp only [List.forall_mem_cons]
    constructor
    · intro h
      have hevent : event.Absorbed cfg := hstep.1 (h 1)
      exact ⟨hevent, (hrest hevent).1 fun k => h (k + 1)⟩
    · rintro ⟨hevent, hevents⟩ k
      cases k with
      | zero => simp [run_session_loop, Idle, sessions, ha, hsource]
      | succ k => exact (hrest hevent).2 hevents k

end Loop

/-- A session in which every call returns: one setpoint is sent, then the brain posts
STOP. -/
def stopped_env : Env where
  enter_control := .ok ()
  channel_polls := [⟨.ok false, false, .ok ()⟩, ⟨.ok true, false, .ok ()⟩]
  attach_setpoint := .ok ()
  attach_command := .ok ()
  gripper_entry := false
  attach_gripper := .ok ()
  first_polls := [⟨.ok false, .ok true, false, .ok ()⟩]
  find_controller := .ok ()
  controller_args := .ok ()
  popen := .ok ()
  returncode := .ok 0
  reopen := .ok ()
  read := .ok ()
  preflight_far := false
  start_control := .ok true
  setup_gripper := .ok false
  ticks :=
    [⟨.ok (), .ok false, .ok false, .ok .fresh, .ok (), .ok (), .ok ()⟩,
      ⟨.ok (), .ok false, .ok true, .ok .fresh, .ok (), .ok (), .ok ()⟩]

/-- The brain dies before it publishes its channels. -/
def never_published_env : Env :=
  { stopped_env with channel_polls := [⟨.ok false, false, .ok ()⟩, ⟨.ok false, true, .ok ()⟩] }

/-- The safety gate halts the first command. -/
def halted_env : Env :=
  { stopped_env with
    ticks := [⟨.ok (), .ok false, .ok false, .ok .fresh, .error .safety_halt, .ok (), .ok ()⟩] }

/-- An arm that is driven from Python, with the preflight on. -/
def python_arm : ArmCfg where
  control_eager_enable := true
  control_safety_check := true
  gripper_enabled := false
  rt_streaming := false
  sim := false
  dummy := false

/-- The default joint position control. -/
def qpos_control : ControlCfg where
  kind := .qpos
  nrt_joint_position := true

/-- A session that is stopped, an idle iteration, one that never starts, one that halts. -/
def three_sessions : List Event :=
  [.enter_control qpos_control stopped_env, .empty,
    .enter_control qpos_control never_published_env, .enter_control qpos_control halted_env]

theorem session_loop_survives_three_sessions :
    (∀ event ∈ three_sessions, event.Absorbed python_arm) ∧
      Idle 3 (run_session_loop python_arm three_sessions ⟨false, .connected, 0⟩) := by
  have habsorbed : ∀ event ∈ three_sessions, event.Absorbed python_arm := by
    simp [three_sessions, Event.Absorbed, Absorbed, AttachedAbsorbed, PythonAbsorbed,
      FirstAbsorbed, LoopAbsorbed, LoopCalm, ChannelsPollCalm, FirstPollCalm, MergedTickCalm,
      ActuateCalm, stopped_env, never_published_env, halted_env, python_arm, qpos_control,
      uses_native_rt, refuses, grip_attached]
  have hidle := (@session_loop_survives python_arm ⟨false, .connected, 0⟩ three_sessions rfl
    rfl).2 habsorbed 4
  exact ⟨habsorbed, hidle⟩

/-- A first target beyond the tolerance is refused with a `RuntimeError`, which the session
loop does not catch: the arm's process ends. So it does after a native controller's exit
with another status than zero, and on a manifest whose segment is gone. -/
theorem refused_preflight_kills_the_node :
    run_session_loop python_arm
        [.enter_control qpos_control { stopped_env with preflight_far := true }]
        ⟨false, .connected, 0⟩ = .died .runtime_error ⟨false, .connected, 1⟩ ∧
      run_session_loop { python_arm with rt_streaming := true }
        [.enter_control qpos_control { stopped_env with returncode := .ok 1 }]
        ⟨false, .connected, 0⟩ = .died .runtime_error ⟨false, .connected, 1⟩ ∧
      run_session_loop python_arm
        [.enter_control qpos_control { stopped_env with attach_setpoint := .error .file_not_found }]
        ⟨false, .connected, 0⟩ = .died .file_not_found ⟨false, .connected, 1⟩ ∧
      ¬ ∀ (cfg : ArmCfg) (events : List Event) (k : ℕ),
        Idle (0 + sessions (events.take k))
          (run_session_loop cfg (events.take k) ⟨false, .connected, 0⟩) := by
  refine ⟨rfl, rfl, rfl, ?_⟩
  intro h
  exact h python_arm
    [.enter_control qpos_control { stopped_env with preflight_far := true }] 1

end DualFlexivControl.Flexiv
