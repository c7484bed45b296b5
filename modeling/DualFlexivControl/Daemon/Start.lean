/-
`_handle_start`: the gates of a start, and what a start that passes them does.

The daemon's state has two parts. The [`Lifecycle`] is what a run is: the active run, the
queued start, the fields of `session.json` that mirror them, the consumers spawned so far
and what was put on the arms' session queues. Around it are the supervised nodes, the two
lists of nodes that are down and the operator's messages, which gate runs but say nothing
about them.

A start meets some ten refusals. All of them only leave a message; a busy arm queues the
start instead; and past the last one nothing can go wrong any more, so the fan-out of
`EnterControl` and the consumer come together ([`StartOutcome`]). Two of the refusals ask
another machine, the policy server and the leaders, outside of the `try` block that catches
everything, and name the exceptions they expect. An unexpected one leaves `_handle_start`,
and with it the supervise loop ([`Escapes`]).
-/
import DualFlexivControl.Daemon.Command
import DualFlexivControl.Lib.Effects
import Mathlib.Data.List.Nodup
import Mathlib.Algebra.Order.Field.Rat

set_option autoImplicit false

namespace DualFlexivControl.Daemon

open Effect
open Session (Phase)

/-! ## The state -/

/-- The exceptions that are told apart. Malformed JSON is a `ValueError`. -/
inductive Exc where
  | os_error
  | http_exception
  | value_error
  | attribute_error
  | other
  deriving DecidableEq

/-- What is left of a run when its consumer has exited. -/
inductive OutcomeKind where
  | saved
  | stopped
  | finished
  | stopped_error
  | crashed
  deriving DecidableEq

/-- `last_outcome`, without its text. -/
structure Outcome where
  run_seq : ℕ
  phase : Phase
  task : Json
  outcome : OutcomeKind
  exitcode : ℤ

/-- `_ActiveRun`; its process is a number, its place among the consumers. The dropout
watchdog's two fields are kept beside it ([`Watchdog`]). -/
structure ActiveRun where
  phase : Phase
  task : Json
  proc : ℕ
  stop_event : Bool
  command_sides : List String
  stopping : Bool

/-- `watchdog_armed` and `active_sides` of the active run. -/
structure Watchdog where
  watchdog_armed : Bool
  active_sides : List String

/-- `_PendingStart`. `since` is a mark that no code reads: the moment the wind-down counts
from, which is when the start was queued if there was no run then, and otherwise the first
tick without a run that saw it. -/
structure PendingStart where
  cmd : Command
  deadline : Option ℚ
  since : Option ℚ

/-- `state.pending`. -/
structure PendingView where
  phase : Json
  task : Json
  skill : Json

/-- The `{phase, task, skill}` of a command. -/
def Command.view (cmd : Command) : PendingView := ⟨cmd.get "phase", cmd.get "task", cmd.get "skill"⟩

/-- The fields of `SessionState` that mirror the run. -/
structure SessionState where
  state : Mode
  task : Option Json
  phase : Option Phase
  run_seq : ℕ
  run_started_ts : Option ℚ
  last_outcome : Option Outcome
  pending : Option PendingView

/-- A consumer process: the command that started it, what it was started as, and its exit
code once it is dead. -/
structure Consumer where
  command : ℕ
  run_seq : ℕ
  phase : Phase
  task : Json
  exitcode : Option ℤ

/-- `EnterControl`, without the coefficients and the `ControlCfg`. -/
structure EnterControl where
  phase : Phase
  deriving DecidableEq

/-- The run and everything that mirrors it. `sent` is what was put on the session queues,
`outcomes` what was written to `last_outcome`, `given_up` the queued starts abandoned because
the arms would not go idle, and `received` the number of commands. -/
structure Lifecycle where
  run : Option ActiveRun
  pending : Option PendingStart
  state : SessionState
  consumers : List Consumer
  sent : List (String × EnterControl)
  outcomes : List Outcome
  given_up : List PendingStart
  received : ℕ

/-- `_ArmUnit`. -/
structure ArmUnit where
  name : String
  side : String
  alive : Bool
  spawned_at : ℚ
  announced_down : Bool
  reaped : Bool

/-- `_CameraUnit`. -/
structure CameraUnit where
  name : String
  alive : Bool
  spawned_at : ℚ
  announced_down : Bool
  stalled_since : Option ℚ

/-- Why a follower must not be commanded. -/
inductive Blocker where
  | unavailable
  | invalid
  | e_stop
  | unrecognized (code : ℤ)
  | status (name : String)
  deriving DecidableEq

/-- What the operator is told, with what the text is made of. -/
inductive Message where
  | bad_start (field : StartField)
  | run_active
  | start_queued (busy : List String)
  | cameras_starting (names : List String)
  | cameras_down (names : List String)
  | arms_starting (names : List String)
  | arms_down (names : List String)
  | start_failed (exc : Exc)
  | policy_unreachable
  | leaders_stale (sides : List String) (not_launched : Bool)
  | leaders_limp (sides : List String)
  | no_driveable_side
  | dry_run (blockers : List (String × Blocker))
  | switching (phase : Phase) (stopping : Bool)
  | abandoned (phase : Json)
  | cancelled
  | no_active_run
  | dropped_out (side : String)
  | arm_died (side : String)
  | unknown_arm
  | no_reconnect
  | winding_down (side : String)
  | reconnecting (side : String)
  | unknown_camera
  | no_respawn
  | respawning (name : String)
  | factr_unmanaged
  | factr_in_run
  | factr (detail : String)
  | teleops_died (names : List String)
  | grav_comp (enable : Bool) (ok failed : List String) (halted : Bool)
  | force_feedback (enable : Bool) (ok failed : List String)
  | sim_runtime
  | no_servers
  | unknown_command

/-- `SessionDaemon`. `messages` is everything `state.message` was set to. -/
structure SessionDaemon extends Lifecycle where
  watchdog : Watchdog
  arms : List ArmUnit
  cameras : List CameraUnit
  arms_down : List String
  cameras_down : List String
  messages : List (Option Message)
  /-- `_fatal`: told to shut down. -/
  fatal : Bool

/-- `__init__` and `start_hardware`: viewing, with the nodes just spawned. -/
def SessionDaemon.init (arms : List ArmUnit) (cameras : List CameraUnit) : SessionDaemon where
  run := none
  pending := none
  state := {
    state := .viewing
    task := none
    phase := none
    run_seq := 0
    run_started_ts := none
    last_outcome := none
    pending := none }
  consumers := []
  sent := []
  outcomes := []
  given_up := []
  received := 0
  watchdog := { watchdog_armed := false, active_sides := [] }
  arms := arms
  cameras := cameras
  arms_down := []
  cameras_down := []
  messages := []
  fatal := false

/-- What a daemon knows from its start on: the control-enabled arms, whether it has a FACTR
producer and manages the FACTR servers, the leaders' servers, and the two tables it goes by. -/
structure Config where
  session_qs : List String
  factr : Bool
  manages_servers : Bool
  sim : Bool
  servers : List String
  isalnum : Alphabet
  /-- The names of `flexivrdk.OperationalStatus`; a number without one raises. -/
  operational_status : ℤ → Option String

/-- `sorted(names)`. -/
def sorted (names : List String) : List String := names.mergeSort fun a b => a ≤ b

/-- The daemon's programs. -/
abbrev Handler := Effect Exc SessionDaemon Unit

/-- `state.message = m`. -/
def say (m : Option Message) : Handler :=
  update fun d => { d with messages := d.messages ++ [m] }

/-- Change the lifecycle only. -/
def SessionDaemon.onLifecycle (f : Lifecycle → Lifecycle) (d : SessionDaemon) : SessionDaemon :=
  { d with toLifecycle := f d.toLifecycle }

/-! ## The arms' status -/

/-- The newest `<side>/status` vector, if it can be read. -/
abbrev Status := Option (List Ieee)

/-- `vec[2] >= 0.5`, of a vector that has a third component. -/
def control_active (status : Status) : Bool :=
  match status with
  | some (_ :: _ :: x :: _) => Ieee.le (.fin (1 / 2)) x
  | _ => false

/-- `_arms_still_in_control`. -/
def Config.arms_still_in_control (cfg : Config) (status : String → Status) : List String :=
  cfg.session_qs.filter fun side => control_active (status side)

/-- `follower_control_blocker`. -/
def Config.follower_control_blocker (cfg : Config) : Status → Option Blocker
  | some (x :: e_stop :: _) =>
    match x, e_stop with
    | .fin code, .fin pressed =>
      if 1 / 2 ≤ pressed then some .e_stop
      else
        -- `int` truncates towards zero
        match cfg.operational_status (code.num.tdiv code.den) with
        | none => some (.unrecognized (code.num.tdiv code.den))
        | some name =>
          if name = "READY" ∨ name = "NOT_ENABLED" then none else some (.status name)
    | _, _ => some .invalid
  | _ => some .unavailable

/-! ## What a start sees -/

/-- An arm of a composed config. -/
structure ArmCfg where
  side : String
  control_enabled : Bool
  /-- `control.kind == "qpos"`. -/
  qpos : Bool

/-- A composed config, as far as a start reads it. `arms` is a dictionary. -/
structure RunConfig where
  /-- `runtime.phase`. -/
  phase : Phase
  arms : List ArmCfg
  /-- `policy.kind == "remote"`. -/
  remote : Bool
  nodup : (arms.map ArmCfg.side).Nodup

/-- What the overrides of a start are made of. -/
structure Request where
  task : Json
  phase : Phase
  policy : Json
  host : Json
  port : Json
  skill : Json

/-- The request of a start command. Its skill is read by a skill run only. -/
def Command.request (cmd : Command) (phase : Phase) : Request where
  task := cmd.task phase
  phase := phase
  policy := cmd.get "policy"
  host := cmd.get "host"
  port := cmd.get "port"
  skill := if phase = .skill then cmd.get "skill" else .null

/-- `compose_config`, at one moment. `run_overrides` pins the phase: it drops the session's
own override of that key and appends the run's. -/
structure Composer where
  compose : Request → Except Exc RunConfig
  pinned : ∀ req config, compose req = .ok config → config.phase = req.phase

/-- What a leader's status endpoint answers: an exception on the way, or a status and a
body, `none` when that is not JSON. -/
inductive Reply where
  | raised (exc : Exc)
  | answered (status : ℕ) (body : Option Json)

/-- Everything one `_handle_start` sees of the world. -/
structure StartBeat where
  /-- `time.monotonic()` and `time.time()`. -/
  now : ℚ
  time : ℚ
  /-- The arms' status as the busy gate reads it, and once more for the followers. -/
  status : String → Status
  follower_status : String → Status
  composer : Composer
  /-- `load_skill`: the sides the skill was taught on. -/
  load_skill : Except Exc (List String)
  /-- How building the collection or eval node goes. -/
  build_node : Except Exc Unit
  /-- How `socket.create_connection` to the policy server goes. -/
  probe : Except Exc Unit
  /-- The newest sample of a side's leader stream is younger than `factr.max_age_s`. -/
  fresh : String → Bool
  /-- The answer to `GET /status_<side>`. -/
  reply : String → Reply
  /-- `factr_servers.state == "off"`. -/
  servers_off : Bool

/-! ## The config and the consumer -/

/-- A consumer node: `drive_sides` of a skill, and nothing of the sort otherwise. -/
inductive ConsumerNode where
  | collection
  | eval
  | skill (drive_sides : List String)

/-- `getattr(consumer, "drive_sides", None)`. -/
def ConsumerNode.drive_sides : ConsumerNode → Option (List String)
  | .skill sides => some sides
  | _ => none

/-- The sides of the arms that may be commanded. -/
def RunConfig.enabled (config : RunConfig) : List String :=
  (config.arms.filter ArmCfg.control_enabled).map ArmCfg.side

/-- `arm.control_enabled = False`, for every arm. -/
def RunConfig.inhibit (config : RunConfig) : RunConfig where
  phase := config.phase
  arms := config.arms.map fun arm => { arm with control_enabled := false }
  remote := config.remote
  nodup := by simpa [Function.comp_def] using config.nodup

/-- `build_consumer`. A skill drives its taught sides that have an enabled `qpos` arm. -/
def build_consumer (b : StartBeat) (config : RunConfig) : Except Exc ConsumerNode :=
  match config.phase with
  | .skill => do
    let sides ← b.load_skill
    return .skill (sides.filter fun side =>
      config.arms.any fun arm => arm.side == side && arm.control_enabled && arm.qpos)
  | .collection => do
    b.build_node
    return .collection
  | .eval => do
    b.build_node
    return .eval

/-- The followers of an eval that must not be commanded. -/
def Config.blockers (cfg : Config) (b : StartBeat) (config : RunConfig) :
    List (String × Blocker) :=
  config.enabled.filterMap fun side =>
    (cfg.follower_control_blocker (b.follower_status side)).map fun reason => (side, reason)

/-- One unsafe follower makes the whole rollout observation-only. -/
def Config.follower_gate (cfg : Config) (b : StartBeat) (phase : Phase) (config : RunConfig) :
    RunConfig × List (String × Blocker) :=
  if phase = .eval ∧ cfg.blockers b config ≠ [] then (config.inhibit, cfg.blockers b config)
  else (config, [])

/-- The `try` block: the config of the run, the blockers found, and its consumer. -/
def Config.prepare (cfg : Config) (b : StartBeat) (cmd : Command) (phase : Phase) :
    Except Exc (RunConfig × List (String × Blocker) × ConsumerNode) := do
  let composed ← b.composer.compose (cmd.request phase)
  let (config, blockers) := cfg.follower_gate b phase composed
  let consumer ← build_consumer b config
  return (config, blockers, consumer)

/-! ## The refusals that ask another machine -/

/-- `preflight_run`: only an `OSError` is a refusal. -/
def preflight_run (b : StartBeat) (config : RunConfig) (phase : Phase) :
    Except Exc (Option Message) :=
  if phase = .eval ∧ config.remote = true then
    match b.probe with
    | .ok () => .ok none
    | .error .os_error => .ok (some .policy_unreachable)
    | .error e => .error e
  else .ok none

/-- `_factr_stale_sides`. -/
def Config.factr_stale_sides (cfg : Config) (b : StartBeat) : List String :=
  if cfg.factr then cfg.servers.filter fun side => !b.fresh side else []

/-- `bool(json.loads(body).get("grav_comp_enabled"))`, of a reply with status 200. -/
def grav_comp_enabled : Reply → Except Exc Bool
  | .raised e => .error e
  | .answered status body =>
    if status ≠ 200 then .error .http_exception
    else
      match body with
      | none => .error .value_error
      | some (.obj fields) => .ok (get_field fields "grav_comp_enabled").truthy
      -- no JSON value but an object has a `get`
      | some _ => .error .attribute_error

/-- `except (OSError, HTTPException, ValueError)`. -/
def Exc.expected : Exc → Bool
  | .os_error | .http_exception | .value_error => true
  | _ => false

/-- Is this leader to be reported as not energized? -/
def leader_disabled (reply : Reply) : Except Exc Bool :=
  match grav_comp_enabled reply with
  | .ok enabled => .ok !enabled
  | .error e => if e.expected then .ok true else .error e

/-- The loop of `_factr_grav_comp_disabled_sides`. -/
def disabled_sides (reply : String → Reply) : List String → Except Exc (List String)
  | [] => .ok []
  | side :: rest => do
    let disabled ← leader_disabled (reply side)
    let others ← disabled_sides reply rest
    return if disabled then side :: others else others

/-- `_factr_grav_comp_disabled_sides`. -/
def Config.factr_grav_comp_disabled_sides (cfg : Config) (b : StartBeat) :
    Except Exc (List String) :=
  if cfg.sim then .ok [] else disabled_sides b.reply cfg.servers

/-- The refusals after the `try` block: the policy server, then the leaders' streams, then
the leaders themselves. -/
def Config.start_refusal (cfg : Config) (b : StartBeat) (config : RunConfig) (phase : Phase) :
    Except Exc (Option Message) := do
  match ← preflight_run b config phase with
  | some m => return some m
  | none =>
    if phase = .collection then
      let stale := cfg.factr_stale_sides b
      if stale ≠ [] then
        return some (.leaders_stale stale (cfg.manages_servers && b.servers_off))
      else
        let limp ← cfg.factr_grav_comp_disabled_sides b
        if limp ≠ [] then return some (.leaders_limp limp) else return none
    else return none

/-! ## The start -/

section Lifecycle

/-- `_set_pending`. -/
def Lifecycle.set_pending (cmd : Command) (deadline : Option ℚ) (now : ℚ) (c : Lifecycle) :
    Lifecycle :=
  { c with
    pending := some ⟨cmd, deadline, if c.run.isNone then some now else none⟩
    state := { c.state with pending := some cmd.view } }

/-- `_clear_pending`. -/
def Lifecycle.clear_pending (c : Lifecycle) : Lifecycle :=
  { c with pending := none, state := { c.state with pending := none } }

/-- Past the gates: the fan-out, the consumer, and the fields that show them. -/
def Lifecycle.launch (cmd : Command) (phase : Phase) (command_sides : List String) (time : ℚ)
    (c : Lifecycle) : Lifecycle :=
  { c with
    run := some {
      phase := phase
      task := cmd.label phase
      proc := c.consumers.length
      stop_event := false
      command_sides := command_sides
      stopping := false }
    pending := none
    state := {
      state := mode phase
      task := some (cmd.label phase)
      phase := some phase
      run_seq := c.state.run_seq + 1
      run_started_ts := some time
      last_outcome := c.state.last_outcome
      pending := none }
    consumers := c.consumers ++ [{
      command := cmd.id
      run_seq := c.state.run_seq + 1
      phase := phase
      task := cmd.label phase
      exitcode := none }]
    sent := c.sent ++ command_sides.map fun side => (side, { phase := phase }) }

end Lifecycle

/-- `_PENDING_WINDDOWN_S`. -/
def PENDING_WINDDOWN_S : ℚ := 20

/-- The control-enabled sides of the run that the session has a queue for. -/
def Config.command_sides (cfg : Config) (config : RunConfig) : List String :=
  config.enabled.filter (· ∈ cfg.session_qs)

/-- The fan-out: narrowed to `drive_sides`, for a consumer that declares them. -/
def Config.fan_out (cfg : Config) (config : RunConfig) (consumer : ConsumerNode) : List String :=
  match consumer.drive_sides with
  | none => cfg.command_sides config
  | some drive_sides => (cfg.command_sides config).filter (· ∈ drive_sides)

/-- `_down_sides`. -/
def SessionDaemon.down_sides (d : SessionDaemon) : List String :=
  (d.arms.filter fun unit => unit.name ∈ d.arms_down).map ArmUnit.side

/-- "Still starting" reads differently from "down". -/
def SessionDaemon.cameras_message (d : SessionDaemon) : Message :=
  if (d.cameras.filter fun unit => unit.name ∈ d.cameras_down).all fun unit =>
      !unit.announced_down then .cameras_starting d.cameras_down
  else .cameras_down d.cameras_down

/-- The same for the arms. -/
def SessionDaemon.arms_message (d : SessionDaemon) : Message :=
  if (d.arms.filter fun unit => unit.name ∈ d.arms_down).all fun unit =>
      !unit.announced_down then .arms_starting d.arms_down
  else .arms_down d.arms_down

/-- The dry-run note of a start, if some follower is blocked. -/
def dry_run_note (blockers : List (String × Blocker)) : Option Message :=
  if blockers = [] then none else some (.dry_run blockers)

/-- A start whose consumer could be built: the refusals that are left, then the launch. -/
def Config.proceed (cfg : Config) (cmd : Command) (b : StartBeat) (phase : Phase)
    (config : RunConfig) (blockers : List (String × Blocker)) (consumer : ConsumerNode) :
    Handler := do
  match ← call (cfg.start_refusal b config phase) with
  | some m => say (some m)
  | none =>
    let d ← get
    let sides := cfg.fan_out config consumer
    if consumer.drive_sides.isSome ∧ sides = [] then say (some .no_driveable_side)
    else if sides.any (· ∈ d.down_sides) then
      say (some (.arms_down (sorted (sides.filter (· ∈ d.down_sides)))))
    else
      update fun d =>
        { d.onLifecycle (Lifecycle.launch cmd phase sides b.time) with
          watchdog := { watchdog_armed := false, active_sides := [] } }
      say (dry_run_note blockers)

/-- `_handle_start`. -/
def Config.handle_start (cfg : Config) (cmd : Command) (b : StartBeat) : Handler :=
  match validate_start cfg.isalnum cmd with
  | .error field => say (some (.bad_start field))
  | .ok phase => do
    let d ← get
    if d.run.isSome then say (some .run_active)
    else
      let busy := cfg.arms_still_in_control b.status
      if busy ≠ [] then
        update (·.onLifecycle (Lifecycle.set_pending cmd (some (b.now + PENDING_WINDDOWN_S)) b.now))
        say (some (.start_queued (sorted busy)))
      else if d.cameras_down ≠ [] ∧ phase ≠ .skill then say (some d.cameras_message)
      else if d.arms_down ≠ [] ∧ phase ≠ .skill then say (some d.arms_message)
      else
        match cfg.prepare b cmd phase with
        | .error e => say (some (.start_failed e))
        | .ok (config, blockers, consumer) => cfg.proceed cmd b phase config blockers consumer

/-! ## What can become of a start -/

section Outcome

variable {cfg : Config} {cmd : Command} {b : StartBeat} {d : SessionDaemon} {phase : Phase}
  {config : RunConfig} {blockers : List (String × Blocker)} {consumer : ConsumerNode}

/-- A start that gets as far as its `try` block, and through it. -/
structure Prepared (cfg : Config) (cmd : Command) (b : StartBeat) (d : SessionDaemon)
    (phase : Phase) (config : RunConfig) (blockers : List (String × Blocker))
    (consumer : ConsumerNode) : Prop where
  valid : validate_start cfg.isalnum cmd = .ok phase
  no_run : d.run = none
  idle : cfg.arms_still_in_control b.status = []
  cameras_up : phase = .skill ∨ d.cameras_down = []
  arms_up : phase = .skill ∨ d.arms_down = []
  prepared : cfg.prepare b cmd phase = .ok (config, blockers, consumer)

/-- A start that passes every gate. -/
structure Passes (cfg : Config) (cmd : Command) (b : StartBeat) (d : SessionDaemon)
    (phase : Phase) (config : RunConfig) (blockers : List (String × Blocker))
    (consumer : ConsumerNode) : Prop
    extends Prepared cfg cmd b d phase config blockers consumer where
  unrefused : cfg.start_refusal b config phase = .ok none
  driveable : consumer.drive_sides.isSome → cfg.fan_out config consumer ≠ []
  sides_up : ∀ side ∈ cfg.fan_out config consumer, side ∉ d.down_sides

/-- An exception leaves `_handle_start`: the probe or a leader's reply raised one that its
gate does not expect. -/
def Escapes (cfg : Config) (cmd : Command) (b : StartBeat) (d : SessionDaemon) (e : Exc) : Prop :=
  ∃ phase config blockers consumer, Prepared cfg cmd b d phase config blockers consumer ∧
    cfg.start_refusal b config phase = .error e

/-- A start that finds an arm still in control is queued. -/
structure Queues (cfg : Config) (cmd : Command) (b : StartBeat) (d : SessionDaemon) : Prop where
  valid : WellFormed cfg.isalnum cmd
  no_run : d.run = none
  busy : cfg.arms_still_in_control b.status ≠ []

/-- What can become of a start. A refusal leaves the lifecycle as it was. -/
inductive StartOutcome (cfg : Config) (cmd : Command) (b : StartBeat) (d : SessionDaemon) :
    Except Exc Unit → Lifecycle → Prop
  | refused : (∀ e, ¬ Escapes cfg cmd b d e) → ¬ Queues cfg cmd b d →
      (∀ phase config blockers consumer, ¬ Passes cfg cmd b d phase config blockers consumer) →
      StartOutcome cfg cmd b d (.ok ()) d.toLifecycle
  | queued : Queues cfg cmd b d →
      StartOutcome cfg cmd b d (.ok ())
        (d.set_pending cmd (some (b.now + PENDING_WINDDOWN_S)) b.now)
  | launched (phase : Phase) (config : RunConfig) (blockers : List (String × Blocker))
      (consumer : ConsumerNode) : Passes cfg cmd b d phase config blockers consumer →
      StartOutcome cfg cmd b d (.ok ())
        (d.launch cmd phase (cfg.fan_out config consumer) b.time)
  | escaped (e : Exc) : Escapes cfg cmd b d e → StartOutcome cfg cmd b d (.error e) d.toLifecycle

theorem ensures_say {m : Option Message} {Q : Except Exc Unit → SessionDaemon → Prop} :
    Ensures (say m) d Q ↔ Q (.ok ()) { d with messages := d.messages ++ [m] } := Iff.rfl

/-- There is one way through the gates only: what a start has been prepared as is determined by what
it saw. -/
theorem Prepared.unique {phase' : Phase} {config' : RunConfig}
    {blockers' : List (String × Blocker)} {consumer' : ConsumerNode}
    (h : Prepared cfg cmd b d phase config blockers consumer)
    (h' : Prepared cfg cmd b d phase' config' blockers' consumer') :
    phase' = phase ∧ config' = config ∧ blockers' = blockers ∧ consumer' = consumer := by
  have hphase : phase' = phase := by
    have hsame := h.valid.symm.trans h'.valid
    simpa using hsame.symm
  subst hphase
  have hsame := h.prepared.symm.trans h'.prepared
  simp only [Except.ok.injEq, Prod.mk.injEq] at hsame
  obtain ⟨rfl, rfl, rfl⟩ := hsame
  exact ⟨rfl, rfl, rfl, rfl⟩

/-- The last gates and the launch: the start is refused, queued behind a busy arm, or has spawned
its consumer and put its messages. -/
theorem proceed_outcome (h : Prepared cfg cmd b d phase config blockers consumer) :
    Ensures (cfg.proceed cmd b phase config blockers consumer) d fun r d' =>
      StartOutcome cfg cmd b d r d'.toLifecycle := by
  have hescapes : ∀ e, Escapes cfg cmd b d e → cfg.start_refusal b config phase = .error e := by
    rintro e ⟨phase', config', blockers', consumer', h', hraise⟩
    obtain ⟨rfl, rfl, rfl, rfl⟩ := h.unique h'
    exact hraise
  have hpasses : ∀ phase' config' blockers' consumer',
      Passes cfg cmd b d phase' config' blockers' consumer' →
      Passes cfg cmd b d phase config blockers consumer := by
    intro phase' config' blockers' consumer' h'
    obtain ⟨rfl, rfl, rfl, rfl⟩ := h.unique h'.toPrepared
    exact h'
  have hidle : ¬ Queues cfg cmd b d := fun hqueues => hqueues.busy h.idle
  unfold Config.proceed
  rw [ensures_bind, returns_call.ensures_iff]
  cases hrefusal : cfg.start_refusal b config phase with
  | error e => exact .escaped e ⟨phase, config, blockers, consumer, h, hrefusal⟩
  | ok refusal =>
    have hcontained : ∀ e, ¬ Escapes cfg cmd b d e := by
      intro e he
      have hraise := hescapes e he
      rw [hrefusal] at hraise
      exact absurd hraise (by simp)
    cases refusal with
    | some m =>
      -- A gate of another machine's has answered, with a refusal.
      refine .refused hcontained hidle fun _ _ _ _ hpass => ?_
      have hnone := (hpasses _ _ _ _ hpass).unrefused
      rw [hrefusal] at hnone
      exact absurd hnone (by simp)
    | none =>
      show Ensures (get >>= _) d _
      rw [ensures_get_bind]
      by_cases hdrive : consumer.drive_sides.isSome ∧ cfg.fan_out config consumer = []
      · rw [if_pos hdrive]
        refine .refused hcontained hidle fun _ _ _ _ hpass => ?_
        exact (hpasses _ _ _ _ hpass).driveable hdrive.1 hdrive.2
      · rw [if_neg hdrive]
        by_cases hdown : (cfg.fan_out config consumer).any (· ∈ d.down_sides)
        · rw [if_pos hdown]
          refine .refused hcontained hidle fun _ _ _ _ hpass => ?_
          obtain ⟨side, hside, hmem⟩ := List.any_eq_true.1 hdown
          exact (hpasses _ _ _ _ hpass).sides_up side hside (by simpa using hmem)
        · rw [if_neg hdown, ensures_bind]
          refine .launched phase config blockers consumer { h with
            unrefused := hrefusal
            driveable := fun hsome hnil => hdrive ⟨hsome, hnil⟩
            sides_up := fun side hside hmem => hdown ?_ }
          exact List.any_eq_true.2 ⟨side, hside, by simpa using hmem⟩

/-- A gate that is closed refuses, since both ways on lie behind it. -/
theorem StartOutcome.of_closed {cfg : Config} {cmd : Command} {b : StartBeat}
    {d : SessionDaemon} (hidle : ¬ Queues cfg cmd b d) (hgate : ∀ phase config blockers consumer,
      ¬ Prepared cfg cmd b d phase config blockers consumer) :
    StartOutcome cfg cmd b d (.ok ()) d.toLifecycle := by
  refine .refused ?_ hidle fun phase config blockers consumer hpass =>
    hgate phase config blockers consumer hpass.toPrepared
  rintro e ⟨phase, config, blockers, consumer, h, -⟩
  exact hgate phase config blockers consumer h

/-- `_handle_start`, whatever it is called with and whatever it sees, has one of the outcomes of a
start, an exception on the way included. -/
theorem handle_start_outcome (cfg : Config) (cmd : Command) (b : StartBeat) (d : SessionDaemon) :
    Ensures (cfg.handle_start cmd b) d fun r d' => StartOutcome cfg cmd b d r d'.toLifecycle := by
  unfold Config.handle_start
  split
  · next field hfield =>
    have hinvalid : ∀ phase, validate_start cfg.isalnum cmd ≠ .ok phase := by
      intro phase
      rw [hfield]
      simp
    refine .of_closed (fun hqueues => ?_) fun phase config blockers consumer h => ?_
    · obtain ⟨phase, hphase⟩ := hqueues.valid
      exact hinvalid phase hphase
    · exact hinvalid phase h.valid
  · next phase hphase =>
    have hsame : ∀ {phase' config blockers consumer},
        Prepared cfg cmd b d phase' config blockers consumer → phase' = phase := by
      intro phase' config blockers consumer h
      -- Every gate below is passed with the phase the command names.
      have := h.valid
      rw [hphase] at this
      simpa using this.symm
    rw [ensures_get_bind]
    by_cases hrun : d.run.isSome
    · rw [if_pos hrun]
      have hsome : d.run ≠ none := Option.isSome_iff_ne_none.1 hrun
      exact .of_closed (fun hqueues => hsome hqueues.no_run) fun _ _ _ _ h => hsome h.no_run
    rw [if_neg hrun]
    have hnone : d.run = none := by simpa using hrun
    by_cases hbusy : cfg.arms_still_in_control b.status ≠ []
    -- The one gate that does not refuse for good: the start waits for the arms.
    · rw [if_pos hbusy, ensures_bind]
      exact .queued ⟨⟨phase, hphase⟩, hnone, hbusy⟩
    rw [if_neg hbusy]
    have hidle : ¬ Queues cfg cmd b d := fun hqueues => hbusy hqueues.busy
    by_cases hcameras : d.cameras_down ≠ [] ∧ phase ≠ .skill
    · rw [if_pos hcameras]
      refine .of_closed hidle fun _ _ _ _ h => ?_
      have hphase' := hsame h
      subst hphase'
      exact h.cameras_up.elim hcameras.2 hcameras.1
    rw [if_neg hcameras]
    by_cases harms : d.arms_down ≠ [] ∧ phase ≠ .skill
    · rw [if_pos harms]
      refine .of_closed hidle fun _ _ _ _ h => ?_
      have hphase' := hsame h
      subst hphase'
      exact h.arms_up.elim harms.2 harms.1
    rw [if_neg harms]
    split
    · next e he =>
      -- The `try` block has raised, whatever the exception: `except Exception` refuses.
      refine .of_closed hidle fun _ _ _ _ h => ?_
      have hphase' := hsame h
      subst hphase'
      have hprepared := h.prepared
      rw [he] at hprepared
      exact absurd hprepared (by simp)
    · next config blockers consumer hprepared =>
      exact proceed_outcome {
        valid := hphase
        no_run := hnone
        idle := by simpa using hbusy
        cameras_up := by
          by_contra hnot
          rw [not_or] at hnot
          exact hcameras ⟨hnot.2, hnot.1⟩
        arms_up := by
          by_contra hnot
          rw [not_or] at hnot
          exact harms ⟨hnot.2, hnot.1⟩
        prepared := hprepared }

end Outcome

/-! ## A session of one arm, for concrete runs -/

/-- A session of one control-enabled arm with its leader. -/
def left_session : Config where
  session_qs := ["left"]
  factr := true
  manages_servers := false
  sim := false
  servers := ["left"]
  isalnum := Char.isAlphanum
  operational_status := fun code => if code = 1 then some "READY" else none

/-- Its arm's node. -/
def left_arm : ArmUnit where
  name := "flexiv:left"
  side := "left"
  alive := true
  spawned_at := 0
  announced_down := false
  reaped := false

/-- What its config composes to. -/
def left_config (phase : Phase) : RunConfig where
  phase := phase
  arms := [{ side := "left", control_enabled := true, qpos := true }]
  remote := false
  nodup := by decide

/-- A start at which every gate but the leader's is open. -/
def left_beat (now : ℚ) (status : Status) (reply : Reply) : StartBeat where
  now := now
  time := now
  status := fun _ => status
  follower_status := fun _ => status
  composer := {
    compose := fun req => .ok (left_config req.phase)
    pinned := by
      rintro req config h
      cases h
      rfl }
  load_skill := .ok ["left"]
  build_node := .ok ()
  probe := .ok ()
  fresh := fun _ => true
  reply := fun _ => reply
  servers_off := false

/-- A command that asks for a collection run. -/
def collect (id : ℕ) (cmd : String) : Command :=
  ⟨id, [("cmd", .str cmd), ("phase", .str "collection"), ("task", .str "default")]⟩

end DualFlexivControl.Daemon
