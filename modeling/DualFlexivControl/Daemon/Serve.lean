/-
The rest of the supervise loop: the other commands, the tenders and what happens to the
daemon's processes.

`serve` drains its commands, reaps the consumer, tends the queued start, watches the arms
of the run and tends the nodes, over and over. Here every one of these is an event of its
own, in any order, so that whatever holds after every sequence of events holds along the
loop. An event sees the world through its arguments; what it reads more than once (the
clock, the arms' status) it is given once per read.

As far as the lifecycle goes an event can do very little. A command can start, queue or
stop ([`CommandOutcome`]), the tick can wait for, give up or fire the queued start
([`TendOutcome`]), and everything else either leaves the lifecycle alone or is a stop
([`Halts`]).
-/
import DualFlexivControl.Daemon.Start

set_option autoImplicit false

namespace DualFlexivControl.Daemon

open Effect
open Session (Phase)

/-! ## Stopping -/

/-- The run half of `_handle_stop`: a run that is being stopped is left alone. -/
def Lifecycle.stop_run (c : Lifecycle) : Lifecycle :=
  match c.run with
  | none => c
  | some run =>
    if run.stopping then c
    else
      { c with
        run := some { run with stopping := true, stop_event := true }
        state := { c.state with state := .saving } }

/-- `_handle_stop`: a queued start is cancelled as well. -/
def Lifecycle.handle_stop (c : Lifecycle) : Lifecycle :=
  if c.pending.isSome then c.clear_pending.stop_run else c.stop_run

/-- `_handle_stop`, and what it says when there is no run. -/
def handle_stop : Handler := do
  let d ← get
  update (·.onLifecycle Lifecycle.handle_stop)
  if d.run.isNone then
    say (some (if d.pending.isSome then .cancelled else .no_active_run))

/-! ## Switching and the queued start -/

/-- `_handle_switch`. The arms' status is read only when there is no run. -/
def Config.handle_switch (cfg : Config) (cmd : Command) (now : ℚ) (status : String → Status)
    (b : StartBeat) : Handler :=
  match validate_start cfg.isalnum cmd with
  | .error field => say (some (.bad_start field))
  | .ok phase => do
    let d ← get
    if d.run.isSome then
      -- the stop comes first: it cancels any older queued start
      handle_stop
      update (·.onLifecycle (Lifecycle.set_pending cmd none now))
      say (some (.switching phase true))
    else if cfg.arms_still_in_control status = [] then cfg.handle_start cmd b
    else
      update (·.onLifecycle (Lifecycle.set_pending cmd (some (now + PENDING_WINDDOWN_S)) now))
      say (some (.switching phase false))

/-- The deadline of a queued start, armed by the first tick that finds no run. -/
def PendingStart.deadline_at (p : PendingStart) (now : ℚ) : ℚ :=
  p.deadline.getD (now + PENDING_WINDDOWN_S)

/-- A tick without a run has seen the queued start. -/
def Lifecycle.see_pending (now : ℚ) (c : Lifecycle) : Lifecycle :=
  { c with
    pending := c.pending.map fun p =>
      { p with deadline := some (p.deadline_at now), since := some (p.since.getD now) } }

/-- The queued start is abandoned. -/
def Lifecycle.give_up (c : Lifecycle) : Lifecycle :=
  { c.clear_pending with given_up := c.given_up ++ c.pending.toList }

/-- `_tend_pending`. -/
def Config.tend_pending (cfg : Config) (now : ℚ) (status : String → Status) (b : StartBeat) :
    Handler := do
  let d ← get
  match d.pending with
  | none => pure ()
  | some p =>
    if d.run.isSome then pure ()
    else
      update (·.onLifecycle (Lifecycle.see_pending now))
      if cfg.arms_still_in_control status = [] then
        update (·.onLifecycle Lifecycle.clear_pending)
        cfg.handle_start p.cmd b
      else if now < p.deadline_at now then pure ()
      else
        update (·.onLifecycle Lifecycle.give_up)
        say (some (.abandoned (p.cmd.get "phase")))

/-! ## Reaping the consumer -/

/-- `classify_outcome`. -/
def classify_outcome (phase : Phase) (exitcode : ℤ) (stopping : Bool) : OutcomeKind :=
  if exitcode = 0 then
    if stopping then
      if phase = .collection then .saved else .stopped
    else .finished
  else if stopping then .stopped_error
  else .crashed

/-- The exit code of a consumer, once it is dead. -/
def Lifecycle.exitcode (c : Lifecycle) (proc : ℕ) : Option ℤ :=
  c.consumers[proc]?.bind Consumer.exitcode

/-- `_reap_consumer`. -/
def Lifecycle.reap_consumer (c : Lifecycle) : Lifecycle :=
  match c.run with
  | none => c
  | some run =>
    match c.exitcode run.proc with
    | none => c
    | some exitcode =>
      let outcome : Outcome := {
        run_seq := c.state.run_seq
        phase := run.phase
        task := run.task
        outcome := classify_outcome run.phase exitcode run.stopping
        exitcode := exitcode }
      { c with
        run := none
        state := { c.state with
          state := .viewing
          task := none
          phase := none
          run_started_ts := none
          last_outcome := some outcome }
        outcomes := c.outcomes ++ [outcome] }

/-- A consumer exits. One that has exited stays dead. -/
def Lifecycle.consumer_exit (proc : ℕ) (exitcode : ℤ) (c : Lifecycle) : Lifecycle :=
  { c with
    consumers := c.consumers.modify proc fun consumer =>
      { consumer with exitcode := some (consumer.exitcode.getD exitcode) } }

/-- What an exit does not change of the consumers: everything but the exit code of the one that
exited. -/
theorem map_consumer_exit {β : Type} {f : Consumer → β}
    (hf : ∀ (x : Consumer) code, f { x with exitcode := code } = f x) (c : Lifecycle) (proc : ℕ)
    (exitcode : ℤ) : (c.consumer_exit proc exitcode).consumers.map f = c.consumers.map f := by
  apply List.ext_getElem?
  intro i
  rw [List.getElem?_map, List.getElem?_map, Lifecycle.consumer_exit, List.getElem?_modify,
    Option.map_eq_map, Option.map_map]
  congr 1
  funext x
  by_cases hi : proc = i
  · simp [hi, hf]
  · simp [hi]

/-! ## The arms -/

/-- `_ARM_BOOT_GRACE_S`. -/
def ARM_BOOT_GRACE_S : ℚ := 45

/-- `_ARM_RESPAWN_S`. -/
def ARM_RESPAWN_S : ℚ := 20

/-- The loop of `_watch_arm_dropout`; the result says whether it stopped the run. -/
def watch_sides (status : String → Status) : List String → Effect Exc SessionDaemon Bool
  | [] => pure false
  | side :: rest => do
    let d ← get
    if control_active (status side) then
      update fun d => { d with
        watchdog := { d.watchdog with active_sides := d.watchdog.active_sides.insert side } }
      watch_sides status rest
    else if d.watchdog.watchdog_armed ∧ side ∈ d.watchdog.active_sides then
      say (some (.dropped_out side))
      handle_stop
      return true
    else watch_sides status rest

/-- `_watch_arm_dropout`: it arms once every commanded side has been seen in control. -/
def watch_arm_dropout (status : String → Status) : Handler := do
  let d ← get
  match d.run with
  | none => pure ()
  | some run =>
    if run.stopping ∨ run.command_sides = [] then pure ()
    else
      let stopped ← watch_sides status run.command_sides
      if stopped then pure ()
      else
        update fun d => { d with
          watchdog := { d.watchdog with
            watchdog_armed := d.watchdog.watchdog_armed ||
              run.command_sides.all (· ∈ d.watchdog.active_sides) } }

/-- The part of `_reap_dead_arm` that is about the run: the arm's streams and its queue are
not the daemon's state. -/
def reap_dead_arm (side : String) : Handler := do
  let d ← get
  match d.run with
  | none => pure ()
  | some run =>
    if run.stopping = false ∧ (side ∈ run.command_sides ∨ run.phase ≠ .skill) then
      say (some (.arm_died side))
      handle_stop
    else pure ()

/-- What one beat of `_tend_arms` reads: `_arm_fresh` of each node, and the clock when a node
is spawned. -/
structure NodeBeat where
  now : ℚ
  fresh : String → Bool
  spawned_at : String → ℚ

/-- `_tend_arms`, for one arm: the unit, and whether it is down. -/
def tend_arm (beat : NodeBeat) (unit : ArmUnit) : Effect Exc SessionDaemon (ArmUnit × Bool) :=
  if unit.alive then
    if beat.fresh unit.name then pure ({ unit with announced_down := false }, false)
    -- still connecting: it gates runs, without an alarm
    else if beat.now - unit.spawned_at < ARM_BOOT_GRACE_S then pure (unit, true)
    else pure ({ unit with announced_down := true }, true)
  else do
    (if unit.reaped then pure () else reap_dead_arm unit.side : Handler)
    let d ← get
    if d.run.isSome ∨ beat.now - unit.spawned_at < ARM_RESPAWN_S then
      return ({ unit with announced_down := unit.announced_down || !unit.reaped, reaped := true },
        true)
    else
      return ({ unit with
        announced_down := unit.announced_down || !unit.reaped
        alive := true
        spawned_at := beat.spawned_at unit.name
        reaped := false }, true)

/-- The names of the nodes a beat found down. -/
def down_names {Unit : Type} (name : Unit → String) (units : List (Unit × Bool)) : List String :=
  sorted ((units.filter Prod.snd).map fun unit => name unit.1)

/-- `_tend_arms`. -/
def tend_arms (beat : NodeBeat) : Handler := do
  let d ← get
  let units ← d.arms.mapM (tend_arm beat)
  update fun d => { d with
    arms := units.map Prod.fst
    arms_down := down_names ArmUnit.name units }

/-! ## The cameras -/

/-- `_CAMERA_BOOT_GRACE_S`. -/
def CAMERA_BOOT_GRACE_S : ℚ := 20

/-- `_CAMERA_RESPAWN_S`. -/
def CAMERA_RESPAWN_S : ℚ := 30

/-- A new camera node in the place of the old one. -/
def CameraUnit.respawn (unit : CameraUnit) (spawned_at : ℚ) : CameraUnit :=
  { unit with alive := true, spawned_at := spawned_at, stalled_since := none }

/-- `_tend_cameras`, for one camera; `fresh` is `_camera_producing`. A stalled node is killed
before it is spawned again. -/
def tend_camera (beat : NodeBeat) (unit : CameraUnit) : CameraUnit × Bool :=
  if unit.alive && beat.fresh unit.name then
    ({ unit with announced_down := false, stalled_since := none }, false)
  else if unit.alive && beat.now - unit.spawned_at < CAMERA_BOOT_GRACE_S then (unit, true)
  else if unit.alive then
    let stalled_since := unit.stalled_since.getD beat.now
    let unit := { unit with announced_down := true, stalled_since := some stalled_since }
    if beat.now - stalled_since < CAMERA_RESPAWN_S then (unit, true)
    else (unit.respawn (beat.spawned_at unit.name), true)
  else
    let unit := { unit with announced_down := true }
    if beat.now - unit.spawned_at < CAMERA_RESPAWN_S then (unit, true)
    else (unit.respawn (beat.spawned_at unit.name), true)

/-- `_tend_cameras`. -/
def tend_cameras (beat : NodeBeat) : Handler :=
  update fun d =>
    let units := d.cameras.map (tend_camera beat)
    { d with cameras := units.map Prod.fst, cameras_down := down_names CameraUnit.name units }

/-! ## The other commands -/

/-- What one command sees of the world: the clock and the arms' status as its handler reads
them, what a start sees, the clock when a node is spawned, what posting to a leader comes to,
and what the FACTR supervisor has to say. -/
structure CommandBeat where
  now : ℚ
  status : String → Status
  start : StartBeat
  spawned_at : ℚ
  post : String → Except Exc ℕ
  detail : String

/-- `_handle_reconnect_arm`. -/
def Config.handle_reconnect_arm (cfg : Config) (cmd : Command) (beat : CommandBeat) : Handler := do
  let d ← get
  match d.arms.find? fun unit => (cmd.get "side").isStr unit.side with
  | none => say (some .unknown_arm)
  | some unit =>
    if d.run.isSome ∨ d.pending.isSome then say (some .no_reconnect)
    else if unit.side ∈ cfg.arms_still_in_control beat.status then
      say (some (.winding_down unit.side))
    else
      update fun d => { d with
        arms := d.arms.map fun other =>
          if other.side = unit.side then
            { other with alive := true, spawned_at := beat.spawned_at, reaped := false }
          else other }
      say (some (.reconnecting unit.side))

/-- `_handle_respawn_camera`. -/
def handle_respawn_camera (cmd : Command) (beat : CommandBeat) : Handler := do
  let d ← get
  match d.cameras.find? fun unit => (cmd.get "name").isStr unit.name with
  | none => say (some .unknown_camera)
  | some unit =>
    if d.run.any (·.phase ≠ .skill) then say (some .no_respawn)
    else
      update fun d => { d with
        cameras := d.cameras.map fun other =>
          if other.name = unit.name then other.respawn beat.spawned_at else other }
      say (some (.respawning unit.name))

/-- `_handle_start_factr`: what the supervisor does with it is its own affair. -/
def Config.handle_start_factr (cfg : Config) (beat : CommandBeat) : Handler := do
  let d ← get
  if !cfg.manages_servers then say (some .factr_unmanaged)
  else if d.run.isSome ∨ d.pending.isSome then say (some .factr_in_run)
  else say (some (.factr beat.detail))

/-- `_handle_stop_factr`. -/
def Config.handle_stop_factr (cfg : Config) (beat : CommandBeat) : Handler := do
  let d ← get
  if !cfg.manages_servers then say (some .factr_unmanaged)
  else if d.run.any (·.phase = .collection) then say (some .factr_in_run)
  else say (some (.factr beat.detail))

/-- Posting to every leader: those that answered with status 200, and those that did not. An
exception other than `OSError` and `HTTPException` is let through. -/
def signal_leaders (post : String → Except Exc ℕ) :
    List String → Except Exc (List String × List String)
  | [] => .ok ([], [])
  | side :: rest => do
    let reached ← match post side with
      | .ok status => .ok (status == 200)
      | .error .os_error => .ok false
      | .error .http_exception => .ok false
      | .error e => .error e
    let (ok, failed) ← signal_leaders post rest
    return if reached then (side :: ok, failed) else (ok, side :: failed)

/-- `_handle_grav_comp`: a collection that is still running tracks the leaders, and stops when
they lose their support. -/
def Config.handle_grav_comp (cfg : Config) (enable : Bool) (beat : CommandBeat) : Handler :=
  if cfg.sim then say (some .sim_runtime)
  else if cfg.servers = [] then say (some .no_servers)
  else do
    let (ok, failed) ← call (signal_leaders beat.post cfg.servers)
    let d ← get
    if !enable && d.run.any (fun run => run.phase = .collection && !run.stopping) then
      handle_stop
      say (some (.grav_comp enable ok failed true))
    else say (some (.grav_comp enable ok failed false))

/-- `_handle_force_feedback`. -/
def Config.handle_force_feedback (cfg : Config) (enable : Bool) (beat : CommandBeat) : Handler :=
  if cfg.sim then say (some .sim_runtime)
  else if cfg.servers = [] then say (some .no_servers)
  else do
    let (ok, failed) ← call (signal_leaders beat.post cfg.servers)
    say (some (.force_feedback enable ok failed))

/-- `_tend_factr_servers`: the supervisor's beat may raise; `down` are the teleops it newly
reports down. -/
def tend_factr_servers (beat : Except Exc (List String)) : Handler := do
  let down ← call beat
  let d ← get
  if d.run.any (fun run => run.phase = .collection && !run.stopping) && !down.isEmpty then
    say (some (.teleops_died (sorted down)))
  else pure ()

/-- The commands `_drain_commands` knows. -/
inductive Kind where
  | shutdown
  | start
  | switch
  | stop
  | reconnect_arm
  | respawn_camera
  | start_factr
  | stop_factr
  | enable_grav_comp
  | disable_grav_comp
  | enable_force_feedback
  | disable_force_feedback
  | unknown
  deriving DecidableEq

/-- The names of the commands. -/
def kinds : List (String × Kind) :=
  [("shutdown", .shutdown), ("start", .start), ("switch", .switch), ("stop", .stop),
    ("reconnect_arm", .reconnect_arm), ("respawn_camera", .respawn_camera),
    ("start_factr", .start_factr), ("stop_factr", .stop_factr),
    ("enable_grav_comp", .enable_grav_comp), ("disable_grav_comp", .disable_grav_comp),
    ("enable_force_feedback", .enable_force_feedback),
    ("disable_force_feedback", .disable_force_feedback)]

/-- What a command asks for. -/
def Command.kind (cmd : Command) : Kind :=
  match cmd.get "cmd" with
  | .str name => (kinds.lookup name).getD .unknown
  | _ => .unknown

/-- One round of `_drain_commands`. -/
def Config.dispatch (cfg : Config) (cmd : Command) (beat : CommandBeat) : Handler :=
  match cmd.kind with
  | .shutdown => update fun d => { d with fatal := true }
  | .start => cfg.handle_start cmd beat.start
  | .switch => cfg.handle_switch cmd beat.now beat.status beat.start
  | .stop => handle_stop
  | .reconnect_arm => cfg.handle_reconnect_arm cmd beat
  | .respawn_camera => handle_respawn_camera cmd beat
  | .start_factr => cfg.handle_start_factr beat
  | .stop_factr => cfg.handle_stop_factr beat
  | .enable_grav_comp => cfg.handle_grav_comp true beat
  | .disable_grav_comp => cfg.handle_grav_comp false beat
  | .enable_force_feedback => cfg.handle_force_feedback true beat
  | .disable_force_feedback => cfg.handle_force_feedback false beat
  | .unknown => say (some .unknown_command)

/-! ## Events -/

/-- What happens to a daemon: a command, the loop's other work, and the deaths of its
processes. -/
inductive Event where
  | command (fields : List (String × Json)) (beat : CommandBeat)
  | reap_consumer
  | tend_pending (now : ℚ) (status : String → Status) (b : StartBeat)
  | watch_arm_dropout (status : String → Status)
  | tend_arms (beat : NodeBeat)
  | tend_cameras (beat : NodeBeat)
  | tend_factr_servers (beat : Except Exc (List String))
  | consumer_exit (proc : ℕ) (exitcode : ℤ)
  | arm_death (name : String)
  | camera_death (name : String)

/-- A command is numbered as it is taken from the queue. -/
def SessionDaemon.receive (d : SessionDaemon) : SessionDaemon :=
  d.onLifecycle fun c => { c with received := c.received + 1 }

/-- The command an event brings to a daemon. -/
def SessionDaemon.next (d : SessionDaemon) (fields : List (String × Json)) : Command :=
  ⟨d.received + 1, fields⟩

/-- How the daemon handles an event. -/
def Config.handle (cfg : Config) : Event → Handler
  | .command fields beat => do
    let d ← get
    update SessionDaemon.receive
    cfg.dispatch (d.next fields) beat
  | .reap_consumer => update (·.onLifecycle Lifecycle.reap_consumer)
  | .tend_pending now status b => cfg.tend_pending now status b
  | .watch_arm_dropout status => Daemon.watch_arm_dropout status
  | .tend_arms beat => Daemon.tend_arms beat
  | .tend_cameras beat => Daemon.tend_cameras beat
  | .tend_factr_servers beat => Daemon.tend_factr_servers beat
  | .consumer_exit proc exitcode => update (·.onLifecycle (Lifecycle.consumer_exit proc exitcode))
  | .arm_death name => update fun d => { d with
      arms := d.arms.map fun unit =>
        if unit.name = name then { unit with alive := false } else unit }
  | .camera_death name => update fun d => { d with
      cameras := d.cameras.map fun unit =>
        if unit.name = name then { unit with alive := false } else unit }

/-- The daemon is serving, handles the event, and comes back. -/
def Serves (cfg : Config) (d : SessionDaemon) (ev : Event) (d' : SessionDaemon) : Prop :=
  d.fatal = false ∧ exec (cfg.handle ev) d = (.ok (), d')

/-- One event after the other. -/
def Runs (cfg : Config) : SessionDaemon → SessionDaemon → Prop :=
  Relation.ReflTransGen fun d d' => ∃ ev, Serves cfg d ev d'

/-- The states of a session. -/
def Reachable (cfg : Config) (d : SessionDaemon) : Prop :=
  ∃ arms cameras, Runs cfg (.init arms cameras) d

/-! ## What an event can do to the lifecycle -/

/-- Nothing, or a stop. -/
def Halts (c c' : Lifecycle) : Prop := c' = c ∨ c' = c.handle_stop

/-- Stopping a run that is being stopped already changes nothing. -/
theorem stop_run_idem (c : Lifecycle) : c.stop_run.stop_run = c.stop_run := by
  cases hrun : c.run with
  | none => simp [Lifecycle.stop_run, hrun]
  | some run =>
    by_cases hstopping : run.stopping
    · simp [Lifecycle.stop_run, hrun, hstopping]
    · simp [Lifecycle.stop_run, hrun, hstopping]

/-- The run there is is being stopped, and nothing else of the lifecycle changes. -/
theorem stop_run_spec (c : Lifecycle) : ∃ run state,
    c.stop_run = { c with run := run, state := state } ∧ run.isSome = c.run.isSome ∧
      ∀ stopped, run = some stopped → stopped.stopping = true := by
  unfold Lifecycle.stop_run
  cases hrun : c.run with
  | none =>
    refine ⟨none, c.state, ?_, rfl, fun stopped hsome => absurd hsome (by simp)⟩
    simp only [← hrun]
  | some run =>
    by_cases hstopping : run.stopping
    · refine ⟨some run, c.state, ?_, rfl, fun stopped hsome => ?_⟩
      · simp only [hstopping, if_true, ← hrun]
      · rw [← Option.some.inj hsome, hstopping]
    · refine ⟨_, _, if_neg hstopping, rfl, fun stopped hsome => ?_⟩
      rw [← Option.some.inj hsome]

/-- Everything a stop can do: the run there is is being stopped, and the pending slot is empty. -/
theorem handle_stop_spec (c : Lifecycle) : ∃ run state,
    c.handle_stop = { c with run := run, state := state, pending := none } ∧
      run.isSome = c.run.isSome ∧ ∀ stopped, run = some stopped → stopped.stopping = true := by
  unfold Lifecycle.handle_stop
  by_cases hpending : c.pending.isSome
  · rw [if_pos hpending]
    obtain ⟨run, state, hstop, hrest⟩ := stop_run_spec c.clear_pending
    exact ⟨run, state, hstop, hrest⟩
  · rw [if_neg hpending]
    obtain ⟨run, state, hstop, hrest⟩ := stop_run_spec c
    have hnone : c.pending = none := by simpa using hpending
    exact ⟨run, state, by rw [hstop, ← hnone], hrest⟩

/-- The pending slot is empty after a stop. -/
theorem handle_stop_pending (c : Lifecycle) : c.handle_stop.pending = none := by
  obtain ⟨run, state, hstop, -⟩ := handle_stop_spec c
  rw [hstop]

/-- A second stop has nothing left to do. -/
theorem handle_stop_idem (c : Lifecycle) : c.handle_stop.handle_stop = c.handle_stop := by
  have hpending : ¬ c.handle_stop.pending.isSome := by simp [handle_stop_pending]
  rw [Lifecycle.handle_stop, if_neg hpending]
  unfold Lifecycle.handle_stop
  split
  · exact stop_run_idem _
  · exact stop_run_idem _

/-- Doing nothing is allowed. -/
theorem Halts.refl (c : Lifecycle) : Halts c c := .inl rfl

/-- Two stops in a row are one, as the second finds the run stopping and the slot empty. -/
theorem Halts.trans {c c' c'' : Lifecycle} (h : Halts c c') (h' : Halts c' c'') : Halts c c'' := by
  obtain rfl | rfl := h
  · exact h'
  · obtain rfl | rfl := h'
    · exact .inr rfl
    · exact .inr (handle_stop_idem c)

/-- A program that does nothing to the lifecycle, or stops. -/
def Quiet {α : Type} (x : Effect Exc SessionDaemon α) : Prop :=
  ∀ d, Ensures x d fun _ d' => Halts d.toLifecycle d'.toLifecycle

section Quiet

variable {α β : Type}

/-- Returning a value is nothing to the lifecycle. -/
theorem quiet_pure (a : α) : Quiet (pure a : Effect Exc SessionDaemon α) := fun _ => .refl _

/-- Saying something to the dashboard is nothing to the lifecycle. -/
theorem quiet_say (m : Option Message) : Quiet (say m) := fun _ => .refl _

/-- A call outside is nothing to it either, whatever it gives or raises. -/
theorem quiet_call (r : Except Exc α) : Quiet (call r : Effect Exc SessionDaemon α) :=
  fun _ => .refl _

/-- A change of the daemon's other fields leaves the lifecycle as it is. -/
theorem quiet_update {f : SessionDaemon → SessionDaemon}
    (h : ∀ d, (f d).toLifecycle = d.toLifecycle) : Quiet (update f) := fun d => .inl (h d)

/-- Quiet programs in a row are quiet, also where the first raises. -/
theorem quiet_bind {x : Effect Exc SessionDaemon α} {f : α → Effect Exc SessionDaemon β}
    (hx : Quiet x) (hf : ∀ a, Quiet (f a)) : Quiet (x >>= f) := by
  intro d
  refine (hx d).bind (fun a d' hd' => ?_) fun e d' hd' => hd'
  have hnext := hf a d'
  unfold Ensures at hnext ⊢
  exact hd'.trans hnext

/-- A program that reads the state first is quiet if it is so from each state. -/
theorem quiet_get_bind {f : SessionDaemon → Effect Exc SessionDaemon β} (hf : ∀ d, Quiet (f d)) :
    Quiet (get >>= f) := fun d => hf d d

/-- A conditional is quiet if both its branches are. -/
theorem quiet_ite {c : Prop} [Decidable c] {x y : Effect Exc SessionDaemon α} (hx : Quiet x)
    (hy : Quiet y) : Quiet (if c then x else y) := by
  split
  · exact hx
  · exact hy

/-- `_handle_stop` is a stop, and at most says that there was nothing to stop. -/
theorem quiet_handle_stop : Quiet handle_stop := by
  intro d
  unfold handle_stop
  rw [ensures_get_bind, ensures_bind, ensures_update]
  dsimp only
  split
  · exact .inr rfl
  · exact .inr rfl

/-- Supervision stops a run at most; it starts and queues nothing. -/
theorem quiet_reap_dead_arm (side : String) : Quiet (reap_dead_arm side) := by
  unfold reap_dead_arm
  refine quiet_get_bind fun d => ?_
  split
  · exact quiet_pure _
  · exact quiet_ite (quiet_bind (quiet_say _) fun _ => quiet_handle_stop) (quiet_pure _)

/-- Tending an arm stops the run that it died in, and respawns its node once there is no run. -/
theorem quiet_tend_arm (beat : NodeBeat) (unit : ArmUnit) : Quiet (tend_arm beat unit) := by
  unfold tend_arm
  refine quiet_ite (quiet_ite (quiet_pure _) (quiet_ite (quiet_pure _) (quiet_pure _))) ?_
  refine quiet_bind (quiet_ite (quiet_pure _) (quiet_reap_dead_arm _)) fun _ => ?_
  exact quiet_get_bind fun d => quiet_ite (quiet_pure _) (quiet_pure _)

/-- A loop over the nodes is quiet if each of its turns is. -/
theorem quiet_mapM {f : α → Effect Exc SessionDaemon β} (hf : ∀ a, Quiet (f a)) (xs : List α) :
    Quiet (xs.mapM f) := by
  induction xs with
  | nil => exact quiet_pure _
  | cons x xs ih =>
    rw [List.mapM_cons]
    exact quiet_bind (hf x) fun y => quiet_bind ih fun ys => quiet_pure _

/-- Tending all arms is quiet, one arm after the other. -/
theorem quiet_tend_arms (beat : NodeBeat) : Quiet (tend_arms beat) := by
  unfold tend_arms
  refine quiet_get_bind fun d => quiet_bind (quiet_mapM (quiet_tend_arm beat) _) fun units => ?_
  exact quiet_update fun d => rfl

/-- Looking at the sides of a run stops it at the first that dropped out. -/
theorem quiet_watch_sides (status : String → Status) (sides : List String) :
    Quiet (watch_sides status sides) := by
  induction sides with
  | nil => exact quiet_pure _
  | cons side rest ih =>
    rw [watch_sides]
    refine quiet_get_bind fun d => quiet_ite ?_ (quiet_ite ?_ ih)
    · exact quiet_bind (quiet_update fun d => rfl) fun _ => ih
    · exact quiet_bind (quiet_say _) fun _ => quiet_bind quiet_handle_stop fun _ => quiet_pure _

/-- The watch over a run's arms stops the run at most, and only once it is armed. -/
theorem quiet_watch_arm_dropout (status : String → Status) :
    Quiet (watch_arm_dropout status) := by
  unfold watch_arm_dropout
  refine quiet_get_bind fun d => ?_
  split
  · exact quiet_pure _
  · refine quiet_ite (quiet_pure _) (quiet_bind (quiet_watch_sides status _) fun stopped => ?_)
    exact quiet_ite (quiet_pure _) (quiet_update fun d => rfl)

/-- Tending the leaders' servers tells the page when a collection has lost its teleops, and stops
nothing. -/
theorem quiet_tend_factr_servers (beat : Except Exc (List String)) :
    Quiet (tend_factr_servers beat) := by
  unfold tend_factr_servers
  refine quiet_bind (quiet_call _) fun down => quiet_get_bind fun d => ?_
  exact quiet_ite (quiet_say _) (quiet_pure _)

/-- Switching gravity compensation off stops a collection that tracks the leaders, and otherwise
only posts. -/
theorem quiet_handle_grav_comp (cfg : Config) (enable : Bool) (beat : CommandBeat) :
    Quiet (cfg.handle_grav_comp enable beat) := by
  unfold Config.handle_grav_comp
  refine quiet_ite (quiet_say _) (quiet_ite (quiet_say _) ?_)
  refine quiet_bind (quiet_call _) fun signalled => quiet_get_bind fun d => ?_
  exact quiet_ite (quiet_bind quiet_handle_stop fun _ => quiet_say _) (quiet_say _)

/-- The commands that are neither a start, a switch nor a stop. -/
theorem quiet_dispatch (cfg : Config) (cmd : Command) (beat : CommandBeat)
    (hstart : cmd.kind ≠ .start) (hswitch : cmd.kind ≠ .switch) :
    Quiet (cfg.dispatch cmd beat) := by
  unfold Config.dispatch
  split
  · exact quiet_update fun d => rfl
  · next h => exact absurd h hstart
  · next h => exact absurd h hswitch
  · exact quiet_handle_stop
  · unfold Config.handle_reconnect_arm
    refine quiet_get_bind fun d => ?_
    split
    · exact quiet_say _
    · refine quiet_ite (quiet_say _) (quiet_ite (quiet_say _) ?_)
      exact quiet_bind (quiet_update fun d => rfl) fun _ => quiet_say _
  · refine quiet_get_bind fun d => ?_
    split
    · exact quiet_say _
    · exact quiet_ite (quiet_say _) (quiet_bind (quiet_update fun d => rfl) fun _ => quiet_say _)
  · exact quiet_get_bind fun d => quiet_ite (quiet_say _) (quiet_ite (quiet_say _) (quiet_say _))
  · exact quiet_get_bind fun d => quiet_ite (quiet_say _) (quiet_ite (quiet_say _) (quiet_say _))
  · exact quiet_handle_grav_comp cfg true beat
  · exact quiet_handle_grav_comp cfg false beat
  · exact quiet_ite (quiet_say _) (quiet_ite (quiet_say _)
      (quiet_bind (quiet_call _) fun signalled => quiet_say _))
  · exact quiet_ite (quiet_say _) (quiet_ite (quiet_say _)
      (quiet_bind (quiet_call _) fun signalled => quiet_say _))
  · exact quiet_say _

end Quiet

section Outcomes

variable {cfg : Config} {d d' : SessionDaemon}

/-- What a command can do to the lifecycle, once it has been counted. -/
inductive CommandOutcome (cfg : Config) (cmd : Command) (beat : CommandBeat)
    (d : SessionDaemon) : Lifecycle → Prop
  | stop : cmd.kind = .stop → CommandOutcome cfg cmd beat d d.handle_stop
  | other (c' : Lifecycle) : cmd.kind ≠ .start → cmd.kind ≠ .switch → cmd.kind ≠ .stop →
      Halts d.toLifecycle c' → CommandOutcome cfg cmd beat d c'
  | start (c' : Lifecycle) : cmd.kind = .start →
      StartOutcome cfg cmd beat.start d (.ok ()) c' → CommandOutcome cfg cmd beat d c'
  | malformed_switch : cmd.kind = .switch → ¬ WellFormed cfg.isalnum cmd →
      CommandOutcome cfg cmd beat d d.toLifecycle
  | switch_stops (run : ActiveRun) : cmd.kind = .switch → d.run = some run →
      CommandOutcome cfg cmd beat d (d.handle_stop.set_pending cmd none beat.now)
  | switch_starts (c' : Lifecycle) : cmd.kind = .switch → WellFormed cfg.isalnum cmd →
      d.run = none → cfg.arms_still_in_control beat.status = [] →
      StartOutcome cfg cmd beat.start d (.ok ()) c' → CommandOutcome cfg cmd beat d c'
  | switch_waits : cmd.kind = .switch → d.run = none →
      cfg.arms_still_in_control beat.status ≠ [] →
      CommandOutcome cfg cmd beat d
        (d.set_pending cmd (some (beat.now + PENDING_WINDDOWN_S)) beat.now)

/-- What a tick can do with the queued start. -/
inductive TendOutcome (cfg : Config) (now : ℚ) (status : String → Status) (b : StartBeat)
    (d : SessionDaemon) : Lifecycle → Prop
  | idle : (d.pending = none ∨ d.run ≠ none) → TendOutcome cfg now status b d d.toLifecycle
  | waits (p : PendingStart) : d.pending = some p → d.run = none →
      TendOutcome cfg now status b d (d.see_pending now)
  | gives_up (p : PendingStart) : d.pending = some p → d.run = none →
      cfg.arms_still_in_control status ≠ [] → p.deadline_at now ≤ now →
      TendOutcome cfg now status b d (d.see_pending now).give_up
  | fires (p : PendingStart) (c' : Lifecycle) : d.pending = some p → d.run = none →
      cfg.arms_still_in_control status = [] →
      StartOutcome cfg p.cmd b
        (d.onLifecycle fun c => (c.see_pending now).clear_pending) (.ok ()) c' →
      TendOutcome cfg now status b d c'

/-- What an event can do to the lifecycle. -/
inductive EventOutcome (cfg : Config) (d : SessionDaemon) : Event → Lifecycle → Prop
  | command (fields : List (String × Json)) (beat : CommandBeat) (c' : Lifecycle) :
      CommandOutcome cfg (d.next fields) beat d.receive c' →
      EventOutcome cfg d (.command fields beat) c'
  | tend_pending (now : ℚ) (status : String → Status) (b : StartBeat) (c' : Lifecycle) :
      TendOutcome cfg now status b d c' → EventOutcome cfg d (.tend_pending now status b) c'
  | reap_consumer : EventOutcome cfg d .reap_consumer d.reap_consumer
  | consumer_exit (proc : ℕ) (exitcode : ℤ) :
      EventOutcome cfg d (.consumer_exit proc exitcode) (d.consumer_exit proc exitcode)
  | quiet (ev : Event) (c' : Lifecycle) : (∀ fields beat, ev ≠ .command fields beat) →
      (∀ now status b, ev ≠ .tend_pending now status b) →
      Halts d.toLifecycle c' → EventOutcome cfg d ev c'

/-- What holds of every way a program can end holds of the way it did end. -/
theorem Ensures.of_exec {α : Type} {x : Effect Exc SessionDaemon α}
    {Q : Except Exc α → SessionDaemon → Prop} {r : Except Exc α} (h : Ensures x d Q)
    (hexec : exec x d = (r, d')) : Q r d' := by
  unfold Ensures at h
  rw [hexec] at h
  exact h

/-- A switch stops the run and queues itself, waits for a busy arm, or starts, one outcome for each
of its branches. -/
theorem handle_switch_outcome (cfg : Config) (cmd : Command) (beat : CommandBeat)
    (hkind : cmd.kind = .switch) (d : SessionDaemon) :
    Ensures (cfg.handle_switch cmd beat.now beat.status beat.start) d fun r d' =>
      r = .ok () → CommandOutcome cfg cmd beat d d'.toLifecycle := by
  unfold Config.handle_switch
  split
  · next field hfield =>
    rw [ensures_say]
    refine fun _ => .malformed_switch hkind ?_
    rintro ⟨phase, hphase⟩
    rw [hphase] at hfield
    exact absurd hfield (by simp)
  · next phase hphase =>
    rw [ensures_get_bind]
    -- a run that is on is stopped, and the switch waits for its end
    by_cases hrun : d.run.isSome
    · rw [if_pos hrun, ensures_bind]
      obtain ⟨run, hsome⟩ := Option.isSome_iff_exists.1 hrun
      have hstop : Ensures handle_stop d fun r d' =>
          r = .ok () ∧ d'.toLifecycle = d.handle_stop := by
        unfold handle_stop
        rw [ensures_get_bind, ensures_bind, ensures_update]
        dsimp only
        rw [if_neg (by simp [hsome])]
        exact ⟨rfl, rfl⟩
      rw [← ensures_bind]
      refine hstop.bind (fun _ d' hd' => ?_) fun e d' hd' => absurd hd'.1 (by simp)
      rw [ensures_bind, ensures_update]
      dsimp only
      rw [ensures_say]
      intro _
      show CommandOutcome cfg cmd beat d (d'.set_pending cmd none beat.now)
      rw [hd'.2]
      exact .switch_stops run hkind hsome
    · have hnone : d.run = none := by simpa using hrun
      rw [if_neg hrun]
      -- with no run the switch starts at once, unless an arm is still in control
      by_cases hidle : cfg.arms_still_in_control beat.status = []
      · rw [if_pos hidle]
        have hstart := handle_start_outcome cfg cmd beat.start d
        unfold Ensures at hstart ⊢
        intro hok
        rw [hok] at hstart
        exact .switch_starts _ hkind ⟨phase, hphase⟩ hnone hidle hstart
      · rw [if_neg hidle, ensures_bind, ensures_update]
        dsimp only
        rw [ensures_say]
        exact fun _ => .switch_waits hkind hnone hidle

/-- A tick waits for, gives up or fires the queued start, by the run, the arms and the deadline it
finds. -/
theorem tend_pending_outcome (cfg : Config) (now : ℚ) (status : String → Status) (b : StartBeat)
    (d : SessionDaemon) :
    Ensures (cfg.tend_pending now status b) d fun r d' =>
      r = .ok () → TendOutcome cfg now status b d d'.toLifecycle := by
  unfold Config.tend_pending
  rw [ensures_get_bind]
  split
  · next hnone =>
    rw [ensures_pure]
    exact fun _ => .idle (.inl hnone)
  · next p hp =>
    by_cases hrun : d.run.isSome
    · rw [if_pos hrun, ensures_pure]
      refine fun _ => .idle (.inr ?_)
      rwa [← Option.isSome_iff_ne_none]
    have hnone : d.run = none := by simpa using hrun
    rw [if_neg hrun, ensures_bind, ensures_update]
    dsimp only
    by_cases hidle : cfg.arms_still_in_control status = []
    · rw [if_pos hidle, ensures_bind, ensures_update]
      dsimp only
      have hstart := handle_start_outcome cfg p.cmd b
        (d.onLifecycle fun c => (c.see_pending now).clear_pending)
      unfold Ensures at hstart ⊢
      intro hok
      refine .fires p _ hp hnone hidle ?_
      rw [← hok]
      exact hstart
    · rw [if_neg hidle]
      by_cases hwait : now < p.deadline_at now
      · rw [if_pos hwait, ensures_pure]
        exact fun _ => .waits p hp hnone
      · rw [if_neg hwait, ensures_bind, ensures_update]
        dsimp only
        rw [ensures_say]
        exact fun _ => .gives_up p hp hnone hidle (not_lt.1 hwait)

/-- Every command that the daemon comes back from has one of the outcomes of its kind. -/
theorem dispatch_outcome (cfg : Config) (cmd : Command) (beat : CommandBeat) (d : SessionDaemon) :
    Ensures (cfg.dispatch cmd beat) d fun r d' =>
      r = .ok () → CommandOutcome cfg cmd beat d d'.toLifecycle := by
  by_cases hstart : cmd.kind = .start
  · have houtcome := handle_start_outcome cfg cmd beat.start d
    unfold Config.dispatch
    rw [hstart]
    unfold Ensures at houtcome ⊢
    intro hok
    rw [hok] at houtcome
    exact .start _ hstart houtcome
  by_cases hswitch : cmd.kind = .switch
  · unfold Config.dispatch
    rw [hswitch]
    exact handle_switch_outcome cfg cmd beat hswitch d
  by_cases hstop : cmd.kind = .stop
  · unfold Config.dispatch
    rw [hstop]
    unfold Daemon.handle_stop
    rw [ensures_get_bind, ensures_bind, ensures_update]
    dsimp only
    split
    · rw [ensures_say]
      exact fun _ => .stop hstop
    · rw [ensures_pure]
      exact fun _ => .stop hstop
  · exact fun _ => .other _ hstart hswitch hstop (quiet_dispatch cfg cmd beat hstart hswitch d)

/-- Every event the daemon comes back from has one of the outcomes of its kind, so that invariants
have three cases and not a dozen. -/
theorem Serves.outcome {ev : Event} (h : Serves cfg d ev d') :
    EventOutcome cfg d ev d'.toLifecycle := by
  obtain ⟨-, hexec⟩ := h
  have hquiet : (∀ fields beat, ev ≠ .command fields beat) →
      (∀ now status b, ev ≠ .tend_pending now status b) → Quiet (cfg.handle ev) →
      EventOutcome cfg d ev d'.toLifecycle := by
    intro hcommand htend hx
    exact .quiet ev _ hcommand htend (Ensures.of_exec (hx d) hexec)
  cases ev with
  | command fields beat =>
    refine .command fields beat _ ?_
    exact Ensures.of_exec (dispatch_outcome cfg (d.next fields) beat d.receive) hexec rfl
  | tend_pending now status b =>
    exact .tend_pending now status b _
      (Ensures.of_exec (tend_pending_outcome cfg now status b d) hexec rfl)
  | reap_consumer =>
    cases hexec
    exact .reap_consumer
  | consumer_exit proc exitcode =>
    cases hexec
    exact .consumer_exit proc exitcode
  | watch_arm_dropout status => exact hquiet (by simp) (by simp) (quiet_watch_arm_dropout status)
  | tend_arms beat => exact hquiet (by simp) (by simp) (quiet_tend_arms beat)
  | tend_cameras beat => exact hquiet (by simp) (by simp) (quiet_update fun d => rfl)
  | tend_factr_servers beat => exact hquiet (by simp) (by simp) (quiet_tend_factr_servers beat)
  | arm_death name => exact hquiet (by simp) (by simp) (quiet_update fun d => rfl)
  | camera_death name => exact hquiet (by simp) (by simp) (quiet_update fun d => rfl)

end Outcomes

/-! ## Concrete runs of the one-arm session -/

/-- Handle one event after the other, whatever comes of it. -/
def Config.after (cfg : Config) (d : SessionDaemon) (events : List Event) : SessionDaemon :=
  events.foldl (fun d ev => (exec (cfg.handle ev) d).2) d

/-- The daemon comes back from every one of them. -/
def Config.comes_back (cfg : Config) : SessionDaemon → List Event → Bool
  | _, [] => true
  | d, ev :: rest =>
    !d.fatal && (exec (cfg.handle ev) d).1.toBool && cfg.comes_back (exec (cfg.handle ev) d).2 rest

/-- An event that the daemon comes back from is a step of the session. -/
theorem serves_after {cfg : Config} {d : SessionDaemon} {ev : Event} (hfatal : d.fatal = false)
    (hback : (exec (cfg.handle ev) d).1.toBool = true) : Serves cfg d ev (cfg.after d [ev]) := by
  refine ⟨hfatal, Prod.ext ?_ rfl⟩
  show (exec (cfg.handle ev) d).1 = .ok ()
  cases hr : (exec (cfg.handle ev) d).1 with
  | ok u => rfl
  | error e =>
    rw [hr] at hback
    exact absurd hback (by simp [Except.toBool])

/-- A list of events that it comes back from, one and all, is a run of the session. -/
theorem runs_after {cfg : Config} {d : SessionDaemon} {events : List Event}
    (h : cfg.comes_back d events = true) : Runs cfg d (cfg.after d events) := by
  induction events generalizing d with
  | nil => exact .refl
  | cons ev rest ih =>
    rw [Config.comes_back, Bool.and_eq_true, Bool.and_eq_true] at h
    obtain ⟨⟨hfatal, hback⟩, hrest⟩ := h
    exact .head ⟨ev, serves_after (by simpa using hfatal) hback⟩ (ih hrest)

/-- The leader's answer when it holds full gravity compensation. -/
def energized : Reply := .answered 200 (some (.obj [("grav_comp_enabled", .bool true)]))

/-- And when it does not. -/
def limp : Reply := .answered 200 (some (.obj [("grav_comp_enabled", .bool false)]))

/-- The status vector of the arm, in control or idle. -/
def left_status (in_control : Bool) : Status :=
  some [.fin 1, .fin 0, .fin (if in_control then 1 else 0)]

/-- What a command sees. -/
def left_command_beat (now : ℚ) (in_control : Bool) (reply : Reply) : CommandBeat where
  now := now
  status := fun _ => left_status in_control
  start := left_beat now (left_status in_control) reply
  spawned_at := now
  post := fun _ => .ok 200
  detail := ""

/-- A command that asks for a collection run. -/
def left_command (cmd : String) (now : ℚ) (in_control : Bool) (reply : Reply) : Event :=
  .command (collect 0 cmd).fields (left_command_beat now in_control reply)

/-- A tick of the queued start. -/
def left_tick (now : ℚ) (in_control : Bool) (reply : Reply) : Event :=
  .tend_pending now (fun _ => left_status in_control) (left_beat now (left_status in_control) reply)

end DualFlexivControl.Daemon
