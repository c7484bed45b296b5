/-
The session daemon, its arms and its consumer as one step relation.

The daemon (`SessionDaemon`) is one thread: it accepts a start, puts one `EnterControl`
per commanded arm, spawns the consumer, reaps it when it is dead, and tends its arms,
which it may find dead, drain, and respawn. An arm (`_run_session_loop`,
`_control_session`) polls its queue, enables, looks for the two manifests of its control
channels, and opens the segments they name. The consumer creates a segment, publishes its
manifest, unlinks the segment again; it may die anywhere. Between any two steps of one of
them the others take theirs.

Three facts of the code are easy to lose in a model and are kept here:

* the start gate reads the status stream, that is, the `control_active` an arm had when it
  last published, and an arm in an eager `enter_control` does not publish;
* a segment's name does not depend on the run, so an arm opens whatever segment has that
  name by then, and a native controller opens it by name once more;
* a manifest outlives its segment: only the daemon's sweep removes it.

An `EnterControl` carries two marks that no code reads: the run it was put for and how
many nodes its side had had by then. `M` is its content (coefficients, `ControlCfg`,
phase), which nothing here looks into.
-/
import DualFlexivControl.Lib.FeederQueue
import Mathlib.Logic.Function.Basic
import Mathlib.Logic.Relation

set_option autoImplicit false

namespace DualFlexivControl.Session

/-! ## One side: its arm's node, its queue, its streams and its channels -/

/-- The control channels of a side. -/
inductive Chan where
  | setpoint
  | command
  | gripper
  deriving DecidableEq

/-- The run phases. -/
inductive Phase where
  | collection
  | eval
  | skill
  deriving DecidableEq

/-- An `EnterControl`, with the run it was put for and the number of its side's nodes
spawned until then. -/
structure Msg (M : Type) where
  run : ℕ
  gen : ℕ
  content : M
  deriving DecidableEq

/-- How far a control session is. -/
inductive Stage where
  /-- In the eager `enter_control`, which does not return for seconds. -/
  | enabling
  /-- In `_await_channels`. -/
  | waiting
  /-- The setpoint manifest was read, the command manifest is next. -/
  | seen
  /-- Attaching the channels found, by the names in their manifests. -/
  | opening (todo : List Chan)
  /-- Attaching the gripper; or the native controller attaching, again by name. -/
  | reopening (todo : List Chan)
  /-- Everything is attached. -/
  | running
  deriving DecidableEq

/-- A control session: the message it executes, and the runs whose consumers opened the
channels it is attached to. -/
structure ControlSession (M : Type) where
  msg : Msg M
  stage : Stage
  readers : List ℕ
  deriving DecidableEq

/-- An arm's process. -/
inductive Node (M : Type) where
  | dead
  | idle
  | session (c : ControlSession M)
  deriving DecidableEq

/-- `_control_active`. -/
def Node.control_active {M : Type} : Node M → Bool
  | .session _ => true
  | _ => false

/-- `proc.is_alive()`. -/
def Node.is_alive {M : Type} : Node M → Bool
  | .dead => false
  | _ => true

/-- Everything that belongs to one side. -/
structure SideState (M : Type) where
  node : Node M
  /-- How many nodes were spawned. -/
  spawns : ℕ
  /-- `session_qs[side]`. -/
  queue : FeederQueue (Msg M)
  /-- `control_active` in the status stream's newest sample, if there is one. -/
  status : Option Bool
  /-- `unit.reaped`. -/
  reaped : Bool
  /-- In `state.arms_down`. -/
  down : Bool
  /-- The run whose consumer created the channel's segment. -/
  segments : Chan → Option ℕ
  /-- The run whose consumer published the channel's manifest. -/
  manifests : Chan → Option ℕ
  /-- The last run an `EnterControl` was put for here. -/
  last : ℕ

section Arm

variable {M : Type}

/-- What an arm does in one step. Whether it enables eagerly, has a gripper and hands
over to the native controller is its configuration, and left open. -/
inductive ArmAct where
  | tick
  | poll (eager : Bool)
  | enabled
  | look_setpoint
  | look_command
  | attach
  | look_gripper (native gripper : Bool)
  | attached
  | finish
  | die

/-- What is attached after the setpoint and command channels: by the native controller
both of them again, and the gripper channel if it is published. -/
def late_channels (native gripper : Bool) : List Chan :=
  (if native then [.setpoint, .command] else []) ++ (if gripper then [.gripper] else [])

/-- Opening a segment by name; without one, `FileNotFoundError` ends the node. -/
def attach_segment (x : SideState M) (c : ControlSession M) (ch : Chan) (next : Stage) :
    SideState M :=
  match x.segments ch with
  | some r => { x with node := .session { c with stage := next, readers := c.readers ++ [r] } }
  | none => { x with node := .dead }

/-- The steps of a control session. -/
def session_step (x : SideState M) (c : ControlSession M) : ArmAct → Option (SideState M)
  | .tick =>
    if c.stage = .enabling then none
    else some { x with status := some (Node.session c).control_active }
  | .enabled =>
    if c.stage = .enabling then some { x with node := .session { c with stage := .waiting } }
    else none
  | .look_setpoint =>
    if c.stage = .waiting ∧ (x.manifests .setpoint).isSome then
      some { x with node := .session { c with stage := .seen } }
    else none
  | .look_command =>
    if c.stage = .seen then
      -- `all(name in found ...)`, or another round of the loop
      if (x.manifests .command).isSome then
        some { x with node := .session { c with stage := .opening [.setpoint, .command] } }
      else some { x with node := .session { c with stage := .waiting } }
    else none
  | .attach =>
    match c.stage with
    -- by name: whoever created a segment of that name meanwhile is attached
    | .opening (ch :: todo) => some (attach_segment x c ch (.opening todo))
    | .reopening (ch :: todo) => some (attach_segment x c ch (.reopening todo))
    | _ => none
  | .look_gripper native gripper =>
    if c.stage = .opening [] ∧ (gripper = true → (x.manifests .gripper).isSome) then
      some { x with node := .session { c with stage := .reopening (late_channels native gripper) } }
    else none
  | .attached =>
    if c.stage = .reopening [] then some { x with node := .session { c with stage := .running } }
    else none
  -- STOP, deadman, fault, timeout: the `finally` brings the arm back from any stage
  | .finish => some { x with node := .idle }
  | .die => some { x with node := .dead }
  | .poll _ => none

/-- The steps of an arm's node. -/
def arm_step (x : SideState M) (act : ArmAct) : Option (SideState M) :=
  match x.node with
  | .dead => none
  | .idle =>
    match act with
    | .tick => some { x with status := some (@Node.idle M).control_active }
    | .poll eager =>
      match x.queue.get_nowait with
      | none => none
      | some (m, q) =>
        some { x with
          node := .session ⟨m, if eager then .enabling else .waiting, []⟩
          queue := q }
    | .die => some { x with node := .dead }
    | _ => none
  | .session c => session_step x c act

end Arm

/-! ## The consumer and its channels -/

section Consumer

variable {M : Type}

/-- What the consumer does to one channel. -/
inductive ConsumerAct where
  | create (c : Chan)
  | publish (c : Chan)
  | unlink (c : Chan)

/-- The consumer of run `r` and one side's channels. A segment that exists is not created
again (`FileExistsError`), and only the consumer's own are published or unlinked. -/
def consumer_step (r : ℕ) (x : SideState M) : ConsumerAct → Option (SideState M)
  | .create c =>
    if x.segments c = none then
      some { x with segments := Function.update x.segments c (some r) }
    else none
  | .publish c =>
    if x.segments c = some r then
      some { x with manifests := Function.update x.manifests c (some r) }
    else none
  | .unlink c =>
    if x.segments c = some r then
      some { x with segments := Function.update x.segments c none }
    else none

/-- `cleanup_sub`: the manifests, and the segments they name. A segment without a manifest
is not found. -/
def cleanup_sub (x : SideState M) : SideState M :=
  { x with
    segments := fun c => if (x.manifests c).isSome then none else x.segments c
    manifests := fun _ => none }

end Consumer

/-! ## The daemon -/

section Daemon

variable {Side M : Type}

/-- `_ActiveRun`, and whether its consumer process is alive. -/
structure ActiveRun (Side : Type) where
  seq : ℕ
  phase : Phase
  command_sides : List Side
  stopping : Bool
  alive : Bool

/-- A start command that composed: its arms are distinct, being keys of a dictionary. -/
structure StartCmd (Side M : Type) where
  phase : Phase
  command_sides : List Side
  content : M
  nodup : command_sides.Nodup

/-- Where the daemon's thread is. -/
inductive Pc (Side M : Type) where
  /-- In the supervise loop. -/
  | serving
  /-- In `_handle_start`, past its gates: `remaining` arms are still to be messaged. -/
  | starting (cmd : StartCmd Side M) (remaining : List Side)
  /-- In `_handle_reconnect_arm`, past its gates: the live node is being replaced. -/
  | replacing (side : Side)
  /-- In `_drain_session_q`, called from there or from `_reap_dead_arm`. -/
  | draining (side : Side) (reconnect : Bool)

/-- The daemon's own state. `sent` is what it put for which run. -/
structure Daemon (Side M : Type) where
  run : Option (ActiveRun Side)
  pc : Pc Side M
  run_seq : ℕ
  sent : ℕ → Option M

/-- The session. -/
structure State (Side M : Type) extends Daemon Side M where
  sides : Side → SideState M

/-- What the daemon does in one step. `fresh` is `_arm_fresh`, `due` that the respawn
pacing has run out. -/
inductive DaemonAct (Side M : Type) where
  | start (cmd : StartCmd Side M)
  | put
  | spawn_consumer
  | stop
  | reap_consumer
  | tend (side : Side) (fresh due : Bool)
  | reconnect (side : Side)
  | kill
  | drain_get
  | drain_empty (due : Bool)

/-- `_make_arm_unit`: a new node, which idles. -/
def make_arm_unit (x : SideState M) : SideState M :=
  { x with node := .idle, spawns := x.spawns + 1, reaped := false }

/-- `_handle_stop`, of the active run. -/
def handle_stop (run : Option (ActiveRun Side)) : Option (ActiveRun Side) :=
  run.map fun r => { r with stopping := true }

variable [DecidableEq Side]

/-- Change one side. -/
def State.set (s : State Side M) (side : Side) (x : SideState M) : State Side M :=
  { s with sides := Function.update s.sides side x }

/-- A dead arm stops a run that commands it, and any run but a skill. -/
def stop_for_dead_arm (run : Option (ActiveRun Side)) (side : Side) : Option (ActiveRun Side) :=
  run.map fun r =>
    if r.stopping = false ∧ (side ∈ r.command_sides ∨ r.phase ≠ .skill) then
      { r with stopping := true }
    else r

/-- The gates of `_handle_start` over the session's arms: no run, no arm reported in
control, none of them down (a skill asks this of the arms it commands only). -/
def start_accepted (arms : List Side) (s : State Side M) (cmd : StartCmd Side M) : Bool :=
  s.run.isNone &&
    arms.all (fun side => (s.sides side).status != some true) &&
    (cmd.phase == .skill || arms.all fun side => !(s.sides side).down) &&
    cmd.command_sides.all (fun side => decide (side ∈ arms) && !(s.sides side).down)

/-- `_tend_arms`, for one arm, up to the drain of a dead one's queue. -/
def tend_arm (s : State Side M) (side : Side) (fresh due : Bool) : State Side M :=
  let x := s.sides side
  if x.node.is_alive then s.set side { x with down := !fresh }
  else if x.reaped then
    if s.run.isNone && due then s.set side (make_arm_unit { x with down := true })
    else s.set side { x with down := true }
  else
    -- `_reap_dead_arm`: the status manifest goes with the node's streams
    { s.set side { x with reaped := true, status := none } with pc := .draining side false }

/-- What follows the drain: the rest of `_reap_dead_arm` and of `_tend_arms`. -/
def reaped_arm (s : State Side M) (side : Side) (due : Bool) : State Side M :=
  let x := s.sides side
  let run := stop_for_dead_arm s.run side
  { s.set side
      (if run.isNone && due then make_arm_unit { x with down := true }
       else { x with down := true }) with
    run := run
    pc := .serving }

/-- The daemon's steps. -/
def daemon_step (arms : List Side) (s : State Side M) :
    DaemonAct Side M → Option (State Side M)
  | .start cmd =>
    match s.pc with
    | .serving =>
      if start_accepted arms s cmd then
        some { s with
          pc := .starting cmd cmd.command_sides
          run_seq := s.run_seq + 1
          sent := Function.update s.sent (s.run_seq + 1) (some cmd.content) }
      else none
    | _ => none
  | .put =>
    match s.pc with
    | .starting cmd (side :: remaining) =>
      let x := s.sides side
      some { s.set side
          { x with
            queue := x.queue.put ⟨s.run_seq, x.spawns, cmd.content⟩
            last := s.run_seq } with
        pc := .starting cmd remaining }
    | _ => none
  | .spawn_consumer =>
    match s.pc with
    | .starting cmd [] =>
      some { s with
        run := some ⟨s.run_seq, cmd.phase, cmd.command_sides, false, true⟩
        pc := .serving }
    | _ => none
  | .stop =>
    match s.pc with
    | .serving => some { s with run := handle_stop s.run }
    | _ => none
  | .reap_consumer =>
    match s.pc, s.run with
    | .serving, some r =>
      -- `_reap_consumer` sweeps the control channels of every side
      if r.alive then none
      else some { s with run := none, sides := fun side => cleanup_sub (s.sides side) }
    | _, _ => none
  | .tend side fresh due =>
    match s.pc with
    | .serving => some (tend_arm s side fresh due)
    | _ => none
  | .reconnect side =>
    match s.pc with
    | .serving =>
      -- refused while a run is active or the arm reports that it is in control
      if s.run.isNone && (s.sides side).status != some true then
        some { s with pc := .replacing side }
      else none
    | _ => none
  | .kill =>
    match s.pc with
    | .replacing side =>
      some { s.set side { s.sides side with node := .dead, status := none } with
        pc := .draining side true }
    | _ => none
  | .drain_get =>
    match s.pc with
    | .draining side _ =>
      match (s.sides side).queue.get_nowait with
      | none => none
      | some (_, q) => some (s.set side { s.sides side with queue := q })
    | _ => none
  | .drain_empty due =>
    match s.pc with
    | .draining side reconnect =>
      match (s.sides side).queue.get_nowait with
      | some _ => none
      | none =>
        -- `Empty` ends the drain, whatever the feeder still holds
        if reconnect then
          some { s.set side (make_arm_unit (s.sides side)) with pc := .serving }
        else some (reaped_arm s side due)
    | _ => none

/-! ## All of them together -/

/-- One step of the session. -/
inductive Act (Side M : Type) where
  | arm (side : Side) (act : ArmAct)
  | feeder (side : Side)
  | consumer (side : Side) (act : ConsumerAct)
  | consumer_exit
  | daemon (act : DaemonAct Side M)

/-- The step function: the arms, the queues' feeder threads, the consumer and the daemon.
The consumer opens channels for the arms its run commands, and no others. -/
def step (arms : List Side) (s : State Side M) : Act Side M → Option (State Side M)
  | .arm side act => (arm_step (s.sides side) act).map (s.set side)
  | .feeder side =>
    some (s.set side { s.sides side with queue := (s.sides side).queue.flush })
  | .consumer side act =>
    match s.run with
    | some r =>
      if r.alive ∧ side ∈ r.command_sides then
        (consumer_step r.seq (s.sides side) act).map (s.set side)
      else none
    | none => none
  | .consumer_exit => s.run.map fun r => { s with run := some { r with alive := false } }
  | .daemon act => daemon_step arms s act

/-- A run's actions, one after the other. -/
def exec (arms : List Side) (s : State Side M) (acts : List (Act Side M)) :
    Option (State Side M) := acts.foldlM (step arms) s

/-- `start_hardware`: one node per side, idle and not heard of. -/
def init : State Side M where
  sides _ :=
    { node := .idle
      spawns := 1
      queue := {}
      status := none
      reaped := false
      down := false
      segments := fun _ => none
      manifests := fun _ => none
      last := 0 }
  run := none
  pc := .serving
  run_seq := 0
  sent _ := none

/-- The states reached by runs whose every step meets `ok`. -/
inductive Reach (arms : List Side) (ok : State Side M → Act Side M → Prop) :
    State Side M → Prop where
  | init : Reach arms ok init
  | step {s s' : State Side M} (act : Act Side M) (hs : Reach arms ok s) (hok : ok s act)
      (h : step arms s act = some s') : Reach arms ok s'

end Daemon

/-! ## What a step can do -/

/-- The channels a session attaches, or will attach, without looking for their manifests
again. -/
def Stage.looked : Stage → List Chan
  | .enabling => []
  | .waiting => []
  | .seen => [.setpoint]
  | .opening todo => .setpoint :: .command :: todo
  | .reopening todo => todo
  | .running => []

/-- The moves of an arm's node, as far as anybody else can tell. -/
inductive ArmMove {M : Type} (x : SideState M) : SideState M → Prop where
  | publish (b : Bool) : ArmMove x { x with status := some b }
  | poll (m : Msg M) (q : FeederQueue (Msg M)) (stage : Stage)
      (hget : x.queue.get_nowait = some (m, q)) (hstage : stage.looked = []) :
      ArmMove x { x with node := .session ⟨m, stage, []⟩, queue := q }
  | advance (c : ControlSession M) (next : Stage) (hnode : x.node = .session c)
      (hrun : c.stage ≠ .running)
      (hlook : ∀ ch ∈ next.looked, ch ∈ c.stage.looked ∨ (x.manifests ch).isSome) :
      ArmMove x { x with node := .session { c with stage := next } }
  | attach (c : ControlSession M) (ch : Chan) (r : ℕ) (next : Stage)
      (hnode : x.node = .session c) (hrun : c.stage ≠ .running) (hch : ch ∈ c.stage.looked)
      (hseg : x.segments ch = some r) (hlook : ∀ ch ∈ next.looked, ch ∈ c.stage.looked) :
      ArmMove x
        { x with node := .session { c with stage := next, readers := c.readers ++ [r] } }
  | leave (node : Node M) (hnode : ∀ c, node ≠ .session c) : ArmMove x { x with node := node }

section Moves

variable {M : Type} {x x' : SideState M}

theorem attach_segment_move {c : ControlSession M} {ch : Chan} {next : Stage}
    (hnode : x.node = .session c) (hrun : c.stage ≠ .running) (hch : ch ∈ c.stage.looked)
    (hlook : ∀ ch ∈ next.looked, ch ∈ c.stage.looked) :
    ArmMove x (attach_segment x c ch next) := by
  unfold attach_segment
  split
  · next r hseg => exact .attach c ch r next hnode hrun hch hseg hlook
  · exact .leave .dead (by simp)

theorem session_step_move {c : ControlSession M} {act : ArmAct} (hnode : x.node = .session c)
    (h : session_step x c act = some x') : ArmMove x x' := by
  cases act with
  | tick =>
    simp only [session_step] at h
    split at h <;> cases h
    exact .publish _
  | poll eager => cases h
  | enabled =>
    simp only [session_step] at h
    split at h <;> cases h
    next hstage => exact .advance c .waiting hnode (by simp [hstage]) (by simp [Stage.looked])
  | look_setpoint =>
    simp only [session_step] at h
    split at h <;> cases h
    next hstage =>
      refine .advance c .seen hnode (by simp [hstage.1]) ?_
      simpa [Stage.looked] using Or.inr hstage.2
  | look_command =>
    simp only [session_step] at h
    split at h
    · next hstage =>
      split at h
      · next hfound =>
        cases h
        refine .advance c _ hnode (by simp [hstage]) ?_
        simpa [hstage, Stage.looked] using hfound
      · cases h
        exact .advance c .waiting hnode (by simp [hstage]) (by simp [Stage.looked])
    · cases h
  | attach =>
    simp only [session_step] at h
    split at h
    · next ch todo hstage =>
      cases h
      apply attach_segment_move hnode (by simp [hstage]) (by simp [hstage, Stage.looked])
      simp +contextual [hstage, Stage.looked]
    · next ch todo hstage =>
      cases h
      apply attach_segment_move hnode (by simp [hstage]) (by simp [hstage, Stage.looked])
      simp +contextual [hstage, Stage.looked]
    · cases h
  | look_gripper native gripper =>
    simp only [session_step] at h
    split at h <;> cases h
    next hstage =>
      refine .advance c _ hnode (by simp [hstage.1]) ?_
      rw [hstage.1]
      intro ch hch
      -- the native controller opens what was looked up before, the gripper was just seen
      cases native <;> cases gripper <;> simp_all [Stage.looked, late_channels]
      all_goals grind
  | attached =>
    simp only [session_step] at h
    split at h <;> cases h
    next hstage => exact .advance c .running hnode (by simp [hstage]) (by simp [Stage.looked])
  | finish =>
    cases h
    exact .leave .idle (by simp)
  | die =>
    cases h
    exact .leave .dead (by simp)

/-- Whatever an arm does, its node is alive and the move is one of the five. -/
theorem arm_step_move {act : ArmAct} (h : arm_step x act = some x') :
    x.node ≠ .dead ∧ ArmMove x x' := by
  unfold arm_step at h
  split at h
  · cases h
  · next hnode =>
    refine ⟨by simp [hnode], ?_⟩
    split at h
    · cases h
      exact .publish _
    · split at h
      · cases h
      · next m q hget =>
        cases h
        exact .poll m q _ hget (by split <;> rfl)
    · cases h
      exact .leave .dead (by simp)
    · cases h
  · next c hnode => exact ⟨by simp [hnode], session_step_move hnode h⟩

/-- The consumer touches nothing but the channels. -/
theorem consumer_step_frame {r : ℕ} {act : ConsumerAct} (h : consumer_step r x act = some x') :
    x' = { x with segments := x'.segments, manifests := x'.manifests } := by
  cases act <;>
  · simp only [consumer_step] at h
    split at h <;> cases h
    rfl

end Moves

section Set

variable {Side M : Type} [DecidableEq Side] {s : State Side M} {side other : Side}
  {x : SideState M}

@[simp] theorem State.set_sides_self : (s.set side x).sides side = x := by
  simp [State.set]

@[simp] theorem State.set_sides_of_ne (h : other ≠ side) :
    (s.set side x).sides other = s.sides other := by
  simp [State.set, h]

@[simp] theorem State.set_toDaemon : (s.set side x).toDaemon = s.toDaemon := rfl

end Set

/-- A list of actions, each of which always meets `ok`, goes from reached states to reached
states. -/
theorem Reach.exec {Side M : Type} [DecidableEq Side] {arms : List Side}
    {ok : State Side M → Act Side M → Prop} {s s' : State Side M} {acts : List (Act Side M)}
    (hs : Reach arms ok s) (hok : ∀ act ∈ acts, ∀ s, ok s act)
    (h : Session.exec arms s acts = some s') : Reach arms ok s' := by
  induction acts generalizing s with
  | nil =>
    cases h
    exact hs
  | cons act acts ih =>
    obtain ⟨s₁, h₁, h₂⟩ := Option.bind_eq_some_iff.1 h
    exact ih (hs.step act (hok act (by simp) s) h₁) (fun a ha => hok a (by simp [ha])) h₂

end DualFlexivControl.Session
