/-
What the daemon's handlers leave alone: the dropout watchdog's account of the run, and the camera
units.

Apart from the watchdog's own poll, a handler keeps the account, or launches a run and starts a
new one; and while the run is not being stopped it is the run it was. Apart from the cameras'
tender, the command that replaces a camera and a camera's death, no event changes a unit. Both are
one relation between the state before and the state after ([`Aside`]), proved once for each
handler.
-/
import DualFlexivControl.Daemon.Serve

set_option autoImplicit false

namespace DualFlexivControl.Daemon

open Effect

/-- The account of the run is kept, or started anew by a launch. -/
def Attends (d d' : SessionDaemon) : Prop :=
  (d'.state.run_seq = d.state.run_seq ∧ d'.watchdog = d.watchdog ∧
    ∀ run, d'.run = some run → run.stopping = false → d.run = some run) ∨
  (d.state.run_seq < d'.state.run_seq ∧
    d'.watchdog = { watchdog_armed := false, active_sides := [] })

instance : Std.Refl Attends := ⟨fun _ => .inl ⟨rfl, rfl, fun _ h _ => h⟩⟩

instance : IsTrans SessionDaemon Attends where
  trans d d' d'' h h' := by
    rcases h with ⟨hseq, hdog, hrun⟩ | ⟨hseq, hdog⟩
    · rcases h' with ⟨hseq', hdog', hrun'⟩ | ⟨hseq', hdog'⟩
      · refine .inl ⟨hseq'.trans hseq, hdog'.trans hdog, fun run h hstopping => ?_⟩
        exact hrun run (hrun' run h hstopping) hstopping
      · exact .inr ⟨hseq ▸ hseq', hdog'⟩
    · rcases h' with ⟨hseq', hdog', -⟩ | ⟨hseq', hdog'⟩
      · exact .inr ⟨hseq' ▸ hseq, hdog'.trans hdog⟩
      · exact .inr ⟨hseq.trans hseq', hdog'⟩

/-- The account of the run, and no camera unit is touched. -/
structure Aside (d d' : SessionDaemon) : Prop where
  attends : Attends d d'
  cameras : d'.cameras = d.cameras

instance : Std.Refl Aside := ⟨fun d => ⟨Std.Refl.refl d, rfl⟩⟩

instance : IsTrans SessionDaemon Aside where
  trans d d' d'' h h' :=
    ⟨IsTrans.trans d d' d'' h.attends h'.attends, h'.cameras.trans h.cameras⟩

/-- A change that keeps the run, its number, the account and the units. -/
theorem aside_of_eq {d d' : SessionDaemon} (hseq : d'.state.run_seq = d.state.run_seq)
    (hdog : d'.watchdog = d.watchdog) (hrun : d'.run = d.run) (hcameras : d'.cameras = d.cameras) :
    Aside d d' := ⟨.inl ⟨hseq, hdog, fun _ h _ => hrun ▸ h⟩, hcameras⟩

/-- A change of the lifecycle that keeps its number, and the run unless it is being stopped. -/
theorem aside_onLifecycle {d : SessionDaemon} {f : Lifecycle → Lifecycle}
    (hseq : (f d.toLifecycle).state.run_seq = d.state.run_seq)
    (hrun : ∀ run, (f d.toLifecycle).run = some run → run.stopping = false → d.run = some run) :
    Aside d (d.onLifecycle f) := ⟨.inl ⟨hseq, rfl, hrun⟩, rfl⟩

section Handlers

/-- Saying something touches neither the account nor a camera. -/
theorem aside_say (m : Option Message) : Moves Aside (say m) :=
  moves_update fun _ => aside_of_eq rfl rfl rfl rfl

/-- Stopping a run does not count as a new one. -/
theorem stop_run_run_seq (c : Lifecycle) : c.stop_run.state.run_seq = c.state.run_seq := by
  unfold Lifecycle.stop_run
  cases c.run with
  | none => rfl
  | some run =>
    dsimp only
    split
    · rfl
    · rfl

/-- Nor does a stop that empties the slot as well. -/
theorem handle_stop_run_seq (c : Lifecycle) : c.handle_stop.state.run_seq = c.state.run_seq := by
  unfold Lifecycle.handle_stop
  split
  · exact stop_run_run_seq c.clear_pending
  · exact stop_run_run_seq c

/-- A stop leaves the account of the run, which goes on until its consumer has exited. -/
theorem aside_handle_stop : Moves Aside handle_stop := by
  unfold handle_stop
  refine moves_get_bind fun d => moves_bind (moves_update fun d => ?_) fun _ =>
    moves_ite (aside_say _) moves_pure
  refine aside_onLifecycle (handle_stop_run_seq _) fun run hrun hstopping => ?_
  -- a run that survives a stop unstopped would not have been stopped
  obtain ⟨run', state, hstop, -, hall⟩ := handle_stop_spec d.toLifecycle
  rw [hstop] at hrun
  rw [hall run hrun] at hstopping
  exact absurd hstopping (by simp)

/-- Queueing a start touches neither the account nor a camera. -/
theorem aside_set_pending (cmd : Command) (deadline : Option ℚ) (now : ℚ) :
    Moves Aside (update (·.onLifecycle (Lifecycle.set_pending cmd deadline now)) : Handler) :=
  moves_update fun _ => aside_onLifecycle rfl fun _ h _ => h

/-- Past its gates a start is refused, queued or launched; only the launch begins a new account. -/
theorem aside_proceed (cfg : Config) (cmd : Command) (b : StartBeat) (phase : Session.Phase)
    (config : RunConfig) (blockers : List (String × Blocker)) (consumer : ConsumerNode) :
    Moves Aside (cfg.proceed cmd b phase config blockers consumer) := by
  unfold Config.proceed
  refine moves_bind moves_call fun refusal => ?_
  cases refusal with
  | some m => exact aside_say _
  | none =>
    refine moves_get_bind fun d => moves_ite (aside_say _) (moves_ite (aside_say _) ?_)
    refine moves_bind (moves_update fun d => ?_) fun _ => aside_say _
    exact ⟨.inr ⟨Nat.lt_succ_self _, rfl⟩, rfl⟩

/-- A start keeps the account up to its launch, whichever gate it comes to. -/
theorem aside_handle_start (cfg : Config) (cmd : Command) (b : StartBeat) :
    Moves Aside (cfg.handle_start cmd b) := by
  unfold Config.handle_start
  split
  · exact aside_say _
  · refine moves_get_bind fun d => moves_ite (aside_say _) (moves_ite ?_ (moves_ite (aside_say _)
      (moves_ite (aside_say _) ?_)))
    · exact moves_bind (aside_set_pending _ _ _) fun _ => aside_say _
    · split
      · exact aside_say _
      · exact aside_proceed cfg cmd b _ _ _ _

/-- A switch keeps it as well: it stops and queues, or is a start. -/
theorem aside_handle_switch (cfg : Config) (cmd : Command) (now : ℚ) (status : String → Status)
    (b : StartBeat) : Moves Aside (cfg.handle_switch cmd now status b) := by
  unfold Config.handle_switch
  split
  · exact aside_say _
  · refine moves_get_bind fun d => moves_ite ?_ (moves_ite (aside_handle_start cfg cmd b) ?_)
    · exact moves_bind aside_handle_stop fun _ => moves_bind (aside_set_pending _ _ _) fun _ =>
        aside_say _
    · exact moves_bind (aside_set_pending _ _ _) fun _ => aside_say _

/-- The tick fires the queued start at most, which is a launch like any other. -/
theorem aside_tend_pending (cfg : Config) (now : ℚ) (status : String → Status) (b : StartBeat) :
    Moves Aside (cfg.tend_pending now status b) := by
  have hkept : ∀ f : Lifecycle → Lifecycle, (∀ c, (f c).state.run_seq = c.state.run_seq) →
      (∀ c, (f c).run = c.run) → Moves Aside (update (·.onLifecycle f) : Handler) :=
    fun f hseq hrun => moves_update fun d =>
      aside_onLifecycle (hseq _) fun run h _ => (hrun _).symm.trans h
  unfold Config.tend_pending
  refine moves_get_bind fun d => ?_
  split
  · exact moves_pure
  · refine moves_ite moves_pure (moves_bind (hkept _ (fun _ => rfl) fun _ => rfl) fun _ => ?_)
    refine moves_ite ?_ (moves_ite moves_pure ?_)
    · exact moves_bind (hkept _ (fun _ => rfl) fun _ => rfl) fun _ => aside_handle_start _ _ _
    · exact moves_bind (hkept _ (fun _ => rfl) fun _ => rfl) fun _ => aside_say _

/-- A dead arm stops the run and leaves its account. -/
theorem aside_reap_dead_arm (side : String) : Moves Aside (reap_dead_arm side) := by
  unfold reap_dead_arm
  refine moves_get_bind fun d => ?_
  split
  · exact moves_pure
  · exact moves_ite (moves_bind (aside_say _) fun _ => aside_handle_stop) moves_pure

/-- Tending the arms stops the run at most and respawns arm nodes, no cameras. -/
theorem aside_tend_arms (beat : NodeBeat) : Moves Aside (tend_arms beat) := by
  unfold tend_arms
  refine moves_get_bind fun d => moves_bind (moves_mapM (fun unit => ?_) _) fun units =>
    moves_update fun d => aside_of_eq rfl rfl rfl rfl
  unfold tend_arm
  refine moves_ite (moves_ite moves_pure (moves_ite moves_pure moves_pure)) ?_
  refine moves_bind (moves_ite moves_pure (aside_reap_dead_arm _)) fun _ => ?_
  exact moves_get_bind fun d => moves_ite moves_pure moves_pure

/-- Tending the leaders' servers only says something. -/
theorem aside_tend_factr_servers (beat : Except Exc (List String)) :
    Moves Aside (tend_factr_servers beat) := by
  unfold tend_factr_servers
  exact moves_bind moves_call fun down => moves_get_bind fun d =>
    moves_ite (aside_say _) moves_pure

/-- Gravity compensation may stop the run and changes nothing else here. -/
theorem aside_handle_grav_comp (cfg : Config) (enable : Bool) (beat : CommandBeat) :
    Moves Aside (cfg.handle_grav_comp enable beat) := by
  unfold Config.handle_grav_comp
  refine moves_ite (aside_say _) (moves_ite (aside_say _) ?_)
  refine moves_bind moves_call fun signalled => ?_
  exact moves_get_bind fun d =>
    moves_ite (moves_bind aside_handle_stop fun _ => aside_say _) (aside_say _)

/-- Force feedback posts to the leaders and says how that went. -/
theorem aside_handle_force_feedback (cfg : Config) (enable : Bool) (beat : CommandBeat) :
    Moves Aside (cfg.handle_force_feedback enable beat) := by
  unfold Config.handle_force_feedback
  exact moves_ite (aside_say _) (moves_ite (aside_say _)
    (moves_bind moves_call fun signalled => aside_say _))

/-- Reconnecting an arm replaces an arm's node, not a camera's. -/
theorem aside_handle_reconnect_arm (cfg : Config) (cmd : Command) (beat : CommandBeat) :
    Moves Aside (cfg.handle_reconnect_arm cmd beat) := by
  unfold Config.handle_reconnect_arm
  refine moves_get_bind fun d => ?_
  split
  · exact aside_say _
  · refine moves_ite (aside_say _) (moves_ite (aside_say _) ?_)
    exact moves_bind (moves_update fun d => aside_of_eq rfl rfl rfl rfl) fun _ => aside_say _

/-- Every command but the one that replaces a camera is aside, one case for each kind of command. -/
theorem aside_dispatch (cfg : Config) (cmd : Command) (beat : CommandBeat)
    (hcamera : cmd.kind ≠ .respawn_camera) : Moves Aside (cfg.dispatch cmd beat) := by
  unfold Config.dispatch
  split
  · exact moves_update fun d => aside_of_eq rfl rfl rfl rfl
  · exact aside_handle_start _ _ _
  · exact aside_handle_switch _ _ _ _ _
  · exact aside_handle_stop
  · exact aside_handle_reconnect_arm _ _ _
  · next h => exact absurd h hcamera
  · exact moves_get_bind fun d => moves_ite (aside_say _) (moves_ite (aside_say _) (aside_say _))
  · exact moves_get_bind fun d => moves_ite (aside_say _) (moves_ite (aside_say _) (aside_say _))
  · exact aside_handle_grav_comp cfg true beat
  · exact aside_handle_grav_comp cfg false beat
  · exact aside_handle_force_feedback cfg true beat
  · exact aside_handle_force_feedback cfg false beat
  · exact aside_say _

/-- The events that leave both alone. -/
def Event.BySide (d : SessionDaemon) : Event → Prop
  | .command fields _ => (d.next fields).kind ≠ .respawn_camera
  | .watch_arm_dropout _ => False
  | .tend_cameras _ => False
  | .camera_death _ => False
  | _ => True

/-- A command is counted, then dispatched. -/
theorem exec_handle_command (cfg : Config) (d : SessionDaemon) (fields : List (String × Json))
    (beat : CommandBeat) : exec (cfg.handle (.command fields beat)) d =
      exec (cfg.dispatch (d.next fields) beat) d.receive := rfl

/-- Every event but the watchdog's poll and the cameras' own is aside, one case for each. -/
theorem aside_handle (cfg : Config) (d : SessionDaemon) (ev : Event) (hby : ev.BySide d) :
    Aside d (exec (cfg.handle ev) d).2 := by
  cases ev with
  | command fields beat =>
    have hreceive : Aside d d.receive := aside_onLifecycle rfl fun _ h _ => h
    rw [exec_handle_command]
    exact IsTrans.trans _ _ _ hreceive (aside_dispatch cfg _ beat hby d.receive)
  | reap_consumer =>
    refine aside_onLifecycle ?_ fun run hrun _ => ?_
    · unfold Lifecycle.reap_consumer
      split
      · rfl
      · split
        · rfl
        · rfl
    · unfold Lifecycle.reap_consumer at hrun
      split at hrun
      · exact hrun
      · split at hrun
        · exact hrun
        · exact nomatch hrun
  | tend_pending now status b => exact aside_tend_pending cfg now status b d
  | watch_arm_dropout status => exact hby.elim
  | tend_arms beat => exact aside_tend_arms beat d
  | tend_cameras beat => exact hby.elim
  | tend_factr_servers beat => exact aside_tend_factr_servers beat d
  | consumer_exit proc exitcode => exact aside_onLifecycle rfl fun _ h _ => h
  | arm_death name => exact aside_of_eq rfl rfl rfl rfl
  | camera_death name => exact hby.elim

/-- The camera events keep the account of the run as all others do; what they do to units is another
matter. -/
theorem attends_handle (cfg : Config) (d : SessionDaemon) (ev : Event)
    (hpoll : ∀ status, ev ≠ .watch_arm_dropout status) :
    Attends d (exec (cfg.handle ev) d).2 := by
  have hkept : ∀ d d' : SessionDaemon, d'.toLifecycle = d.toLifecycle →
      d'.watchdog = d.watchdog → Attends d d' := by
    intro d d' hlife hdog
    exact .inl ⟨by rw [hlife], hdog, fun _ h _ => by rwa [hlife] at h⟩
  by_cases hby : ev.BySide d
  · exact (aside_handle cfg d ev hby).attends
  cases ev with
  | command fields beat =>
    have hcamera : (d.next fields).kind = .respawn_camera := not_not.1 hby
    have hdispatch : Moves Attends (cfg.dispatch (d.next fields) beat) := by
      unfold Config.dispatch
      rw [hcamera]
      unfold handle_respawn_camera
      refine moves_get_bind fun d => ?_
      split
      · exact (aside_say _).imp fun _ _ h => h.attends
      · refine moves_ite ((aside_say _).imp fun _ _ h => h.attends) ?_
        exact moves_bind (moves_update fun d => hkept _ _ rfl rfl) fun _ =>
          (aside_say _).imp fun _ _ h => h.attends
    have hreceive : Attends d d.receive := .inl ⟨rfl, rfl, fun _ h _ => h⟩
    rw [exec_handle_command]
    exact IsTrans.trans _ _ _ hreceive (hdispatch d.receive)
  | watch_arm_dropout status => exact absurd rfl (hpoll status)
  | tend_cameras beat => exact hkept _ _ rfl rfl
  | camera_death name => exact hkept _ _ rfl rfl
  | reap_consumer => exact absurd trivial hby
  | tend_pending now status b => exact absurd trivial hby
  | tend_arms beat => exact absurd trivial hby
  | tend_factr_servers beat => exact absurd trivial hby
  | consumer_exit proc exitcode => exact absurd trivial hby
  | arm_death name => exact absurd trivial hby

/-- A poll of the watchdog touches no camera, though it may stop the run. -/
theorem same_cameras_watch (status : String → Status) :
    Moves (fun d d' => d'.cameras = d.cameras) (watch_arm_dropout status) := by
  have : Std.Refl fun d d' : SessionDaemon => d'.cameras = d.cameras := ⟨fun _ => rfl⟩
  have : IsTrans SessionDaemon fun d d' => d'.cameras = d.cameras :=
    ⟨fun _ _ _ h h' => h'.trans h⟩
  have hstop : Moves (fun d d' => d'.cameras = d.cameras) handle_stop :=
    aside_handle_stop.imp fun _ _ h => h.cameras
  have hsides : ∀ sides,
      Moves (fun d d' => d'.cameras = d.cameras) (watch_sides status sides) := by
    intro sides
    induction sides with
    | nil => exact moves_pure
    | cons side rest ih =>
      rw [watch_sides]
      refine moves_get_bind fun d => moves_ite ?_ (moves_ite ?_ ih)
      · exact moves_bind (moves_update fun d => rfl) fun _ => ih
      · refine moves_bind (moves_update fun d => rfl) fun _ => ?_
        exact moves_bind hstop fun _ => moves_pure
  unfold watch_arm_dropout
  refine moves_get_bind fun d => ?_
  split
  · exact moves_pure
  · refine moves_ite moves_pure (moves_bind (hsides _) fun stopped => ?_)
    exact moves_ite moves_pure (moves_update fun d => rfl)

/-- The command that replaces a camera replaces those of one name, or none. -/
theorem cameras_respawn_camera (cmd : Command) (beat : CommandBeat) (d : SessionDaemon) :
    (exec (handle_respawn_camera cmd beat) d).2.cameras = d.cameras ∨
      ∃ name, (exec (handle_respawn_camera cmd beat) d).2.cameras = d.cameras.map fun other =>
        if other.name = name then other.respawn beat.spawned_at else other := by
  have hensures : Ensures (handle_respawn_camera cmd beat) d fun _ d' =>
      d'.cameras = d.cameras ∨ ∃ name, d'.cameras = d.cameras.map fun other =>
        if other.name = name then other.respawn beat.spawned_at else other := by
    unfold handle_respawn_camera
    rw [ensures_get_bind]
    split
    · rw [ensures_say]
      exact .inl rfl
    · next unit _ =>
      split
      · rw [ensures_say]
        exact .inl rfl
      · rw [ensures_bind, ensures_update]
        dsimp only
        rw [ensures_say]
        exact .inr ⟨unit.name, rfl⟩
  exact hensures

end Handlers

end DualFlexivControl.Daemon
