/-
A start is all or nothing -- as long as the machines it asks answer as expected.

Up to the end of its `try` block `_handle_start` turns whatever goes wrong into a refusal.
Behind it are two gates that talk to other machines and catch the exceptions they expect:
the probe of the policy server an `OSError`, the question to the leaders an `OSError`, an
`HTTPException` or a `ValueError`. The rest goes through. A host name that cannot be encoded
is a `UnicodeError`, which no `OSError` is; a status body that is JSON but no object has no
`get`. [`Contained`] excludes exactly that, for the starts that get so far.
-/
import DualFlexivControl.Daemon.Start

set_option autoImplicit false

namespace DualFlexivControl.Daemon

open Effect
open Session (Phase)

/-! ## Which replies are contained -/

section Contained

/-- A reply that the leaders' gate takes for a yes or a no. -/
def Reply.Contained : Reply → Prop
  | .raised e => e.expected = true
  | .answered status body => status = 200 → ∀ value, body = some value →
      ∃ fields, value = .obj fields

theorem leader_disabled_ok_iff (reply : Reply) :
    (∃ disabled, leader_disabled reply = .ok disabled) ↔ reply.Contained := by
  unfold leader_disabled Reply.Contained
  cases reply with
  | raised e =>
    by_cases he : e.expected
    · simp [grav_comp_enabled, he]
    · simp [grav_comp_enabled, he]
  | answered status body =>
    by_cases hstatus : status = 200
    · cases body with
      | none => simp [grav_comp_enabled, hstatus, Exc.expected]
      -- Of the JSON values an object has a `get`; the rest raise an `AttributeError`.
      | some value => cases value <;> simp [grav_comp_enabled, hstatus, Exc.expected]
    · simp [grav_comp_enabled, hstatus, Exc.expected]

/-- Every server is asked, up to the first reply that is not contained. -/
theorem disabled_sides_ok_iff (reply : String → Reply) (servers : List String) :
    (∃ sides, disabled_sides reply servers = .ok sides) ↔
      ∀ side ∈ servers, (reply side).Contained := by
  induction servers with
  | nil => simp [disabled_sides]
  | cons side rest ih =>
    rw [List.forall_mem_cons, ← ih, ← leader_disabled_ok_iff, disabled_sides]
    cases leader_disabled (reply side) with
    | error e => simp [bind, Except.bind]
    | ok disabled =>
      cases disabled_sides reply rest with
      | error e => simp [bind, Except.bind]
      | ok others => simp [bind, Except.bind, pure, Except.pure]

/-- The probe succeeds or fails with the one exception its gate expects. -/
def StartBeat.ProbeContained (b : StartBeat) : Prop := ∀ e, b.probe = .error e → e = .os_error

/-- The machines a start has to ask, if it gets that far, answer with what its gates expect:
the policy server's probe of an eval, and the leaders of a collection whose streams are fresh. -/
def Contained (cfg : Config) (cmd : Command) (b : StartBeat) (d : SessionDaemon) : Prop :=
  ∀ phase config blockers consumer, Prepared cfg cmd b d phase config blockers consumer →
    (phase = .eval → config.remote = true → b.ProbeContained) ∧
    (phase = .collection → cfg.factr_stale_sides b = [] → cfg.sim = false →
      ∀ side ∈ cfg.servers, (b.reply side).Contained)

theorem preflight_run_ok_iff (b : StartBeat) (config : RunConfig) (phase : Phase) :
    (∃ refusal, preflight_run b config phase = .ok refusal) ↔
      (phase = .eval → config.remote = true → b.ProbeContained) := by
  unfold preflight_run StartBeat.ProbeContained
  by_cases hasked : phase = .eval ∧ config.remote = true
  · rw [if_pos hasked]
    cases hprobe : b.probe with
    | ok u => simp
    -- `preflight_run` catches an `OSError` and lets everything else through.
    | error e => cases e <;> simp [hasked]
  · rw [if_neg hasked]
    have hnot : phase = .eval → config.remote = true → False := fun h1 h2 => hasked ⟨h1, h2⟩
    simp only [Except.ok.injEq, exists_eq', true_iff]
    exact fun h1 h2 => (hnot h1 h2).elim

/-- The gates past the `try` block come to an answer exactly when the machines that they ask answer
with what they expect. -/
theorem start_refusal_ok_iff (cfg : Config) (b : StartBeat) (config : RunConfig) (phase : Phase) :
    (∃ refusal, cfg.start_refusal b config phase = .ok refusal) ↔
      (phase = .eval → config.remote = true → b.ProbeContained) ∧
      (phase = .collection → cfg.factr_stale_sides b = [] → cfg.sim = false →
        ∀ side ∈ cfg.servers, (b.reply side).Contained) := by
  rw [← preflight_run_ok_iff, ← disabled_sides_ok_iff]
  unfold Config.start_refusal Config.factr_grav_comp_disabled_sides
  by_cases hphase : phase = .collection
  · -- a collection has no server to probe
    subst hphase
    have hpreflight : preflight_run b config .collection = .ok none := by
      unfold preflight_run
      exact if_neg (by simp)
    rw [hpreflight]
    by_cases hstale : cfg.factr_stale_sides b = []
    · cases hsim : cfg.sim with
      | true => simp [bind, Except.bind, pure, Except.pure, hstale]
      | false =>
        cases disabled_sides b.reply cfg.servers with
        | error e => simp [bind, Except.bind, hstale]
        | ok limp => by_cases hlimp : limp = [] <;>
            simp [bind, Except.bind, pure, Except.pure, hstale, hlimp]
    · simp [bind, Except.bind, pure, Except.pure, hstale]
  · cases hpreflight : preflight_run b config phase with
    | error e => simp [bind, Except.bind]
    | ok refusal => cases refusal <;> simp [bind, Except.bind, pure, Except.pure, hphase]

theorem contained_iff (cfg : Config) (cmd : Command) (b : StartBeat) (d : SessionDaemon) :
    Contained cfg cmd b d ↔ ∀ e, ¬ Escapes cfg cmd b d e := by
  unfold Contained Escapes
  simp only [← start_refusal_ok_iff]
  constructor
  · rintro h e ⟨phase, config, blockers, consumer, hprepared, hraise⟩
    obtain ⟨refusal, hok⟩ := h phase config blockers consumer hprepared
    rw [hraise] at hok
    exact absurd hok (by simp)
  · intro h phase config blockers consumer hprepared
    cases hrefusal : cfg.start_refusal b config phase with
    | ok refusal => exact ⟨refusal, rfl⟩
    | error e => exact absurd ⟨phase, config, blockers, consumer, hprepared, hrefusal⟩ (h e)

end Contained

/-! ## All or nothing -/

section AllOrNothing

variable {cfg : Config} {cmd : Command} {b : StartBeat} {d : SessionDaemon} {phase : Phase}
  {config : RunConfig} {blockers : List (String × Blocker)} {consumer : ConsumerNode}

/-- A start that left no trace: nothing was put, nothing spawned, and no run is shown. -/
structure Untouched (c c' : Lifecycle) : Prop where
  sent : c'.sent = c.sent
  consumers : c'.consumers = c.consumers
  run : c'.run = c.run
  run_seq : c'.state.run_seq = c.state.run_seq
  last_outcome : c'.state.last_outcome = c.state.last_outcome
  state : c'.state.state = c.state.state

/-- A start that went ahead: one consumer, and one `EnterControl` for each commanded side
and for no other. An eval commands all the enabled sides of the session, or none. -/
structure Proceeded (cfg : Config) (cmd : Command) (b : StartBeat) (c c' : Lifecycle) : Prop where
  spawned : ∃ consumer, c'.consumers = c.consumers ++ [consumer]
  put : ∃ run put, c'.run = some run ∧ c'.sent = c.sent ++ put ∧
    (∀ side, (put.map Prod.fst).count side = if side ∈ run.command_sides then 1 else 0)
  eval : phase_of (cmd.get "phase") = some .eval → ∃ run composed, c'.run = some run ∧
    b.composer.compose (cmd.request .eval) = .ok composed ∧
    ((∀ side ∈ composed.enabled, cfg.follower_control_blocker (b.follower_status side) = none) →
      ∀ side, side ∈ run.command_sides ↔ side ∈ composed.enabled ∧ side ∈ cfg.session_qs) ∧
    ((∃ side ∈ composed.enabled, cfg.follower_control_blocker (b.follower_status side) ≠ none) →
      run.command_sides = [])

/-- The daemon comes back from `_handle_start`, and either nothing happened or all of it. -/
def AllOrNothing (cfg : Config) (cmd : Command) (b : StartBeat) (d : SessionDaemon) : Prop :=
  ∃ d', exec (cfg.handle_start cmd b) d = (.ok (), d') ∧
    (Untouched d.toLifecycle d'.toLifecycle ∨ Proceeded cfg cmd b d.toLifecycle d'.toLifecycle)

theorem enabled_nodup (config : RunConfig) : config.enabled.Nodup := by
  unfold RunConfig.enabled
  exact (List.filter_sublist.map _).nodup config.nodup

/-- No side is messaged twice: the arms are the keys of a dictionary. -/
theorem fan_out_nodup (cfg : Config) (config : RunConfig) (consumer : ConsumerNode) :
    (cfg.fan_out config consumer).Nodup := by
  have hsides : (cfg.command_sides config).Nodup := (enabled_nodup config).filter _
  unfold Config.fan_out
  split
  · exact hsides
  · exact hsides.filter _

@[simp] theorem enabled_inhibit (config : RunConfig) : config.inhibit.enabled = [] := by
  simp [RunConfig.enabled, RunConfig.inhibit]

theorem blockers_eq_nil_iff (cfg : Config) (b : StartBeat) (config : RunConfig) :
    cfg.blockers b config = [] ↔
      ∀ side ∈ config.enabled, cfg.follower_control_blocker (b.follower_status side) = none := by
  simp [Config.blockers, List.filterMap_eq_nil_iff]

/-- The follower gate does not touch the phase. -/
theorem follower_gate_phase (cfg : Config) (b : StartBeat) (phase : Phase) (config : RunConfig) :
    (cfg.follower_gate b phase config).1.phase = config.phase := by
  unfold Config.follower_gate
  split
  · rfl
  · rfl

/-- What the `try` block of a start computes: the composed configuration, what the follower gate
makes of it, and the consumer. -/
theorem prepare_ok (h : cfg.prepare b cmd phase = .ok (config, blockers, consumer)) :
    ∃ composed, b.composer.compose (cmd.request phase) = .ok composed ∧
      cfg.follower_gate b phase composed = (config, blockers) ∧
      build_consumer b config = .ok consumer ∧ config.phase = phase := by
  unfold Config.prepare at h
  cases hcompose : b.composer.compose (cmd.request phase) with
  | error e => simp [hcompose, bind, Except.bind] at h
  | ok composed =>
    simp only [hcompose, bind, Except.bind, pure, Except.pure] at h
    cases hbuild : build_consumer b (cfg.follower_gate b phase composed).1 with
    | error e => simp [hbuild] at h
    | ok node =>
      simp only [hbuild, Except.ok.injEq, Prod.mk.injEq] at h
      obtain ⟨rfl, rfl, rfl⟩ := h
      refine ⟨composed, rfl, rfl, hbuild, ?_⟩
      rw [follower_gate_phase]
      exact b.composer.pinned _ _ hcompose

/-- Only a skill declares the sides it drives; in the other phases the sides come from the rig. -/
theorem drive_sides_of_ne_skill (h : build_consumer b config = .ok consumer)
    (hphase : config.phase ≠ .skill) : consumer.drive_sides = none := by
  unfold build_consumer at h
  cases hcase : config.phase with
  | skill => exact absurd hcase hphase
  | collection =>
    cases hnode : b.build_node <;> simp [hcase, hnode, bind, Except.bind, pure, Except.pure] at h
    rw [← h]
    rfl
  | eval =>
    cases hnode : b.build_node <;> simp [hcase, hnode, bind, Except.bind, pure, Except.pure] at h
    rw [← h]
    rfl

/-- An eval commands every enabled side of the session, or, when a follower is blocked,
none: a bimanual policy is not executed on one arm. -/
theorem eval_fan_out (h : cfg.prepare b cmd .eval = .ok (config, blockers, consumer)) :
    ∃ composed, b.composer.compose (cmd.request .eval) = .ok composed ∧
      (cfg.blockers b composed = [] → cfg.fan_out config consumer = cfg.command_sides composed) ∧
      (cfg.blockers b composed ≠ [] → cfg.fan_out config consumer = []) := by
  obtain ⟨composed, hcompose, hgate, hbuild, hphase⟩ := prepare_ok h
  have hdrive : consumer.drive_sides = none :=
    drive_sides_of_ne_skill hbuild (by rw [hphase]; decide)
  refine ⟨composed, hcompose, fun hnone => ?_, fun hsome => ?_⟩
  · rw [Config.follower_gate, if_neg (by simp [hnone]), Prod.mk.injEq] at hgate
    rw [Config.fan_out, hdrive, ← hgate.1]
  -- One blocked follower inhibits every arm of the config, so that none is enabled.
  · rw [Config.follower_gate, if_pos ⟨rfl, hsome⟩, Prod.mk.injEq] at hgate
    rw [Config.fan_out, hdrive, ← hgate.1]
    simp [Config.command_sides]

theorem launch_proceeded (h : Passes cfg cmd b d phase config blockers consumer) :
    Proceeded cfg cmd b d.toLifecycle
      (d.launch cmd phase (cfg.fan_out config consumer) b.time) where
  spawned := ⟨_, rfl⟩
  put := by
    refine ⟨_, _, rfl, rfl, fun side => ?_⟩
    rw [List.map_map]
    show (List.map id _).count side = _
    rw [List.map_id]
    exact (fan_out_nodup cfg config consumer).count
  eval := by
    intro hnamed
    rw [phase_of_validate_start h.valid, Option.some.injEq] at hnamed
    subst hnamed
    obtain ⟨composed, hcompose, hfree, hblocked⟩ := eval_fan_out h.prepared
    refine ⟨_, composed, rfl, hcompose, fun hnone side => ?_, fun hsome => ?_⟩
    · show side ∈ cfg.fan_out config consumer ↔ _
      rw [hfree ((blockers_eq_nil_iff cfg b composed).2 hnone)]
      simp [Config.command_sides]
    · obtain ⟨side, hside, hblock⟩ := hsome
      refine hblocked fun hnil => hblock ?_
      exact (blockers_eq_nil_iff cfg b composed).1 hnil side hside

/-- A start is all or nothing exactly when the machines it asks answer with what its gates
expect. Any other exception of the probe, and a leader's reply that is JSON but no object,
ends the daemon. -/
theorem start_all_or_nothing_iff (cfg : Config) (cmd : Command) (b : StartBeat)
    (d : SessionDaemon) : AllOrNothing cfg cmd b d ↔ Contained cfg cmd b d := by
  rw [contained_iff]
  have houtcome := handle_start_outcome cfg cmd b d
  unfold Ensures at houtcome
  unfold AllOrNothing
  generalize exec (cfg.handle_start cmd b) d = out at houtcome
  obtain ⟨r, d'⟩ := out
  simp only [Prod.mk.injEq]
  simp only at houtcome
  generalize hc : d'.toLifecycle = c' at houtcome
  cases houtcome with
  | refused hcontained _ hpasses =>
    refine iff_of_true ⟨d', ⟨rfl, rfl⟩, .inl ?_⟩ hcontained
    rw [hc]
    exact ⟨rfl, rfl, rfl, rfl, rfl, rfl⟩
  | queued hqueues =>
    refine iff_of_true ⟨d', ⟨rfl, rfl⟩, .inl ?_⟩ ?_
    · rw [hc]
      exact ⟨rfl, rfl, rfl, rfl, rfl, rfl⟩
    · rintro e ⟨phase, config, blockers, consumer, hprepared, -⟩
      exact hqueues.busy hprepared.idle
  -- Passed gates have answered, so nothing can have escaped from them.
  | launched phase config blockers consumer hpass =>
    refine iff_of_true ⟨d', ⟨rfl, rfl⟩, .inr ?_⟩ ?_
    · rw [hc]
      exact launch_proceeded hpass
    · rintro e ⟨phase', config', blockers', consumer', hprepared, hraise⟩
      obtain ⟨rfl, rfl, rfl, rfl⟩ := hpass.toPrepared.unique hprepared
      rw [hpass.unrefused] at hraise
      exact absurd hraise (by simp)
  | escaped e hescapes =>
    refine iff_of_false ?_ fun hcontained => hcontained e hescapes
    rintro ⟨d'', ⟨hok, -⟩, -⟩
    exact absurd hok (by simp)

/-- A leader that answers `[]` ends the daemon: a list has no `get`. -/
theorem list_reply_escapes :
    ¬ AllOrNothing left_session (collect 1 "start")
      (left_beat 0 none (.answered 200 (some (.arr [])))) (.init [left_arm] []) := by
  rintro ⟨d', hexec, -⟩
  have hraised : (exec (left_session.handle_start (collect 1 "start")
      (left_beat 0 none (.answered 200 (some (.arr []))))) (.init [left_arm] [])).1 =
        .error .attribute_error := by rfl
  rw [hexec] at hraised
  exact absurd hraised (by simp)

end AllOrNothing

end DualFlexivControl.Daemon
