/-
What a collection tick commands and records: `CollectionLoop.tick` and the leaders it reads.

A tick takes the leaders that are fresh, fills in the other recorded sides from the last known
targets or with zeros, commands the arms that have a real target, and records one frame. The
state keeps a log of the posts and frames, each with the number of the tick it was made in;
the code keeps none of that. The invariant [`Held`] says that the remembered targets are those
of the newest fresh sample of their side; the zeros of a side that has none go into the frame
but never into the memory, which is what the commanding part asks.
-/
import DualFlexivControl.Brain.Writers
import DualFlexivControl.Collection.Features
import DualFlexivControl.Lib.Effects

set_option autoImplicit false

namespace DualFlexivControl.Collection

open Results Tiling Control Brain Effect

/-! ## The leaders that are fresh -/

/-- What `source.latest(name)` gives: a `KeyError` for a stream that is not subscribed, or the
newest sample with its time stamp, if there is one. -/
inductive Latest (F : Type)
  | key_error
  | empty
  | sample (newest : Sample F) (newest_t_ns : ℤ)

/-- `fresh_leader_positions`: the newest sample of every configured leader whose stream has one
that is not too old. -/
def fresh_leader_positions {F : Type} (servers : List String) (max_age_ns now_ns : ℤ)
    (latest : String → Latest F) : BySide (Sample F) := fun side =>
  if servers.contains side then
    match latest (factr_stream_name side) with
    | .key_error => none
    | .empty => none
    | .sample newest newest_t_ns =>
      if now_ns - newest_t_ns > max_age_ns then none else some newest
  else none

/-- A leader that is handed on is that side's newest sample, and fresh. -/
theorem fresh_leader_positions_some {F : Type} {servers : List String} {max_age_ns now_ns : ℤ}
    {latest : String → Latest F} {side : String} {raw : Sample F} :
    fresh_leader_positions servers max_age_ns now_ns latest side = some raw ↔
      side ∈ servers ∧ ∃ t, latest (factr_stream_name side) = .sample raw t ∧
        now_ns - t ≤ max_age_ns := by
  unfold fresh_leader_positions
  rw [List.contains_eq_mem]
  by_cases hside : side ∈ servers
  · rw [if_pos (decide_eq_true hside)]
    cases latest (factr_stream_name side) with
    | key_error => simp
    | empty => simp
    | sample newest t =>
      dsimp only
      split
      · rename_i hold
        constructor
        · intro h
          exact nomatch h
        · rintro ⟨_, t', heq, hage⟩
          injection heq with _ ht
          omega
      · rename_i hage
        constructor
        · intro h
          rw [Option.some.inj h]
          exact ⟨hside, t, rfl, by omega⟩
        · rintro ⟨_, t', heq, _⟩
          injection heq with hraw _
          rw [hraw]
  · rw [if_neg (by simpa using hside)]
    constructor
    · intro h
      exact nomatch h
    · intro h
      exact absurd h.1 hside

/-! ## The tick -/

/-- What the brain posts. -/
inductive Post (F : Type)
  | setpoint (side : String) (values : List F)
  | gripper (side : String) (value : F)
  deriving DecidableEq, Repr

/-- What the loop is built from. -/
structure Teleop (F F32 U8 : Type) where
  frames : FrameBuilder
  command_arms : List (String × ControlCfg)
  writers : Writers
  f32 : F → F32
  u8 : F → U8

/-- The loop's memory and the log. -/
structure TeleopState (F F32 U8 : Type) where
  last_qd : BySide (List F)
  last_grip : BySide F
  tick_count : ℕ
  posts : List (ℕ × Post F)
  recorded : List (ℕ × Frame F32 U8)

/-- What a tick raises. -/
inductive TickError
  | schema (error : SchemaError)
  | write (error : WriteError)
  | no_target (side : String)
  | frame (error : FrameError)
  deriving DecidableEq, Repr

/-- What a tick reads: the fresh leaders, and the observation. -/
structure Reads (F : Type) where
  leaders : BySide (Sample F)
  observation : Observation F

section Tick

variable {F F32 U8 : Type} [Zero F]

/-- Before the first tick. -/
def TeleopState.init : TeleopState F F32 U8 := ⟨fun _ => none, fun _ => none, 0, [], []⟩

/-- A program of the loop. -/
abbrev TeleopM (F F32 U8 : Type) := Effect TickError (TeleopState F F32 U8)

/-- The fresh entries in, the others as they were: only recorded sides have a fresh entry. -/
def remember {α : Type} (last fresh : BySide α) : BySide α := fun side =>
  (fresh side).or (last side)

/-- The targets of the recorded sides with no fresh sample: the last known, else zeros. -/
def fill_targets (fb : FrameBuilder) (last_qd : BySide (List F)) (last_grip : BySide F)
    (acts : Targets F) : Targets F where
  q_d side :=
    match fb.layout.part_of side with
    | none => acts.q_d side
    | some part =>
      (acts.q_d side).or (some ((last_qd side).getD (List.replicate part.dim 0)))
  gripper side :=
    match fb.layout.part_of side with
    | none => acts.gripper side
    | some _ =>
      match acts.q_d side with
      | some _ => acts.gripper side
      | none => some ((last_grip side).getD 0)

/-- Append to the log. -/
def post (p : Post F) : TeleopM F F32 U8 Unit :=
  update fun s => { s with posts := s.posts ++ [(s.tick_count, p)] }

/-- `brain.command` -/
def command (w : Writers) (side : String) (setpoint : List F) : TeleopM F F32 U8 Unit :=
  match w.command side setpoint with
  | .error e => throw (.write e)
  | .ok _ => post (.setpoint side setpoint)

/-- `brain.command_gripper`: a no-op for an arm without a gripper channel. -/
def command_gripper (w : Writers) (side : String) (value : F) : TeleopM F F32 U8 Unit :=
  if w.gripper_sides.contains side then post (.gripper side value) else pure ()

/-- `{"q_d": q_d, "dq_d": np.zeros_like(q_d)}` -/
def qpos_fields (q_d : List F) (field : String) : Option (List F) :=
  if field = "q_d" then some q_d
  else if field = "dq_d" then some (List.replicate q_d.length 0)
  else none

/-- The setpoint of a commanded arm: posted for kind `qpos` only. -/
def command_qpos (loop : Teleop F F32 U8) (side : String) (control : ControlCfg)
    (q_d : List F) : TeleopM F F32 U8 Unit :=
  if control.kind = .qpos then
    match control.pack_streamed (qpos_fields q_d) with
    | .error e => throw (.schema e)
    | .ok setpoint => command loop.writers side setpoint
  else pure ()

/-- The body of the commanding loop, for one arm. -/
def command_arm (loop : Teleop F F32 U8) (targets : Targets F) (side : String)
    (control : ControlCfg) : TeleopM F F32 U8 Unit := do
  let s ← get
  if (s.last_qd side).isNone then pure ()
  else
    match targets.q_d side, targets.gripper side with
    | some q_d, some gripper => do
      command_qpos loop side control q_d
      command_gripper loop.writers side gripper
    | _, _ => throw (.no_target side)

/-- `for side, arm in self.command_arms.items()` -/
def command_all (loop : Teleop F F32 U8) (targets : Targets F) :
    List (String × ControlCfg) → TeleopM F F32 U8 Unit
  | [] => pure ()
  | (side, control) :: rest => do
    command_arm loop targets side control
    command_all loop targets rest

/-- `self.recorder.add_frame(frame)` -/
def add_frame (frame : Frame F32 U8) : TeleopM F F32 U8 Unit :=
  update fun s => { s with recorded := s.recorded ++ [(s.tick_count, frame)] }

/-- The recording end of a tick: whether a frame was recorded. -/
def record (loop : Teleop F F32 U8) (observation : Observation F) (targets : Targets F) :
    TeleopM F F32 U8 Bool :=
  match loop.frames.build loop.f32 loop.u8 observation targets with
  | .error e => throw (.frame e)
  | .ok none => pure false
  | .ok (some frame) => do
    add_frame frame
    pure true

/-- `CollectionLoop.tick` -/
def teleop_tick (loop : Teleop F F32 U8) (reads : Reads F) : TeleopM F F32 U8 Bool := do
  let acts := loop.frames.actions_from_leaders reads.leaders
  let s ← get
  let targets := fill_targets loop.frames s.last_qd s.last_grip acts
  update fun s => { s with
    last_qd := remember s.last_qd acts.q_d
    last_grip := remember s.last_grip acts.gripper }
  command_all loop targets loop.command_arms
  record loop reads.observation targets

/-- The ticks of a run, up to the first that raises. -/
def teleop_run (loop : Teleop F F32 U8) : List (Reads F) → TeleopM F F32 U8 Unit
  | [] => pure ()
  | reads :: rest => do
    let _ ← teleop_tick loop reads
    update fun s => { s with tick_count := s.tick_count + 1 }
    teleop_run loop rest

end Tick

/-! ## What is remembered -/

/-- The newest fresh sample of a side among those seen. -/
def newest_fresh {F : Type} (seen : List (BySide (Sample F))) (side : String) :
    Option (Sample F) := (seen.filterMap fun leaders => leaders side).getLast?

theorem newest_fresh_snoc {F : Type} (seen : List (BySide (Sample F)))
    (leaders : BySide (Sample F)) (side : String) :
    newest_fresh (seen ++ [leaders]) side = (leaders side).or (newest_fresh seen side) := by
  unfold newest_fresh
  rw [List.filterMap_append, List.getLast?_append]
  congr 1
  cases hraw : leaders side with
  | none => simp [hraw]
  | some raw => simp [hraw]

section Memory

variable {F F32 U8 : Type} {fb : FrameBuilder} {seen : List (BySide (Sample F))}
  {leaders : BySide (Sample F)} {side : String}

/-- The q_d block of the newest fresh sample of a recorded side. -/
def held_qd (fb : FrameBuilder) (seen : List (BySide (Sample F))) (side : String) :
    Option (List F) := do
  let part ← fb.layout.part_of side
  let raw ← newest_fresh seen side
  some (raw.values.take part.dim)

/-- Its trailing value. -/
def held_grip (fb : FrameBuilder) (seen : List (BySide (Sample F))) (side : String) :
    Option F := do
  let _ ← fb.layout.part_of side
  let raw ← newest_fresh seen side
  some raw.trailing

/-- What a tick holds for a side is the newest sample's block and trailing value. -/
theorem held_some {q_d : List F} (h : held_qd fb seen side = some q_d) :
    ∃ part raw, fb.layout.part_of side = some part ∧ newest_fresh seen side = some raw ∧
      q_d = raw.values.take part.dim ∧ held_grip fb seen side = some raw.trailing := by
  unfold held_qd at h
  unfold held_grip
  cases hpart : fb.layout.part_of side with
  | none =>
    rw [hpart] at h
    exact nomatch h
  | some part =>
    cases hraw : newest_fresh seen side with
    | none =>
      rw [hpart, hraw] at h
      exact nomatch h
    | some raw =>
      rw [hpart, hraw] at h
      exact ⟨part, raw, rfl, rfl, (Option.some.inj h).symm, rfl⟩

variable [Zero F]

/-- Remembering the fresh leaders makes the memory true of all leaders seen. -/
theorem remember_held :
    remember (held_qd fb seen) (fb.actions_from_leaders leaders).q_d side =
        held_qd fb (seen ++ [leaders]) side ∧
      remember (held_grip fb seen) (fb.actions_from_leaders leaders).gripper side =
        held_grip fb (seen ++ [leaders]) side := by
  unfold remember held_qd held_grip
  rw [newest_fresh_snoc]
  cases hpart : fb.layout.part_of side with
  | none =>
    rw [(actions_of_unrecorded hpart).1, (actions_of_unrecorded hpart).2]
    exact ⟨rfl, rfl⟩
  | some part =>
    rw [(actions_of_part hpart).1, (actions_of_part hpart).2]
    cases leaders side with
    | none => exact ⟨rfl, rfl⟩
    | some raw => exact ⟨rfl, rfl⟩

/-- The targets of a tick are what the memory will hold, wherever it holds anything: the zeros
stand only where it holds nothing. -/
theorem fill_targets_held {q_d : List F} (h : held_qd fb (seen ++ [leaders]) side = some q_d) :
    (fill_targets fb (held_qd fb seen) (held_grip fb seen)
        (fb.actions_from_leaders leaders)).q_d side = some q_d ∧
      (fill_targets fb (held_qd fb seen) (held_grip fb seen)
        (fb.actions_from_leaders leaders)).gripper side =
        held_grip fb (seen ++ [leaders]) side := by
  obtain ⟨part, raw, hpart, hraw, rfl, hgrip⟩ := held_some h
  rw [hgrip]
  unfold fill_targets held_qd held_grip
  rw [newest_fresh_snoc] at hraw
  dsimp only
  rw [hpart, (actions_of_part hpart).1, (actions_of_part hpart).2]
  cases hfresh : leaders side with
  | some fresh =>
    rw [hfresh] at hraw
    have heq : fresh = raw := Option.some.inj hraw
    rw [heq]
    exact ⟨rfl, rfl⟩
  | none =>
    rw [hfresh] at hraw
    have hheld : newest_fresh seen side = some raw := hraw
    rw [hheld]
    exact ⟨rfl, rfl⟩

end Memory

/-! ## What is posted and recorded -/

section Log

variable {F F32 U8 : Type} [Zero F]

/-- A setpoint of the streamed fields `q_d` and `dq_d`: these targets, and zeros. -/
def CarriesTargets (control : ControlCfg) (q_d values : List F) : Prop :=
  ∃ parts, List.Forall₂ (fun f part => (f = "q_d" ∧ part = q_d) ∨
    (f = "dq_d" ∧ part = List.replicate q_d.length 0)) control.streamed parts ∧
    values = parts.flatten

/-- A post that carries the newest fresh sample of its own side: for a commanded qpos arm its
q_d block, for a gripper its trailing value. -/
def Faithful (loop : Teleop F F32 U8) (seen : List (BySide (Sample F))) : Post F → Prop
  | .setpoint side values => ∃ part raw control, loop.frames.layout.part_of side = some part ∧
      newest_fresh seen side = some raw ∧ (side, control) ∈ loop.command_arms ∧
      control.kind = .qpos ∧ CarriesTargets control (raw.values.take part.dim) values
  | .gripper side value => ∃ raw, newest_fresh seen side = some raw ∧ value = raw.trailing

/-- A frame whose action blocks carry the newest fresh samples of their sides, where there are
any. -/
def RecordsHeld (loop : Teleop F F32 U8) (seen : List (BySide (Sample F)))
    (frame : Frame F32 U8) : Prop :=
  ∀ b ∈ loop.frames.layout.action_blocks, ∀ raw, newest_fresh seen b.label.side = some raw →
    slice b frame.action =
      (raw.values.take b.label.dim).map loop.f32 ++ [loop.f32 raw.trailing]

/-- The leaders read in the first ticks, up to the given one. -/
def seen_by (run : List (Reads F)) (tick : ℕ) : List (BySide (Sample F)) :=
  (run.take (tick + 1)).map Reads.leaders

/-- The log of a run: every post and every frame is true of the leaders read by then. -/
structure Logged (loop : Teleop F F32 U8) (run : List (Reads F))
    (s : TeleopState F F32 U8) : Prop where
  posts : ∀ e ∈ s.posts, Faithful loop (seen_by run e.1) e.2
  recorded : ∀ e ∈ s.recorded, RecordsHeld loop (seen_by run e.1) e.2

/-- The state in a tick, once it has read its leaders. -/
structure InTick (loop : Teleop F F32 U8) (run : List (Reads F)) (tick : ℕ)
    (s : TeleopState F F32 U8) : Prop extends Logged loop run s where
  count : s.tick_count = tick
  qd : s.last_qd = held_qd loop.frames (seen_by run tick)
  grip : s.last_grip = held_grip loop.frames (seen_by run tick)

/-- The targets a tick may command and record: the held ones wherever something is held. -/
def HeldTargets (loop : Teleop F F32 U8) (seen : List (BySide (Sample F)))
    (targets : Targets F) : Prop :=
  ∀ side q_d, held_qd loop.frames seen side = some q_d →
    targets.q_d side = some q_d ∧ targets.gripper side = held_grip loop.frames seen side

variable {loop : Teleop F F32 U8} {run : List (Reads F)} {tick : ℕ} {targets : Targets F}
  {seen : List (BySide (Sample F))}

/-- Posting what is true of the leaders read. -/
theorem keeps_post {p : Post F} (hp : Faithful loop (seen_by run tick) p) :
    Keeps (InTick loop run tick) (post p : TeleopM F F32 U8 Unit) := by
  intro s hs
  refine ⟨⟨?_, hs.recorded⟩, hs.count, hs.qd, hs.grip⟩
  intro e he
  rcases List.mem_append.1 he with he | he
  · exact hs.posts e he
  · rw [List.mem_singleton.1 he, hs.count]
    exact hp

theorem carries_targets {control : ControlCfg} {q_d values : List F}
    (h : control.pack_streamed (qpos_fields q_d) = .ok values) :
    CarriesTargets control q_d values := by
  obtain ⟨parts, hparts, hvalues⟩ := pack_streamed_ok.1 h
  refine ⟨parts, hparts.imp ?_, hvalues⟩
  intro f part hf
  unfold qpos_fields at hf
  split at hf
  · rename_i hq
    exact .inl ⟨hq, (Option.some.inj hf).symm⟩
  · split at hf
    · rename_i hdq
      exact .inr ⟨hdq, (Option.some.inj hf).symm⟩
    · exact nomatch hf

/-- One arm: commanded only where something is held, and then with it. -/
theorem keeps_command_arm (htargets : HeldTargets loop (seen_by run tick) targets)
    {side : String} {control : ControlCfg} (harm : (side, control) ∈ loop.command_arms) :
    Keeps (InTick loop run tick) (command_arm loop targets side control) := by
  intro s hs
  unfold command_arm
  rw [ensures_get_bind, hs.qd]
  cases hheld : held_qd loop.frames (seen_by run tick) side with
  | none => exact hs
  | some q_d =>
    obtain ⟨part, raw, hpart, hraw, hq_d, hgrip⟩ := held_some hheld
    obtain ⟨htq, htg⟩ := htargets side q_d hheld
    rw [htq, htg, hgrip, Option.isNone_some, if_neg Bool.false_ne_true]
    have hgripper : Keeps (InTick loop run tick)
        (command_gripper loop.writers side raw.trailing : TeleopM F F32 U8 Unit) :=
      keeps_ite (keeps_post ⟨raw, hraw, rfl⟩) keeps_pure
    refine keeps_bind ?_ (fun _ => hgripper) s hs
    unfold command_qpos
    refine keeps_ite' (fun hkind => ?_) fun _ => keeps_pure
    cases hpack : control.pack_streamed (qpos_fields q_d) with
    | error e => exact keeps_throw
    | ok values =>
      have hpost : Faithful loop (seen_by run tick) (.setpoint side values) := by
        rw [hq_d] at hpack
        exact ⟨part, raw, control, hpart, hraw, harm, hkind, carries_targets hpack⟩
      dsimp only
      unfold command
      cases loop.writers.command side values with
      | error e => exact keeps_throw
      | ok _ => exact keeps_post hpost

theorem keeps_command_all (htargets : HeldTargets loop (seen_by run tick) targets)
    {arms : List (String × ControlCfg)} (harms : ∀ arm ∈ arms, arm ∈ loop.command_arms) :
    Keeps (InTick loop run tick) (command_all loop targets arms) := by
  induction arms with
  | nil => exact keeps_pure
  | cons arm rest ih =>
    exact keeps_bind (keeps_command_arm htargets (harms arm List.mem_cons_self))
      fun _ => ih fun arm' harm' => harms arm' (List.mem_cons_of_mem _ harm')

/-- A frame that is built packs the targets of the tick, both the joints' and the grippers', by the
layout of its builder. -/
theorem action_of_build {fb : FrameBuilder} {f32 : F → F32} {u8 : F → U8}
    {observation : Observation F} {frame : Frame F32 U8}
    (h : fb.build f32 u8 observation targets = .ok (some frame)) :
    fb.layout.pack_action f32 targets.q_d targets.gripper = .ok frame.action := by
  unfold FrameBuilder.build at h
  cases hstate : newest_of observation fb.layout.state_stream_names with
  | none =>
    rw [hstate] at h
    exact nomatch h
  | some _ =>
    rw [hstate] at h
    obtain ⟨state, -, h⟩ := bind_ok.1 h
    split at h
    · exact nomatch h
    · obtain ⟨action, haction, h⟩ := bind_ok.1 h
      split at h
      · obtain ⟨images, -, h⟩ := bind_ok.1 h
        cases images with
        | none => exact nomatch pure_ok.1 h
        | some images =>
          have hframe := Option.some.inj (pure_ok.1 h)
          rw [mapError_ok.1 haction, ← hframe]
      · exact nomatch h

/-- A packed action carries the held targets of every side that has any. -/
theorem records_held (htargets : HeldTargets loop seen targets) {frame : Frame F32 U8}
    (h : loop.frames.layout.pack_action loop.f32 targets.q_d targets.gripper =
      .ok frame.action) : RecordsHeld loop seen frame := by
  intro b hb raw hraw
  have hpart := DFCStateActionLayout.part_of_action_block hb
  have hheld : held_qd loop.frames seen b.label.side =
      some (raw.values.take b.label.dim) := by
    unfold held_qd
    rw [hpart, hraw]
    rfl
  obtain ⟨htq, htg⟩ := htargets _ _ hheld
  obtain ⟨-, hblocks⟩ := DFCStateActionLayout.pack_action_spec h
  obtain ⟨value, hvalue, -, hslice⟩ := hblocks b hb
  have hvalue' : value = raw.values.take b.label.dim :=
    Option.some.inj (hvalue.symm.trans htq)
  have hgrip : held_grip loop.frames seen b.label.side = some raw.trailing := by
    unfold held_grip
    rw [hpart, hraw]
    rfl
  rw [hslice, hvalue', htg, hgrip]
  rfl

/-- The recording end of a tick: what it appends to the dataset holds the same targets that the tick
has posted. -/
theorem keeps_record (htargets : HeldTargets loop (seen_by run tick) targets)
    (observation : Observation F) :
    Keeps (InTick loop run tick) (record loop observation targets) := by
  unfold record
  cases hbuild : loop.frames.build loop.f32 loop.u8 observation targets with
  | error e => exact keeps_throw
  | ok built =>
    cases built with
    | none => exact keeps_pure
    | some frame =>
      refine keeps_bind ?_ fun _ => keeps_pure
      intro s hs
      refine ⟨⟨hs.posts, ?_⟩, hs.count, hs.qd, hs.grip⟩
      intro e he
      rcases List.mem_append.1 he with he | he
      · exact hs.recorded e he
      · rw [List.mem_singleton.1 he, hs.count]
        exact records_held htargets (action_of_build hbuild)

/-- The step lemma: a tick leaves a true log, and where it returns the memory of the leaders it
has read. -/
theorem tick_logged {reads : Reads F} {s : TeleopState F F32 U8}
    (hread : seen_by run tick = seen ++ [reads.leaders]) (hlog : Logged loop run s)
    (hcount : s.tick_count = tick) (hqd : s.last_qd = held_qd loop.frames seen)
    (hgrip : s.last_grip = held_grip loop.frames seen) :
    Ensures (teleop_tick loop reads) s fun _ s' => InTick loop run tick s' := by
  unfold teleop_tick
  rw [ensures_get_bind, hqd, hgrip]
  have htargets : HeldTargets loop (seen_by run tick)
      (fill_targets loop.frames (held_qd loop.frames seen) (held_grip loop.frames seen)
        (loop.frames.actions_from_leaders reads.leaders)) := by
    rw [hread]
    intro side q_d hheld
    exact fill_targets_held hheld
  refine keeps_bind (keeps_command_all htargets fun _ harm => harm)
    (fun _ => keeps_record htargets reads.observation) _ ?_
  refine ⟨⟨hlog.posts, hlog.recorded⟩, hcount, ?_, ?_⟩
  · funext side
    dsimp only
    rw [hread, hqd]
    exact remember_held.1
  · funext side
    dsimp only
    rw [hread, hgrip]
    exact remember_held.2

/-- The run lemma: from a state with a true log and memory, the rest of a run adds only true
entries. -/
theorem run_logged (rest : List (Reads F)) :
    ∀ (past : List (Reads F)) (s : TeleopState F F32 U8), Logged loop (past ++ rest) s →
      s.tick_count = past.length →
      s.last_qd = held_qd loop.frames (past.map Reads.leaders) →
      s.last_grip = held_grip loop.frames (past.map Reads.leaders) →
      Ensures (teleop_run loop rest) s fun _ s' => Logged loop (past ++ rest) s' := by
  induction rest with
  | nil =>
    intro past s hlog _ _ _
    exact hlog
  | cons reads rest ih =>
    intro past s hlog hcount hqd hgrip
    have hsplit : past ++ reads :: rest = (past ++ [reads]) ++ rest := List.append_cons ..
    -- what has been seen at this tick is what came before it, and its own reads
    have hread : seen_by (past ++ reads :: rest) past.length =
        past.map Reads.leaders ++ [reads.leaders] := by
      have hlength : (past ++ [reads]).length = past.length + 1 := List.length_append
      unfold seen_by
      rw [hsplit, ← hlength, List.take_left, List.map_append]
      rfl
    refine (tick_logged hread hlog hcount hqd hgrip).bind ?_ fun _ s' hs' => hs'.toLogged
    intro _ s' hs'
    have hmemory : (past ++ [reads]).map Reads.leaders =
        seen_by (past ++ reads :: rest) past.length := by
      rw [hread, List.map_append]
      rfl
    have hnext := ih (past ++ [reads]) { s' with tick_count := s'.tick_count + 1 }
      (by
        rw [← hsplit]
        exact ⟨hs'.posts, hs'.recorded⟩)
      (by
        rw [List.length_append]
        exact congrArg (· + 1) hs'.count)
      (by
        rw [hmemory]
        exact hs'.qd)
      (by
        rw [hmemory]
        exact hs'.grip)
    rw [← hsplit] at hnext
    exact hnext

/-- Collection never fabricates a command. In every run, each setpoint posted in a tick is for a
commanded qpos arm and carries the q_d block, with zero dq_d, of the newest fresh sample of its
own side among the leaders read up to that tick; each gripper post carries such a sample's
trailing value; and each recorded frame holds the same values for every side that has been
fresh. -/
theorem posts_are_faithful (loop : Teleop F F32 U8) (run : List (Reads F)) :
    Logged loop run (exec (teleop_run loop run) TeleopState.init).2 := by
  refine run_logged run [] TeleopState.init ⟨?_, ?_⟩ rfl ?_ ?_
  · intro e he
    exact absurd he List.not_mem_nil
  · intro e he
    exact absurd he List.not_mem_nil
  · funext side
    unfold held_qd
    cases loop.frames.layout.part_of side with
    | none => rfl
    | some part => rfl
  · funext side
    unfold held_grip
    cases loop.frames.layout.part_of side with
    | none => rfl
    | some part => rfl

end Log

end DualFlexivControl.Collection
