/-
The consumers of a session as programs over its streams.

A collection, an eval and a skill run are the same program with different streams: open the
control channels, create the streams the dashboard shows, run, and take everything down
again. The creations come before the node's `try` block, so an exception among them ends the
process where it stands; the `finally` block takes down what there is in a fixed order. A
process that is killed stops anywhere. Whatever happens, then, a consumer performs some
beginning of its program ([`Plan.program`]).

Between two consumers the daemon reaps: it walks the manifests of the control directory and,
for each, unlinks the segment it names and removes it. Telemetry producers and arms go on
all the while, and so does the next consumer only after the walk. The arms look for their two
manifests, which is one read after the other.
-/
import DualFlexivControl.Lib.ProgramOrder
import DualFlexivControl.Session.Protocol
import DualFlexivControl.Streams.Registry

set_option autoImplicit false

namespace DualFlexivControl.Consumers

open ProgramOrder Streams
open Session (Chan)

/-! ## What a consumer does to its streams -/

/-- The leaf names of the control channels. -/
def leaf : Chan → String
  | .setpoint => "setpoint"
  | .command => "command"
  | .gripper => "gripper"

/-- `control_channel_name`, in the control directory. -/
def channel (side : String) (ch : Chan) : Stream := ⟨.control, "cmd/" ++ side ++ "/" ++ leaf ch⟩

/-- What a control kind predicts: a joint configuration or a position of the tool. -/
inductive HorizonKind where
  | q
  | eef
  deriving DecidableEq

/-- `horizon_stream_name` and `eef_horizon_stream_name`. -/
def horizon_stream (side : String) : HorizonKind → Stream
  | .q => ⟨.streams, "eval/" ++ side ++ "/q_horizon"⟩
  | .eef => ⟨.streams, "eval/" ++ side ++ "/eef_horizon"⟩

/-- `comm_stream_name`. -/
def comm_stream : Stream := ⟨.streams, "eval/policy_comm"⟩

/-- The streams a consumer shows next to the telemetry. -/
def Shown (s : Stream) : Prop := (∃ side kind, s = horizon_stream side kind) ∨ s = comm_stream

/-- What a consumer shows is published with the telemetry, not in the control directory. -/
theorem Shown.sub {s : Stream} (h : Shown s) : s.sub = .streams := by
  obtain ⟨side, kind, rfl⟩ | rfl := h
  · cases kind with
    | q => rfl
    | eef => rfl
  · rfl

/-- The streams of a consumer: the sides it opens control channels for, with a gripper or
without, and what it shows. -/
structure Plan where
  channels : List (String × Bool)
  horizons : List Stream
  comm : List Stream
  horizons_shown : ∀ s ∈ horizons, Shown s
  comm_shown : ∀ s ∈ comm, Shown s

/-- The arms of a run's config, as far as its streams depend on them. -/
structure ArmCfg where
  side : String
  control_enabled : Bool
  gripper : Bool
  horizon : Option HorizonKind

/-- `CollectionNode.run`. -/
def collection_plan (arms : List ArmCfg) : Plan where
  channels := (arms.filter ArmCfg.control_enabled).map fun arm => (arm.side, arm.gripper)
  horizons := []
  comm := []
  horizons_shown := by simp
  comm_shown := by simp

/-- `EvalNode.run`: with no enabled arm the predictions of all of them are shown. -/
def eval_plan (arms : List ArmCfg) : Plan where
  channels := (arms.filter ArmCfg.control_enabled).map fun arm => (arm.side, false)
  horizons :=
    (if (arms.filter ArmCfg.control_enabled).isEmpty then arms
      else arms.filter ArmCfg.control_enabled).filterMap fun arm =>
        arm.horizon.map (horizon_stream arm.side)
  comm := [comm_stream]
  horizons_shown := by
    intro s hs
    obtain ⟨arm, -, hmap⟩ := List.mem_filterMap.1 hs
    obtain ⟨kind, -, rfl⟩ := Option.map_eq_some_iff.1 hmap
    exact .inl ⟨arm.side, kind, rfl⟩
  comm_shown := fun s hs => .inr (List.mem_singleton.1 hs)

/-- `SkillNode.run`. -/
def skill_plan (drive_sides : List String) : Plan where
  channels := drive_sides.map fun side => (side, false)
  horizons := drive_sides.map fun side => horizon_stream side .q
  comm := []
  horizons_shown := by
    intro s hs
    obtain ⟨side, -, rfl⟩ := List.mem_map.1 hs
    exact .inl ⟨side, .q, rfl⟩
  comm_shown := by simp

/-- `StreamWriter.create`. -/
def create_writer (s : Stream) : List Op := [.create s, .publish s]

/-- The channels of a side, in the order `open_control` creates them: once an arm sees the
last two, an optional gripper channel is there already. -/
def side_channels (side : String) (gripper : Bool) : List Stream :=
  (if gripper then [channel side .gripper] else []) ++
    [channel side .setpoint, channel side .command]

/-- All control channels of a consumer. -/
def Plan.control (plan : Plan) : List Stream :=
  plan.channels.flatMap fun ⟨side, gripper⟩ => side_channels side gripper

/-- `Brain.close`: all setpoint channels, then all command channels, then the grippers'. The
segments are unlinked, the manifests stay. -/
def Plan.close (plan : Plan) : List Op :=
  (plan.channels.map fun ⟨side, _⟩ => .unlink (channel side .setpoint)) ++
    (plan.channels.map fun ⟨side, _⟩ => .unlink (channel side .command)) ++
    ((plan.channels.filter Prod.snd).map fun ⟨side, _⟩ => .unlink (channel side .gripper))

/-- The streams a consumer creates, in order. -/
def Plan.streams (plan : Plan) : List Stream := plan.control ++ plan.horizons ++ plan.comm

/-- Everything up to the `try` block. -/
def Plan.setup (plan : Plan) : List Op := plan.streams.flatMap create_writer

/-- A stream the consumer shows is taken down with its manifest. -/
def release_writer (s : Stream) : List Op := [.unlink s, .remove s]

/-- The `finally` block: what the consumer shows, then the control channels. -/
def Plan.teardown (plan : Plan) : List Op :=
  plan.comm.flatMap release_writer ++ plan.horizons.flatMap release_writer ++ plan.close

/-- A consumer, from its first stream to its last. -/
def Plan.program (plan : Plan) : List Op := plan.setup ++ plan.teardown

/-! ## Names -/

/-- The file of a channel's manifest begins with the `c` of `control`. -/
theorem channel_file_head (side : String) (ch : Chan) :
    (channel side ch).file.toList.head? = some 'c' := by
  refine sanitize_head ?_ (by decide)
  unfold channel
  simp only [String.toList_append]
  rfl

/-- The file of a shown stream's manifest begins with an `e`, so it is no channel's. -/
theorem Shown.file_head {s : Stream} (h : Shown s) : s.file.toList.head? = some 'e' := by
  refine sanitize_head ?_ (by decide)
  obtain ⟨side, kind, rfl⟩ | rfl := h
  · cases kind with
    | q =>
      unfold horizon_stream
      simp only [String.toList_append]
      rfl
    | eef =>
      unfold horizon_stream
      simp only [String.toList_append]
      rfl
  · decide +kernel

/-- What a consumer shows never goes by the name of a control channel. -/
theorem Shown.file_ne {s : Stream} (h : Shown s) (side : String) (ch : Chan) :
    s.file ≠ (channel side ch).file := by
  intro heq
  have hhead := h.file_head
  rw [heq, channel_file_head] at hhead
  exact absurd hhead (by decide)

/-- The last character of a leaf name. -/
def leaf_end : Chan → Char
  | .setpoint => 't'
  | .command => 'd'
  | .gripper => 'r'

/-- The leaf names of the three channels end differently. -/
theorem leaf_end_injective : Function.Injective leaf_end := by
  intro a b h
  cases a <;> cases b <;> first | rfl | exact absurd h (by decide)

/-- The last character of a leaf tells the channel, which the names below are told apart by. -/
theorem leaf_last (ch : Chan) : (leaf ch).toList.getLast? = some (leaf_end ch) := by
  cases ch <;> decide +kernel

/-- A channel's name says which side's it is, and which of the three. The names of the three
end in different characters, whatever the sides are called. -/
theorem channel_inj {side side' : String} {ch ch' : Chan}
    (h : channel side ch = channel side' ch') : side = side' ∧ ch = ch' := by
  have hname : (channel side ch).name = (channel side' ch').name := by rw [h]
  have hlist := congrArg String.toList hname
  simp only [channel, String.toList_append] at hlist
  have hch : ch = ch' := by
    have hlast := congrArg List.getLast? hlist
    simp only [List.getLast?_append, leaf_last, Option.some_or, Option.some.injEq] at hlast
    exact leaf_end_injective hlast
  subst hch
  have hside := List.append_cancel_right (List.append_cancel_right hlist)
  exact ⟨String.toList_injective (List.append_cancel_left hside), rfl⟩

/-! ## The order of a program -/

section Program

variable {plan : Plan} {s : Stream}

/-- What is done before the `try` block: every stream of the plan is created and published. -/
theorem mem_setup {op : Op} :
    op ∈ plan.setup ↔ ∃ s ∈ plan.streams, op = .create s ∨ op = .publish s := by
  simp [Plan.setup, create_writer]

/-- What is done in the `finally` block: the shown streams are unlinked and removed, then the
channels closed. -/
theorem mem_teardown {op : Op} : op ∈ plan.teardown ↔
    (∃ s, s ∈ plan.comm ++ plan.horizons ∧ (op = .unlink s ∨ op = .remove s)) ∨
      op ∈ plan.close := by
  simp only [Plan.teardown, release_writer, List.mem_append, List.mem_flatMap, List.mem_cons,
    List.not_mem_nil, or_false]
  constructor
  · rintro ((⟨s, hs, hop⟩ | ⟨s, hs, hop⟩) | hop)
    · exact .inl ⟨s, .inl hs, hop⟩
    · exact .inl ⟨s, .inr hs, hop⟩
    · exact .inr hop
  · rintro (⟨s, hs | hs, hop⟩ | hop)
    · exact .inl (.inl ⟨s, hs, hop⟩)
    · exact .inl (.inr ⟨s, hs, hop⟩)
    · exact .inr hop

/-- `close` only unlinks. -/
theorem mem_close {op : Op} (h : op ∈ plan.close) : ∃ s, op = .unlink s := by
  simp only [Plan.close, List.mem_append, List.mem_map] at h
  obtain (⟨p, -, rfl⟩ | ⟨p, -, rfl⟩) | ⟨p, -, rfl⟩ := h
  · exact ⟨_, rfl⟩
  · exact ⟨_, rfl⟩
  · exact ⟨_, rfl⟩

/-- The `finally` block creates nothing. -/
theorem create_notMem_teardown : Op.create s ∉ plan.teardown := by
  rw [mem_teardown]
  rintro (⟨t, -, hop⟩ | hop)
  · simp at hop
  · obtain ⟨t, ht⟩ := mem_close hop
    simp at ht

/-- Nor does it publish anything. -/
theorem publish_notMem_teardown : Op.publish s ∉ plan.teardown := by
  rw [mem_teardown]
  rintro (⟨t, -, hop⟩ | hop)
  · simp at hop
  · obtain ⟨t, ht⟩ := mem_close hop
    simp at ht

/-- What a consumer removes is no control manifest: `close` unlinks segments and leaves the
manifests to the daemon's sweep. -/
theorem sub_of_remove_mem (h : Op.remove s ∈ plan.program) : s.sub = .streams := by
  rw [Plan.program, List.mem_append] at h
  obtain h | h := h
  · obtain ⟨t, -, hop⟩ := mem_setup.1 h
    simp at hop
  · obtain ⟨t, ht, hop⟩ | hop := mem_teardown.1 h
    · have hst : s = t := by simpa using hop
      subst hst
      rw [List.mem_append] at ht
      exact (ht.elim (plan.comm_shown s) (plan.horizons_shown s)).sub
    · obtain ⟨t, ht⟩ := mem_close hop
      simp at ht

/-- Every channel that is opened is closed, in the order of the three kinds and not in that of the
sides. -/
theorem unlink_mem_close (h : s ∈ plan.control) : Op.unlink s ∈ plan.close := by
  simp only [Plan.control, side_channels, List.mem_flatMap] at h
  obtain ⟨⟨side, gripper⟩, hside, hs⟩ := h
  simp only [Plan.close, List.mem_append, List.mem_map, List.mem_filter]
  rw [List.mem_append] at hs
  obtain hs | hs := hs
  · cases gripper with
    | false => simp at hs
    | true =>
      rw [if_pos rfl, List.mem_singleton] at hs
      exact .inr ⟨(side, true), ⟨hside, rfl⟩, by rw [hs]⟩
  · rw [List.mem_cons, List.mem_singleton] at hs
    obtain rfl | rfl := hs
    · exact .inl (.inl ⟨(side, gripper), hside, rfl⟩)
    · exact .inl (.inr ⟨(side, gripper), hside, rfl⟩)

/-- Nothing else is closed. -/
theorem mem_control_of_close (h : Op.unlink s ∈ plan.close) : s ∈ plan.control := by
  simp only [Plan.close, List.mem_append, List.mem_map, List.mem_filter, Op.unlink.injEq] at h
  simp only [Plan.control, List.mem_flatMap]
  obtain (⟨p, hp, rfl⟩ | ⟨p, hp, rfl⟩) | ⟨p, ⟨hp, hgripper⟩, rfl⟩ := h
  · exact ⟨p, hp, by simp [side_channels]⟩
  · exact ⟨p, hp, by simp [side_channels]⟩
  · exact ⟨p, hp, by simp [side_channels, hgripper]⟩

/-- What a consumer opens for control are channels of sides. -/
theorem channel_of_mem_control (h : s ∈ plan.control) : ∃ side ch, s = channel side ch := by
  obtain ⟨⟨side, gripper⟩, -, hs⟩ := List.mem_flatMap.1 h
  simp only [side_channels, List.mem_append, List.mem_cons, List.not_mem_nil, or_false] at hs
  obtain hs | hs | hs := hs
  · cases gripper with
    | false => simp at hs
    | true => exact ⟨side, .gripper, List.mem_singleton.1 hs⟩
  · exact ⟨side, .setpoint, hs⟩
  · exact ⟨side, .command, hs⟩

/-- Every stream that is created is unlinked, in the end: the shown ones by name and the channels by
`close`. -/
theorem unlink_mem_program (h : Op.create s ∈ plan.program) : Op.unlink s ∈ plan.program := by
  rw [Plan.program, List.mem_append] at h
  obtain h | h := h
  · obtain ⟨t, ht, hop⟩ := mem_setup.1 h
    have hst : s = t := by simpa using hop
    subst hst
    refine List.mem_append_right _ (mem_teardown.2 ?_)
    rw [Plan.streams, List.append_assoc, List.mem_append] at ht
    obtain hcontrol | hshown := ht
    · exact .inr (unlink_mem_close hcontrol)
    · exact .inl ⟨s, List.mem_append.2 (List.mem_append.1 hshown).symm, .inl rfl⟩
  · exact absurd h create_notMem_teardown

/-- As long as there is something to create, nothing has been unlinked. -/
theorem unlink_notMem_of_create {before after : List Op} {t : Stream}
    (h : before ++ .create s :: after = plan.program) : Op.unlink t ∉ before := by
  intro hmem
  -- The teardown creates nothing, so what stands before a creation is a part of the setup.
  have hsetup : before <+: plan.setup := by
    rw [Plan.program] at h
    obtain ⟨rest, hbefore, hrest⟩ | ⟨rest, hsetup, hrest⟩ := List.append_eq_append_iff.1 h
    · exact ⟨rest, hbefore.symm⟩
    · exact absurd (hrest ▸ List.mem_append_right _ List.mem_cons_self) create_notMem_teardown
  obtain ⟨u, -, hop⟩ := mem_setup.1 (hsetup.subset hmem)
  simp at hop

/-- A segment is created before its manifest is published. -/
theorem create_precedes_publish : Precedes (.create s) (.publish s) plan.program := by
  -- `create_writer` creates and publishes one stream, and nobody else publishes it.
  refine Precedes.append (Precedes.flatMap fun t _ => ?_)
    (precedes_of_notMem publish_notMem_teardown)
  by_cases hts : t = s
  · subst hts
    exact precedes_of_mem (List.mem_singleton.2 rfl) (by simp)
  · exact precedes_of_notMem (by simp [create_writer, Ne.symm hts])

/-- The channels that are opened for a side are that side's. -/
theorem side_of_mem_side_channels {side side' : String} {ch : Chan} {gripper : Bool}
    (h : channel side ch ∈ side_channels side' gripper) : side = side' := by
  rw [side_channels, List.mem_append, List.mem_cons, List.mem_singleton] at h
  obtain h | h | h := h
  · cases gripper with
    | false => simp at h
    | true => exact (channel_inj (List.mem_singleton.1 h)).1
  · exact (channel_inj h).1
  · exact (channel_inj h).1

/-- A side's channels are opened in order, its setpoint channel before its command channel, and
other sides do not come between. -/
theorem setpoint_precedes_command_side {side side' : String} {gripper : Bool} :
    Precedes (.create (channel side .setpoint)) (.publish (channel side .command))
      ((side_channels side' gripper).flatMap create_writer) := by
  by_cases hsame : side = side'
  · subst hsame
    have hother : ∀ ch, ch ≠ .command →
        Op.publish (channel side .command) ∉ create_writer (channel side ch) := by
      intro ch hch hmem
      have heq : channel side .command = channel side ch := by simpa [create_writer] using hmem
      exact hch (channel_inj heq).2.symm
    rw [side_channels, List.flatMap_append]
    refine Precedes.append (Precedes.flatMap fun t ht => precedes_of_notMem ?_) ?_
    · have hgripper : t = channel side .gripper := by
        cases gripper with
        | false => simp at ht
        | true => exact List.mem_singleton.1 ht
      rw [hgripper]
      exact hother .gripper (by simp)
    · rw [List.flatMap_cons]
      exact precedes_of_mem List.mem_cons_self (hother .setpoint (by simp))
  -- Another side publishes channels of its own names only.
  · refine precedes_of_notMem fun hmem => hsame ?_
    obtain ⟨t, ht, hop⟩ := List.mem_flatMap.1 hmem
    have heq : channel side .command = t := by simpa [create_writer] using hop
    exact side_of_mem_side_channels (heq ▸ ht)

/-- The setpoint channel is there before the command channel is published: what an arm relies
on in `open_control`. -/
theorem setpoint_precedes_command {side : String} :
    Precedes (.create (channel side .setpoint)) (.publish (channel side .command))
      plan.program := by
  refine Precedes.append ?_ (precedes_of_notMem publish_notMem_teardown)
  rw [Plan.setup, Plan.streams, List.append_assoc, List.flatMap_append, Plan.control,
    List.flatMap_assoc]
  -- Horizons and shared-memory streams carry no control manifest.
  refine Precedes.append (Precedes.flatMap fun p _ => setpoint_precedes_command_side) ?_
  refine precedes_of_notMem fun hmem => ?_
  obtain ⟨t, ht, hop⟩ := List.mem_flatMap.1 hmem
  have heq : channel side .command = t := by simpa [create_writer] using hop
  have hshown : Shown t := (List.mem_append.1 ht).elim (plan.horizons_shown t) (plan.comm_shown t)
  exact absurd (heq ▸ hshown.sub) (by simp [channel])

/-- A segment that is unlinked has been created, because all creations come before the `try` block.
-/
theorem create_precedes_unlink : Precedes (.create s) (.unlink s) plan.program := by
  have hsetup : Op.unlink s ∉ plan.setup := by
    intro hmem
    obtain ⟨t, -, hop⟩ := mem_setup.1 hmem
    simp at hop
  by_cases hmem : Op.unlink s ∈ plan.teardown
  · refine precedes_of_mem (mem_setup.2 ⟨s, ?_, .inl rfl⟩) hsetup
    rw [Plan.streams, List.append_assoc, List.mem_append]
    obtain ⟨t, ht, hop⟩ | hclose := mem_teardown.1 hmem
    · have hst : s = t := by simpa using hop
      rw [hst]
      exact .inr (List.mem_append.2 (List.mem_append.1 ht).symm)
    · exact .inl (mem_control_of_close hclose)
  · exact precedes_of_notMem fun h => (List.mem_append.1 h).elim hsetup hmem

/-- What a consumer creates is a control channel, or it is shown. -/
theorem made_of_create_mem (h : Op.create s ∈ plan.program) :
    (∃ side ch, s = channel side ch) ∨ Shown s := by
  obtain ⟨t, ht, hop⟩ := mem_setup.1 ((List.mem_append.1 h).resolve_right create_notMem_teardown)
  have hst : s = t := by simpa using hop
  subst hst
  rw [Plan.streams, List.mem_append, List.mem_append] at ht
  obtain (hcontrol | hhorizon) | hcomm := ht
  · exact .inl (channel_of_mem_control hcontrol)
  · exact .inr (plan.horizons_shown s hhorizon)
  · exact .inr (plan.comm_shown s hcomm)

end Program

/-! ## The session -/

/-- A consumer process: the number of its run, what it has done and what is left. -/
structure Consumer where
  seq : ℕ
  done : List Op
  todo : List Op
  alive : Bool
  deriving DecidableEq

/-- Where the daemon is: serving, or in `cleanup_sub` with these manifests to go, the first
of which may have had its segment unlinked. -/
inductive Pc where
  | serving
  | sweeping (files : List String) (unlinked : Bool)
  deriving DecidableEq

/-- The manifests a sweep has still ahead of it: all of them before it starts. -/
def Pc.Ahead : Pc → String → Prop
  | .serving, _ => True
  | .sweeping files false, file => file ∈ files
  | .sweeping (done :: files) true, file => file ∈ files ∧ file ≠ done
  | .sweeping [] true, _ => False

/-- How far an arm is with its channels: no session, in `_await_channels`, in the middle of
a pass with one manifest read, or with both found. The number of sweeps until the read is a
mark that no code reads. -/
inductive Pass where
  | idle
  | waiting
  | seen (ch : Chan) (sweeps : ℕ)
  | found
  deriving DecidableEq

/-- The session's streams, the consumer of the active run, the number of consumers started
and of sweeps finished, and the arms. -/
structure State where
  store : Store
  run : Option Consumer
  seq : ℕ
  sweeps : ℕ
  pc : Pc
  inbox : String → ℕ
  pass : String → Pass

/-- A session that has just begun. -/
def State.init : State where
  store := .empty
  run := none
  seq := 0
  sweeps := 0
  pc := .serving
  inbox := fun _ => 0
  pass := fun _ => .idle

/-- What can happen. -/
inductive Act where
  /-- A start that passed its gates, and the sides it sends `EnterControl` to. -/
  | start (plan : Plan) (command_sides : List String)
  /-- The consumer's next step; an `Exception` of a `create` ends it. -/
  | perform
  /-- `publish` raises: the segment is released, and the process ends. -/
  | publish_fails
  /-- The consumer is gone: killed, or out of its program. -/
  | die
  /-- `_reap_consumer`, with the manifests its glob found. -/
  | reap (files : List String)
  | sweep_segment
  | sweep_manifest
  | swept
  /-- A telemetry producer, or the sweep of a dead one's streams. -/
  | telemetry (op : Op)
  /-- An arm takes an `EnterControl`. -/
  | enter (side : String)
  /-- It reads a manifest. -/
  | look (side : String) (ch : Chan)
  /-- Its control session is over. -/
  | leave (side : String)

/-- The consumer after a step of its own. -/
def Consumer.did (c : Consumer) (op : Op) : Consumer :=
  { c with done := c.done ++ [op], todo := c.todo.tail }

/-- What the consumer's done and open steps are together does not change. -/
theorem did_append {c : Consumer} {op : Op} {rest : List Op} (htodo : c.todo = op :: rest) :
    (c.did op).done ++ (c.did op).todo = c.done ++ c.todo := by
  simp [Consumer.did, htodo]

/-- What has been done after one more operation. -/
theorem mem_did {c : Consumer} {op op' : Op} : op' ∈ (c.did op).done ↔ op' ∈ c.done ∨ op' = op := by
  simp [Consumer.did]

/-- The consumer's next step. -/
def perform (run_id : String) (s : State) (c : Consumer) : Option State :=
  match c.todo with
  | [] => none
  | op :: _ =>
    match s.store.apply run_id (.run c.seq) op with
    | some store => some { s with store := store, run := some (c.did op) }
    | none => some { s with run := some { c with alive := false } }

/-- `publish` raises. -/
def publish_fails (run_id : String) (s : State) (c : Consumer) : Option State :=
  match c.todo with
  | .publish stream :: _ =>
    some { s with
      store := s.store.unlink (stream.shm_name run_id)
      run := some { c.did (.unlink stream) with alive := false } }
  | _ => none

/-- `discover().get(name)`, of an arm's channel. -/
def finds (s : State) (side : String) (ch : Chan) : Bool :=
  (s.store.read .control (channel side ch).file).any fun entry =>
    entry.name = (channel side ch).name

/-- An arm reads the manifest of a channel. A pass reads the setpoint and the command
manifest, in whichever order the directory lists them. -/
def look (s : State) (side : String) (ch : Chan) : Option State :=
  match s.pass side with
  | .waiting =>
    if ch = .gripper then none
    else if finds s side ch then
      some { s with pass := Function.update s.pass side (.seen ch s.sweeps) }
    else some s
  | .seen first _ =>
    if ch = .gripper ∨ ch = first then none
    else if finds s side ch then some { s with pass := Function.update s.pass side .found }
    else some { s with pass := Function.update s.pass side .waiting }
  | _ => none

/-- The session's steps. `telemetry` are the names of the hardware nodes' streams. -/
def step (run_id : String) (telemetry : List String) (s : State) : Act → Option State
  | .start plan command_sides =>
    if s.run = none ∧ s.pc = .serving then
      some { s with
        run := some ⟨s.seq + 1, [], plan.program, true⟩
        seq := s.seq + 1
        inbox := fun side => if side ∈ command_sides then s.inbox side + 1 else s.inbox side }
    else none
  | .perform =>
    match s.run with
    | some c => if c.alive then perform run_id s c else none
    | none => none
  | .publish_fails =>
    match s.run with
    | some c => if c.alive then publish_fails run_id s c else none
    | none => none
  | .die =>
    match s.run with
    | some c => if c.alive then some { s with run := some { c with alive := false } } else none
    | none => none
  | .reap files =>
    match s.run with
    | some c =>
      if c.alive = false ∧ s.pc = .serving ∧ files.Nodup ∧
          (∀ file ∈ (s.store.manifests .control).keys, file ∈ files) then
        some { s with pc := .sweeping files false }
      else none
    | none => none
  | .sweep_segment =>
    match s.pc with
    | .sweeping (file :: files) false =>
      match s.store.read .control file with
      | some entry =>
        some { s with store := s.store.unlink entry.shm_name, pc := .sweeping (file :: files) true }
      | none => some { s with pc := .sweeping (file :: files) true }
    | _ => none
  | .sweep_manifest =>
    match s.pc with
    | .sweeping (file :: files) true =>
      some { s with store := s.store.remove .control file, pc := .sweeping files false }
    | _ => none
  | .swept =>
    match s.pc with
    | .sweeping [] _ => some { s with run := none, pc := .serving, sweeps := s.sweeps + 1 }
    | _ => none
  | .telemetry op =>
    match op with
    | .create stream | .publish stream | .unlink stream | .remove stream =>
      if stream.sub = .streams ∧ stream.name ∈ telemetry then
        (s.store.apply run_id .telemetry op).map fun store => { s with store := store }
      else none
  | .enter side =>
    if s.pass side = .idle ∧ 0 < s.inbox side then
      some { s with
        inbox := Function.update s.inbox side (s.inbox side - 1)
        pass := Function.update s.pass side .waiting }
    else none
  | .look side ch => look s side ch
  | .leave side => some { s with pass := Function.update s.pass side .idle }

/-- Some steps. -/
def steps (run_id : String) (telemetry : List String) (s : State) (acts : List Act) :
    Option State :=
  acts.foldlM (step run_id telemetry) s

/-- Some steps lead there from the beginning of a session. -/
def Reachable (run_id : String) (telemetry : List String) : State → Prop :=
  Relation.ReflTransGen (fun s s' => ∃ act, step run_id telemetry s act = some s') .init

/-- A list of acts that can be taken leads along the step relation. -/
theorem steps_reach {run_id : String} {telemetry : List String} {s s' : State} {acts : List Act}
    (h : steps run_id telemetry s acts = some s') :
    Relation.ReflTransGen (fun s s' => ∃ act, step run_id telemetry s act = some s') s s' := by
  unfold steps at h
  induction acts generalizing s with
  | nil => rw [Option.some.inj h]
  | cons act acts ih =>
    rw [List.foldlM_cons] at h
    obtain ⟨mid, hmid, hrest⟩ := Option.bind_eq_some_iff.1 h
    exact .head ⟨act, hmid⟩ (ih hrest)

/-! ## What a step can do -/

/-- Everything a step can do. What arms do leaves the streams and the consumer alone; a
manifest that an arm has read since was there. -/
inductive Move (run_id : String) (telemetry : List String) (s : State) : State → Prop
  | start (plan : Plan) (inbox : String → ℕ) : s.run = none → s.pc = .serving →
      Move run_id telemetry s { s with
        run := some ⟨s.seq + 1, [], plan.program, true⟩
        seq := s.seq + 1
        inbox := inbox }
  | did (c : Consumer) (op : Op) (rest : List Op) (store : Store) : s.run = some c →
      c.alive = true → c.todo = op :: rest → s.store.apply run_id (.run c.seq) op = some store →
      Move run_id telemetry s { s with store := store, run := some (c.did op) }
  | blocked (c : Consumer) (op : Op) (rest : List Op) : s.run = some c → c.alive = true →
      c.todo = op :: rest → s.store.apply run_id (.run c.seq) op = none →
      Move run_id telemetry s { s with run := some { c with alive := false } }
  | unpublished (c : Consumer) (stream : Stream) (rest : List Op) : s.run = some c →
      c.alive = true → c.todo = .publish stream :: rest →
      Move run_id telemetry s { s with
        store := s.store.unlink (stream.shm_name run_id)
        run := some { c.did (.unlink stream) with alive := false } }
  | died (c : Consumer) : s.run = some c → c.alive = true →
      Move run_id telemetry s { s with run := some { c with alive := false } }
  | reaped (c : Consumer) (files : List String) : s.run = some c → c.alive = false →
      s.pc = .serving → files.Nodup →
      (∀ file ∈ (s.store.manifests .control).keys, file ∈ files) →
      Move run_id telemetry s { s with pc := .sweeping files false }
  | unlinked (file : String) (files : List String) (entry : RegistryEntry) :
      s.pc = .sweeping (file :: files) false → s.store.read .control file = some entry →
      Move run_id telemetry s { s with
        store := s.store.unlink entry.shm_name
        pc := .sweeping (file :: files) true }
  | passed (file : String) (files : List String) : s.pc = .sweeping (file :: files) false →
      s.store.read .control file = none →
      Move run_id telemetry s { s with pc := .sweeping (file :: files) true }
  | removed (file : String) (files : List String) : s.pc = .sweeping (file :: files) true →
      Move run_id telemetry s { s with
        store := s.store.remove .control file
        pc := .sweeping files false }
  | swept (unlinked : Bool) : s.pc = .sweeping [] unlinked →
      Move run_id telemetry s { s with run := none, pc := .serving, sweeps := s.sweeps + 1 }
  | telemetry (op : Op) (stream : Stream) (store : Store) :
      (op = .create stream ∨ op = .publish stream ∨ op = .unlink stream ∨ op = .remove stream) →
      stream.sub = .streams → stream.name ∈ telemetry →
      s.store.apply run_id .telemetry op = some store →
      Move run_id telemetry s { s with store := store }
  | arm (inbox : String → ℕ) (pass : String → Pass) :
      (∀ side ch k, pass side = .seen ch k → s.pass side = .seen ch k ∨
        ch ≠ .gripper ∧ finds s side ch = true ∧ k = s.sweeps) →
      Move run_id telemetry s { s with inbox := inbox, pass := pass }

section Cases

variable {run_id : String} {telemetry : List String} {s s' : State}

/-- The next operation of a live consumer's program, seen as a move of the session. -/
theorem perform_move {c : Consumer} (hrun : s.run = some c) (halive : c.alive = true)
    (h : perform run_id s c = some s') : Move run_id telemetry s s' := by
  unfold perform at h
  split at h
  · exact absurd h (by simp)
  · next op rest htodo =>
    split at h
    · next store hstore =>
      rw [← Option.some.inj h]
      exact .did c op rest store hrun halive htodo hstore
    · next hstore =>
      rw [← Option.some.inj h]
      exact .blocked c op rest hrun halive htodo hstore

/-- A `publish` that raises ends the consumer's setup, and the session moves by that alone. -/
theorem publish_fails_move {c : Consumer} (hrun : s.run = some c) (halive : c.alive = true)
    (h : publish_fails run_id s c = some s') : Move run_id telemetry s s' := by
  unfold publish_fails at h
  split at h
  · next stream rest htodo =>
    rw [← Option.some.inj h]
    exact .unpublished c stream rest hrun halive htodo
  · exact absurd h (by simp)

/-- An arm that gets anywhere but to a manifest. -/
theorem arm_move {side : String} {inbox : String → ℕ} {pass : Pass}
    (h : ∀ ch k, pass ≠ .seen ch k) :
    Move run_id telemetry s
      { s with inbox := inbox, pass := Function.update s.pass side pass } := by
  refine .arm inbox _ fun other ch k hseen => .inl ?_
  by_cases hside : other = side
  · rw [hside, Function.update_self] at hseen
    exact absurd hseen (h ch k)
  · rwa [Function.update_of_ne hside] at hseen

/-- An arm that looks for a manifest moves itself and nothing of the streams. -/
theorem look_move {side : String} {ch : Chan} (h : look s side ch = some s') :
    Move run_id telemetry s s' := by
  unfold look at h
  split at h
  · split_ifs at h with hch hfinds
    · rw [← Option.some.inj h]
      refine .arm s.inbox _ fun other ch' k hseen => ?_
      by_cases hside : other = side
      · rw [hside, Function.update_self, Pass.seen.injEq] at hseen
        obtain ⟨rfl, rfl⟩ := hseen
        exact .inr ⟨hch, hside ▸ hfinds, rfl⟩
      · rw [Function.update_of_ne hside] at hseen
        exact .inl hseen
    · rw [← Option.some.inj h]
      exact .arm s.inbox s.pass fun _ _ _ hseen => .inl hseen
  -- The second manifest ends the pass, with both channels or with neither.
  · split_ifs at h
    · rw [← Option.some.inj h]
      exact arm_move (by simp)
    · rw [← Option.some.inj h]
      exact arm_move (by simp)
  · exact absurd h (by simp)

/-- A telemetry producer's step is a move of the session, of one of its own streams and in the
telemetry directory. -/
theorem telemetry_move {op : Op} {stream : Stream}
    (hop : op = .create stream ∨ op = .publish stream ∨ op = .unlink stream ∨ op = .remove stream)
    (h : (if stream.sub = .streams ∧ stream.name ∈ telemetry then
        (s.store.apply run_id .telemetry op).map fun store => { s with store := store }
      else none) = some s') : Move run_id telemetry s s' := by
  split at h
  · next hown =>
    obtain ⟨store, hstore, rfl⟩ := Option.map_eq_some_iff.1 h
    exact .telemetry op stream store hop hown.1 hown.2 hstore
  · exact absurd h (by simp)

/-- Every act is one of the moves, so what moves keep holds of all runs. -/
theorem step_move {act : Act} (h : step run_id telemetry s act = some s') :
    Move run_id telemetry s s' := by
  cases act with
  -- an act that is refused gives no state; each of the others is one kind of move
  | start plan command_sides =>
    rw [step] at h
    split at h
    · next hgate =>
      rw [← Option.some.inj h]
      exact .start plan _ hgate.1 hgate.2
    · exact absurd h (by simp)
  -- what the consumer's process does needs a run whose consumer is alive
  | perform =>
    rw [step] at h
    split at h
    · next c hrun =>
      split at h
      · next halive => exact perform_move hrun halive h
      · exact absurd h (by simp)
    · exact absurd h (by simp)
  | publish_fails =>
    rw [step] at h
    split at h
    · next c hrun =>
      split at h
      · next halive => exact publish_fails_move hrun halive h
      · exact absurd h (by simp)
    · exact absurd h (by simp)
  | die =>
    rw [step] at h
    split at h
    · next c hrun =>
      split at h
      · next halive =>
        rw [← Option.some.inj h]
        exact .died c hrun halive
      · exact absurd h (by simp)
    · exact absurd h (by simp)
  | reap files =>
    rw [step] at h
    split at h
    · next c hrun =>
      split at h
      · next hgate =>
        rw [← Option.some.inj h]
        exact .reaped c files hrun hgate.1 hgate.2.1 hgate.2.2.1 hgate.2.2.2
      · exact absurd h (by simp)
    · exact absurd h (by simp)
  -- the sweep of a reaped run goes file by file
  | sweep_segment =>
    rw [step] at h
    split at h
    · next file files hpc =>
      split at h
      · next entry hentry =>
        rw [← Option.some.inj h]
        exact .unlinked file files entry hpc hentry
      · next hnone =>
        rw [← Option.some.inj h]
        exact .passed file files hpc hnone
    · exact absurd h (by simp)
  | sweep_manifest =>
    rw [step] at h
    split at h
    · next file files hpc =>
      rw [← Option.some.inj h]
      exact .removed file files hpc
    · exact absurd h (by simp)
  | swept =>
    rw [step] at h
    split at h
    · next unlinked hpc =>
      rw [← Option.some.inj h]
      exact .swept unlinked hpc
    · exact absurd h (by simp)
  -- the arms' processes and their streams are there with or without a run
  | telemetry op =>
    cases op with
    | create stream => exact telemetry_move (.inl rfl) h
    | publish stream => exact telemetry_move (.inr (.inl rfl)) h
    | unlink stream => exact telemetry_move (.inr (.inr (.inl rfl))) h
    | remove stream => exact telemetry_move (.inr (.inr (.inr rfl))) h
  | enter side =>
    rw [step] at h
    split at h
    · rw [← Option.some.inj h]
      exact arm_move (by simp)
    · exact absurd h (by simp)
  | look side ch => exact look_move h
  | leave side =>
    rw [step] at h
    rw [← Option.some.inj h]
    exact arm_move (by simp)

/-- Who is where: a live consumer somewhere in its program, and the daemon in a sweep after a
dead one only. -/
structure Turns (s : State) : Prop where
  follows : ∀ c, s.run = some c → c.alive = true → ∃ plan : Plan, c.done ++ c.todo = plan.program
  sweeping : ∀ files unlinked, s.pc = .sweeping files unlinked →
    ∃ c, s.run = some c ∧ c.alive = false

/-- At the beginning there is no consumer whose turn it could be. -/
theorem turns_init : Turns .init where
  follows := fun c hc => absurd hc (by simp [State.init])
  sweeping := fun files unlinked h => absurd h (by simp [State.init])

/-- While its consumer lives the daemon is not sweeping. -/
theorem Turns.serving {c : Consumer} (h : Turns s) (hrun : s.run = some c)
    (halive : c.alive = true) : s.pc = .serving := by
  cases hpc : s.pc with
  | serving => rfl
  | sweeping files unlinked =>
    obtain ⟨c', hc', hdead⟩ := h.sweeping files unlinked hpc
    rw [hrun, Option.some.injEq] at hc'
    rw [← hc', halive] at hdead
    exact absurd hdead (by simp)

/-- A live consumer goes on, or ends. -/
theorem Turns.consumer {c c' : Consumer} {store : Store} (h : Turns s) (hrun : s.run = some c)
    (halive : c.alive = true)
    (hfollows : c'.alive = true → ∃ plan : Plan, c'.done ++ c'.todo = plan.program) :
    Turns { s with store := store, run := some c' } where
  follows := by
    intro x hx
    rw [← Option.some.inj hx]
    exact hfollows
  sweeping := fun files unlinked hpc => absurd ((h.serving hrun halive).symm.trans hpc) (by simp)

/-- The sweep begins, or goes on. -/
theorem Turns.sweeps {c : Consumer} {store : Store} {pc : Pc} (h : Turns s)
    (hrun : s.run = some c) (hdead : c.alive = false) :
    Turns { s with store := store, pc := pc } where
  follows := h.follows
  sweeping := fun _ _ _ => ⟨c, hrun, hdead⟩

/-- No move lets a second consumer begin before the daemon has swept after the first. -/
theorem Turns.move (h : Turns s) (hmove : Move run_id telemetry s s') : Turns s' := by
  cases hmove with
  | start plan inbox hrun hpc =>
    -- A new consumer has its whole program ahead of it.
    refine ⟨fun c hc _ => ?_, fun files unlinked hsweep => absurd (hpc.symm.trans hsweep) (by simp)⟩
    rw [← Option.some.inj hc]
    exact ⟨plan, rfl⟩
  | did c op rest store hrun halive htodo _ =>
    obtain ⟨plan, hplan⟩ := h.follows c hrun halive
    -- The step moves from what is left to what is done; the program stays the same.
    exact h.consumer hrun halive fun _ => ⟨plan, (did_append htodo).trans hplan⟩
  | blocked c op rest hrun halive =>
    exact h.consumer hrun halive fun hlive => absurd hlive (by simp)
  | unpublished c stream rest hrun halive =>
    exact h.consumer hrun halive fun hlive => absurd hlive (by simp)
  | died c hrun halive => exact h.consumer hrun halive fun hlive => absurd hlive (by simp)
  | reaped c files hrun hdead => exact h.sweeps hrun hdead
  | unlinked file files entry hpc _ =>
    obtain ⟨c, hrun, hdead⟩ := h.sweeping _ _ hpc
    exact h.sweeps hrun hdead
  | passed file files hpc _ =>
    obtain ⟨c, hrun, hdead⟩ := h.sweeping _ _ hpc
    exact h.sweeps hrun hdead
  | removed file files hpc =>
    obtain ⟨c, hrun, hdead⟩ := h.sweeping _ _ hpc
    exact h.sweeps hrun hdead
  | swept unlinked _ =>
    exact ⟨fun c hc => absurd hc (by simp), fun files unlinked hpc => absurd hpc (by simp)⟩
  | telemetry op stream store _ _ _ _ => exact ⟨h.follows, h.sweeping⟩
  | arm inbox pass _ => exact ⟨h.follows, h.sweeping⟩

/-- A telemetry producer leaves the control manifests alone: it writes in another directory of the
registry. -/
theorem telemetry_read {op : Op} {stream : Stream} {store : Store}
    (hop : op = .create stream ∨ op = .publish stream ∨ op = .unlink stream ∨ op = .remove stream)
    (hsub : stream.sub = .streams) (hstore : s.store.apply run_id .telemetry op = some store)
    (file : String) : store.read .control file = s.store.read .control file := by
  have hne : (Sub.control, file) ≠ (stream.sub, stream.file) := by
    rw [hsub]
    simp
  obtain rfl | rfl | rfl | rfl := hop
  · obtain ⟨-, rfl⟩ := create_eq_some hstore
    rfl
  · rw [← Option.some.inj hstore]
    exact read_publish_ne hne
  · rw [← Option.some.inj hstore]
    exact read_unlink
  · rw [← Option.some.inj hstore]
    exact read_remove_ne hne

/-- And it leaves every segment but its own, which its name says. -/
theorem telemetry_segments_ne {op : Op} {stream : Stream} {store : Store}
    (hop : op = .create stream ∨ op = .publish stream ∨ op = .unlink stream ∨ op = .remove stream)
    (hstore : s.store.apply run_id .telemetry op = some store) {n : String}
    (hn : n ≠ stream.shm_name run_id) : store.segments n = s.store.segments n := by
  obtain rfl | rfl | rfl | rfl := hop
  · obtain ⟨-, rfl⟩ := create_eq_some hstore
    exact Function.update_of_ne hn ..
  · rw [← Option.some.inj hstore]
    rfl
  · rw [← Option.some.inj hstore]
    exact segments_unlink_ne hn
  · rw [← Option.some.inj hstore]
    rfl

end Cases

end DualFlexivControl.Consumers
