/-
Which streams the nodes of one run declare, and which of their names coincide.

A node names its streams after the arm, the camera or the leader that they belong to:
`left/tau_ext`, `cam/wrist/depth`, `factr/left`. A name is sanitized before it becomes the name of
a segment or of a manifest, and what is lost there can make two names one.

Nearly all names end with one of a few dozen known words behind a slash ([`Family.leaves`]). No
such word is the end of another one, so two names with the same token end with the same word,
hence belong to the same kind of thing, and what is in front of the word decides
([`owned_token_inj`]). The leaders' own streams end with the side instead, which may be any text:
these can coincide with each other, with their telemetry and with the streams of an arm.
-/
import Mathlib.Data.List.Nodup
import DualFlexivControl.Collection.Features
import DualFlexivControl.Lib.Tiling
import DualFlexivControl.Streams.Registry

set_option autoImplicit false

namespace DualFlexivControl.Streams

open DualFlexivControl.Control DualFlexivControl.Collection

/-! ## The rig -/

def PROPRIO_SIGNALS : List String := ["q", "dq", "tau", "tau_ext", "wrench", "eef", "eef_vel"]

def STATUS_SIGNAL : String := "status"

def CAMERA_VIEWS : List String := ["left", "right", "color", "depth"]

def TELEMETRY_VECTOR_FIELDS : List String :=
  ["raw_q_rad", "model_q_rad", "model_dq_rad_s", "home_error_rad", "joint_offsets_rad",
   "model_signs", "limit_torque_nm", "null_torque_nm", "gravity_torque_nm", "friction_torque_nm",
   "force_feedback_torque_nm", "applied_torque_nm"]

def TELEMETRY_SCALAR_FIELDS : List String :=
  ["stamp_monotonic_ns", "grav_comp_gain", "grav_comp_gain_target", "force_feedback_gain",
   "force_feedback_gain_target"]

/-- An arm, as far as its streams go: the keys of its `streams` dict are proprio signals. -/
structure RigArm where
  side : String
  signals : List String
  known : ∀ signal ∈ signals, signal ∈ PROPRIO_SIGNALS
  distinct : signals.Nodup
  control_enabled : Bool
  kind : Kind
  gripper_enabled : Bool

/-- A camera; a view that is none of the four raises. -/
structure RigCamera where
  name : String
  views : List String
  known : ∀ view ∈ views, view ∈ CAMERA_VIEWS

/-- The arms, the cameras and the sides of the FACTR servers, as dicts have them. -/
structure Rig where
  arms : List RigArm
  cameras : List RigCamera
  leaders : List String
  sides_distinct : (arms.map RigArm.side).Nodup
  names_distinct : (cameras.map RigCamera.name).Nodup
  leaders_distinct : leaders.Nodup

/-- What the consumer of the run does; a skill drives sides of its own. -/
inductive Phase
  | viewing
  | collection
  | eval
  | skill (sides : List String) (distinct : sides.Nodup)

/-! ## Names -/

/-- The streams that are named after the thing they belong to and what they carry. -/
inductive Family
  | arm
  | camera
  | telemetry
  | channel
  | horizon
  deriving DecidableEq, Repr

/-- The last words of their names. -/
def Family.leaves : Family → List String
  | .arm => PROPRIO_SIGNALS ++ [STATUS_SIGNAL]
  | .camera => CAMERA_VIEWS
  | .telemetry => TELEMETRY_VECTOR_FIELDS ++ TELEMETRY_SCALAR_FIELDS
  | .channel => ["gripper", "setpoint", "command"]
  | .horizon => ["q_horizon", "eef_horizon"]

/-- `stream_name`, `camera_stream_name`, `factr_telemetry_stream_name`, `control_channel_name`
and the two horizon names. -/
def Family.name (key leaf : String) : Family → String
  | .arm => s!"{key}/{leaf}"
  | .camera => s!"cam/{key}/{leaf}"
  | .telemetry => s!"factr/telemetry/{key}/{leaf}"
  | .channel => s!"cmd/{key}/{leaf}"
  | .horizon => s!"eval/{key}/{leaf}"

/-- A stream of a run. -/
inductive StreamId
  | owned (family : Family) (key leaf : String)
  | leader (side : String)
  | raw_leader (side : String)
  | policy_comm
  deriving DecidableEq, Repr

/-- Its logical name. -/
def StreamId.name : StreamId → String
  | .owned family key leaf => family.name key leaf
  | .leader side => factr_stream_name side
  | .raw_leader side => raw_factr_stream_name side
  | .policy_comm => "eval/policy_comm"

/-- The registry it is published in. -/
def StreamId.sub : StreamId → Sub
  | .owned .channel _ _ => .control
  | _ => .streams

def StreamId.stream (id : StreamId) : Stream := ⟨id.sub, id.name⟩

/-! ## What the nodes declare -/

/-- `FlexivInterface.declare_streams` -/
def RigArm.declare_streams (arm : RigArm) : List StreamId :=
  (arm.signals ++ [STATUS_SIGNAL]).map (.owned .arm arm.side)

/-- `camera_streams_to_specs` -/
def RigCamera.declare_streams (camera : RigCamera) : List StreamId :=
  camera.views.map (.owned .camera camera.name)

/-- One side of `FactrInterface.declare_streams`. -/
def leader_streams (side : String) : List StreamId :=
  [.leader side, .raw_leader side] ++
    (TELEMETRY_VECTOR_FIELDS ++ TELEMETRY_SCALAR_FIELDS).map (.owned .telemetry side)

/-- The channels `Brain.open_control` opens for one side: the mailbox of an enabled gripper comes
first. -/
def channel_leaves (gripper : Bool) : List String :=
  if gripper then ["gripper", "setpoint", "command"] else ["setpoint", "command"]

/-- The last word of the horizon stream, by `_HORIZON_KIND`. -/
def horizon_leaf : Kind → Option String
  | .qpos => some "q_horizon"
  | .qvel => some "q_horizon"
  | .end_effector => some "eef_horizon"
  | .eef_vel => some "eef_horizon"
  | .force => none
  | .other _ => none

namespace Rig

variable (rig : Rig) (phase : Phase)

def control_arms : List RigArm := rig.arms.filter RigArm.control_enabled

/-- `SkillNode.drive_sides`, of the skill's sides. -/
def drives (side : String) : Bool :=
  rig.arms.any fun arm => arm.side == side && arm.control_enabled && arm.kind == .qpos

/-- The sides whose channels the consumer opens, and whether a gripper mailbox is among them:
only the collection opens one. -/
def driven : Phase → List (String × Bool)
  | .viewing => []
  | .collection => rig.control_arms.map fun arm => (arm.side, arm.gripper_enabled)
  | .eval => rig.control_arms.map fun arm => (arm.side, false)
  | .skill sides _ => (sides.filter rig.drives).map fun side => (side, false)

/-- The arms of the action layout of a rollout: those under control, or all in a dry run. -/
def action_arms : List RigArm :=
  if rig.control_arms = [] then rig.arms else rig.control_arms

/-- The horizon streams of the consumer, by side and last word. -/
def horizons : Phase → List (String × String)
  | .viewing => []
  | .collection => []
  | .eval => rig.action_arms.filterMap fun arm => (horizon_leaf arm.kind).map fun leaf =>
      (arm.side, leaf)
  | .skill sides _ => (sides.filter rig.drives).map fun side => (side, "q_horizon")

/-- `comm_writer` of the rollout. -/
def comm_streams : Phase → List StreamId
  | .eval => [.policy_comm]
  | _ => []

/-- What the consumer creates: its control channels, then the streams of the dashboard. -/
def consumer_streams : List StreamId :=
  (rig.driven phase).flatMap (fun d => (channel_leaves d.2).map (.owned .channel d.1)) ++
    (rig.horizons phase).map (fun h => .owned .horizon h.1 h.2) ++ comm_streams phase

end Rig

/-- The nodes of a run: an arm and a camera each, one FACTR producer and one consumer. -/
inductive Node
  | arm (side : String)
  | camera (name : String)
  | factr
  | consumer
  deriving DecidableEq, Repr

/-- The nodes with what each declares. -/
def Rig.units (rig : Rig) (phase : Phase) : List (Node × List StreamId) :=
  rig.arms.map (fun arm => (.arm arm.side, arm.declare_streams)) ++
    rig.cameras.map (fun camera => (.camera camera.name, camera.declare_streams)) ++
    [(.factr, rig.leaders.flatMap leader_streams), (.consumer, rig.consumer_streams phase)]

/-- The streams of all nodes, one node after the other. -/
def Rig.streams (rig : Rig) (phase : Phase) : List StreamId := (rig.units phase).flatMap Prod.snd

/-- No two of the streams share the name of their segment, and no two of one registry the name of
their manifest. -/
structure Distinct (rig : Rig) (phase : Phase) (run_id : String) : Prop where
  segments : ((rig.streams phase).map fun id => id.stream.shm_name run_id).Nodup
  manifests : ∀ sub, (((rig.streams phase).filter fun id => id.sub = sub).map fun id =>
    id.stream.file).Nodup

/-- The rig's names survive the sanitizer: no camera lists a view twice; no two arms, leaders or
driven sides, and no two cameras with a view in common, are told apart by lost characters only;
no leader reads as `raw/` or `telemetry/` of a leader; and no stream of an arm reads as one of a
leader. -/
structure Clear (rig : Rig) (phase : Phase) : Prop where
  views : ∀ camera ∈ rig.cameras, camera.views.Nodup
  sides : ∀ a ∈ rig.arms, ∀ b ∈ rig.arms,
    sanitize s!"{a.side}/" = sanitize s!"{b.side}/" → a.side = b.side
  cameras : ∀ a ∈ rig.cameras, ∀ b ∈ rig.cameras, ∀ view ∈ a.views, view ∈ b.views →
    sanitize s!"/{a.name}/" = sanitize s!"/{b.name}/" → a.name = b.name
  leaders : ∀ a ∈ rig.leaders, ∀ b ∈ rig.leaders,
    sanitize s!"/{a}" = sanitize s!"/{b}" ∨ sanitize s!"/{a}/" = sanitize s!"/{b}/" → a = b
  raw : ∀ a ∈ rig.leaders, ∀ b ∈ rig.leaders, sanitize s!"/{a}" ≠ sanitize s!"/raw/{b}"
  telemetry : ∀ a ∈ rig.leaders, ∀ b ∈ rig.leaders, ∀ field ∈ Family.telemetry.leaves,
    sanitize s!"/{a}" ≠ sanitize s!"/telemetry/{b}/{field}"
  arms : ∀ a ∈ rig.arms, ∀ signal ∈ a.signals ++ [STATUS_SIGNAL], ∀ b ∈ rig.leaders,
    sanitize s!"{a.side}/{signal}" ≠ sanitize s!"factr/{b}" ∧
      sanitize s!"{a.side}/{signal}" ≠ sanitize s!"factr/raw/{b}"
  channels : ∀ a ∈ rig.driven phase, ∀ b ∈ rig.driven phase,
    sanitize s!"/{a.1}/" = sanitize s!"/{b.1}/" → a.1 = b.1
  horizons : ∀ a ∈ rig.horizons phase, ∀ b ∈ rig.horizons phase, a.2 = b.2 →
    sanitize s!"/{a.1}/" = sanitize s!"/{b.1}/" → a.1 = b.1

/-! ## The sanitizer over a concatenation -/

/-- Whether a name ends within a run of characters that are not safe. -/
def in_run (inside : Bool) : List Char → Bool
  | [] => inside
  | c :: cs => in_run (!is_safe c) cs

/-- A text is sanitized from left to right, and the second half only needs to know whether the first
ended within a run. -/
theorem collapse_append (front back : List Char) :
    ∀ inside, collapse inside (front ++ back) =
      collapse inside front ++ collapse (in_run inside front) back := by
  induction front with
  | nil =>
    intro inside
    rfl
  | cons c cs ih =>
    intro inside
    rw [List.cons_append, collapse, collapse, in_run]
    by_cases hsafe : is_safe c = true
    · rw [if_pos hsafe, if_pos hsafe, hsafe, ih]
      rfl
    · rw [if_neg hsafe, if_neg hsafe, eq_false_of_ne_true hsafe, ih]
      cases inside with
      | false => rfl
      | true => rfl

/-- Safe characters stay as they are, wherever they stand: only runs of others are replaced by an
underscore. -/
theorem collapse_safe {word : List Char} (hsafe : ∀ c ∈ word, is_safe c = true) :
    ∀ inside, collapse inside word = word := by
  induction word with
  | nil =>
    intro inside
    rfl
  | cons c cs ih =>
    intro inside
    rw [collapse, if_pos (hsafe c List.mem_cons_self),
      ih (fun c' hc' => hsafe c' (List.mem_cons_of_mem _ hc'))]

/-- Whether a run is open is decided by the last character alone. -/
theorem in_run_concat (front : List Char) (c : Char) :
    ∀ inside, in_run inside (front ++ [c]) = !is_safe c := by
  induction front with
  | nil =>
    intro inside
    rfl
  | cons c' cs ih =>
    intro inside
    exact ih _

/-- A name that ends within such a run has a token that ends with an underscore. -/
theorem collapse_in_run (cs : List Char) :
    ∀ inside, in_run inside cs = true →
      (collapse inside cs).getLast? = some '_' ∨ (inside = true ∧ collapse inside cs = []) := by
  induction cs with
  | nil =>
    intro inside h
    exact Or.inr ⟨h, rfl⟩
  | cons c cs ih =>
    intro inside h
    rw [in_run] at h
    rw [collapse]
    have hrest := ih _ h
    by_cases hsafe : is_safe c = true
    · rw [hsafe, Bool.not_true] at hrest
      rw [if_pos hsafe]
      left
      rcases hrest with hlast | ⟨habs, _⟩
      · rw [List.getLast?_cons, hlast]
        rfl
      · exact absurd habs (by decide)
    · rw [eq_false_of_ne_true hsafe, Bool.not_false] at hrest
      rw [if_neg hsafe]
      cases inside with
      | true =>
        rw [if_pos rfl]
        rcases hrest with hlast | ⟨_, hnil⟩
        · exact Or.inl hlast
        · exact Or.inr ⟨rfl, hnil⟩
      | false =>
        rw [if_neg Bool.false_ne_true]
        left
        rcases hrest with hlast | ⟨_, hnil⟩
        · rw [List.getLast?_cons, hlast]
          rfl
        · rw [hnil]
          rfl

section Sanitize

variable {front word name : String}

/-- What follows a slash is sanitized on its own. -/
theorem sanitize_append_word (hsafe : ∀ c ∈ word.toList, is_safe c = true) :
    sanitize (front ++ "/" ++ word) = sanitize (front ++ "/") ++ word := by
  apply String.toList_injective
  unfold sanitize
  simp only [String.toList_ofList, String.toList_append]
  rw [collapse_append, collapse_safe hsafe]

/-- A front that ends with a safe character is sanitized on its own. -/
theorem sanitize_front (hfront : in_run false front.toList = false) :
    sanitize (front ++ name) = sanitize front ++ sanitize name := by
  apply String.toList_injective
  unfold sanitize
  simp only [String.toList_ofList, String.toList_append]
  rw [collapse_append, hfront]

/-- A name that ends with a slash has a token that ends with an underscore. -/
theorem getLast_sanitize_slash : (sanitize (front ++ "/")).toList.getLast? = some '_' := by
  have hrun : in_run false (front ++ "/").toList = true := by
    rw [String.toList_append]
    exact in_run_concat front.toList '/' false
  unfold sanitize
  rw [String.toList_ofList]
  rcases collapse_in_run _ false hrun with hlast | ⟨habs, _⟩
  · exact hlast
  · exact absurd habs (by decide)

end Sanitize

/-! ## The last word of a name -/

/-- The known last words consist of safe characters, so the sanitizer leaves them as they are. -/
theorem leaves_safe (family : Family) : ∀ leaf ∈ family.leaves, ∀ c ∈ leaf.toList,
    is_safe c = true := by
  have hall : ∀ family : Family,
      (family.leaves.all fun leaf => leaf.toList.all is_safe) = true := by
    intro family
    cases family <;> decide +kernel
  intro leaf hleaf c hc
  exact List.all_eq_true.1 (List.all_eq_true.1 (hall family) leaf hleaf) c hc

/-- Every last word with the family it belongs to, and the one of the policy's own stream. -/
def last_words : List (Option Family × String) :=
  (none, "comm") :: [Family.arm, .camera, .telemetry, .channel, .horizon].flatMap fun family =>
    family.leaves.map fun leaf => (some family, leaf)

/-- No last word is the end of another one. -/
theorem last_words_apart : ∀ v ∈ last_words, ∀ w ∈ last_words,
    ¬ '_' :: v.2.toList <:+ w.2.toList := by
  decide +kernel

/-- A last word tells its family. -/
theorem family_of_last_word : ∀ v ∈ last_words, ∀ w ∈ last_words, v.2 = w.2 → v.1 = w.1 := by
  decide +kernel

/-- Every leaf of a family is in the table of last words, under that family. -/
theorem mem_last_words {family : Family} {leaf : String} (h : leaf ∈ family.leaves) :
    (some family, leaf) ∈ last_words := by
  unfold last_words
  refine List.mem_cons_of_mem _ (List.mem_flatMap.2 ⟨family, ?_, List.mem_map_of_mem h⟩)
  cases family <;> decide

/-- What is in front of the last word. -/
def Family.front (key : String) : Family → String
  | .arm => key
  | .camera => s!"cam/{key}"
  | .telemetry => s!"factr/telemetry/{key}"
  | .channel => s!"cmd/{key}"
  | .horizon => s!"eval/{key}"

/-- A name is a front that depends on the key, a slash and the last word. -/
theorem name_eq (family : Family) (key leaf : String) :
    family.name key leaf = family.front key ++ "/" ++ leaf := by
  cases family <;> rfl

/-- The token of a name ends with its last word, behind an underscore. -/
theorem sanitize_name {family : Family} {key leaf : String} (hleaf : leaf ∈ family.leaves) :
    sanitize (family.name key leaf) = sanitize (family.front key ++ "/") ++ leaf := by
  rw [name_eq]
  exact sanitize_append_word (leaves_safe family leaf hleaf)

/-! ## Names with one token -/

/-- The part of a token behind a common front decides. -/
theorem sanitize_cancel {front a b : String} (hfront : in_run false front.toList = false) :
    sanitize (front ++ a) = sanitize (front ++ b) ↔ sanitize a = sanitize b := by
  rw [sanitize_front hfront, sanitize_front hfront]
  exact String.append_right_inj _

/-- Names with unlike safe first characters have unlike tokens. -/
theorem sanitize_ne_of_head {a b : String} {c d : Char} (ha : a.toList.head? = some c)
    (hb : b.toList.head? = some d) (hc : is_safe c = true) (hd : is_safe d = true) (hne : c ≠ d) :
    sanitize a ≠ sanitize b := by
  intro h
  have hhead := sanitize_head ha hc
  rw [h, sanitize_head hb hd] at hhead
  exact hne (Option.some.inj hhead).symm

/-- Names with last words and one token have one last word, are of one family, and agree in front
of the word. -/
theorem owned_token_inj {family family' : Family} {key key' leaf leaf' : String}
    (hleaf : leaf ∈ family.leaves) (hleaf' : leaf' ∈ family'.leaves)
    (h : sanitize (family.name key leaf) = sanitize (family'.name key' leaf')) :
    family = family' ∧ leaf = leaf' ∧
      sanitize (family.front key ++ "/") = sanitize (family'.front key' ++ "/") := by
  have hmem := mem_last_words hleaf
  have hmem' := mem_last_words hleaf'
  have hlist := congrArg String.toList h
  rw [sanitize_name hleaf, sanitize_name hleaf', String.toList_append,
    String.toList_append] at hlist
  rcases Tiling.words_of_append_eq getLast_sanitize_slash getLast_sanitize_slash hlist with
    ⟨hfront, hword⟩ | hend | hend
  · have hword := String.toList_injective hword
    exact ⟨Option.some.inj (family_of_last_word _ hmem _ hmem' hword), hword,
      String.toList_injective hfront⟩
  · exact absurd hend (last_words_apart _ hmem _ hmem')
  · exact absurd hend (last_words_apart _ hmem' _ hmem)

/-- The policy's own stream ends with a word of its own, `policy_comm`, so it never shares a token
with a stream of one of the families. -/
theorem owned_ne_comm {family : Family} {key leaf : String} (hleaf : leaf ∈ family.leaves) :
    sanitize (family.name key leaf) ≠ sanitize "eval/policy_comm" := by
  intro h
  have hcomm : sanitize "eval/policy_comm" = "eval_policy_" ++ "comm" := by decide +kernel
  have hlist := congrArg String.toList h
  have hmem : (none, "comm") ∈ last_words := List.mem_cons_self
  rw [sanitize_name hleaf, hcomm, String.toList_append, String.toList_append] at hlist
  rcases Tiling.words_of_append_eq getLast_sanitize_slash (by decide) hlist with
    ⟨_, hword⟩ | hend | hend
  · have hfamily := family_of_last_word _ (mem_last_words hleaf) _ hmem
      (String.toList_injective hword)
    exact absurd hfamily (Option.some_ne_none _)
  · exact absurd hend (last_words_apart _ (mem_last_words hleaf) _ hmem)
  · exact absurd hend (last_words_apart _ hmem _ (mem_last_words hleaf))

/-- A key between slashes behind a head. -/
theorem slash_assoc (head key : String) : head ++ "/" ++ key ++ "/" = head ++ s!"/{key}/" := by
  rw [String.append_assoc, String.append_assoc, String.append_assoc]
  rfl

/-- In front of the word, only the key counts: the head is the same for the whole family, and arms
have none. -/
theorem front_token_iff {family : Family} (hne : family ≠ .arm) {key other : String} :
    sanitize (family.front key ++ "/") = sanitize (family.front other ++ "/") ↔
      sanitize s!"/{key}/" = sanitize s!"/{other}/" := by
  have hsplit : ∃ head : String, in_run false head.toList = false ∧
      ∀ key, family.front key ++ "/" = head ++ s!"/{key}/" := by
    cases family with
    | arm => exact absurd rfl hne
    | camera =>
      exact ⟨"cam", by decide, fun key => slash_assoc "cam" key⟩
    | telemetry =>
      exact ⟨"factr/telemetry", by decide, fun key => slash_assoc "factr/telemetry" key⟩
    | channel =>
      exact ⟨"cmd", by decide, fun key => slash_assoc "cmd" key⟩
    | horizon =>
      exact ⟨"eval", by decide, fun key => slash_assoc "eval" key⟩
  obtain ⟨head, hhead, heq⟩ := hsplit
  rw [heq, heq]
  exact sanitize_cancel hhead

section Leaders

variable {a b key leaf : String}

/-- The name of a leader's stream, split behind the common head. -/
theorem leader_name (side : String) : factr_stream_name side = "factr" ++ s!"/{side}" := by
  show "factr" ++ "/" ++ side = "factr" ++ s!"/{side}"
  exact String.append_assoc

/-- The name of a leader's raw stream, split behind the same head. -/
theorem raw_leader_name (side : String) :
    raw_factr_stream_name side = "factr" ++ s!"/raw/{side}" := by
  show "factr" ++ "/raw/" ++ side = "factr" ++ s!"/raw/{side}"
  exact String.append_assoc

/-- The name of a leader's telemetry, split behind the same head. -/
theorem telemetry_name (key leaf : String) :
    Family.telemetry.name key leaf = "factr" ++ s!"/telemetry/{key}/{leaf}" := by
  show "factr" ++ "/telemetry/" ++ key ++ "/" ++ leaf =
    "factr" ++ ("/telemetry/" ++ key ++ "/" ++ leaf)
  simp only [String.append_assoc]

/-- Two leaders share a token when their sides do behind the slash. -/
theorem leader_token_iff : sanitize (factr_stream_name a) = sanitize (factr_stream_name b) ↔
    sanitize s!"/{a}" = sanitize s!"/{b}" := by
  rw [leader_name, leader_name]
  exact sanitize_cancel (by decide)

/-- A leader and a raw stream share a token when the leader's side reads as `raw` and the other
side. -/
theorem leader_raw_token_iff :
    sanitize (factr_stream_name a) = sanitize (raw_factr_stream_name b) ↔
      sanitize s!"/{a}" = sanitize s!"/raw/{b}" := by
  rw [leader_name, raw_leader_name]
  exact sanitize_cancel (by decide)

/-- A leader and a telemetry stream share a token when the leader's side reads as `telemetry`, a key
and a last word. -/
theorem leader_telemetry_token_iff :
    sanitize (factr_stream_name a) = sanitize (Family.telemetry.name key leaf) ↔
      sanitize s!"/{a}" = sanitize s!"/telemetry/{key}/{leaf}" := by
  rw [leader_name, telemetry_name]
  exact sanitize_cancel (by decide)

/-- Two raw streams share a token when their sides do behind the slash. -/
theorem raw_token_iff : sanitize (raw_factr_stream_name a) = sanitize (raw_factr_stream_name b) ↔
    sanitize s!"/{a}" = sanitize s!"/{b}" := by
  have hraw : ∀ side : String, s!"/raw/{side}" = "/raw" ++ s!"/{side}" := by
    intro side
    show "/raw" ++ "/" ++ side = "/raw" ++ s!"/{side}"
    exact String.append_assoc
  rw [raw_leader_name, raw_leader_name, sanitize_cancel (by decide), hraw, hraw]
  exact sanitize_cancel (by decide)

/-- Tokens differ at the second character where the names do. -/
theorem sanitize_second (x y : String) : sanitize ("/r" ++ x) ≠ sanitize ("/t" ++ y) := by
  have hr : (sanitize "/r").toList = ['_', 'r'] := by decide +kernel
  have ht : (sanitize "/t").toList = ['_', 't'] := by decide +kernel
  rw [sanitize_front (by decide), sanitize_front (by decide)]
  intro h
  have hlist := congrArg String.toList h
  rw [String.toList_append, String.toList_append, hr, ht] at hlist
  exact absurd (List.cons.inj (List.cons.inj hlist).2).1 (by decide)

/-- A raw stream and a stream of telemetry never share a token, as `raw` and `telemetry` start
unlike behind the common head. -/
theorem raw_ne_telemetry :
    sanitize (raw_factr_stream_name a) ≠ sanitize (Family.telemetry.name key leaf) := by
  rw [raw_leader_name, telemetry_name, Ne, sanitize_cancel (by decide)]
  have hraw : s!"/raw/{a}" = "/r" ++ ("aw/" ++ a) := by
    show "/r" ++ "aw/" ++ a = "/r" ++ ("aw/" ++ a)
    exact String.append_assoc
  have htelemetry : s!"/telemetry/{key}/{leaf}" = "/t" ++ ("elemetry/" ++ key ++ "/" ++ leaf) := by
    show "/t" ++ "elemetry/" ++ key ++ "/" ++ leaf = "/t" ++ ("elemetry/" ++ key ++ "/" ++ leaf)
    simp only [String.append_assoc]
  rw [hraw, htelemetry]
  exact sanitize_second _ _

/-- The first character of a text is that of its front, where the front is not empty. -/
theorem head_append {s t : String} {c : Char} (h : s.toList.head? = some c) :
    (s ++ t).toList.head? = some c := by
  rw [String.toList_append, List.head?_append, h]
  rfl

/-- A leader's name begins with a safe `f`, which its token keeps. -/
theorem head_leader (side : String) : (factr_stream_name side).toList.head? = some 'f' := by
  rw [leader_name]
  exact head_append (by decide)

/-- So does the name of a raw stream. -/
theorem head_raw_leader (side : String) :
    (raw_factr_stream_name side).toList.head? = some 'f' := by
  rw [raw_leader_name]
  exact head_append (by decide)

/-- Neither stream of a leader reads as one of a camera, of a channel or of a horizon. -/
theorem leader_ne_owned {family : Family} (harm : family ≠ .arm) (htelemetry : family ≠ .telemetry)
    {name : String} (hname : name.toList.head? = some 'f') :
    sanitize name ≠ sanitize (family.name key leaf) := by
  have hhead : ∃ d, (family.name key leaf).toList.head? = some d ∧ is_safe d = true ∧ 'f' ≠ d := by
    cases family with
    | arm => exact absurd rfl harm
    | telemetry => exact absurd rfl htelemetry
    | camera =>
      exact ⟨'c', head_append (head_append (head_append (by decide))), by decide, by decide⟩
    | channel =>
      exact ⟨'c', head_append (head_append (head_append (by decide))), by decide, by decide⟩
    | horizon =>
      exact ⟨'e', head_append (head_append (head_append (by decide))), by decide, by decide⟩
  obtain ⟨d, hd, hsafe, hne⟩ := hhead
  exact sanitize_ne_of_head hname hd (by decide) hsafe hne

/-- Nor does it read as the policy's own. -/
theorem leader_ne_comm {name : String} (hname : name.toList.head? = some 'f') :
    sanitize name ≠ sanitize "eval/policy_comm" :=
  sanitize_ne_of_head hname (d := 'e') (by decide) (by decide) (by decide) (by decide)

end Leaders

/-! ## What is declared -/

section Declared

variable {rig : Rig} {phase : Phase}

/-- Where a stream comes from. -/
def Origin (rig : Rig) (phase : Phase) : StreamId → Prop
  | .owned .arm side leaf => ∃ arm ∈ rig.arms, arm.side = side ∧
      leaf ∈ arm.signals ++ [STATUS_SIGNAL]
  | .owned .camera name leaf => ∃ camera ∈ rig.cameras, camera.name = name ∧ leaf ∈ camera.views
  | .owned .telemetry side leaf => side ∈ rig.leaders ∧ leaf ∈ Family.telemetry.leaves
  | .owned .channel side leaf => ∃ d ∈ rig.driven phase, d.1 = side ∧ leaf ∈ channel_leaves d.2
  | .owned .horizon side leaf => (side, leaf) ∈ rig.horizons phase
  | .leader side => side ∈ rig.leaders
  | .raw_leader side => side ∈ rig.leaders
  | .policy_comm => .policy_comm ∈ Rig.comm_streams phase

/-- The only stream of the policy's own is its record of the exchange with the server. -/
theorem mem_comm_streams {id : StreamId} (h : id ∈ Rig.comm_streams phase) :
    id = .policy_comm := by
  cases phase with
  | eval => exact List.mem_singleton.1 h
  | viewing => exact absurd h List.not_mem_nil
  | collection => exact absurd h List.not_mem_nil
  | skill sides distinct => exact absurd h List.not_mem_nil

/-- A leader declares its stream, its raw stream and one for each word of telemetry. -/
theorem mem_leader_streams {id : StreamId} {side : String} : id ∈ leader_streams side ↔
    id = .leader side ∨ id = .raw_leader side ∨
      ∃ leaf ∈ Family.telemetry.leaves, .owned .telemetry side leaf = id := by
  unfold leader_streams
  rw [List.mem_append, List.mem_cons, List.mem_singleton, or_assoc, List.mem_map]
  rfl

/-- The consumer declares the channels of the sides it drives, the horizons and the policy's own
stream. -/
theorem mem_consumer_streams {id : StreamId} : id ∈ rig.consumer_streams phase ↔
    (∃ d ∈ rig.driven phase, ∃ leaf ∈ channel_leaves d.2, .owned .channel d.1 leaf = id) ∨
      (∃ h ∈ rig.horizons phase, .owned .horizon h.1 h.2 = id) ∨
      id ∈ Rig.comm_streams phase := by
  unfold Rig.consumer_streams
  simp only [List.mem_append, List.mem_flatMap, List.mem_map, or_assoc]

/-- A stream of the run is one of an arm, of a camera, of a leader or of the consumer. -/
theorem mem_streams {id : StreamId} : id ∈ rig.streams phase ↔
    (∃ arm ∈ rig.arms, id ∈ arm.declare_streams) ∨
      (∃ camera ∈ rig.cameras, id ∈ camera.declare_streams) ∨
      (∃ side ∈ rig.leaders, id ∈ leader_streams side) ∨ id ∈ rig.consumer_streams phase := by
  unfold Rig.streams Rig.units
  rw [List.flatMap_append, List.flatMap_append, List.mem_append, List.mem_append, or_assoc,
    List.flatMap_map, List.flatMap_map, List.mem_flatMap, List.mem_flatMap]
  simp only [List.flatMap_cons, List.flatMap_nil, List.append_nil, List.mem_append,
    List.mem_flatMap]

/-- A stream of the run is one of the nodes', and each node declares exactly the streams of its own
thing. -/
theorem origin_iff {id : StreamId} : id ∈ rig.streams phase ↔ Origin rig phase id := by
  rw [mem_streams]
  constructor
  · rintro (⟨arm, harm, hid⟩ | ⟨camera, hcamera, hid⟩ | ⟨side, hside, hid⟩ | hid)
    · obtain ⟨leaf, hleaf, rfl⟩ := List.mem_map.1 hid
      exact ⟨arm, harm, rfl, hleaf⟩
    · obtain ⟨leaf, hleaf, rfl⟩ := List.mem_map.1 hid
      exact ⟨camera, hcamera, rfl, hleaf⟩
    · rcases mem_leader_streams.1 hid with rfl | rfl | ⟨leaf, hleaf, rfl⟩
      · exact hside
      · exact hside
      · exact ⟨hside, hleaf⟩
    · rcases mem_consumer_streams.1 hid with ⟨d, hd, leaf, hleaf, rfl⟩ | ⟨h, hh, rfl⟩ | hcomm
      · exact ⟨d, hd, rfl, hleaf⟩
      · exact hh
      · have heq := mem_comm_streams hcomm
        rw [heq] at hcomm ⊢
        exact hcomm
  · intro h
    cases id with
    | owned family key leaf =>
      cases family with
      | arm =>
        obtain ⟨arm, harm, rfl, hleaf⟩ := h
        exact Or.inl ⟨arm, harm, List.mem_map_of_mem hleaf⟩
      | camera =>
        obtain ⟨camera, hcamera, rfl, hleaf⟩ := h
        exact Or.inr (Or.inl ⟨camera, hcamera, List.mem_map_of_mem hleaf⟩)
      | telemetry =>
        exact Or.inr (Or.inr (Or.inl ⟨key, h.1, mem_leader_streams.2
          (Or.inr (Or.inr ⟨leaf, h.2, rfl⟩))⟩))
      | channel =>
        obtain ⟨d, hd, rfl, hleaf⟩ := h
        exact Or.inr (Or.inr (Or.inr (mem_consumer_streams.2 (Or.inl ⟨d, hd, leaf, hleaf, rfl⟩))))
      | horizon =>
        exact Or.inr (Or.inr (Or.inr (mem_consumer_streams.2
          (Or.inr (Or.inl ⟨(key, leaf), h, rfl⟩)))))
    | leader side =>
      exact Or.inr (Or.inr (Or.inl ⟨side, h, mem_leader_streams.2 (Or.inl rfl)⟩))
    | raw_leader side =>
      exact Or.inr (Or.inr (Or.inl ⟨side, h, mem_leader_streams.2 (Or.inr (Or.inl rfl))⟩))
    | policy_comm =>
      exact Or.inr (Or.inr (Or.inr (mem_consumer_streams.2 (Or.inr (Or.inr h)))))

/-- The last word of a horizon is one of the known ones, whatever the controller's kind. -/
theorem horizon_leaf_known {kind : Kind} {leaf : String} (h : horizon_leaf kind = some leaf) :
    leaf ∈ Family.horizon.leaves := by
  cases kind with
  | qpos | qvel =>
    obtain rfl := Option.some.inj h
    exact List.mem_cons_self
  | end_effector | eef_vel =>
    obtain rfl := Option.some.inj h
    exact List.mem_cons_of_mem _ List.mem_cons_self
  | force | other _ => exact nomatch h

/-- The last word of a declared stream is one of its family's. -/
theorem leaf_known {family : Family} {key leaf : String}
    (h : Origin rig phase (.owned family key leaf)) : leaf ∈ family.leaves := by
  cases family with
  | arm =>
    obtain ⟨arm, _, _, hleaf⟩ := h
    rcases List.mem_append.1 hleaf with hsignal | hstatus
    · exact List.mem_append_left _ (arm.known leaf hsignal)
    · exact List.mem_append_right _ hstatus
  | camera =>
    obtain ⟨camera, _, _, hleaf⟩ := h
    exact camera.known leaf hleaf
  | telemetry => exact h.2
  | channel =>
    obtain ⟨d, _, _, hleaf⟩ := h
    have hsub : ∀ gripper, ∀ leaf ∈ channel_leaves gripper, leaf ∈ Family.channel.leaves := by
      decide
    exact hsub d.2 leaf hleaf
  | horizon =>
    cases phase with
    | eval =>
      obtain ⟨arm, _, harm⟩ := List.mem_filterMap.1 h
      obtain ⟨leaf', hleaf', heq⟩ := Option.map_eq_some_iff.1 harm
      rw [← (Prod.mk.inj heq).2]
      exact horizon_leaf_known hleaf'
    | skill sides distinct =>
      obtain ⟨side, _, heq⟩ := List.mem_map.1 h
      rw [← (Prod.mk.inj heq).2]
      exact List.mem_cons_self
    | viewing => exact absurd h List.not_mem_nil
    | collection => exact absurd h List.not_mem_nil

end Declared

/-! ## Which node declares a stream -/

/-- The node of a stream. -/
def StreamId.node : StreamId → Node
  | .owned .arm side _ => .arm side
  | .owned .camera name _ => .camera name
  | .owned .telemetry _ _ => .factr
  | .leader _ => .factr
  | .raw_leader _ => .factr
  | .owned .channel _ _ => .consumer
  | .owned .horizon _ _ => .consumer
  | .policy_comm => .consumer

/-- The name that a stream belongs to. -/
def StreamId.key : StreamId → String
  | .owned _ key _ => key
  | .leader side => side
  | .raw_leader side => side
  | .policy_comm => ""

section Units

variable {rig : Rig} {phase : Phase}

/-- A node declares streams of its own only: what a stream is called says which node it belongs to.
-/
theorem node_of_unit {unit : Node × List StreamId} (hunit : unit ∈ rig.units phase)
    {id : StreamId} (hid : id ∈ unit.2) : id.node = unit.1 := by
  unfold Rig.units at hunit
  rcases List.mem_append.1 hunit with hunit | hunit
  · rcases List.mem_append.1 hunit with hunit | hunit
    · obtain ⟨arm, _, rfl⟩ := List.mem_map.1 hunit
      obtain ⟨leaf, _, rfl⟩ := List.mem_map.1 hid
      rfl
    · obtain ⟨camera, _, rfl⟩ := List.mem_map.1 hunit
      obtain ⟨leaf, _, rfl⟩ := List.mem_map.1 hid
      rfl
  · rcases List.mem_cons.1 hunit with rfl | hunit
    · obtain ⟨side, _, hside⟩ := List.mem_flatMap.1 hid
      rcases mem_leader_streams.1 hside with rfl | rfl | ⟨leaf, _, rfl⟩
      · rfl
      · rfl
      · rfl
    · rw [List.mem_singleton.1 hunit] at hid ⊢
      rcases mem_consumer_streams.1 hid with ⟨d, _, leaf, _, rfl⟩ | ⟨h, _, rfl⟩ | hcomm
      · rfl
      · rfl
      · rw [mem_comm_streams hcomm]
        rfl

/-- The nodes of a run are distinct, since arms and cameras come from dicts. -/
theorem nodup_units : ((rig.units phase).map Prod.fst).Nodup := by
  have harms : (rig.arms.map fun arm => Node.arm arm.side).Nodup := by
    have h := rig.sides_distinct.map fun _ _ h => Node.arm.inj h
    rwa [List.map_map] at h
  have hcameras : (rig.cameras.map fun camera => Node.camera camera.name).Nodup := by
    have h := rig.names_distinct.map fun _ _ h => Node.camera.inj h
    rwa [List.map_map] at h
  unfold Rig.units
  rw [List.map_append, List.map_append, List.map_map, List.map_map]
  have hlast : [Node.factr, Node.consumer].Nodup := by
    decide
  refine List.nodup_append.2 ⟨List.nodup_append.2 ⟨harms, hcameras, ?_⟩, hlast, ?_⟩
  · intro n hn n' hn'
    obtain ⟨arm, _, rfl⟩ := List.mem_map.1 hn
    obtain ⟨camera, _, rfl⟩ := List.mem_map.1 hn'
    exact Node.noConfusion
  · intro n hn n' hn'
    have hends : n' = .factr ∨ n' = .consumer := by
      rcases List.mem_cons.1 hn' with heq | heq
      · exact Or.inl heq
      · exact Or.inr (List.mem_singleton.1 heq)
    rcases List.mem_append.1 hn with hn | hn
    · obtain ⟨arm, _, rfl⟩ := List.mem_map.1 hn
      rcases hends with rfl | rfl
      · exact Node.noConfusion
      · exact Node.noConfusion
    · obtain ⟨camera, _, rfl⟩ := List.mem_map.1 hn
      rcases hends with rfl | rfl
      · exact Node.noConfusion
      · exact Node.noConfusion

/-- Streams of one thing differ by their last words. -/
theorem owned_injective (family : Family) (key : String) :
    Function.Injective (StreamId.owned family key) := fun _ _ h => (StreamId.owned.inj h).2.2

/-- An arm declares no stream twice: its signals are the keys of a dict, and the status has a word
of its own. -/
theorem RigArm.nodup_streams (arm : RigArm) : arm.declare_streams.Nodup := by
  have hstatus : STATUS_SIGNAL ∉ arm.signals := by
    intro h
    exact absurd (arm.known _ h) (by decide)
  unfold RigArm.declare_streams
  apply List.Nodup.map (owned_injective .arm arm.side)
  rw [List.nodup_append]
  refine ⟨arm.distinct, List.nodup_singleton _, ?_⟩
  intro signal hsignal status hlast heq
  rw [heq, List.mem_singleton.1 hlast] at hsignal
  exact hstatus hsignal

/-- A leader declares no stream twice: its own, its raw one and the words of its telemetry are all
different. -/
theorem nodup_leader_streams (side : String) : (leader_streams side).Nodup := by
  have hfields : (TELEMETRY_VECTOR_FIELDS ++ TELEMETRY_SCALAR_FIELDS).Nodup := by
    decide +kernel
  unfold leader_streams
  rw [List.nodup_append]
  refine ⟨?_, hfields.map (owned_injective .telemetry side), ?_⟩
  · rw [List.nodup_cons]
    refine ⟨?_, List.nodup_singleton _⟩
    intro h
    exact StreamId.noConfusion (List.mem_singleton.1 h)
  · intro id hid id' hid'
    obtain ⟨leaf, _, rfl⟩ := List.mem_map.1 hid'
    rcases List.mem_cons.1 hid with rfl | hid
    · exact StreamId.noConfusion
    · rw [List.mem_singleton.1 hid]
      exact StreamId.noConfusion

/-- A side is driven once, whichever of the phases opens its channels, since the sides come from the
keys of dicts. -/
theorem nodup_driven : ((rig.driven phase).map Prod.fst).Nodup := by
  have hcontrol : (rig.control_arms.map RigArm.side).Nodup :=
    rig.sides_distinct.sublist (List.filter_sublist.map RigArm.side)
  cases phase with
  | viewing => exact List.nodup_nil
  | collection =>
    unfold Rig.driven
    rw [List.map_map]
    exact hcontrol
  | eval =>
    unfold Rig.driven
    rw [List.map_map]
    exact hcontrol
  | skill sides distinct =>
    unfold Rig.driven
    rw [List.map_map]
    have h := distinct.filter rig.drives
    rwa [← List.map_id (sides.filter rig.drives)] at h

/-- Each arm has at most one horizon, so the sides with horizons come in the order of the arms. -/
theorem horizons_sublist (arms : List RigArm) :
    ((arms.filterMap fun arm => (horizon_leaf arm.kind).map fun leaf =>
      (arm.side, leaf)).map Prod.fst).Sublist (arms.map RigArm.side) := by
  induction arms with
  | nil => exact List.Sublist.slnil
  | cons arm rest ih =>
    rw [List.filterMap_cons, List.map_cons]
    cases horizon_leaf arm.kind with
    | none => exact ih.cons arm.side
    | some leaf => exact ih.cons_cons arm.side

/-- A side has one horizon, that of its own controller's kind, in every phase that has horizons at
all. -/
theorem nodup_horizons : ((rig.horizons phase).map Prod.fst).Nodup := by
  cases phase with
  | viewing => exact List.nodup_nil
  | collection => exact List.nodup_nil
  | eval =>
    have hsub : rig.action_arms.Sublist rig.arms := by
      unfold Rig.action_arms
      split
      · exact List.Sublist.refl _
      · exact List.filter_sublist
    unfold Rig.horizons
    exact rig.sides_distinct.sublist
      ((horizons_sublist rig.action_arms).trans (hsub.map RigArm.side))
  | skill sides distinct =>
    unfold Rig.horizons
    rw [List.map_map]
    have h := distinct.filter rig.drives
    rwa [← List.map_id (sides.filter rig.drives)] at h

/-- The consumer declares no stream twice: channels, horizons and its own stream have different
words. -/
theorem nodup_consumer_streams : (rig.consumer_streams phase).Nodup := by
  have hchannels : ((rig.driven phase).flatMap fun d =>
      (channel_leaves d.2).map (StreamId.owned .channel d.1)).Nodup := by
    apply Tiling.nodup_flatMap_by_key StreamId.key nodup_driven
    · intro d _ id hid
      obtain ⟨leaf, _, rfl⟩ := List.mem_map.1 hid
      rfl
    · intro d _
      have hleaves : ∀ gripper, (channel_leaves gripper).Nodup := by decide
      exact (hleaves d.2).map (owned_injective .channel d.1)
  have hhorizons : ((rig.horizons phase).map fun h => StreamId.owned .horizon h.1 h.2).Nodup := by
    apply List.Nodup.map _ nodup_horizons.of_map
    intro h h' heq
    obtain ⟨_, hkey, hleaf⟩ := StreamId.owned.inj heq
    exact Prod.ext hkey hleaf
  have hcomm : (Rig.comm_streams phase).Nodup := by
    cases phase with
    | eval => exact List.nodup_singleton _
    | viewing => exact List.nodup_nil
    | collection => exact List.nodup_nil
    | skill sides distinct => exact List.nodup_nil
  unfold Rig.consumer_streams
  rw [List.nodup_append, List.nodup_append]
  refine ⟨⟨hchannels, hhorizons, ?_⟩, hcomm, ?_⟩
  · intro id hid id' hid'
    obtain ⟨d, _, hleaf⟩ := List.mem_flatMap.1 hid
    obtain ⟨leaf, _, rfl⟩ := List.mem_map.1 hleaf
    obtain ⟨h, _, rfl⟩ := List.mem_map.1 hid'
    intro heq
    exact Family.noConfusion (StreamId.owned.inj heq).1
  · intro id hid id' hid'
    rw [mem_comm_streams hid']
    rcases List.mem_append.1 hid with hid | hid
    · obtain ⟨d, _, hleaf⟩ := List.mem_flatMap.1 hid
      obtain ⟨leaf, _, rfl⟩ := List.mem_map.1 hleaf
      exact StreamId.noConfusion
    · obtain ⟨h, _, rfl⟩ := List.mem_map.1 hid
      exact StreamId.noConfusion

/-- No stream is declared twice, unless a camera lists a view twice. -/
theorem nodup_streams (hviews : ∀ camera ∈ rig.cameras, camera.views.Nodup) :
    (rig.streams phase).Nodup := by
  apply Tiling.nodup_flatMap_by_key StreamId.node nodup_units
  · intro unit hunit id hid
    exact node_of_unit hunit hid
  · intro unit hunit
    unfold Rig.units at hunit
    rcases List.mem_append.1 hunit with hunit | hunit
    · rcases List.mem_append.1 hunit with hunit | hunit
      · obtain ⟨arm, _, rfl⟩ := List.mem_map.1 hunit
        exact arm.nodup_streams
      · obtain ⟨camera, hcamera, rfl⟩ := List.mem_map.1 hunit
        exact (hviews camera hcamera).map (owned_injective .camera camera.name)
    · rcases List.mem_cons.1 hunit with rfl | hunit
      · have hsides : (rig.leaders.map id).Nodup := by
          rw [List.map_id]
          exact rig.leaders_distinct
        apply Tiling.nodup_flatMap_by_key StreamId.key hsides
        · intro side _ sid hsid
          rcases mem_leader_streams.1 hsid with rfl | rfl | ⟨leaf, _, rfl⟩
          · rfl
          · rfl
          · rfl
        · intro side _
          exact nodup_leader_streams side
      · rw [List.mem_singleton.1 hunit]
        exact nodup_consumer_streams

/-- A camera that lists a view twice declares a stream twice. -/
theorem nodup_views (h : (rig.streams phase).Nodup) :
    ∀ camera ∈ rig.cameras, camera.views.Nodup := by
  intro camera hcamera
  have hunit : (Node.camera camera.name, camera.declare_streams) ∈ rig.units phase := by
    unfold Rig.units
    exact List.mem_append_left _ (List.mem_append_right _ (List.mem_map_of_mem hcamera))
  exact ((List.nodup_flatMap.1 h).1 _ hunit).of_map _

end Units

/-! ## The names of a run -/

section Names

variable {rig : Rig} {phase : Phase}

/-- A stream of an arm reads as none of a leader's, nor does a leader's telemetry read as the
leader's own stream. -/
theorem Clear.owned_ne_leader (hclear : Clear rig phase) {family : Family} {key leaf side : String}
    (howned : Origin rig phase (.owned family key leaf)) (hside : side ∈ rig.leaders) :
    sanitize (family.name key leaf) ≠ sanitize (factr_stream_name side) ∧
      sanitize (family.name key leaf) ≠ sanitize (raw_factr_stream_name side) := by
  by_cases harm : family = .arm
  · subst harm
    obtain ⟨arm, harm, rfl, hleaf⟩ := howned
    exact hclear.arms arm harm leaf hleaf side hside
  by_cases htelemetry : family = .telemetry
  · subst htelemetry
    constructor
    · intro h
      exact hclear.telemetry side hside key howned.1 leaf howned.2
        (leader_telemetry_token_iff.1 h.symm)
    · exact raw_ne_telemetry.symm
  · exact ⟨(leader_ne_owned harm htelemetry (head_leader side)).symm,
      (leader_ne_owned harm htelemetry (head_raw_leader side)).symm⟩

/-- Streams of one family with one last word and one token have one key. -/
theorem Clear.key_inj (hclear : Clear rig phase) {family : Family} {key key' leaf : String}
    (h : Origin rig phase (.owned family key leaf))
    (h' : Origin rig phase (.owned family key' leaf))
    (htoken : sanitize (family.front key ++ "/") = sanitize (family.front key' ++ "/")) :
    key = key' := by
  cases family with
  | arm =>
    obtain ⟨a, ha, rfl, _⟩ := h
    obtain ⟨b, hb, rfl, _⟩ := h'
    exact hclear.sides a ha b hb htoken
  | camera =>
    obtain ⟨a, ha, rfl, hview⟩ := h
    obtain ⟨b, hb, rfl, hview'⟩ := h'
    exact hclear.cameras a ha b hb leaf hview hview'
      ((front_token_iff Family.noConfusion).1 htoken)
  | telemetry =>
    exact hclear.leaders key h.1 key' h'.1
      (Or.inr ((front_token_iff Family.noConfusion).1 htoken))
  | channel =>
    obtain ⟨a, ha, rfl, _⟩ := h
    obtain ⟨b, hb, rfl, _⟩ := h'
    exact hclear.channels a ha b hb ((front_token_iff Family.noConfusion).1 htoken)
  | horizon =>
    exact hclear.horizons _ h _ h' rfl ((front_token_iff Family.noConfusion).1 htoken)

/-- Names that survive the sanitizer have tokens of their own: the last word decides the family, and
what is in front of it the owner. -/
theorem Clear.token_inj (hclear : Clear rig phase) {id id' : StreamId}
    (hid : Origin rig phase id) (hid' : Origin rig phase id')
    (h : sanitize id.name = sanitize id'.name) : id = id' := by
  cases id with
  | owned family key leaf =>
    cases id' with
    | owned family' key' leaf' =>
      obtain ⟨rfl, rfl, htoken⟩ := owned_token_inj (leaf_known hid) (leaf_known hid') h
      rw [hclear.key_inj hid hid' htoken]
    | leader side => exact absurd h (hclear.owned_ne_leader hid hid').1
    | raw_leader side => exact absurd h (hclear.owned_ne_leader hid hid').2
    | policy_comm => exact absurd h (owned_ne_comm (leaf_known hid))
  | leader side =>
    cases id' with
    | owned family key leaf => exact absurd h.symm (hclear.owned_ne_leader hid' hid).1
    | leader side' => rw [hclear.leaders side hid side' hid' (Or.inl (leader_token_iff.1 h))]
    | raw_leader side' =>
      exact absurd (leader_raw_token_iff.1 h) (hclear.raw side hid side' hid')
    | policy_comm => exact absurd h (leader_ne_comm (head_leader side))
  | raw_leader side =>
    cases id' with
    | owned family key leaf => exact absurd h.symm (hclear.owned_ne_leader hid' hid).2
    | leader side' =>
      exact absurd (leader_raw_token_iff.1 h.symm) (hclear.raw side' hid' side hid)
    | raw_leader side' => rw [hclear.leaders side hid side' hid' (Or.inl (raw_token_iff.1 h))]
    | policy_comm => exact absurd h (leader_ne_comm (head_raw_leader side))
  | policy_comm =>
    cases id' with
    | owned family key leaf => exact absurd h.symm (owned_ne_comm (leaf_known hid'))
    | leader side => exact absurd h.symm (leader_ne_comm (head_leader side))
    | raw_leader side => exact absurd h.symm (leader_ne_comm (head_raw_leader side))
    | policy_comm => rfl

/-- Tokens of their own need names that survive the sanitizer: for each way in which two names could
coincide there are two streams of the run that would. -/
theorem clear_of_token_inj (hnodup : (rig.streams phase).Nodup)
    (hinj : ∀ id id', Origin rig phase id → Origin rig phase id' →
      sanitize id.name = sanitize id'.name → id = id') : Clear rig phase := by
  -- two streams of one family with one last word
  have hkey : ∀ (family : Family) {key key' leaf : String},
      Origin rig phase (.owned family key leaf) → Origin rig phase (.owned family key' leaf) →
      sanitize (family.front key ++ "/") = sanitize (family.front key' ++ "/") → key = key' := by
    intro family key key' leaf h h' hfront
    have htoken : sanitize (family.name key leaf) = sanitize (family.name key' leaf) := by
      rw [sanitize_name (leaf_known h), sanitize_name (leaf_known h'), hfront]
    exact (StreamId.owned.inj (hinj _ _ h h' htoken)).2.1
  constructor
  case views => exact nodup_views hnodup
  case sides =>
    intro a ha b hb h
    have hstatus : ∀ arm ∈ rig.arms, Origin rig phase (.owned .arm arm.side STATUS_SIGNAL) :=
      fun arm harm => ⟨arm, harm, rfl, List.mem_append_right _ (List.mem_singleton_self _)⟩
    exact hkey .arm (hstatus a ha) (hstatus b hb) h
  case cameras =>
    intro a ha b hb view hview hview' h
    exact hkey .camera ⟨a, ha, rfl, hview⟩ ⟨b, hb, rfl, hview'⟩
      ((front_token_iff Family.noConfusion).2 h)
  case leaders =>
    rintro a ha b hb (h | h)
    · exact StreamId.leader.inj (hinj (.leader a) (.leader b) ha hb (leader_token_iff.2 h))
    · have hfield : "raw_q_rad" ∈ Family.telemetry.leaves := List.mem_cons_self
      exact hkey .telemetry ⟨ha, hfield⟩ ⟨hb, hfield⟩
        ((front_token_iff Family.noConfusion).2 h)
  case raw =>
    intro a ha b hb h
    exact StreamId.noConfusion
      (hinj (.leader a) (.raw_leader b) ha hb (leader_raw_token_iff.2 h))
  case telemetry =>
    intro a ha b hb field hfield h
    exact StreamId.noConfusion (hinj (.leader a) (.owned .telemetry b field) ha ⟨hb, hfield⟩
      (leader_telemetry_token_iff.2 h))
  case arms =>
    intro a ha signal hsignal b hb
    have harm : Origin rig phase (.owned .arm a.side signal) := ⟨a, ha, rfl, hsignal⟩
    exact ⟨fun h => StreamId.noConfusion (hinj _ (.leader b) harm hb h),
      fun h => StreamId.noConfusion (hinj _ (.raw_leader b) harm hb h)⟩
  case channels =>
    intro a ha b hb h
    have hsetpoint : ∀ gripper, "setpoint" ∈ channel_leaves gripper := by decide
    exact hkey .channel ⟨a, ha, rfl, hsetpoint a.2⟩ ⟨b, hb, rfl, hsetpoint b.2⟩
      ((front_token_iff Family.noConfusion).2 h)
  case horizons =>
    intro a ha b hb hleaf h
    have hb' : (b.1, a.2) ∈ rig.horizons phase := by
      rw [hleaf]
      exact hb
    exact hkey .horizon ha hb' ((front_token_iff Family.noConfusion).2 h)

/-- The names of all segments and of all manifests differ exactly where the rig's names survive
the sanitizer. -/
theorem distinct_iff_clear (run_id : String) : Distinct rig phase run_id ↔ Clear rig phase := by
  constructor
  · intro h
    apply clear_of_token_inj h.segments.of_map
    intro id id' hid hid' htoken
    have hsegment : id.stream.shm_name run_id = id'.stream.shm_name run_id := shm_name_inj.2 htoken
    exact List.inj_on_of_nodup_map h.segments (origin_iff.2 hid) (origin_iff.2 hid') hsegment
  · intro h
    have hnodup := @nodup_streams rig phase h.views
    constructor
    · apply List.Nodup.map_on _ hnodup
      intro id hid id' hid' hsegment
      have hfile : id.stream.file = id'.stream.file := shm_name_inj.1 hsegment
      exact h.token_inj (origin_iff.1 hid) (origin_iff.1 hid') hfile
    · intro sub
      apply List.Nodup.map_on _ (hnodup.filter _)
      intro id hid id' hid' hfile
      have hmem : id ∈ rig.streams phase := (List.mem_filter.1 hid).1
      have hmem' : id' ∈ rig.streams phase := (List.mem_filter.1 hid').1
      exact h.token_inj (origin_iff.1 hmem) (origin_iff.1 hmem') hfile

end Names

end DualFlexivControl.Streams
