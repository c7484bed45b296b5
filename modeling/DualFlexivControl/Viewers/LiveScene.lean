/-
The 3D viewer while it runs: `RobotScene` in `viser/scene.py`, the view over it in
`viser/view.py`, and the loop of `viser/consumer.py` that feeds both.

On each tick the consumer applies the commands that are queued, tells the view the state of the
session, and renders the newest samples. Per side there are four robots: the follower as it is
measured, the leader's command, the leader itself, and the target of a policy. A method of the
scene is here the list of the calls it makes, in order; [`Display`] is what such calls say, with
no tree of nodes, and the scene shows it ([`Shows`]) after any calls.

[`every_tick_shows`] says what is seen after any run of ticks. The follower keeps the last pose it
had and is marked where there is no live one; the leader's two robots are there for samples that
are new enough only; the target and the tip of its trace are there while a policy or a skill runs.
The target robot is also what the calibration of a leader asks for, but a tick that renders no
target hides it again, and one that renders a target poses it: it is nowhere a command's after the
tick.

The line of a trace is not always of the tick that was rendered last. A trace of one point, as a
side without a measured end has, moves the tip and leaves the line that an earlier tick drew, until
a tick hides it ([`last_line`]).
-/
import DualFlexivControl.Visualization.RobotModel

set_option autoImplicit false

namespace DualFlexivControl.Viewers.LiveScene

open Matrix Visualization PathTree
open scoped Maths
open Scalar (lit)

/-! ## Robots -/

/-- The four robots of a side. -/
inductive Role
  | measured
  | command
  | target
  | factr
  deriving DecidableEq, Repr

/-- The last component of a robot's path. -/
def Role.word : Role → String
  | .measured => "measured"
  | .command => "command"
  | .target => "target"
  | .factr => "factr"

/-- A `dict` from sides, or from names of streams, of which only lookups are used. -/
abbrev Dict (α : Type) := String → Option α

section Functions

variable {F : Type} [Field F] [Maths F]

/-- What the scene is built from: the files, the chain of the followers, and the leaders'. -/
structure Rig (F : Type) [Field F] [Maths F] where
  assets : String → Asset F
  chain : List (Link F)
  factr_chain : String → List (Link F)

/-- The files that `RobotScene.__init__` reads. A leader may have none, or one that cannot be
parsed, which is logged. -/
structure Files (F : Type) where
  assets : String → Asset F
  urdf : Urdf F
  factr_urdfs : Dict (Option (Urdf F))

/-- The chain of a leader: that of its file with the meshes in place, or else the follower's. -/
def Files.factr_chain (files : Files F) (fuel : ℕ) (chain : List (Link F)) (side : String) :
    Option (List (Link F)) :=
  match files.factr_urdfs side with
  | some (some urdf) =>
    (parse_chain fuel urdf "base_link").map fun leader => localize_factr_base_meshes leader.links
  | _ => some chain

/-- The chains of `RobotScene.__init__`. -/
def Rig.load (fuel : ℕ) (files : Files F) : Option (Rig F) := do
  let chain ← parse_chain fuel files.urdf "base_link"
  let left ← files.factr_chain fuel chain.links "left"
  let right ← files.factr_chain fuel chain.links "right"
  return ⟨files.assets, chain.links, fun side => if side = "left" then left else right⟩

def FACTR_LIVE_DISPLAY_SCALE : F := lit 2

/-- The `RobotModel`s of `RobotScene.__init__`; every side with a mount has one for its leader. -/
def Rig.model (rig : Rig F) (role : Role) (side : String) (mount : Mount F) : RobotModel F where
  root := ["robot", side, role.word]
  chain := match role with
    | .factr => rig.factr_chain side
    | _ => rig.chain
  mount := match role with
    | .factr => (factr_mount side).getD mount
    | _ => mount
  model_scale := match role with
    | .factr => FACTR_LIVE_DISPLAY_SCALE
    | _ => 1
  follower_gripper := match role with
    | .measured | .command => true
    | _ => false

/-- The label of a side without a live pose. -/
def label_path (side : String) : List String := ["robot", side, "stale_warning"]

def label_node (side : String) (mount : Mount F) (visible : Bool) : Node F where
  position := mount.translation + ![0, 0, lit (18 / 100)]
  wxyz := ⟨1, 0, 0, 0⟩
  visible := visible
  content := .label s!"{side.toUpper} · NO LIVE q"

/-- What `__init__` adds for a side, in order. -/
inductive Part
  | robot (role : Role)
  | stale_label

def Part.word : Part → String
  | .robot role => role.word
  | .stale_label => "stale_warning"

def PARTS : List Part :=
  [.robot .measured, .stale_label, .robot .command, .robot .target, .robot .factr]

/-- A part, with the side it is for and the mount of that side. -/
abbrev Item (F : Type) := String × Mount F × Part

/-- Only the follower is visible from the start, with its warning. -/
def add_part (rig : Rig F) (nodes : Nodes F) : Item F → Except SceneError (Nodes F)
  | (side, mount, .robot role) =>
    (rig.model role side mount).create rig.assets (role == .measured) nodes
  | (side, mount, .stale_label) =>
    .ok (Function.update nodes (label_path side) (some (label_node side mount true)))

/-- The order of the loop over `geometry.MOUNTS`. -/
def items : List (Item F) :=
  MOUNTS.flatMap fun mount => PARTS.map fun part => (mount.1, mount.2, part)

/-- `RobotScene.__init__` -/
def init (rig : Rig F) : Except SceneError (Nodes F) :=
  items.foldlM (add_part rig) fun _ => none

/-! ## Methods of the scene -/

/-- What a method does to the nodes. -/
inductive Call (F : Type)
  | set_visible (role : Role) (side : String) (visible : Bool)
  | set_label (side : String) (visible : Bool)
  | update (role : Role) (side : String) (q : List F)

/-- The robot or the label that a call is about is that of its side. -/
def apply_call (rig : Rig F) (nodes : Nodes F) : Call F → Nodes F
  | .set_visible role side visible =>
    match MOUNTS.lookup side with
    | none => nodes
    | some mount => (rig.model role side mount).set_visible visible nodes
  | .set_label side visible =>
    adjust nodes [(label_path side, fun node => { node with visible := visible })]
  | .update role side q =>
    match MOUNTS.lookup side with
    | none => nodes
    | some mount => (rig.model role side mount).update q nodes

/-- `q is not None and np.asarray(q).size >= 7` -/
def live (q : Option (List F)) : Bool :=
  match q with
  | none => false
  | some q => decide (7 ≤ q.length)

/-- `if live: model.update(np.asarray(q)[:7])` -/
def update_live (role : Role) (side : String) (q : Option (List F)) : List (Call F) :=
  match q with
  | none => []
  | some q => if 7 ≤ q.length then [.update role side (q.take 7)] else []

/-- The sides of the scene. -/
def SIDES : List String := ["left", "right"]

/-- `update_followers` -/
def update_followers (configs : Dict (List F)) : List (Call F) :=
  SIDES.flatMap fun side => [.set_visible .measured side true,
    .set_label side !live (configs side)] ++ update_live .measured side (configs side)

/-- The body that the loops of `update_commands`, `update_factr` and `update_targets` share. -/
def update_model (role : Role) (configs : Dict (List F)) (side : String) : List (Call F) :=
  .set_visible role side (live (configs side)) :: update_live role side (configs side)

/-- `update_commands` -/
def update_commands (configs : Dict (List F)) : List (Call F) :=
  SIDES.flatMap (update_model .command configs)

/-- `update_factr` -/
def update_factr (configs : Dict (List F)) : List (Call F) :=
  SIDES.flatMap (update_model .factr configs)

/-- `show_calibration` -/
def show_calibration (side : String) (q : List F) : List (Call F) :=
  (SIDES.map fun candidate => .set_visible .target candidate (candidate == side)) ++
    if side ∈ SIDES then [.update .target side (q.take 7)] else []

/-- `clear_calibration` -/
def clear_calibration : List (Call F) :=
  SIDES.map fun side => .set_visible .target side false

/-- The handle of a tip or of a trace. -/
structure Handle (F : Type) where
  points : List (Fin 3 → F)
  visible : Bool

/-- The scene: its nodes, and the tips and traces there have been. -/
structure RobotScene (F : Type) where
  nodes : Nodes F
  tips : Dict (Handle F)
  traces : Dict (Handle F)

namespace RobotScene

def apply (rig : Rig F) (scene : RobotScene F) (calls : List (Call F)) : RobotScene F :=
  { scene with nodes := calls.foldl (apply_call rig) scene.nodes }

/-- `_hide_trace` -/
def hide_trace (scene : RobotScene F) (side : String) : RobotScene F :=
  { scene with
    tips := Function.update scene.tips side
      ((scene.tips side).map fun handle => { handle with visible := false })
    traces := Function.update scene.traces side
      ((scene.traces side).map fun handle => { handle with visible := false }) }

/-- `_show_trace`: a single point has no segments, and leaves those there are. -/
def show_trace (scene : RobotScene F) (side : String) (points : List (Fin 3 → F))
    (tip : Fin 3 → F) : RobotScene F :=
  let scene := { scene with tips := Function.update scene.tips side (some ⟨[tip], true⟩) }
  if points.length < 2 then scene
  else { scene with traces := Function.update scene.traces side (some ⟨points, true⟩) }

end RobotScene

/-- `mount_world_point`, of the first three components. -/
def mount_world_point (side : String) (point : List F) : Except SceneError (Fin 3 → F) :=
  match MOUNTS.lookup side, point with
  | none, _ => .error .no_mount
  | some mount, x :: y :: z :: _ => .ok (mount.rot *ᵥ ![x, y, z] + mount.translation)
  | some _, _ => .error .shape

/-- What `update_targets` is called with. -/
structure Targets (F : Type) where
  target_q : Dict (List F)
  real_q : Dict (List F)
  q_paths : Dict (List (List F))
  target_eef : Dict (List F)
  real_eef : Dict (List F)

/-- `p_now` -/
def now_point (rig : Rig F) (targets : Targets F) (side : String) :
    Except SceneError (Option (Fin 3 → F)) :=
  match targets.real_eef side, targets.real_q side with
  | some point, _ => (mount_world_point side point).map some
  | none, some q => (fk_world_eef side q rig.chain).map some
  | none, none => .ok none

/-- The points of a trace and its end. -/
def trace_points (rig : Rig F) (targets : Targets F) (side : String) :
    Except SceneError (List (Fin 3 → F) × (Fin 3 → F)) := do
  let now ← now_point rig targets side
  match targets.q_paths side, targets.target_q side, targets.target_eef side with
  | some path, _, _ =>
    let ends ← path.mapM fun row => fk_world_eef side (row.take 7) rig.chain
    match (now.toList ++ ends).getLast? with
    | none => .error .empty_path
    | some tip => return (now.toList ++ ends, tip)
  | none, some q, _ =>
    let tip ← fk_world_eef side (q.take 7) rig.chain
    return (now.toList ++ [tip], tip)
  | none, none, some point =>
    let tip ← mount_world_point side point
    return (now.toList ++ [tip], tip)
  | none, none, none => .error .no_target

/-- One side of `update_targets`. -/
def update_target (rig : Rig F) (targets : Targets F) (scene : RobotScene F) (side : String) :
    Except SceneError (RobotScene F) := do
  let scene := scene.apply rig (update_model .target targets.target_q side)
  if (targets.target_q side).isNone && (targets.target_eef side).isNone then
    return scene.hide_trace side
  let (points, tip) ← trace_points rig targets side
  return scene.show_trace side points tip

/-- `update_targets` -/
def update_targets (rig : Rig F) (targets : Targets F) (scene : RobotScene F) :
    Except SceneError (RobotScene F) :=
  SIDES.foldlM (update_target rig targets) scene

/-- `clear_targets` -/
def clear_targets (rig : Rig F) (scene : RobotScene F) : RobotScene F :=
  SIDES.foldl (fun scene side =>
    (scene.apply rig [.set_visible .target side false]).hide_trace side) scene

/-! ## The view and the consumer -/

/-- The commands that the dashboard queues. -/
inductive Command (F : Type)
  | event
  | show_calibration (side : String) (q : List F)
  | clear_calibration
  | reset

/-- `apply_command`, what it does to the scene. -/
def apply_command (rig : Rig F) (scene : RobotScene F) : Command F → RobotScene F
  | .event => scene
  | .show_calibration side q => scene.apply rig (LiveScene.show_calibration side q)
  | .clear_calibration => scene.apply rig LiveScene.clear_calibration
  | .reset => clear_targets rig (scene.apply rig LiveScene.clear_calibration)

/-- The session's `state.json`: both fields may be missing, or empty. -/
structure SessionState where
  phase : Option String
  state : Option String

/-- A string that counts as one in Python. -/
def truthy (s : Option String) : Option String := s.filter (· ≠ "")

/-- `update_session`, what it does to the scene. -/
def update_session (rig : Rig F) (session : SessionState) (scene : RobotScene F) : RobotScene F :=
  if (truthy session.state).getD "waiting" ∈ ["eval", "skill", "saving"] then scene
  else clear_targets rig scene

/-- `detach_run` -/
def detach_run (rig : Rig F) (scene : RobotScene F) : RobotScene F :=
  let none_of : Dict (List F) := fun _ => none
  clear_targets rig (scene.apply rig
    (update_followers none_of ++ update_commands none_of ++ update_factr none_of))

/-- What one pass of the consumer's loop finds. -/
structure Tick (F : Type) where
  commands : List (Command F)
  session : SessionState
  detached : Bool
  newest : Dict (List F × ℤ)
  horizon_paths : Dict (List (List F))
  now_ns : ℤ

/-- A leader's sample that is new enough. -/
def fresh (factr_max_age_s : ℚ) (tick : Tick F) (name : String) : Option (List F) :=
  (tick.newest name).bind fun sample =>
    if ((tick.now_ns - sample.2 : ℤ) : ℚ) ≤ factr_max_age_s * 1000000000 then
      some (sample.1.take 7) else none

/-- A sample of any age. -/
def newest_of (tick : Tick F) (n : ℕ) (name : String) : Option (List F) :=
  (tick.newest name).map fun sample => sample.1.take n

/-- `phase in ("eval", "skill")` of `_render_scene` -/
def drawing (session : SessionState) : Bool :=
  match (truthy session.phase).or session.state with
  | none => false
  | some phase => phase == "eval" || phase == "skill"

/-- `factr/{side}`, for the sides of the schema. -/
def of_sides {α : Type} (f : String → Option α) : Dict α :=
  fun side => if side ∈ SIDES then f side else none

/-- What `_render_scene` hands to `update_targets`. -/
def Tick.targets (tick : Tick F) : Targets F where
  target_q := of_sides fun side => newest_of tick 7 s!"eval/{side}/q_horizon"
  real_q := of_sides fun side => newest_of tick 7 s!"{side}/q"
  q_paths := tick.horizon_paths
  target_eef := of_sides fun side => newest_of tick 3 s!"eval/{side}/eef_horizon"
  real_eef := of_sides fun side => newest_of tick 3 s!"{side}/eef"

/-- `_render_scene` -/
def render_scene (rig : Rig F) (factr_max_age_s : ℚ) (tick : Tick F) (scene : RobotScene F) :
    Except SceneError (RobotScene F) :=
  let scene := scene.apply rig (update_followers tick.targets.real_q ++
    update_commands (of_sides fun side => fresh factr_max_age_s tick s!"factr/{side}") ++
    update_factr (of_sides fun side =>
      fresh factr_max_age_s tick s!"factr/telemetry/{side}/model_q_rad"))
  if drawing tick.session then update_targets rig tick.targets scene
  else .ok (clear_targets rig scene)

/-- One pass of the loop in `run`. -/
def tick_scene (rig : Rig F) (factr_max_age_s : ℚ) (scene : RobotScene F) (tick : Tick F) :
    Except SceneError (RobotScene F) :=
  let scene := update_session rig tick.session (tick.commands.foldl (apply_command rig) scene)
  render_scene rig factr_max_age_s tick (if tick.detached then detach_run rig scene else scene)

/-- The viewer from its start on; what a pass raises ends it. -/
def run (rig : Rig F) (factr_max_age_s : ℚ) (ticks : List (Tick F)) :
    Except SceneError (RobotScene F) := do
  let nodes ← init rig
  ticks.foldlM (tick_scene rig factr_max_age_s)
    (update_session rig ⟨none, none⟩ ⟨nodes, fun _ => none, fun _ => none⟩)

/-- No two nodes of a robot come to have one path. -/
def Rig.WellNamed (rig : Rig F) : Prop :=
  ∀ role side mount, MOUNTS.lookup side = some mount → (rig.model role side mount).WellNamed

omit [Maths F] in
/-- Every file that is read has names of its own for what is in it. -/
structure Files.WellNamed (files : Files F) : Prop where
  urdf : files.urdf.WellNamed
  factr : ∀ side urdf, files.factr_urdfs side = some (some urdf) → urdf.WellNamed

/-- The robots of a scene are as well named as the files are. -/
theorem Files.WellNamed.rig {files : Files F} (h : files.WellNamed) {fuel : ℕ} {rig : Rig F}
    (hload : Rig.load fuel files = some rig) : rig.WellNamed := by
  obtain ⟨chain, hchain, hrest⟩ := Option.bind_eq_some_iff.1 hload
  obtain ⟨left, hleft, hrest⟩ := Option.bind_eq_some_iff.1 hrest
  obtain ⟨right, hright, hrig⟩ := Option.bind_eq_some_iff.1 hrest
  obtain rfl := Option.some.inj hrig
  have hfollower : ∀ link ∈ chain.links, link.WellNamed :=
    parse_chain_wellNamed h.urdf (by decide) hchain
  have hleader : ∀ {side : String} {links : List (Link F)},
      files.factr_chain fuel chain.links side = some links → ∀ link ∈ links, link.WellNamed := by
    intro side links hlinks
    unfold Files.factr_chain at hlinks
    split at hlinks
    · rename_i urdf hurdf
      obtain ⟨leader, hleader, rfl⟩ := Option.map_eq_some_iff.1 hlinks
      exact localize_wellNamed (parse_chain_wellNamed (h.factr side urdf hurdf) (by decide) hleader)
    · obtain rfl := Option.some.inj hlinks
      exact hfollower
  intro role side mount _
  refine RobotModel.wellNamed_of_links ?_
  cases role with
  | measured => exact hfollower
  | command => exact hfollower
  | target => exact hfollower
  | factr =>
    show ∀ link ∈ if side = "left" then left else right, link.WellNamed
    split
    · exact hleader hleft
    · exact hleader hright

/-! ## Traces -/

/-- The points of a handle that is seen. -/
def seen (handles : Dict (Handle F)) (side : String) : Option (List (Fin 3 → F)) :=
  ((handles side).filter Handle.visible).map Handle.points

/-- The trace of a side that has a target, with its tip. -/
def trace_at (rig : Rig F) (targets : Targets F) (side : String) :
    Option (List (Fin 3 → F) × (Fin 3 → F)) :=
  if (targets.target_q side).isNone && (targets.target_eef side).isNone then none
  else (trace_points rig targets side).toOption

/-- The trace that a tick has: none outside of the phases that draw them. -/
def trace_of (rig : Rig F) (tick : Tick F) (side : String) :
    Option (List (Fin 3 → F) × (Fin 3 → F)) :=
  if drawing tick.session then trace_at rig tick.targets side else none

def Command.resets : Command F → Bool
  | .reset => true
  | _ => false

/-- The tick hides the traces before it renders: on a reset, where nothing runs, or when the run
that was viewed is over. -/
def Tick.clears (tick : Tick F) : Bool :=
  tick.commands.any Command.resets ||
    !decide ((truthy tick.session.state).getD "waiting" ∈ ["eval", "skill", "saving"]) ||
    tick.detached

/-- The line that is seen after a trace, of the one that was there: one point has none of its own. -/
def line_after (line : Option (List (Fin 3 → F))) :
    Option (List (Fin 3 → F) × (Fin 3 → F)) → Option (List (Fin 3 → F))
  | none => none
  | some (points, _) => if points.length < 2 then line else some points

/-- The line that is seen after some ticks: that of the last one which had two points, unless it
has been hidden since. -/
def last_line (rig : Rig F) (ticks : List (Tick F)) (side : String) : Option (List (Fin 3 → F)) :=
  ticks.foldl (fun line tick =>
    line_after (if tick.clears then none else line) (trace_of rig tick side)) none

end Functions

/-! ## What is on display -/

section Displays

variable {F : Type}

/-- The pose of each robot and whether it is there, and which sides are marked as not live. -/
structure Display (F : Type) where
  q : Role → String → List F
  visible : Role → String → Bool
  stale : String → Bool

namespace Display

/-- One entry of a table by robots. -/
def set {α : Type} (table : Role → String → α) (role : Role) (side : String) (a : α) :
    Role → String → α :=
  Function.update table role (Function.update (table role) side a)

section Set

variable {α : Type} {table : Role → String → α} {role role' : Role} {side side' : String} {a : α}

/-- The entry that was written is read back. -/
@[simp] theorem set_self : set table role side a role side = a := by
  simp [set]

/-- Writing an entry of one side leaves the entries of the others. -/
@[simp] theorem set_other_side (h : side' ≠ side) :
    set table role side a role' side' = table role' side' := by
  by_cases hrole : role' = role
  · subst hrole
    simp [set, h]
  · simp [set, hrole]

/-- Writing an entry of one robot of a side leaves those of its other robots. -/
@[simp] theorem set_other_role (h : role' ≠ role) :
    set table role side a role' side' = table role' side' := by
  simp [set, h]

/-- An entry is only reached by its own role and side together. -/
theorem set_of_ne (h : ¬ (role' = role ∧ side' = side)) :
    set table role side a role' side' = table role' side' := by
  by_cases hrole : role' = role
  · exact set_other_side fun hside => h ⟨hrole, hside⟩
  · exact set_other_role hrole

/-- Writing back what an entry holds changes nothing. -/
theorem set_eq_self : set table role side (table role side) = table := by
  simp [set]

end Set

/-- What a call says. -/
def step (d : Display F) : Call F → Display F
  | .set_visible role side visible => { d with visible := set d.visible role side visible }
  | .set_label side visible => { d with stale := Function.update d.stale side visible }
  | .update role side q => { d with q := set d.q role side q }

def steps (d : Display F) (calls : List (Call F)) : Display F := calls.foldl step d

/-- Calls in a row are steps in a row, so a tick can be taken apart at any call. -/
theorem steps_append (d : Display F) (a b : List (Call F)) :
    d.steps (a ++ b) = (d.steps a).steps b := List.foldl_append

/-- A robot that no call turns keeps its pose, whatever is shown, hidden or drawn meanwhile. -/
theorem steps_q {role : Role} {side : String} {calls : List (Call F)}
    (h : ∀ q, Call.update role side q ∉ calls) (d : Display F) :
    (d.steps calls).q role side = d.q role side := by
  induction calls generalizing d with
  | nil => rfl
  | cons call rest ih =>
    have hrest := ih (fun q hq => h q (List.mem_cons_of_mem _ hq)) (d.step call)
    refine hrest.trans ?_
    cases call with
    | set_visible role' side' visible => rfl
    | set_label side' visible => rfl
    | update role' side' q =>
      refine set_of_ne ?_
      rintro ⟨rfl, rfl⟩
      exact h q List.mem_cons_self

end Display

/-- A pose that a robot is turned to, if there are enough joints. -/
def live_pose (q : Option (List F)) : Option (List F) :=
  q.bind fun q => if 7 ≤ q.length then some (q.take 7) else none

/-- A robot turned to a live pose, or left as it is. -/
theorem steps_update_live (d : Display F) (role : Role) (side : String) (q : Option (List F)) :
    d.steps (update_live role side q) =
      { d with q := Display.set d.q role side ((live_pose q).getD (d.q role side)) } := by
  have hkeep : d = { d with q := Display.set d.q role side (d.q role side) } := by
    rw [Display.set_eq_self]
  cases q with
  | none => exact hkeep
  | some q =>
    show d.steps (if 7 ≤ q.length then [.update role side (q.take 7)] else []) = { d with
      q := Display.set d.q role side
        ((if 7 ≤ q.length then some (q.take 7) else none).getD (d.q role side)) }
    by_cases h : 7 ≤ q.length
    · rw [if_pos h, if_pos h]
      rfl
    · rw [if_neg h, if_neg h]
      exact hkeep

/-- Updating a model shows it where there is a pose and hides it where there is none, and touches no
other robot. -/
theorem steps_update_model (d : Display F) (role : Role) (configs : Dict (List F))
    (side : String) : d.steps (update_model role configs side) = { d with
      visible := Display.set d.visible role side (live (configs side))
      q := Display.set d.q role side ((live_pose (configs side)).getD (d.q role side)) } :=
  steps_update_live (d.step (.set_visible role side (live (configs side)))) role side _

/-- What one robot shows of a pose that may be missing: nothing, or the pose. -/
structure ShowsNow (d : Display F) (role : Role) (side : String) (q : Option (List F)) :
    Prop where
  visible : d.visible role side = live q
  pose : ∀ p, live_pose q = some p → d.q role side = p

/-- What a robot shows is its visibility and its pose, so calls that leave these leave what it
shows. -/
theorem ShowsNow.of_same {d d' : Display F} {role : Role} {side : String} {q : Option (List F)}
    (h : ShowsNow d role side q)
    (hsame : d'.visible role side = d.visible role side ∧ d'.q role side = d.q role side) :
    ShowsNow d' role side q :=
  ⟨hsame.1.trans h.visible, fun p hp => hsame.2.trans (h.pose p hp)⟩

/-- The loop over both sides, for the robot it is about and for the others. -/
theorem steps_update_models (d : Display F) (role : Role) (configs : Dict (List F)) :
    let d' := d.steps (SIDES.flatMap (update_model role configs))
    (∀ side ∈ SIDES, ShowsNow d' role side (configs side)) ∧
    (∀ role' ≠ role, ∀ side, d'.visible role' side = d.visible role' side ∧
      d'.q role' side = d.q role' side) ∧ d'.stale = d.stale := by
  intro d'
  have hne : "left" ≠ "right" := by decide
  have hd' : d' = { d with
      visible := Display.set (Display.set d.visible role "left" (live (configs "left"))) role
        "right" (live (configs "right"))
      q := Display.set (Display.set d.q role "left"
          ((live_pose (configs "left")).getD (d.q role "left"))) role "right"
          ((live_pose (configs "right")).getD (d.q role "right")) } := by
    have hsides : SIDES.flatMap (update_model role configs) =
        update_model role configs "left" ++ update_model role configs "right" := by
      simp [SIDES]
    show d.steps _ = _
    rw [hsides, Display.steps_append, steps_update_model, steps_update_model]
    simp [hne.symm]
  rw [hd']
  refine ⟨fun side hside => ?_, fun role' hrole side => ?_, rfl⟩
  · have hcases : side = "left" ∨ side = "right" := by simpa [SIDES] using hside
    rcases hcases with rfl | rfl
    · refine ⟨by simp [hne], fun p hp => ?_⟩
      simp [hne, hp]
    · refine ⟨by simp, fun p hp => ?_⟩
      simp [hp]
  · simp [hrole]

/-- The follower's loop: it stays visible, turns to a live pose and is marked without one. -/
theorem steps_update_followers (d : Display F) (configs : Dict (List F)) :
    let d' := d.steps (update_followers configs)
    (∀ side ∈ SIDES, d'.visible .measured side = true ∧
      d'.q .measured side = (live_pose (configs side)).getD (d.q .measured side) ∧
      d'.stale side = !live (configs side)) ∧
    (∀ role ≠ Role.measured, ∀ side, d'.visible role side = d.visible role side ∧
      d'.q role side = d.q role side) := by
  intro d'
  have hne : "left" ≠ "right" := by decide
  have hd' : d' = {
      visible := Display.set (Display.set d.visible .measured "left" true) .measured "right" true
      stale := Function.update (Function.update d.stale "left" !live (configs "left")) "right"
        !live (configs "right")
      q := Display.set (Display.set d.q .measured "left"
          ((live_pose (configs "left")).getD (d.q .measured "left"))) .measured "right"
          ((live_pose (configs "right")).getD (d.q .measured "right")) } := by
    have hsides : update_followers configs =
        [.set_visible .measured "left" true, .set_label "left" !live (configs "left")] ++
          update_live .measured "left" (configs "left") ++
          ([.set_visible .measured "right" true, .set_label "right" !live (configs "right")] ++
            update_live .measured "right" (configs "right")) := by
      simp [update_followers, SIDES]
    show d.steps _ = _
    rw [hsides, Display.steps_append, Display.steps_append, Display.steps_append,
      steps_update_live, steps_update_live]
    simp [Display.steps, Display.step, hne.symm]
  rw [hd']
  refine ⟨fun side hside => ?_, fun role hrole side => ?_⟩
  · have hcases : side = "left" ∨ side = "right" := by simpa [SIDES] using hside
    rcases hcases with rfl | rfl
    · simp [hne]
    · simp
  · simp [hrole]

end Displays

/-! ## The scene shows it -/

section Scenes

variable {F : Type} [Field F] [Maths F]

/-- The nodes are those of a display. -/
structure Shows (rig : Rig F) (d : Display F) (nodes : Nodes F) : Prop where
  robots : ∀ role side mount, MOUNTS.lookup side = some mount →
    Drawn rig.assets (rig.model role side mount) (d.q role side) (d.visible role side) nodes
  labels : ∀ side mount, MOUNTS.lookup side = some mount →
    nodes (label_path side) = some (label_node side mount (d.stale side))

/-- Of two paths of one length, one cannot be on the way to or below the other. -/
theorem eq_of_related {a b p : List String} (hlength : a.length = b.length) (ha : a <+: p)
    (hb : p <+: b ∨ b <+: p) : a = b := by
  rcases hb with hb | hb
  · exact (ha.trans hb).eq_of_length hlength
  · exact (List.prefix_of_prefix_length_le ha hb hlength.le).eq_of_length hlength

/-- The three robots of a side have words of their own in their paths. -/
theorem word_inj {role role' : Role} (h : role.word = role'.word) : role = role' := by
  revert h
  cases role <;> cases role' <;> decide

/-- A model's root tells its role and its side, so no two models share a node of the tree. -/
theorem root_inj {rig : Rig F} {role role' : Role} {side side' : String} {mount mount' : Mount F}
    (h : (rig.model role side mount).root = (rig.model role' side' mount').root) :
    role = role' ∧ side = side' := by
  obtain ⟨_, hrest⟩ := List.cons.inj h
  obtain ⟨hside, hwords⟩ := List.cons.inj hrest
  exact ⟨word_inj (List.cons.inj hwords).1, hside⟩

/-- The stale label of a side is a node of its own, no robot's root. -/
theorem label_ne_root {rig : Rig F} {role : Role} {side side' : String} {mount : Mount F} :
    label_path side ≠ (rig.model role side' mount).root := by
  intro h
  obtain ⟨_, hrest⟩ := List.cons.inj h
  have hword := (List.cons.inj (List.cons.inj hrest).2).1
  cases role <;> exact absurd hword (by decide)

omit [Field F] [Maths F] in
/-- Adjusting a label rewrites its node alone. -/
theorem adjust_label (nodes : Nodes F) (side : String) (f : Node F → Node F) :
    adjust nodes [(label_path side, f)] (label_path side) = (nodes (label_path side)).map f := by
  refine adjust_of_mem ?_ List.mem_cons_self
  exact List.nodup_singleton _

variable {rig : Rig F} (hnamed : rig.WellNamed)
include hnamed

/-- A call changes what it is about, and nothing of another robot or label. -/
theorem Shows.apply_call {d : Display F} {nodes : Nodes F} (h : Shows rig d nodes)
    (call : Call F) : Shows rig (d.step call) (LiveScene.apply_call rig nodes call) := by
  cases call with
  | set_visible role side visible =>
    show Shows rig _ (match MOUNTS.lookup side with
      | none => nodes
      | some mount => (rig.model role side mount).set_visible visible nodes)
    cases hmount : (MOUNTS : List (String × Mount F)).lookup side with
    | none =>
      -- a side without a mount has no robot in the scene
      refine ⟨fun role' side' mount' hmount' => ?_, h.labels⟩
      have hside : side' ≠ side := by
        rintro rfl
        rw [hmount] at hmount'
        cases hmount'
      show Drawn _ _ (d.q role' side') (Display.set d.visible role side visible role' side') _
      rw [Display.set_other_side hside]
      exact h.robots role' side' mount' hmount'
    | some mount =>
      refine ⟨fun role' side' mount' hmount' => ?_, fun side' mount' hmount' => ?_⟩
      · show Drawn _ _ (d.q role' side') (Display.set d.visible role side visible role' side') _
        by_cases hsame : role' = role ∧ side' = side
        · obtain ⟨rfl, rfl⟩ := hsame
          obtain rfl := Option.some.inj (hmount.symm.trans hmount')
          rw [Display.set_self]
          exact (h.robots role' side' mount hmount).set_visible visible
        · -- only the node of the robot's own root is written, and the roots differ
          rw [Display.set_of_ne hsame]
          refine (h.robots role' side' mount' hmount').congr fun p hp => ?_
          apply RobotModel.set_visible_of_ne
          rintro rfl
          exact hsame (root_inj (eq_of_related (Eq.refl 3) List.prefix_rfl hp).symm)
      · show (rig.model role side mount).set_visible visible nodes (label_path side') = _
        rw [RobotModel.set_visible_of_ne _ _ label_ne_root]
        exact h.labels side' mount' hmount'
  | set_label side visible =>
    show Shows rig _ (adjust nodes [(label_path side, fun node => { node with visible })])
    refine ⟨fun role' side' mount' hmount' => ?_, fun side' mount' hmount' => ?_⟩
    · refine (h.robots role' side' mount' hmount').congr fun p hp => ?_
      refine adjust_of_not_mem fun hmem => ?_
      obtain rfl := List.mem_singleton.1 hmem
      exact label_ne_root (eq_of_related rfl List.prefix_rfl hp)
    · show _ = some (label_node side' mount' (Function.update d.stale side visible side'))
      by_cases hside : side' = side
      · subst hside
        rw [Function.update_self, adjust_label, h.labels side' mount' hmount']
        rfl
      · rw [Function.update_of_ne hside, adjust_of_not_mem, h.labels side' mount' hmount']
        intro hmem
        have hpath := List.mem_singleton.1 hmem
        exact hside (List.cons.inj (List.cons.inj hpath).2).1
  | update role side q =>
    show Shows rig _ (match MOUNTS.lookup side with
      | none => nodes
      | some mount => (rig.model role side mount).update q nodes)
    cases hmount : (MOUNTS : List (String × Mount F)).lookup side with
    | none =>
      refine ⟨fun role' side' mount' hmount' => ?_, h.labels⟩
      have hside : side' ≠ side := by
        rintro rfl
        rw [hmount] at hmount'
        cases hmount'
      show Drawn _ _ (Display.set d.q role side q role' side') (d.visible role' side') _
      rw [Display.set_other_side hside]
      exact h.robots role' side' mount' hmount'
    | some mount =>
      refine ⟨fun role' side' mount' hmount' => ?_, fun side' mount' hmount' => ?_⟩
      · show Drawn _ _ (Display.set d.q role side q role' side') (d.visible role' side') _
        by_cases hsame : role' = role ∧ side' = side
        · obtain ⟨rfl, rfl⟩ := hsame
          obtain rfl := Option.some.inj (hmount.symm.trans hmount')
          rw [Display.set_self]
          exact (h.robots role' side' mount hmount).update
            (hnamed role' side' mount hmount).links q
        · rw [Display.set_of_ne hsame]
          refine (h.robots role' side' mount' hmount').congr fun p hp => ?_
          refine RobotModel.update_of_not_mem _ _ fun hmem => ?_
          have hroot := (RobotModel.of_mem_frames hmem).1
          exact hsame (root_inj (eq_of_related (Eq.refl 3) hroot hp).symm)
      · show (rig.model role side mount).update q nodes (label_path side') = _
        rw [RobotModel.update_of_not_mem]
        · exact h.labels side' mount' hmount'
        · intro hmem
          have hroot := (RobotModel.of_mem_frames hmem).1
          exact label_ne_root (hroot.eq_of_length rfl).symm

/-- Whatever calls a tick makes, the nodes keep showing the display that the same calls make. -/
theorem Shows.apply {d : Display F} {scene : RobotScene F} (h : Shows rig d scene.nodes)
    (calls : List (Call F)) : Shows rig (d.steps calls) (scene.apply rig calls).nodes := by
  show Shows rig (calls.foldl _ _) (calls.foldl _ _)
  induction calls generalizing d scene with
  | nil => exact h
  | cons call rest ih =>
    exact @ih _ ({ scene with nodes := LiveScene.apply_call rig scene.nodes call } : RobotScene F)
      (h.apply_call hnamed call)

/-! ## The start -/

omit hnamed

/-- The path of a part. -/
def part_path (item : Item F) : List String :=
  ["robot", item.1, item.2.2.word]

/-- The parts that have been added are in the scene, and nothing else is. -/
structure Built (rig : Rig F) (items : List (Item F)) (nodes : Nodes F) :
    Prop where
  robots : ∀ side mount role, (side, mount, Part.robot role) ∈ items →
    Drawn rig.assets (rig.model role side mount) (List.replicate 7 0) (role == .measured) nodes
  labels : ∀ side mount, (side, mount, Part.stale_label) ∈ items →
    nodes (label_path side) = some (label_node side mount true)
  clear : ∀ p, (∀ item ∈ items, ¬ part_path item <+: p) → nodes p = none

include hnamed

/-- One more part: its nodes are new, since its path differs from those of the parts before it, and
what these drew stays. -/
theorem Built.add {items : List (Item F)} {nodes nodes' : Nodes F}
    (h : Built rig items nodes) {side : String} {mount : Mount F} {part : Part}
    (hmount : MOUNTS.lookup side = some mount)
    (hnew : part_path (side, mount, part) ∉ items.map part_path)
    (hadd : add_part rig nodes (side, mount, part) = .ok nodes') :
    Built rig (items ++ [(side, mount, part)]) nodes' := by
  have hfree : ∀ p, part_path (side, mount, part) <+: p → nodes p = none := by
    intro p hp
    refine h.clear p fun item hitem hunder => hnew ?_
    rw [eq_of_related (Eq.refl 3) hp (.inr hunder)]
    exact List.mem_map_of_mem hitem
  have habove : ∀ p, p <+: part_path (side, mount, part) → p ≠ part_path (side, mount, part) →
      nodes p = none := by
    intro p hp hne
    refine h.clear p fun item hitem hunder => hnew ?_
    rw [← eq_of_related (Eq.refl 3) hunder (.inl hp)]
    exact List.mem_map_of_mem hitem
  -- the part itself, and that nothing outside of it changes
  have hpart : (∀ role, part = .robot role → Drawn rig.assets (rig.model role side mount)
        (List.replicate 7 0) (role == .measured) nodes') ∧
      (part = .stale_label → nodes' (label_path side) = some (label_node side mount true)) ∧
      ∀ p, ¬ part_path (side, mount, part) <+: p → nodes' p = nodes p := by
    cases part with
    | robot role =>
      obtain ⟨hdrawn, hother⟩ := RobotModel.drawn_create (hnamed role side mount hmount) hadd
        habove hfree
      refine ⟨?_, ?_, hother⟩
      · rintro role' hrole
        obtain rfl := Part.robot.inj hrole
        exact hdrawn
      · intro hlabel
        cases hlabel
    | stale_label =>
      obtain rfl := Except.ok.inj hadd
      refine ⟨?_, fun _ => Function.update_self _ _ _, ?_⟩
      · intro role hrole
        cases hrole
      · intro p hp
        refine Function.update_of_ne ?_ _ _
        rintro rfl
        exact hp List.prefix_rfl
  obtain ⟨hrobot, hlabel, hother⟩ := hpart
  have hold : ∀ item ∈ items, ∀ p, p <+: part_path item ∨ part_path item <+: p →
      nodes' p = nodes p := by
    intro item hitem p hp
    refine hother p fun hunder => hnew ?_
    rw [eq_of_related (Eq.refl 3) hunder hp]
    exact List.mem_map_of_mem hitem
  refine ⟨fun side' mount' role hitem => ?_, fun side' mount' hitem => ?_, fun p hp => ?_⟩
  · rcases List.mem_append.1 hitem with hitem | hitem
    · exact (h.robots side' mount' role hitem).congr (hold _ hitem)
    · obtain ⟨rfl, hrest⟩ := Prod.mk.inj (List.mem_singleton.1 hitem)
      obtain ⟨rfl, hpart⟩ := Prod.mk.inj hrest
      exact hrobot role hpart.symm
  · rcases List.mem_append.1 hitem with hitem | hitem
    · exact (hold _ hitem _ (.inl List.prefix_rfl)).trans (h.labels side' mount' hitem)
    · obtain ⟨rfl, hrest⟩ := Prod.mk.inj (List.mem_singleton.1 hitem)
      obtain ⟨rfl, hpart⟩ := Prod.mk.inj hrest
      exact hlabel hpart.symm
  · rw [hother p (hp _ (List.mem_append_right _ List.mem_cons_self))]
    exact h.clear p fun item hitem => hp item (List.mem_append_left _ hitem)

/-- By induction on the parts: once all were added without an exception, the scene holds all of them
and nothing else. -/
theorem built_foldlM {items : List (Item F)}
    (hmounts : ∀ item ∈ items, MOUNTS.lookup item.1 = some item.2.1)
    (hnodup : (items.map part_path).Nodup) {nodes : Nodes F}
    (h : items.foldlM (add_part rig) (fun _ => none) = .ok nodes) : Built rig items nodes := by
  induction items using List.reverseRecOn generalizing nodes with
  | nil =>
    obtain rfl := Except.ok.inj h
    exact ⟨fun _ _ _ h => absurd h List.not_mem_nil, fun _ _ h => absurd h List.not_mem_nil,
      fun _ _ => rfl⟩
  | append_singleton items item ih =>
    rw [List.foldlM_append] at h
    obtain ⟨before, hbefore, hlast⟩ := Results.bind_ok.1 h
    rw [List.foldlM_cons] at hlast
    obtain ⟨after, hadd, hafter⟩ := Results.bind_ok.1 hlast
    obtain rfl := Except.ok.inj hafter
    rw [List.map_append, List.nodup_append] at hnodup
    refine (ih (fun i hi => hmounts i (List.mem_append_left _ hi)) hnodup.1 hbefore).add hnamed
      (hmounts item (List.mem_append_right _ List.mem_cons_self)) ?_ hadd
    intro hmem
    exact hnodup.2.2 _ hmem _ List.mem_cons_self rfl

/-- Four robots a side at rest, of which the follower is seen, and both sides marked. -/
def start : Display F where
  q _ _ := List.replicate 7 0
  visible role _ := role == .measured
  stale _ := true

/-- The scene at start shows the followers in their zero poses, hides the other robots and has every
label up. -/
theorem shows_init {nodes : Nodes F} (h : init rig = .ok nodes) : Shows rig start nodes := by
  have hmem : ∀ {side : String} {mount : Mount F}, MOUNTS.lookup side = some mount →
      ∀ part ∈ PARTS, (side, mount, part) ∈ (items : List (Item F)) := by
    intro side mount hmount part hpart
    obtain ⟨before, after, hlist, _⟩ := List.lookup_eq_some_iff.1 hmount
    refine List.mem_flatMap.2 ⟨(side, mount), ?_, List.mem_map_of_mem hpart⟩
    rw [hlist]
    exact List.mem_append_right before List.mem_cons_self
  have hmounts : ∀ item ∈ (items : List (Item F)), MOUNTS.lookup item.1 = some item.2.1 := by
    intro item hitem
    obtain ⟨pair, hpair, hpart⟩ := List.mem_flatMap.1 hitem
    obtain ⟨part, _, rfl⟩ := List.mem_map.1 hpart
    rcases List.mem_cons.1 hpair with rfl | hpair
    · rfl
    · obtain rfl := List.mem_singleton.1 hpair
      rfl
  have hnodup : ((items : List (Item F)).map part_path).Nodup := by
    have hpaths : (items : List (Item F)).map part_path =
        SIDES.flatMap fun side => PARTS.map fun part => ["robot", side, part.word] := rfl
    rw [hpaths]
    decide
  have hbuilt := built_foldlM hnamed hmounts hnodup h
  refine ⟨fun role side mount hmount => ?_, fun side mount hmount => ?_⟩
  · refine hbuilt.robots side mount role (hmem hmount _ ?_)
    cases role <;> simp [PARTS]
  · exact hbuilt.labels side mount (hmem hmount _ (by simp [PARTS]))

/-! ## Commands and the session -/

omit hnamed

/-- The scene shows a display whose followers are at these poses. -/
def At (rig : Rig F) (q : String → List F) (scene : RobotScene F) : Prop :=
  ∃ d, Shows rig d scene.nodes ∧ ∀ side, d.q .measured side = q side

include hnamed

variable {q : String → List F} {scene : RobotScene F}

/-- Calls that do not move a follower leave the followers' poses, whatever they do to the other
robots. -/
theorem At.apply (h : At rig q scene) {calls : List (Call F)}
    (hkeep : ∀ side p, Call.update .measured side p ∉ calls) :
    At rig q (scene.apply rig calls) := by
  obtain ⟨d, hshows, hq⟩ := h
  refine ⟨d.steps calls, hshows.apply hnamed calls, fun side => ?_⟩
  rw [Display.steps_q (hkeep side), hq]

/-- Forgetting the targets hides robots and traces and leaves the followers where they are. -/
theorem At.clear_targets (h : At rig q scene) : At rig q (clear_targets rig scene) := by
  have hclear : At rig q (scene.apply rig clear_calibration) :=
    h.apply hnamed (by simp [clear_calibration])
  exact hclear

/-- A command from the page changes what is shown of the targets, never where the followers are. -/
theorem At.apply_command (h : At rig q scene) (command : Command F) :
    At rig q (apply_command rig scene command) := by
  have hclear : At rig q (scene.apply rig clear_calibration) :=
    h.apply hnamed (by simp [clear_calibration])
  cases command with
  | event => exact h
  | show_calibration side p =>
    refine h.apply hnamed fun side' p' => ?_
    unfold show_calibration
    split <;> simp
  | clear_calibration => exact hclear
  | reset => exact hclear.clear_targets hnamed

/-- A change of the session is no pose of a follower. -/
theorem At.update_session (h : At rig q scene) (session : SessionState) :
    At rig q (update_session rig session scene) := by
  unfold LiveScene.update_session
  split
  · exact h
  · exact h.clear_targets hnamed

/-- Detaching from a run leaves the followers at their last poses, only marked as stale. -/
theorem At.detach_run (h : At rig q scene) : At rig q (detach_run rig scene) := by
  refine At.clear_targets hnamed (h.apply hnamed fun side p => ?_)
  simp [update_followers, update_commands, update_factr, update_model, update_live]

/-- Before a tick renders, the followers are where they were: neither commands nor the session nor a
detachment moves one. -/
theorem At.before_render (h : At rig q scene) (tick : Tick F) :
    At rig q (if tick.detached then
      LiveScene.detach_run rig (LiveScene.update_session rig tick.session
        (tick.commands.foldl (LiveScene.apply_command rig) scene))
      else LiveScene.update_session rig tick.session
        (tick.commands.foldl (LiveScene.apply_command rig) scene)) := by
  have hcommands : ∀ (commands : List (Command F)) {scene : RobotScene F}, At rig q scene →
      At rig q (commands.foldl (LiveScene.apply_command rig) scene) := by
    intro commands
    induction commands with
    | nil => exact fun h => h
    | cons command rest ih => exact fun h => ih (h.apply_command hnamed command)
  have hsession := (hcommands tick.commands h).update_session hnamed tick.session
  split
  · exact hsession.detach_run hnamed
  · exact hsession

/-! ## Targets and their traces -/

omit hnamed

omit [Field F] [Maths F] in
/-- `_hide_trace` hides the tip and the line of its side, and those of no other side. -/
theorem hide_trace_seen (scene : RobotScene F) (side : String) :
    seen (scene.hide_trace side).tips side = none ∧
    seen (scene.hide_trace side).traces side = none ∧
    ∀ side' ≠ side, (scene.hide_trace side).tips side' = scene.tips side' ∧
      (scene.hide_trace side).traces side' = scene.traces side' := by
  have hhidden : ∀ handles : Dict (Handle F), seen (Function.update handles side
      ((handles side).map fun handle => { handle with visible := false })) side = none := by
    intro handles
    unfold seen
    rw [Function.update_self]
    cases handles side with
    | none => rfl
    | some handle => rfl
  exact ⟨hhidden _, hhidden _, fun side' hside =>
    ⟨Function.update_of_ne hside _ _, Function.update_of_ne hside _ _⟩⟩

/-- What one side's target update does: its own model, tip and trace, and nothing of another side.
-/
theorem update_target_spec {targets : Targets F} {scene' : RobotScene F} {side : String}
    (h : update_target rig targets scene side = .ok scene') :
    scene'.nodes = (scene.apply rig (update_model .target targets.target_q side)).nodes ∧
    (∀ side' ≠ side, scene'.tips side' = scene.tips side' ∧
      scene'.traces side' = scene.traces side') ∧
    seen scene'.tips side = (trace_at rig targets side).map (fun trace => [trace.2]) ∧
    seen scene'.traces side = line_after (seen scene.traces side) (trace_at rig targets side) := by
  unfold update_target at h
  unfold trace_at
  by_cases hnone : ((targets.target_q side).isNone && (targets.target_eef side).isNone) = true
  · rw [if_pos hnone] at h ⊢
    obtain rfl := Except.ok.inj h
    obtain ⟨htip, hline, hother⟩ :=
      hide_trace_seen (scene.apply rig (update_model .target targets.target_q side)) side
    exact ⟨rfl, hother, htip, hline⟩
  · rw [if_neg hnone] at h ⊢
    obtain ⟨⟨points, tip⟩, hpoints, hshow⟩ := Results.bind_ok.1 h
    obtain rfl := Except.ok.inj hshow
    have htrace : (trace_points rig targets side).toOption = some (points, tip) := by
      rw [hpoints]
      rfl
    have hshown : ∀ (handles : Dict (Handle F)) (points : List (Fin 3 → F)),
        seen (Function.update handles side (some ⟨points, true⟩)) side = some points := by
      intro handles points
      unfold seen
      rw [Function.update_self]
      rfl
    have hline : line_after (seen scene.traces side) (some (points, tip)) =
        if points.length < 2 then seen scene.traces side else some points := rfl
    rw [htrace, hline]
    unfold RobotScene.show_trace
    -- a trace of one point returns before the line is touched
    by_cases hlength : points.length < 2
    · rw [if_pos hlength, if_pos hlength]
      exact ⟨rfl, fun side' hside => ⟨Function.update_of_ne hside _ _, rfl⟩, hshown _ _, rfl⟩
    · rw [if_neg hlength, if_neg hlength]
      refine ⟨rfl, fun side' hside => ⟨?_, ?_⟩, hshown _ _, hshown _ _⟩
      · exact Function.update_of_ne hside _ _
      · exact Function.update_of_ne hside _ _

/-- Over both sides: each has its own target model, its own tip and, of a trace with two points, its
own line. -/
theorem update_targets_spec {targets : Targets F} {scene' : RobotScene F}
    (h : update_targets rig targets scene = .ok scene') :
    scene'.nodes =
      (scene.apply rig (SIDES.flatMap (update_model .target targets.target_q))).nodes ∧
    ∀ side ∈ SIDES,
      seen scene'.tips side = (trace_at rig targets side).map (fun trace => [trace.2]) ∧
      seen scene'.traces side =
        line_after (seen scene.traces side) (trace_at rig targets side) := by
  obtain ⟨scene₁, hleft, hrest⟩ := Results.bind_ok.1 h
  obtain ⟨scene₂, hright, hlast⟩ := Results.bind_ok.1 hrest
  obtain rfl := Except.ok.inj hlast
  obtain ⟨hnodes₁, hother₁, htip₁, hline₁⟩ := update_target_spec hleft
  obtain ⟨hnodes₂, hother₂, htip₂, hline₂⟩ := update_target_spec hright
  refine ⟨?_, fun side hside => ?_⟩
  · have hsides : SIDES.flatMap (update_model .target targets.target_q) =
        update_model .target targets.target_q "left" ++
          update_model .target targets.target_q "right" := by
      simp [SIDES]
    have hfirst : scene₁.nodes =
        (update_model .target targets.target_q "left").foldl (apply_call rig) scene.nodes := hnodes₁
    rw [hnodes₂, hsides]
    show List.foldl _ scene₁.nodes _ = List.foldl _ scene.nodes _
    rw [List.foldl_append, hfirst]
  · have hcases : side = "left" ∨ side = "right" := by simpa [SIDES] using hside
    rcases hcases with rfl | rfl
    · -- the second side leaves the handles of the first alone
      obtain ⟨htips, htraces⟩ := hother₂ "left" (by decide)
      unfold seen at htip₁ hline₁ ⊢
      rw [htips, htraces]
      exact ⟨htip₁, hline₁⟩
    · -- and the first side those of the second
      have hbefore : seen scene₁.traces "right" = seen scene.traces "right" :=
        congrArg (fun handle => (handle.filter Handle.visible).map Handle.points)
          (hother₁ "right" (by decide)).2
      rw [hbefore] at hline₂
      exact ⟨htip₂, hline₂⟩

/-- After the targets are cleared no side shows a tip or a trace. -/
theorem clear_targets_seen (scene : RobotScene F) {side : String} (hside : side ∈ SIDES) :
    seen (clear_targets rig scene).tips side = none ∧
    seen (clear_targets rig scene).traces side = none := by
  have hcases : side = "left" ∨ side = "right" := by simpa [SIDES] using hside
  set first := (scene.apply rig [.set_visible .target "left" false]).hide_trace "left" with hfirst
  obtain ⟨htip, hline, hother⟩ :=
    hide_trace_seen (first.apply rig [.set_visible .target "right" false]) "right"
  rcases hcases with rfl | rfl
  · obtain ⟨htip₁, hline₁, _⟩ :=
      hide_trace_seen (scene.apply rig [.set_visible .target "left" false]) "left"
    obtain ⟨htips, htraces⟩ := hother "left" (by decide)
    constructor
    · exact (congrArg (fun handle => (handle.filter Handle.visible).map Handle.points) htips).trans
        htip₁
    · exact (congrArg (fun handle => (handle.filter Handle.visible).map Handle.points) htraces).trans
        hline₁
  · exact ⟨htip, hline⟩

/-- Commands leave the line that is seen, but for a reset, which clears the targets of every side.
-/
theorem commands_line (commands : List (Command F)) (scene : RobotScene F) {side : String}
    (hside : side ∈ SIDES) :
    seen (commands.foldl (LiveScene.apply_command rig) scene).traces side =
      if commands.any Command.resets then none else seen scene.traces side := by
  induction commands generalizing scene with
  | nil => rfl
  | cons command rest ih =>
    rw [List.foldl_cons, ih, List.any_cons]
    cases command with
    | event => rfl
    | show_calibration side' q => rfl
    | clear_calibration => rfl
    | reset =>
      rw [show (Command.reset : Command F).resets = true from rfl, Bool.true_or, if_pos rfl]
      split
      · rfl
      · exact (clear_targets_seen (scene.apply rig LiveScene.clear_calibration) hside).2

/-- The line that is seen when a tick comes to render: the last one, unless a reset, a new session
or a detachment has cleared it. -/
theorem before_render_line (tick : Tick F) (scene : RobotScene F) {side : String}
    (hside : side ∈ SIDES) :
    seen (if tick.detached then
      LiveScene.detach_run rig (LiveScene.update_session rig tick.session
        (tick.commands.foldl (LiveScene.apply_command rig) scene))
      else LiveScene.update_session rig tick.session
        (tick.commands.foldl (LiveScene.apply_command rig) scene)).traces side =
      if tick.clears then none else seen scene.traces side := by
  unfold Tick.clears
  cases hdetached : tick.detached with
  | true =>
    rw [Bool.or_true, if_pos rfl, if_pos rfl]
    exact (clear_targets_seen _ hside).2
  | false =>
    rw [Bool.or_false, if_neg Bool.false_ne_true]
    unfold LiveScene.update_session
    by_cases hactive : (truthy tick.session.state).getD "waiting" ∈ ["eval", "skill", "saving"]
    · rw [if_pos hactive, decide_eq_true hactive, Bool.not_true, Bool.or_false]
      exact commands_line _ _ hside
    · rw [if_neg hactive, decide_eq_false hactive, Bool.not_false, Bool.or_true, if_pos rfl]
      exact (clear_targets_seen _ hside).2

/-- One tick: the tip is that of its own trace, and so is the line if it has one. -/
theorem tick_scene_traces {factr_max_age_s : ℚ} {tick : Tick F} {scene' : RobotScene F}
    (htick : tick_scene rig factr_max_age_s scene tick = .ok scene') {side : String}
    (hside : side ∈ SIDES) :
    seen scene'.tips side = (trace_of rig tick side).map (fun trace => [trace.2]) ∧
    seen scene'.traces side =
      line_after (if tick.clears then none else seen scene.traces side)
        (trace_of rig tick side) := by
  rw [← @before_render_line F _ _ rig tick scene side hside]
  unfold tick_scene render_scene at htick
  unfold trace_of
  by_cases hdrawing : drawing tick.session = true
  · rw [if_pos hdrawing] at htick ⊢
    exact (update_targets_spec htick).2 side hside
  · rw [if_neg hdrawing] at htick ⊢
    obtain rfl := Except.ok.inj htick
    exact clear_targets_seen _ hside

/-! ## Every tick -/

/-- The poses that a side's follower has been live at, the last of them, or its rest. -/
def last_live (ticks : List (Tick F)) (side : String) : List F :=
  (ticks.filterMap fun tick => live_pose (newest_of tick 7 s!"{side}/q")).getLastD
    (List.replicate 7 0)

omit [Maths F] in
/-- The last pose of a side is the new tick's, if it has one, and otherwise the one before. -/
theorem last_live_append (ticks : List (Tick F)) (tick : Tick F) (side : String) :
    last_live (ticks ++ [tick]) side =
      (live_pose (newest_of tick 7 s!"{side}/q")).getD (last_live ticks side) := by
  unfold last_live
  rw [List.filterMap_append]
  cases hlive : live_pose (newest_of tick 7 s!"{side}/q") with
  | none => simp [hlive]
  | some p => simp [hlive]

/-- The targets that a tick has: none outside of the phases that draw them. -/
def target_of (tick : Tick F) (side : String) : Option (List F) :=
  if drawing tick.session then newest_of tick 7 s!"eval/{side}/q_horizon" else none

/-- A table over the sides gives a side its own value. -/
theorem of_sides_apply {α : Type} (f : String → Option α) {side : String} (h : side ∈ SIDES) :
    of_sides f side = f side := if_pos h

/-- What the robots of a side show after a tick. -/
structure SideShows (factr_max_age_s : ℚ) (tick : Tick F) (d : Display F) (side : String) :
    Prop where
  follower : d.visible .measured side = true
  stale : d.stale side = !live (newest_of tick 7 s!"{side}/q")
  command : ShowsNow d .command side (fresh factr_max_age_s tick s!"factr/{side}")
  factr : ShowsNow d .factr side
    (fresh factr_max_age_s tick s!"factr/telemetry/{side}/model_q_rad")
  target : ShowsNow d .target side (target_of tick side)

include hnamed

/-- Rendering shows this tick's samples, whatever has been shown before it, with one exception: the
line beside a single point is left as it was. -/
theorem render_scene_shows {factr_max_age_s : ℚ} {tick : Tick F} {d : Display F}
    {scene' : RobotScene F} (h : Shows rig d scene.nodes)
    (hrender : render_scene rig factr_max_age_s tick scene = .ok scene') :
    ∃ d', Shows rig d' scene'.nodes ∧ ∀ side ∈ SIDES,
      SideShows factr_max_age_s tick d' side ∧ d'.q .measured side =
        (live_pose (newest_of tick 7 s!"{side}/q")).getD (d.q .measured side) := by
  set followers := update_followers tick.targets.real_q with hfollowers
  set commands := update_commands (of_sides fun side =>
    fresh factr_max_age_s tick s!"factr/{side}") with hcommands
  set leaders := update_factr (of_sides fun side =>
    fresh factr_max_age_s tick s!"factr/telemetry/{side}/model_q_rad") with hleaders
  set targets := SIDES.flatMap (update_model .target (of_sides (target_of tick))) with htargets
  -- four groups of calls, each about a role of its own
  have hshows : Shows rig ((((d.steps followers).steps commands).steps leaders).steps targets)
      scene'.nodes := by
    have hthree := h.apply hnamed (followers ++ commands ++ leaders)
    rw [Display.steps_append, Display.steps_append] at hthree
    have hfour := hthree.apply hnamed targets
    unfold render_scene at hrender
    cases hdrawing : drawing tick.session with
    | true =>
      rw [if_pos hdrawing] at hrender
      have hnodes := (update_targets_spec hrender).1
      have hsame : tick.targets.target_q = of_sides (target_of tick) := by
        funext side
        simp [Tick.targets, of_sides, target_of, hdrawing]
      rw [hsame] at hnodes
      rw [hnodes]
      exact hfour
    | false =>
      rw [if_neg (by rw [hdrawing]; decide)] at hrender
      obtain rfl := Except.ok.inj hrender
      have hnone : of_sides (target_of tick) = fun _ => none := by
        funext side
        simp [of_sides, target_of, hdrawing]
      have hclear : targets = clear_calibration := by
        rw [htargets, hnone]
        rfl
      rw [hclear] at hfour ⊢
      exact hfour
  refine ⟨_, hshows, fun side hside => ?_⟩
  obtain ⟨hself₁, hother₁⟩ := steps_update_followers d tick.targets.real_q
  obtain ⟨hself₂, hother₂, hstale₂⟩ := steps_update_models (d.steps followers) .command
    (of_sides fun side => fresh factr_max_age_s tick s!"factr/{side}")
  obtain ⟨hself₃, hother₃, hstale₃⟩ := steps_update_models ((d.steps followers).steps commands)
    .factr (of_sides fun side => fresh factr_max_age_s tick s!"factr/telemetry/{side}/model_q_rad")
  obtain ⟨hself₄, hother₄, hstale₄⟩ := steps_update_models
    (((d.steps followers).steps commands).steps leaders) .target (of_sides (target_of tick))
  obtain ⟨hvisible, hq, hstale⟩ := hself₁ side hside
  have hreal : tick.targets.real_q side = newest_of tick 7 s!"{side}/q" := if_pos hside
  have hafter₃ : ∀ role ≠ Role.target, role ≠ Role.factr →
      ((((d.steps followers).steps commands).steps leaders).steps targets).visible role side =
          ((d.steps followers).steps commands).visible role side ∧
        ((((d.steps followers).steps commands).steps leaders).steps targets).q role side =
          ((d.steps followers).steps commands).q role side := by
    intro role htarget hfactr
    obtain ⟨hvisible₃, hq₃⟩ := hother₃ role hfactr side
    obtain ⟨hvisible₄, hq₄⟩ := hother₄ role htarget side
    exact ⟨hvisible₄.trans hvisible₃, hq₄.trans hq₃⟩
  obtain ⟨hvisible₂, hq₂⟩ := hother₂ .measured (by decide) side
  obtain ⟨hvisible', hq'⟩ := hafter₃ .measured (by decide) (by decide)
  refine ⟨⟨hvisible'.trans (hvisible₂.trans hvisible), ?_, ?_, ?_, ?_⟩, ?_⟩
  · have hkept := congrFun (hstale₄.trans (hstale₃.trans hstale₂)) side
    refine hkept.trans (hstale.trans ?_)
    rw [hreal]
  · have hnow := (hself₂ side hside).of_same (hafter₃ .command (by decide) (by decide))
    rwa [of_sides_apply _ hside] at hnow
  · have hnow := (hself₃ side hside).of_same (hother₄ .factr (by decide) side)
    rwa [of_sides_apply _ hside] at hnow
  · have hnow := hself₄ side hside
    rwa [of_sides_apply _ hside] at hnow
  · refine hq'.trans (hq₂.trans (hq.trans ?_))
    rw [hreal]

/-- One tick: a follower that is not live stays where it was before. -/
theorem tick_scene_shows {factr_max_age_s : ℚ} {tick : Tick F} {d : Display F}
    {scene' : RobotScene F} (h : Shows rig d scene.nodes)
    (htick : tick_scene rig factr_max_age_s scene tick = .ok scene') :
    ∃ d', Shows rig d' scene'.nodes ∧ ∀ side ∈ SIDES,
      SideShows factr_max_age_s tick d' side ∧ d'.q .measured side =
        (live_pose (newest_of tick 7 s!"{side}/q")).getD (d.q .measured side) := by
  have hat : At rig (fun side => d.q .measured side) scene := ⟨d, h, fun _ => rfl⟩
  obtain ⟨d', hshows', hq'⟩ := hat.before_render hnamed tick
  obtain ⟨d'', hshows'', hsides⟩ := render_scene_shows hnamed hshows' htick
  refine ⟨d'', hshows'', fun side hside => ⟨(hsides side hside).1, ?_⟩⟩
  rw [(hsides side hside).2, hq']

omit hnamed in
/-- A run that comes through has come through every tick before its last. -/
theorem run_append {factr_max_age_s : ℚ} {ticks : List (Tick F)} {tick : Tick F}
    (hrun : run rig factr_max_age_s (ticks ++ [tick]) = .ok scene) :
    ∃ before, run rig factr_max_age_s ticks = .ok before ∧
      tick_scene rig factr_max_age_s before tick = .ok scene := by
  obtain ⟨nodes, hinit, hticks⟩ := Results.bind_ok.1 hrun
  rw [List.foldlM_append] at hticks
  obtain ⟨before, hbefore, hlast⟩ := Results.bind_ok.1 hticks
  obtain ⟨after, htick, hafter⟩ := Results.bind_ok.1 hlast
  obtain rfl := Except.ok.inj hafter
  refine ⟨before, ?_, htick⟩
  unfold run
  rw [hinit]
  exact hbefore

/-- Where the followers are after some ticks: each at the last pose that it was live at, by
induction on the ticks. -/
theorem run_shows {factr_max_age_s : ℚ} (ticks : List (Tick F)) {scene : RobotScene F}
    (hrun : run rig factr_max_age_s ticks = .ok scene) :
    ∃ d, Shows rig d scene.nodes ∧ ∀ side ∈ SIDES, d.q .measured side = last_live ticks side := by
  induction ticks using List.reverseRecOn generalizing scene with
  | nil =>
    obtain ⟨nodes, hinit, hticks⟩ := Results.bind_ok.1 hrun
    obtain rfl := Except.ok.inj hticks
    have hstart : At rig (fun _ => List.replicate 7 0)
        (⟨nodes, fun _ => none, fun _ => none⟩ : RobotScene F) :=
      ⟨start, shows_init hnamed hinit, fun _ => rfl⟩
    obtain ⟨d, hshows, hq⟩ := hstart.update_session hnamed ⟨none, none⟩
    exact ⟨d, hshows, fun side _ => hq side⟩
  | append_singleton ticks tick ih =>
    obtain ⟨before, hbefore, htick⟩ := run_append hrun
    obtain ⟨d, hshows, hq⟩ := ih hbefore
    obtain ⟨d', hshows', hsides⟩ := tick_scene_shows hnamed hshows htick
    refine ⟨d', hshows', fun side hside => ?_⟩
    rw [(hsides side hside).2, hq side hside, last_live_append]

omit hnamed in
/-- And which line is seen: the last that a tick has drawn, if nothing has cleared it since. -/
theorem run_line {factr_max_age_s : ℚ} (ticks : List (Tick F)) {scene : RobotScene F}
    (hrun : run rig factr_max_age_s ticks = .ok scene) {side : String} (hside : side ∈ SIDES) :
    seen scene.traces side = last_line rig ticks side := by
  induction ticks using List.reverseRecOn generalizing scene with
  | nil =>
    obtain ⟨nodes, _, hticks⟩ := Results.bind_ok.1 hrun
    obtain rfl := Except.ok.inj hticks
    exact (clear_targets_seen _ hside).2
  | append_singleton ticks tick ih =>
    obtain ⟨before, hbefore, htick⟩ := run_append hrun
    rw [(tick_scene_traces htick hside).2, ih hbefore, last_line, last_line, List.foldl_append]
    rfl

omit hnamed in
/-- After every tick of any run the follower of a side is at the last pose it was live at, and is
marked if it is not live now; the other robots and the tip of the trace are what this tick's
samples say, and nothing of a command or of an earlier tick. The line of the trace is this tick's
if that has two points; beside a single point the line of an earlier tick stays. -/
theorem every_tick_shows {fuel : ℕ} {files : Files F} (hnamed : files.WellNamed)
    (hload : Rig.load fuel files = some rig) {factr_max_age_s : ℚ} (ticks : List (Tick F))
    (tick : Tick F) {scene : RobotScene F}
    (hrun : run rig factr_max_age_s (ticks ++ [tick]) = .ok scene) :
    ∃ d, Shows rig d scene.nodes ∧ ∀ side ∈ SIDES,
      d.q .measured side = last_live (ticks ++ [tick]) side ∧
      SideShows factr_max_age_s tick d side ∧
      seen scene.tips side = (trace_of rig tick side).map (fun trace => [trace.2]) ∧
      seen scene.traces side = last_line rig (ticks ++ [tick]) side := by
  have hrig := hnamed.rig hload
  obtain ⟨before, hbefore, htick⟩ := run_append hrun
  obtain ⟨d, hshows, hq⟩ := run_shows hrig ticks hbefore
  obtain ⟨d', hshows', hsides⟩ := tick_scene_shows hrig hshows htick
  refine ⟨d', hshows', fun side hside => ⟨?_, (hsides side hside).1,
    (tick_scene_traces htick hside).1, run_line (ticks ++ [tick]) hrun hside⟩⟩
  rw [(hsides side hside).2, hq side hside, last_live_append]

end Scenes

/-- One joint and no meshes, and leaders without files. -/
def bare_files : Files ℝ where
  assets _ := .absent
  urdf :=
    { joints := [⟨"base_link", "link1", 0, (0, 0, 0), 0⟩]
      links := []
      resolve := fun filename => filename }
  factr_urdfs _ := none

/-- A calibration pose is asked for while nothing runs, and the right leader's sample is old. -/
def calibrating : Tick ℝ where
  commands := [.show_calibration "left" [0, 0, 0, 0, 0, 0, 0]]
  session := ⟨none, some "teleop"⟩
  detached := false
  newest name := if name = "factr/right" then some ([1, 1, 1, 1, 1, 1, 1], 0) else none
  horizon_paths _ := none
  now_ns := 600000000

/-- A calibration pose that is asked for while nothing runs is not drawn, and a leader whose sample
is old is hidden. -/
theorem calibration_not_shown : ∃ rig scene d, Rig.load 2 bare_files = some rig ∧
    run rig (1 / 2) ([] ++ [calibrating]) = .ok scene ∧ Shows rig d scene.nodes ∧
    d.visible .target "left" = false ∧ d.visible .command "right" = false ∧
    seen scene.traces "left" = none := by
  have hnamed : bare_files.WellNamed := by
    refine ⟨⟨fun joint hjoint => ?_, ?_, ?_⟩, ?_⟩
    · obtain rfl := List.mem_singleton.1 hjoint
      decide
    · exact fun _ hlink => absurd hlink List.not_mem_nil
    · exact fun _ hlink => absurd hlink List.not_mem_nil
    · intro side urdf hurdf
      cases hurdf
  obtain ⟨rig, hload⟩ : ∃ rig, Rig.load 2 bare_files = some rig := ⟨_, rfl⟩
  have hrun : ∃ scene, run rig (1 / 2) ([] ++ [calibrating]) = .ok scene := by
    obtain rfl := Option.some.inj hload
    exact ⟨_, rfl⟩
  obtain ⟨scene, hscene⟩ := hrun
  obtain ⟨d, hshows, hsides⟩ := every_tick_shows hnamed hload [] calibrating hscene
  obtain ⟨_, hleft, _, hline⟩ := hsides "left" (by decide)
  refine ⟨rig, scene, d, hload, hscene, hshows, ?_, ?_, ?_⟩
  · rw [hleft.target.visible]
    rfl
  · rw [(hsides "right" (by decide)).2.1.command.visible]
    have hold : fresh (1 / 2) calibrating "factr/right" = none := by
      simp [fresh, calibrating]
      norm_num
    exact congrArg live hold
  · rw [hline]
    rfl

end DualFlexivControl.Viewers.LiveScene
