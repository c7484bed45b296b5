/-
The robots of the 3D viewer, `RobotModel` in `viser/scene.py`, and what is seen of them.

A model gives the viewer one frame a link, each by its path inside that of the link before, and
under each link the frames and meshes of its visuals. `update` turns the joints: it sets the pose
of each frame in the one before, as a quaternion in the viewer's order. The viewer's frames do not
scale what is inside them, so a model that is drawn larger scales the offsets of its links, those
of its visuals and its meshes one by one.

What is seen of all that is one enlarged robot ([`drawn_vertices_eq`]): each vertex of each mesh
is drawn where the chain's own kinematics has it, away from the mount by the scale. The kinematics
is with matrices here, as in `fk_world_eef`, and a model is drawn with quaternions; that the two
agree is a statement of exact arithmetic, and the results are about real numbers.
-/
import DualFlexivControl.Lib.PathTree
import DualFlexivControl.Lib.Results
import DualFlexivControl.Visualization.Chain

set_option autoImplicit false

namespace DualFlexivControl.Visualization

open Matrix Quaternion Rotation PathTree
open scoped Maths
open Scalar (lit)

/-! ## The viewer's scene -/

/-- A frame has only its pose; a mesh has vertices, and a scale of its own. -/
inductive Content (F : Type)
  | frame
  | mesh (scale : Fin 3 → F) (vertices : List (Fin 3 → F))
  | label (text : String)

/-- A node's pose is in its parent. -/
structure Node (F : Type) where
  position : Fin 3 → F
  wxyz : Wxyz F
  visible : Bool
  content : Content F

/-- The nodes by the components of their paths. -/
abbrev Nodes (F : Type) := List String → Option (Node F)

/-- What `_load_mesh` finds at a path: no file, one it cannot load, or the vertices. -/
inductive Asset (F : Type)
  | absent
  | damaged
  | mesh (vertices : List (Fin 3 → F))

/-- A gripper's mesh that cannot be loaded is not caught. -/
inductive SceneError
  | mesh
  | no_mount
  | empty_path
  | no_target
  | shape
  deriving DecidableEq, Repr

/-! ## Models -/

/-- What a `RobotModel` keeps; the poses are the viewer's. -/
structure RobotModel (F : Type) where
  root : List String
  chain : List (Link F)
  mount : Mount F
  model_scale : F
  follower_gripper : Bool

section Functions

variable {F : Type} [Field F] [Maths F]

/-- `add_frame` without a pose -/
def plain_frame : Node F := ⟨0, ⟨1, 0, 0, 0⟩, true, .frame⟩

def RobotModel.names (model : RobotModel F) : List String := model.chain.map Link.name

/-- `self.frames`, by their paths: `path = f"{path}/{link.name}"` -/
def RobotModel.frames (model : RobotModel F) : List (List String) :=
  nested model.root model.names

/-- The frame of a visual. -/
def visual_frame (model_scale : F) (visual : Visual F) : Node F where
  position := model_scale • visual.xyz
  wxyz := xyzw_to_wxyz (quat_from_rpy visual.rpy.1 visual.rpy.2.1 visual.rpy.2.2)
  visible := true
  content := .frame

/-- `_add_visual`: a mesh that cannot be loaded leaves the frame alone. -/
def add_visual (assets : String → Asset F) (model_scale : F) (parent : List String)
    (visual : Visual F) : List (List String × Node F) :=
  let path := parent ++ ["visual", visual.name]
  match assets visual.mesh with
  | .absent => []
  | .damaged => [(path, visual_frame model_scale visual)]
  | .mesh vertices =>
    [(path, visual_frame model_scale visual),
      (path ++ ["mesh"],
        { plain_frame with content := .mesh (model_scale • visual.scale) vertices })]

/-- The loop of `__init__` over the links. -/
def add_links (assets : String → Asset F) (model_scale : F) :
    List String → List (Link F) → List (List String × Node F)
  | _, [] => []
  | parent, link :: rest =>
    let path := parent ++ [link.name]
    (path, plain_frame) :: link.visuals.flatMap (add_visual assets model_scale path) ++
      add_links assets model_scale path rest

def GRAV_GRIPPER_STL : String := "GRAV/Grav-PVT-50mm.stl"

/-- The gripper's place on the flange. -/
def grav_gripper : Visual F where
  name := "grav_gripper"
  mesh := GRAV_GRIPPER_STL
  xyz := ![0, 0, lit (75038 / 1000000)]
  rpy := (Maths.pi / 2, 0, Maths.pi / 2)
  scale := fun _ => lit (1 / 1000)

/-- The first link of that name. -/
def RobotModel.flange_index (model : RobotModel F) : Option ℕ :=
  model.chain.findIdx? (·.name == "flange")

/-- `_add_gripper` -/
def add_gripper (assets : String → Asset F) (model : RobotModel F) :
    Except SceneError (List (List String × Node F)) :=
  match assets GRAV_GRIPPER_STL with
  | .absent => .ok []
  | asset =>
    match model.flange_index.bind (model.frames[·]?) with
    | none => .ok []
    | some parent =>
      let path := parent ++ ["visual", "grav_gripper"]
      match asset with
      | .mesh vertices => .ok [(path, visual_frame model.model_scale grav_gripper),
          (path ++ ["mesh"], { plain_frame with
            content := .mesh (fun _ => lit (1 / 1000) * model.model_scale) vertices })]
      | _ => .error .mesh

/-- The loop of `update`: the pose of each frame in the one before it. -/
def posed (model_scale : F) (q : List F) :
    ℕ → ℕ → List (Link F) → List ((Fin 3 → F) × Wxyz F)
  | _, _, [] => []
  | index, joint_index, link :: rest =>
    let quat := quat_from_rpy link.rpy.1 link.rpy.2.1 link.rpy.2.2
    match if 0 < index then q[joint_index]? else none with
    | some angle =>
      (model_scale • link.xyz,
          xyzw_to_wxyz (quat_mul quat (quat_from_axis_angle link.axis angle))) ::
        posed model_scale q (index + 1) (joint_index + 1) rest
    | none =>
      (model_scale • link.xyz, xyzw_to_wxyz quat) ::
        posed model_scale q (index + 1) joint_index rest

/-- Setting `frame.position` and `frame.wxyz` -/
def Node.set_pose (pose : (Fin 3 → F) × Wxyz F) (node : Node F) : Node F :=
  { node with position := pose.1, wxyz := pose.2 }

/-- `update` -/
def RobotModel.update (model : RobotModel F) (q : List F) (nodes : Nodes F) : Nodes F :=
  adjust nodes ((model.frames.zip (posed model.model_scale q 0 0 model.chain)).map
    fun call => (call.1, Node.set_pose call.2))

/-- The setter of `visible` -/
def RobotModel.set_visible (model : RobotModel F) (visible : Bool) (nodes : Nodes F) : Nodes F :=
  adjust nodes [(model.root, fun node => { node with visible := visible })]

/-- What the viewer does to a model that is there. -/
inductive Change (F : Type)
  | update (q : List F)
  | set_visible (visible : Bool)

def RobotModel.change (model : RobotModel F) (nodes : Nodes F) : Change F → Nodes F
  | .update q => model.update q nodes
  | .set_visible visible => model.set_visible visible nodes

/-- The angles that a change sets the joints to. -/
def Change.angles : Change F → Option (List F)
  | .update q => some q
  | .set_visible _ => none

/-- Whether a change shows the model, or hides it. -/
def Change.shows : Change F → Option Bool
  | .update _ => none
  | .set_visible visible => some visible

def RobotModel.root_node (model : RobotModel F) (visible : Bool) : Node F where
  position := model.mount.translation
  wxyz := xyzw_to_wxyz model.mount.quat_xyzw
  visible := visible
  content := .frame

/-- `if follower_gripper: self._add_gripper(...)` -/
def gripper_calls (assets : String → Asset F) (model : RobotModel F) :
    Except SceneError (List (List String × Node F)) :=
  if model.follower_gripper then add_gripper assets model else .ok []

/-- `__init__` -/
def RobotModel.create (assets : String → Asset F) (model : RobotModel F) (visible : Bool)
    (nodes : Nodes F) : Except SceneError (Nodes F) := do
  let gripper ← gripper_calls assets model
  return model.update (List.replicate 7 0) (put nodes ((model.root, model.root_node visible) ::
    (add_links assets model.model_scale model.root model.chain ++ gripper)))

/-! ## Forward kinematics -/

/-- The loop of `fk_world_eef`. -/
def fk_from (q : List F) :
    ℕ → ℕ → (Fin 3 → F) → Matrix (Fin 3) (Fin 3) F → List (Link F) → Fin 3 → F
  | _, _, translation, _, [] => translation
  | index, joint_index, translation, rotation, link :: rest =>
    let t := translation + rotation *ᵥ link.xyz
    let r := rotation * rot_from_rpy link.rpy.1 link.rpy.2.1 link.rpy.2.2
    match if 0 < index then q[joint_index]? else none with
    | some angle =>
      fk_from q (index + 1) (joint_index + 1) t (r * rot_from_axis_angle link.axis angle) rest
    | none => fk_from q (index + 1) joint_index t r rest

/-- `fk_world_eef`, for the chain that is given or that of the robot. -/
def fk_world_eef (side : String) (q : List F) (chain : List (Link F)) :
    Except SceneError (Fin 3 → F) :=
  match MOUNTS.lookup side with
  | none => .error .no_mount
  | some mount => .ok (fk_from q 0 0 mount.translation mount.rot chain)

end Functions

/-! ## The joints -/

section Joints

variable {F : Type}

/-- The angle of the joint that link `k` hangs on. -/
def joint_angle (q : List F) (k : ℕ) : Option F := if 0 < k then q[k - 1]? else none

/-- The loops count joints one behind links, and no further than there are angles. -/
def CountsJoints (q : List F) (index joint_index : ℕ) : Prop :=
  joint_index = min (index - 1) q.length

namespace CountsJoints

variable {q : List F} {index joint_index : ℕ} (h : CountsJoints q index joint_index)
include h

/-- The guard of the loop is that of `joint_angle`: the base has no joint, and a short `q` leaves
the last links unturned. -/
theorem angle : (if 0 < index then q[joint_index]? else none) = joint_angle q index := by
  unfold joint_angle
  by_cases hindex : 0 < index
  · rw [if_pos hindex, if_pos hindex, h]
    rcases Nat.lt_or_ge (index - 1) q.length with hlt | hge
    · rw [Nat.min_eq_left hlt.le]
    · rw [Nat.min_eq_right hge, List.getElem?_eq_none le_rfl, List.getElem?_eq_none hge]
  · rw [if_neg hindex, if_neg hindex]

/-- Past a link that used up a joint angle, both indices advance together. -/
theorem succ_some {angle : F} (hangle : joint_angle q index = some angle) :
    CountsJoints q (index + 1) (joint_index + 1) := by
  unfold joint_angle at hangle
  unfold CountsJoints at h ⊢
  split at hangle
  · have hlt := (List.getElem?_eq_some_iff.1 hangle).1
    omega
  · cases hangle

/-- Past a link without a joint angle only the link's index advances. -/
theorem succ_none (hangle : joint_angle q index = none) :
    CountsJoints q (index + 1) joint_index := by
  unfold joint_angle at hangle
  unfold CountsJoints at h ⊢
  split at hangle
  · rw [List.getElem?_eq_none_iff] at hangle
    omega
  · omega

end CountsJoints

end Joints

section Loops

variable {F : Type} [Field F] [Maths F]

/-- The rotation of frame `k`, as `update` composes it. -/
def pose_quat (q : List F) (k : ℕ) (link : Link F) : Xyzw F :=
  let quat := quat_from_rpy link.rpy.1 link.rpy.2.1 link.rpy.2.2
  match joint_angle q k with
  | some angle => quat_mul quat (quat_from_axis_angle link.axis angle)
  | none => quat

/-- The pose of link `k` in the one before it: its origin, and the turn of its joint. -/
def jointed (q : List F) (k : ℕ) (link : Link F) : Rigid F :=
  match joint_angle q k with
  | some angle => link.origin * ⟨0, rot_from_axis_angle link.axis angle⟩
  | none => link.origin

/-- The pose of link `i` in the mount. -/
def configured (q : List F) (chain : List (Link F)) (i : ℕ) : Rigid F :=
  ((chain.mapIdx (jointed q)).take (i + 1)).prod

/-- A link of the posed chain has its own pose, whatever the links before it were. -/
theorem posed_getElem? (model_scale : F) (q : List F) {index joint_index : ℕ}
    (h : CountsJoints q index joint_index) (chain : List (Link F)) (i : ℕ) :
    (posed model_scale q index joint_index chain)[i]? = chain[i]?.map fun link =>
      (model_scale • link.xyz, xyzw_to_wxyz (pose_quat q (index + i) link)) := by
  induction chain generalizing index joint_index i with
  | nil => rfl
  | cons link rest ih =>
    unfold posed
    rw [h.angle]
    cases hangle : joint_angle q index with
    | some angle =>
      cases i with
      | zero => simp [pose_quat, hangle]
      | succ i =>
        have hrest := ih (h.succ_some hangle) i
        rw [Nat.add_right_comm, Nat.add_assoc] at hrest
        exact hrest
    | none =>
      cases i with
      | zero => simp [pose_quat, hangle]
      | succ i =>
        have hrest := ih (h.succ_none hangle) i
        rw [Nat.add_right_comm, Nat.add_assoc] at hrest
        exact hrest

/-- Every link is posed, whether or not a joint angle is left for it, so the poses and the links go
in pairs. -/
theorem length_posed (model_scale : F) (q : List F) (index joint_index : ℕ)
    (chain : List (Link F)) : (posed model_scale q index joint_index chain).length =
      chain.length := by
  induction chain generalizing index joint_index with
  | nil => rfl
  | cons link rest ih =>
    unfold posed
    split
    · exact congrArg (· + 1) (ih _ _)
    · exact congrArg (· + 1) (ih _ _)

/-- The loop over the matrices multiplies the poses: by induction on the chain it computes where
their product takes the origin. -/
theorem fk_from_eq (q : List F) {index joint_index : ℕ} (h : CountsJoints q index joint_index)
    (g : Rigid F) (chain : List (Link F)) :
    fk_from q index joint_index g.translation g.rotation chain =
      (g * (chain.mapIdx fun k => jointed q (index + k)).prod).translation := by
  induction chain generalizing index joint_index g with
  | nil => simp [fk_from]
  | cons link rest ih =>
    have hshift : (fun k => jointed q (index + (k + 1))) = fun k => jointed q (index + 1 + k) := by
      funext k
      rw [Nat.add_right_comm, Nat.add_assoc]
    unfold fk_from
    rw [h.angle, List.mapIdx_cons, List.prod_cons, ← mul_assoc, hshift, Nat.add_zero]
    cases hangle : joint_angle q index with
    | some angle =>
      have hjoint : jointed q index link =
          link.origin * ⟨0, rot_from_axis_angle link.axis angle⟩ := by
        unfold jointed
        rw [hangle]
      have hrest := ih (h.succ_some hangle) (g * jointed q index link)
      refine Eq.trans ?_ hrest
      rw [hjoint, ← mul_assoc]
      simp [Link.origin, origin]
    | none =>
      have hjoint : jointed q index link = link.origin := by
        unfold jointed
        rw [hangle]
      have hrest := ih (h.succ_none hangle) (g * jointed q index link)
      refine Eq.trans ?_ hrest
      rw [hjoint]
      rfl

end Loops

/-! ## Paths -/

section Paths

variable {F : Type}

namespace RobotModel

/-- The path of the frame of link `i`. -/
def path (model : RobotModel F) (i : ℕ) : List String := model.root ++ model.names.take (i + 1)

variable {model : RobotModel F}

/-- The frame of the `i`-th link lies under the names of all links up to it. -/
theorem frames_getElem? (model : RobotModel F) (i : ℕ) :
    model.frames[i]? = model.chain[i]?.map fun _ => model.path i := by
  rw [frames, nested_getElem?, names, List.getElem?_map, Option.map_map]
  rfl

/-- Every frame of a model is below the model's root. -/
theorem root_prefix_path (model : RobotModel F) (i : ℕ) : model.root <+: model.path i :=
  List.prefix_append _ _

/-- Nothing that is added below a frame is the root. -/
theorem path_under_ne_root (i : ℕ) (name : String) (a : List String) :
    model.path i ++ name :: a ≠ model.root := by
  intro heq
  have hlength := congrArg List.length heq
  simp only [path, List.length_append, List.length_cons] at hlength
  omega

/-- A frame is strictly below the root, so hiding the root never rewrites a frame. -/
theorem of_mem_frames {p : List String} (hp : p ∈ model.frames) :
    model.root <+: p ∧ p ≠ model.root := by
  obtain ⟨i, hi, rfl⟩ := mem_nested.1 hp
  refine ⟨List.prefix_append _ _, fun heq => ?_⟩
  have hlength := congrArg List.length heq
  rw [List.length_append, List.length_take] at hlength
  omega

/-- The components after the root say where a node under a visual belongs. -/
theorem path_visual_inj (hlinks : "visual" ∉ model.names) {i j : ℕ} {a b : List String}
    (h : model.path i ++ "visual" :: a = model.path j ++ "visual" :: b) :
    model.path i = model.path j ∧ a = b := by
  unfold path at h ⊢
  rw [List.append_assoc, List.append_assoc, List.append_cancel_left_eq] at h
  obtain ⟨hnames, hrest⟩ := append_mark_inj (fun hmem => hlinks (List.mem_of_mem_take hmem))
    (fun hmem => hlinks (List.mem_of_mem_take hmem)) h
  exact ⟨congrArg (model.root ++ ·) hnames, hrest⟩

/-- Links of a chain have frames of their own, as their paths have different lengths. -/
theorem path_inj {i j : ℕ} (hi : i < model.chain.length) (hj : j < model.chain.length)
    (h : model.path i = model.path j) : i = j := by
  have hlength := congrArg List.length h
  simp only [path, List.length_append, List.length_take, names, List.length_map] at hlength
  omega

/-- What is below a link's `visual` is no frame of a link, provided that no link is called so. -/
theorem path_visual_ne (hlinks : "visual" ∉ model.names) (i j : ℕ) (a : List String) :
    model.path i ++ "visual" :: a ≠ model.path j := by
  intro h
  unfold path at h
  rw [List.append_assoc, List.append_cancel_left_eq] at h
  have hmem : "visual" ∈ model.names.take (j + 1) := by
    rw [← h]
    exact List.mem_append_right _ List.mem_cons_self
  exact hlinks (List.mem_of_mem_take hmem)

/-- The same for all frames of the model at once. -/
theorem path_visual_not_mem (hlinks : "visual" ∉ model.names) (i : ℕ) (a : List String) :
    model.path i ++ "visual" :: a ∉ model.frames := by
  intro hmem
  obtain ⟨j, _, hj⟩ := mem_nested.1 hmem
  exact path_visual_ne hlinks i j a hj

end RobotModel

end Paths

/-! ## A model's nodes -/

section Nodes

variable {F : Type} [Field F] [Maths F]

namespace RobotModel

/-- The visuals under link `i`: its own, and the gripper under the flange. -/
def attached (model : RobotModel F) (i : ℕ) (link : Link F) : List (Visual F) :=
  link.visuals ++
    if model.follower_gripper && model.flange_index == some i then [grav_gripper] else []

/-- No link has the name of the nodes between links and visuals, and no two visuals of a link
have one name. -/
structure WellNamed (model : RobotModel F) : Prop where
  links : "visual" ∉ model.names
  visuals : ∀ i link, model.chain[i]? = some link →
    ((model.attached i link).map Visual.name).Nodup

/-- It is enough that the links are well named, as those of a file are. -/
theorem wellNamed_of_links {model : RobotModel F} (h : ∀ link ∈ model.chain, link.WellNamed) :
    model.WellNamed where
  links := by
    intro hmem
    obtain ⟨link, hlink, hname⟩ := List.mem_map.1 hmem
    exact (h link hlink).name hname
  visuals i link hlink := by
    have hnamed := h link (List.mem_of_getElem? hlink)
    unfold attached
    split
    · rw [List.map_append, List.nodup_append]
      refine ⟨hnamed.visuals, List.nodup_singleton _, ?_⟩
      rintro name hname _ hgripper rfl
      rw [List.mem_singleton.1 hgripper] at hname
      exact hnamed.gripper hname
    · rw [List.append_nil]
      exact hnamed.visuals

def frame_node (model : RobotModel F) (q : List F) (i : ℕ) (link : Link F) : Node F where
  position := model.model_scale • link.xyz
  wxyz := xyzw_to_wxyz (pose_quat q i link)
  visible := true
  content := .frame

def mesh_node (model : RobotModel F) (visual : Visual F) (vertices : List (Fin 3 → F)) : Node F :=
  { plain_frame with content := .mesh (model.model_scale • visual.scale) vertices }

end RobotModel

/-- The scene has the nodes of a model whose joints are at `q`. -/
structure Drawn (assets : String → Asset F) (model : RobotModel F) (q : List F) (visible : Bool)
    (nodes : Nodes F) : Prop where
  above : ∀ p, p <+: model.root → p ≠ model.root → nodes p = none
  root : nodes model.root = some (model.root_node visible)
  frames : ∀ i link, model.chain[i]? = some link →
    nodes (model.path i) = some (model.frame_node q i link)
  between : ∀ i, nodes (model.path i ++ ["visual"]) = none
  visuals : ∀ i link, model.chain[i]? = some link → ∀ visual ∈ model.attached i link,
    ∀ vertices, assets visual.mesh = .mesh vertices →
      nodes (model.path i ++ ["visual", visual.name]) =
          some (visual_frame model.model_scale visual) ∧
        nodes (model.path i ++ ["visual", visual.name, "mesh"]) =
          some (model.mesh_node visual vertices)

variable {assets : String → Asset F} {model : RobotModel F}

/-! ## `update` and `visible` -/

namespace RobotModel

/-- An update gives each frame the pose of its link, enlarged by the model's scale. -/
theorem update_frame (q : List F) (nodes : Nodes F) {i : ℕ} {link : Link F}
    (hlink : model.chain[i]? = some link) : model.update q nodes (model.path i) =
      (nodes (model.path i)).map
        (Node.set_pose (model.model_scale • link.xyz, xyzw_to_wxyz (pose_quat q i link))) := by
  have hkeys : ((model.frames.zip (posed model.model_scale q 0 0 model.chain)).map
      fun call => (call.1, Node.set_pose call.2)).map Prod.fst = model.frames := by
    rw [List.map_map]
    exact List.map_fst_zip (by rw [length_posed, frames, length_nested, names, List.length_map])
  refine adjust_of_mem (by rw [hkeys]; exact nodup_nested _ _) ?_
  refine List.mem_map.2 ⟨(model.path i, _), ?_, rfl⟩
  refine List.mem_iff_getElem?.2 ⟨i, List.getElem?_zip_eq_some.2 ⟨?_, ?_⟩⟩
  · rw [frames_getElem?, hlink]
    rfl
  · rw [posed_getElem? _ _ (show CountsJoints q 0 0 from (Nat.zero_min _).symm), hlink,
      Nat.zero_add]
    rfl

/-- An update rewrites the links' frames only. -/
theorem update_of_not_mem (q : List F) (nodes : Nodes F) {p : List String}
    (hp : p ∉ model.frames) : model.update q nodes p = nodes p := by
  refine adjust_of_not_mem fun hmem => hp ?_
  rw [List.map_map] at hmem
  obtain ⟨call, hcall, rfl⟩ := List.mem_map.1 hmem
  exact (List.of_mem_zip hcall).1

omit [Field F] [Maths F] in
/-- Showing or hiding a robot is a flag at its root. -/
theorem set_visible_root (visible : Bool) (nodes : Nodes F) :
    model.set_visible visible nodes model.root =
      (nodes model.root).map fun node => { node with visible := visible } := by
  refine adjust_of_mem ?_ List.mem_cons_self
  exact List.nodup_singleton _

omit [Field F] [Maths F] in
/-- Showing or hiding a robot leaves every other node as it is. -/
theorem set_visible_of_ne (visible : Bool) (nodes : Nodes F) {p : List String}
    (hp : p ≠ model.root) : model.set_visible visible nodes p = nodes p :=
  adjust_of_not_mem fun hmem => hp (List.mem_singleton.1 hmem)

end RobotModel

namespace Drawn

variable {q : List F} {visible : Bool} {nodes : Nodes F} (h : Drawn assets model q visible nodes)
include h

/-- Nothing else in the scene matters: what a model shows is decided by the nodes on the way to its
root and below it. -/
theorem congr {nodes' : Nodes F}
    (hsame : ∀ p, p <+: model.root ∨ model.root <+: p → nodes' p = nodes p) :
    Drawn assets model q visible nodes' where
  above p hp hne := by rw [hsame p (.inl hp), h.above p hp hne]
  root := by rw [hsame _ (.inl List.prefix_rfl), h.root]
  frames i link hlink := by rw [hsame _ (.inr (model.root_prefix_path i)), h.frames i link hlink]
  between i := by
    rw [hsame _ (.inr ((model.root_prefix_path i).trans (List.prefix_append _ _))), h.between i]
  visuals i link hlink visual hvisual vertices hasset := by
    have hunder : ∀ a, nodes' (model.path i ++ a) = nodes (model.path i ++ a) := fun a =>
      hsame _ (.inr ((model.root_prefix_path i).trans (List.prefix_append _ _)))
    rw [hunder, hunder]
    exact h.visuals i link hlink visual hvisual vertices hasset

/-- `update` turns the joints and nothing else: the frames of the links get their new poses, while
visuals, meshes and visibility stay. -/
theorem update (hlinks : "visual" ∉ model.names) (q' : List F) :
    Drawn assets model q' visible (model.update q' nodes) where
  above p hp hne := by
    rw [model.update_of_not_mem, h.above p hp hne]
    intro hmem
    exact (RobotModel.of_mem_frames hmem).2
      (hp.eq_of_length_le (RobotModel.of_mem_frames hmem).1.length_le)
  root := by
    rw [model.update_of_not_mem q' nodes fun hmem => (RobotModel.of_mem_frames hmem).2 rfl, h.root]
  frames i link hlink := by
    rw [model.update_frame q' nodes hlink, h.frames i link hlink]
    rfl
  between i := by
    rw [model.update_of_not_mem q' nodes (RobotModel.path_visual_not_mem hlinks i []), h.between i]
  visuals i link hlink visual hvisual vertices hasset := by
    rw [model.update_of_not_mem q' nodes (RobotModel.path_visual_not_mem hlinks i _),
      model.update_of_not_mem q' nodes (RobotModel.path_visual_not_mem hlinks i _)]
    exact h.visuals i link hlink visual hvisual vertices hasset

/-- `visible` hides or shows the whole of it, because a node is seen only if every node above it is.
-/
theorem set_visible (visible' : Bool) :
    Drawn assets model q visible' (model.set_visible visible' nodes) where
  above p hp hne := by rw [model.set_visible_of_ne visible' nodes hne, h.above p hp hne]
  root := by
    rw [model.set_visible_root, h.root]
    rfl
  frames i link hlink := by
    have hne : model.path i ≠ model.root := by
      refine (RobotModel.of_mem_frames ?_).2
      exact List.mem_iff_getElem?.2 ⟨i, by rw [model.frames_getElem?, hlink]; rfl⟩
    rw [model.set_visible_of_ne visible' nodes hne, h.frames i link hlink]
  between i := by
    rw [model.set_visible_of_ne visible' nodes (RobotModel.path_under_ne_root i _ _), h.between i]
  visuals i link hlink visual hvisual vertices hasset := by
    rw [model.set_visible_of_ne visible' nodes (RobotModel.path_under_ne_root i _ _),
      model.set_visible_of_ne visible' nodes (RobotModel.path_under_ne_root i _ _)]
    exact h.visuals i link hlink visual hvisual vertices hasset

/-- A change leaves what it is not about. -/
theorem change (hlinks : "visual" ∉ model.names) (change : Change F) :
    Drawn assets model (change.angles.getD q) (change.shows.getD visible)
      (model.change nodes change) := by
  cases change with
  | update q' => exact h.update hlinks q'
  | set_visible visible' => exact h.set_visible visible'

/-- After any changes the joints are at the last angles, and the model is as it was last shown. -/
theorem changes (hlinks : "visual" ∉ model.names) (changes : List (Change F)) :
    Drawn assets model ((changes.filterMap Change.angles).getLastD q)
      ((changes.filterMap Change.shows).getLastD visible)
      (changes.foldl model.change nodes) := by
  induction changes generalizing q visible nodes with
  | nil => exact h
  | cons change rest ih =>
    have hrest := ih (h.change hlinks change)
    cases change with
    | update q' =>
      show Drawn assets model ((q' :: rest.filterMap Change.angles).getLastD q) _ _
      rw [List.getLastD_cons]
      exact hrest
    | set_visible visible' =>
      show Drawn assets model _ ((visible' :: rest.filterMap Change.shows).getLastD visible) _
      rw [List.getLastD_cons]
      exact hrest

end Drawn

/-! ## `__init__` -/

/-- The calls for a visual add its frame and, where its file is a mesh, the mesh below it. -/
theorem mem_add_visual {model_scale : F} {parent p : List String} {visual : Visual F}
    {node : Node F} (h : (p, node) ∈ add_visual assets model_scale parent visual) :
    (p = parent ++ ["visual", visual.name] ∧ node = visual_frame model_scale visual) ∨
    ∃ vertices, assets visual.mesh = .mesh vertices ∧
      p = parent ++ ["visual", visual.name, "mesh"] ∧
      node = { plain_frame with content := .mesh (model_scale • visual.scale) vertices } := by
  unfold add_visual at h
  cases hasset : assets visual.mesh with
  | absent =>
    rw [hasset] at h
    exact absurd h List.not_mem_nil
  | damaged =>
    rw [hasset] at h
    exact .inl (Prod.mk.inj (List.mem_singleton.1 h))
  | mesh vertices =>
    rw [hasset] at h
    rcases List.mem_cons.1 h with hframe | hmesh
    · exact .inl (Prod.mk.inj hframe)
    · obtain ⟨rfl, rfl⟩ := Prod.mk.inj (List.mem_singleton.1 hmesh)
      exact .inr ⟨vertices, rfl, by rw [List.append_assoc]; rfl, rfl⟩

/-- A visual whose file was read adds two nodes: the frame with its origin and the mesh in it. -/
theorem add_visual_mesh (model_scale : F) (parent : List String) {visual : Visual F}
    {vertices : List (Fin 3 → F)} (h : assets visual.mesh = .mesh vertices) :
    add_visual assets model_scale parent visual =
      [(parent ++ ["visual", visual.name], visual_frame model_scale visual),
        (parent ++ ["visual", visual.name, "mesh"],
          { plain_frame with content := .mesh (model_scale • visual.scale) vertices })] := by
  unfold add_visual
  rw [h]
  simp

/-- The calls for a chain add a frame for each link, under the names of the links before it, and the
visuals of that link. -/
theorem mem_add_links {model_scale : F} {parent : List String} {chain : List (Link F)}
    {call : List String × Node F} : call ∈ add_links assets model_scale parent chain ↔
      ∃ i link, chain[i]? = some link ∧
        (call = (parent ++ (chain.map Link.name).take (i + 1), plain_frame) ∨
          ∃ visual ∈ link.visuals, call ∈ add_visual assets model_scale
            (parent ++ (chain.map Link.name).take (i + 1)) visual) := by
  induction chain generalizing parent with
  | nil => simp [add_links]
  | cons link rest ih =>
    rw [add_links, List.cons_append, List.mem_cons, List.mem_append, List.mem_flatMap, ih]
    constructor
    · rintro (rfl | hvisual | ⟨i, link', hlink', hcall⟩)
      · exact ⟨0, link, rfl, .inl rfl⟩
      · exact ⟨0, link, rfl, .inr hvisual⟩
      · refine ⟨i + 1, link', hlink', ?_⟩
        rw [List.append_assoc] at hcall
        exact hcall
    · rintro ⟨i, link', hlink', hcall⟩
      cases i with
      | zero =>
        obtain rfl := Option.some.inj hlink'
        exact hcall.imp_right .inl
      | succ i =>
        refine .inr (.inr ⟨i, link', hlink', ?_⟩)
        rw [List.append_assoc]
        exact hcall

/-- The gripper is added as a visual under the flange, if the chain has one; a model whose file is
missing gets none. -/
theorem add_gripper_eq {calls : List (List String × Node F)}
    (h : add_gripper assets model = .ok calls) :
    calls = match model.flange_index.bind (model.frames[·]?) with
      | none => []
      | some parent => add_visual assets model.model_scale parent grav_gripper := by
  unfold add_gripper at h
  -- a missing file adds nothing, a damaged one raises, and a mesh is scaled to the model
  cases hasset : assets GRAV_GRIPPER_STL with
  | absent =>
    rw [hasset] at h
    obtain rfl := Except.ok.inj h
    split
    · rfl
    · unfold add_visual
      rw [show assets (grav_gripper : Visual F).mesh = .absent from hasset]
  | damaged =>
    rw [hasset] at h
    cases hparent : model.flange_index.bind (model.frames[·]?) with
    | none =>
      rw [hparent] at h
      exact (Except.ok.inj h).symm
    | some parent =>
      rw [hparent] at h
      cases h
  | mesh vertices =>
    rw [hasset] at h
    cases hparent : model.flange_index.bind (model.frames[·]?) with
    | none =>
      rw [hparent] at h
      exact (Except.ok.inj h).symm
    | some parent =>
      rw [hparent] at h
      obtain rfl := Except.ok.inj h
      have hscale : model.model_scale • (grav_gripper : Visual F).scale =
          fun _ => lit (1 / 1000) * model.model_scale := by
        funext k
        exact mul_comm _ _
      show _ = add_visual assets model.model_scale parent grav_gripper
      rw [add_visual_mesh _ _ hasset, hscale]
      simp [grav_gripper]

namespace RobotModel

/-- The calls of `__init__` after the root's: a frame for each link, the link's own visuals, and the
gripper among those of the flange. -/
theorem mem_calls {gripper : List (List String × Node F)}
    (hgripper : gripper_calls assets model = .ok gripper) {call : List String × Node F} :
    call ∈ add_links assets model.model_scale model.root model.chain ++ gripper ↔
      ∃ i link, model.chain[i]? = some link ∧ (call = (model.path i, plain_frame) ∨
        ∃ visual ∈ model.attached i link,
          call ∈ add_visual assets model.model_scale (model.path i) visual) := by
  -- the gripper hangs on the frame of the flange, where it is one more visual
  have hon_flange : call ∈ gripper ↔ ∃ i link, model.chain[i]? = some link ∧
      (model.follower_gripper && model.flange_index == some i) = true ∧
      call ∈ add_visual assets model.model_scale (model.path i) grav_gripper := by
    unfold gripper_calls at hgripper
    cases hfollower : model.follower_gripper with
    | false =>
      rw [hfollower] at hgripper
      obtain rfl := Except.ok.inj hgripper
      simp
    | true =>
      rw [hfollower] at hgripper
      rw [add_gripper_eq hgripper]
      cases hflange : model.flange_index with
      | none => simp
      | some i =>
        have hi : i < model.chain.length := (List.findIdx?_eq_some_iff_getElem.1 hflange).1
        rw [Option.bind_some, model.frames_getElem?, List.getElem?_eq_getElem hi]
        constructor
        · intro hcall
          exact ⟨i, model.chain[i], List.getElem?_eq_getElem hi, by simp, hcall⟩
        · rintro ⟨j, _, _, hj, hcall⟩
          obtain rfl : i = j := by simpa using hj
          exact hcall
  rw [List.mem_append, mem_add_links, hon_flange]
  constructor
  · rintro (⟨i, link, hlink, rfl | ⟨visual, hvisual, hcall⟩⟩ | ⟨i, link, hlink, hflange, hcall⟩)
    · exact ⟨i, link, hlink, .inl rfl⟩
    · exact ⟨i, link, hlink, .inr ⟨visual, List.mem_append_left _ hvisual, hcall⟩⟩
    · refine ⟨i, link, hlink, .inr ⟨grav_gripper, ?_, hcall⟩⟩
      rw [attached, if_pos hflange]
      exact List.mem_append_right _ List.mem_cons_self
  · rintro ⟨i, link, hlink, rfl | ⟨visual, hvisual, hcall⟩⟩
    · exact .inl ⟨i, link, hlink, .inl rfl⟩
    · rcases List.mem_append.1 hvisual with hown | hgrip
      · exact .inl ⟨i, link, hlink, .inr ⟨visual, hown, hcall⟩⟩
      · split at hgrip
        · rename_i hflange
          obtain rfl := List.mem_singleton.1 hgrip
          exact .inr ⟨i, link, hlink, hflange, hcall⟩
        · exact absurd hgrip List.not_mem_nil

/-- No two calls at one path disagree, so the order in which the nodes are added does not matter:
the names below one frame differ. -/
theorem calls_agree (hnamed : model.WellNamed) {gripper : List (List String × Node F)}
    (hgripper : gripper_calls assets model = .ok gripper) {p : List String} {node node' : Node F}
    (h : (p, node) ∈ add_links assets model.model_scale model.root model.chain ++ gripper)
    (h' : (p, node') ∈ add_links assets model.model_scale model.root model.chain ++ gripper) :
    node' = node := by
  obtain ⟨i, link, hlink, hcall⟩ := (mem_calls hgripper).1 h
  obtain ⟨j, link', hlink', hcall'⟩ := (mem_calls hgripper).1 h'
  -- a node of a visual has the path of its link and what comes after `visual`
  have hunder : ∀ {visual visual' : Visual F} {a b : List String},
      visual ∈ model.attached i link → visual' ∈ model.attached j link' →
      model.path i ++ "visual" :: visual.name :: a = model.path j ++ "visual" :: visual'.name :: b →
      visual = visual' ∧ a = b := by
    intro visual visual' a b hvisual hvisual' hpath
    obtain ⟨hlinks, hrest⟩ := path_visual_inj hnamed.links hpath
    obtain rfl := path_inj (List.getElem?_eq_some_iff.1 hlink).1
      (List.getElem?_eq_some_iff.1 hlink').1 hlinks
    obtain rfl := Option.some.inj (hlink.symm.trans hlink')
    obtain ⟨hname, hab⟩ := List.cons.inj hrest
    exact ⟨List.inj_on_of_nodup_map (hnamed.visuals i link hlink) hvisual hvisual' hname, hab⟩
  rcases hcall with hframe | ⟨visual, hvisual, hcall⟩
  · obtain ⟨rfl, rfl⟩ := Prod.mk.inj hframe
    rcases hcall' with hframe' | ⟨visual', _, hcall'⟩
    · exact (Prod.mk.inj hframe').2
    · rcases mem_add_visual hcall' with ⟨hpath, _⟩ | ⟨_, _, hpath, _⟩
      · exact absurd hpath.symm (path_visual_ne hnamed.links _ _ _)
      · exact absurd hpath.symm (path_visual_ne hnamed.links _ _ _)
  · rcases hcall' with hframe' | ⟨visual', hvisual', hcall'⟩
    · obtain ⟨rfl, rfl⟩ := Prod.mk.inj hframe'
      rcases mem_add_visual hcall with ⟨hpath, _⟩ | ⟨_, _, hpath, _⟩
      · exact absurd hpath.symm (path_visual_ne hnamed.links _ _ _)
      · exact absurd hpath.symm (path_visual_ne hnamed.links _ _ _)
    · rcases mem_add_visual hcall with ⟨hp, hnode⟩ | ⟨vertices, hasset, hp, hnode⟩
      · rcases mem_add_visual hcall' with ⟨hp', hnode'⟩ | ⟨_, _, hp', _⟩
        · obtain ⟨rfl, _⟩ := hunder hvisual hvisual' (hp.symm.trans hp')
          rw [hnode, hnode']
        · exact absurd (hunder hvisual hvisual' (hp.symm.trans hp')).2 (List.cons_ne_nil _ _).symm
      · rcases mem_add_visual hcall' with ⟨hp', _⟩ | ⟨vertices', hasset', hp', hnode'⟩
        · exact absurd (hunder hvisual hvisual' (hp.symm.trans hp')).2 (List.cons_ne_nil _ _)
        · obtain ⟨rfl, _⟩ := hunder hvisual hvisual' (hp.symm.trans hp')
          obtain rfl := Asset.mesh.inj (hasset.symm.trans hasset')
          rw [hnode, hnode']

/-- The calls are all below the root, so building a model leaves every node beside it alone. -/
theorem root_prefix_call {gripper : List (List String × Node F)}
    (hgripper : gripper_calls assets model = .ok gripper) {call : List String × Node F}
    (h : call ∈ add_links assets model.model_scale model.root model.chain ++ gripper) :
    model.root <+: call.1 ∧ call.1 ≠ model.root := by
  obtain ⟨i, link, hlink, hcall⟩ := (mem_calls hgripper).1 h
  have hpath : ∀ a, model.root <+: model.path i ++ a ∧ model.path i ++ a ≠ model.root := by
    intro a
    refine ⟨(model.root_prefix_path i).trans (List.prefix_append _ _), fun heq => ?_⟩
    have hi := (List.getElem?_eq_some_iff.1 hlink).1
    have hlength := congrArg List.length heq
    simp only [path, names, List.length_append, List.length_take, List.length_map] at hlength
    omega
  rcases hcall with rfl | ⟨visual, _, hcall⟩
  · have hroot := hpath []
    rwa [List.append_nil] at hroot
  · rcases mem_add_visual hcall with ⟨hp, _⟩ | ⟨_, _, hp, _⟩
    · rw [hp]
      exact hpath _
    · rw [hp]
      exact hpath _

/-- A model that has been made is drawn with its joints at zero; and the rest of the scene is as
it was. -/
theorem drawn_create (hnamed : model.WellNamed) {visible : Bool} {nodes nodes' : Nodes F}
    (hcreate : model.create assets visible nodes = .ok nodes')
    (habove : ∀ p, p <+: model.root → p ≠ model.root → nodes p = none)
    (hbelow : ∀ p, model.root <+: p → nodes p = none) :
    Drawn assets model (List.replicate 7 0) visible nodes' ∧
      ∀ p, ¬ model.root <+: p → nodes' p = nodes p := by
  obtain ⟨gripper, hgripper, hnodes⟩ := Results.bind_ok.1 hcreate
  obtain rfl := Except.ok.inj hnodes
  set calls := add_links assets model.model_scale model.root model.chain ++ gripper with hcalls
  rw [put_cons]
  set started := Function.update nodes model.root (some (model.root_node visible)) with hstarted
  have hroot : put started calls model.root = some (model.root_node visible) := by
    rw [put_of_not_mem fun call hcall => (root_prefix_call hgripper hcall).2, hstarted,
      Function.update_self]
  have hother : ∀ p, ¬ model.root <+: p → put started calls p = nodes p := by
    intro p hp
    have hne : p ≠ model.root := by
      rintro rfl
      exact hp List.prefix_rfl
    rw [put_of_not_mem, hstarted, Function.update_of_ne hne]
    rintro call hcall rfl
    exact hp (root_prefix_call hgripper hcall).1
  have hput : ∀ {p node}, (p, node) ∈ calls → put started calls p = some node :=
    fun hmem => put_of_mem hmem fun _ hmem' => calls_agree hnamed hgripper hmem hmem'
  refine ⟨?_, fun p hp => ?_⟩
  · constructor
    · intro p hp hne
      have hnot : ¬ model.root <+: p := fun hroot => hne (hp.eq_of_length_le hroot.length_le)
      rw [update_of_not_mem _ _ fun hmem => hnot (of_mem_frames hmem).1, hother p hnot,
        habove p hp hne]
    · rw [update_of_not_mem _ _ fun hmem => (of_mem_frames hmem).2 rfl, hroot]
    · -- `update` gives the frames the poses that they are added without
      intro i link hlink
      rw [update_frame _ _ hlink, hput ((mem_calls hgripper).2 ⟨i, link, hlink, .inl rfl⟩)]
      rfl
    · intro i
      rw [update_of_not_mem _ _ (path_visual_not_mem hnamed.links i []),
        put_of_not_mem, hstarted, Function.update_of_ne (path_under_ne_root i _ _),
        hbelow _ ((model.root_prefix_path i).trans (List.prefix_append _ _))]
      intro call hcall hpath
      obtain ⟨j, link, hlink, rfl | ⟨visual, hvisual, hcall⟩⟩ := (mem_calls hgripper).1 hcall
      · exact path_visual_ne hnamed.links i j [] hpath.symm
      · rcases mem_add_visual hcall with ⟨hp, _⟩ | ⟨_, _, hp, _⟩
        · exact List.cons_ne_nil _ _
            (path_visual_inj hnamed.links (hp.symm.trans hpath)).2
        · exact List.cons_ne_nil _ _
            (path_visual_inj hnamed.links (hp.symm.trans hpath)).2
    · intro i link hlink visual hvisual vertices hasset
      have hcalls := add_visual_mesh model.model_scale (model.path i) hasset
      have hmem : ∀ call ∈ add_visual assets model.model_scale (model.path i) visual,
          call ∈ calls := fun call hcall =>
        (mem_calls hgripper).2 ⟨i, link, hlink, .inr ⟨visual, hvisual, hcall⟩⟩
      rw [hcalls] at hmem
      rw [update_of_not_mem _ _ (path_visual_not_mem hnamed.links i _),
        update_of_not_mem _ _ (path_visual_not_mem hnamed.links i _)]
      exact ⟨hput (hmem _ List.mem_cons_self),
        hput (hmem _ (List.mem_cons_of_mem _ List.mem_cons_self))⟩
  · rw [update_of_not_mem _ _ fun hmem => hp (of_mem_frames hmem).1, hother p hp]

end RobotModel

end Nodes

/-! ## What is seen -/

section Seen

variable {F : Type}

/-- A node is seen if none on the way to it is hidden. -/
def shown (nodes : Nodes F) (p : List String) : Prop :=
  ∀ a ∈ nested [] p, ∀ node, nodes a = some node → node.visible = true

/-- The matrix of a mount's pose. -/
def Mount.pose (mount : Mount F) : Rigid F := ⟨mount.translation, mount.rot⟩

end Seen

section Real

variable {assets : String → Asset ℝ} {model : RobotModel ℝ}

noncomputable def Node.pose (node : Node ℝ) : Rigid ℝ :=
  ⟨node.position, rot node.wxyz.quaternion⟩

/-- The pose of a node in the world: a path that has no node adds nothing. -/
noncomputable def placed (nodes : Nodes ℝ) (p : List String) : Rigid ℝ :=
  along (fun a => (nodes a).elim 1 Node.pose) [] p

/-- Where the vertices of the mesh at a path are. -/
noncomputable def drawn_vertices (nodes : Nodes ℝ) (p : List String) : List (Fin 3 → ℝ) :=
  match (nodes p).map Node.content with
  | some (.mesh scale vertices) => vertices.map fun v => (placed nodes p).act (scale * v)
  | _ => []

/-- The quaternion that a link is drawn with is the rotation of its origin followed by that of its
joint. -/
theorem rot_pose_quat (q : List ℝ) (i : ℕ) (link : Link ℝ) :
    rot (pose_quat q i link).quaternion = (jointed q i link).rotation := by
  unfold pose_quat jointed
  cases joint_angle q i with
  | some angle =>
    show rot (quat_mul _ _).quaternion = _
    rw [rot_quat_mul, rot_quat_from_rpy, rot_quat_from_axis_angle]
    rfl
  | none => exact rot_quat_from_rpy _ _ _

/-- A joint turns a link in place: the translation is that of the origin. -/
theorem jointed_translation (q : List ℝ) (i : ℕ) (link : Link ℝ) :
    (jointed q i link).translation = link.xyz := by
  unfold jointed
  cases joint_angle q i with
  | some angle => simp [Link.origin, origin]
  | none => rfl

/-- A link's node carries the link's own motion, with the translation enlarged by the model's scale.
-/
theorem pose_frame_node (q : List ℝ) (i : ℕ) (link : Link ℝ) :
    (model.frame_node q i link).pose = Rigid.scaled model.model_scale (jointed q i link) := by
  ext1
  · exact congrArg (model.model_scale • ·) (jointed_translation q i link).symm
  · exact rot_pose_quat q i link

/-- A visual's node carries the visual's origin, enlarged the same way. -/
theorem pose_visual_frame (s : ℝ) (visual : Visual ℝ) :
    (visual_frame s visual).pose = Rigid.scaled s visual.origin := by
  ext1
  · rfl
  · exact rot_quat_from_rpy _ _ _

/-- A mesh lies in its visual's frame without a motion of its own, its vertices being enlarged
instead. -/
theorem pose_mesh_node (visual : Visual ℝ) (vertices : List (Fin 3 → ℝ)) :
    (model.mesh_node visual vertices).pose = 1 := by
  ext1
  · rfl
  · exact rot_one

/-- The two forms of every mount there is agree: its quaternion, which the scene is given, and its
matrix, which the kinematics multiplies. -/
theorem rot_of_mount {side : String} {m : Mount ℝ}
    (h : MOUNTS.lookup side = some m ∨ factr_mount side = some m) :
    rot m.quat_xyzw.quaternion = m.rot := by
  rcases h with h | h
  · obtain ⟨before, after, hlist, _⟩ := List.lookup_eq_some_iff.1 h
    have hmem : (side, m) ∈ MOUNTS := by
      rw [hlist]
      exact List.mem_append_right before List.mem_cons_self
    rw [MOUNTS, List.mem_cons, List.mem_singleton] at hmem
    rcases hmem with heq | heq
    · rw [(Prod.mk.inj heq).2]
      exact rot_mount _ _
    · rw [(Prod.mk.inj heq).2]
      exact rot_mount _ _
  · exact rot_factr_mount h

namespace Drawn

variable {q : List ℝ} {visible : Bool} {nodes : Nodes ℝ} (h : Drawn assets model q visible nodes)
include h

/-- The frames of the links multiply to the chain's own kinematics, with every translation enlarged
by the scale: the scene's tree is the chain. -/
theorem placed_path (hroot : model.root ≠ []) (hmount : rot model.mount.quat_xyzw.quaternion =
    model.mount.rot) (i : ℕ) : placed nodes (model.path i) =
      model.mount.pose * Rigid.scaled model.model_scale (configured q model.chain i) := by
  have habove : placed nodes model.root = model.mount.pose := by
    unfold placed
    rw [along_eq_last hroot fun p hp hne => by rw [h.above p hp hne]; rfl, h.root]
    ext1
    · rfl
    · exact hmount
  have hframes : (nested model.root (model.names.take (i + 1))).map
      (fun a => (nodes a).elim 1 Node.pose) = ((model.chain.mapIdx (jointed q)).take (i + 1)).map
        (Rigid.scaled model.model_scale) := by
    apply List.ext_getElem?
    intro k
    rw [List.getElem?_map, List.getElem?_map, nested_getElem?, List.getElem?_take,
      List.getElem?_take]
    split
    · rename_i hk
      rw [List.getElem?_mapIdx, RobotModel.names, List.getElem?_map, Option.map_map, Option.map_map,
        Option.map_map]
      cases hlink : model.chain[k]? with
      | none => rfl
      | some link =>
        have hpath : model.root ++ ((model.chain.map Link.name).take (i + 1)).take (k + 1) =
            model.path k := by
          rw [List.take_take, Nat.min_eq_left (by omega)]
          rfl
        simp only [Option.map_some, Function.comp]
        rw [hpath, h.frames k link hlink]
        exact congrArg some (pose_frame_node q k link)
    · rfl
  have hsplit : placed nodes (model.path i) = placed nodes model.root *
      along (fun a => (nodes a).elim 1 Node.pose) model.root (model.names.take (i + 1)) :=
    along_append _ [] _ _
  rw [hsplit, habove, along_nested, hframes, List.prod_hom]
  rfl

/-- A vertex is where the kinematics has it, and away from the mount by the scale. -/
theorem drawn_vertices_eq (hroot : model.root ≠ []) (hmount :
    rot model.mount.quat_xyzw.quaternion = model.mount.rot) {i : ℕ} {link : Link ℝ}
    (hlink : model.chain[i]? = some link) {visual : Visual ℝ}
    (hvisual : visual ∈ model.attached i link) {vertices : List (Fin 3 → ℝ)}
    (hasset : assets visual.mesh = .mesh vertices) :
    drawn_vertices nodes (model.path i ++ ["visual", visual.name, "mesh"]) =
      vertices.map fun v => model.mount.translation + model.model_scale • (model.mount.rot *ᵥ
        (configured q model.chain i * visual.origin).act (visual.scale * v)) := by
  obtain ⟨hframe, hmesh⟩ := h.visuals i link hlink visual hvisual vertices hasset
  have hplaced : placed nodes (model.path i ++ ["visual", visual.name, "mesh"]) =
      model.mount.pose *
        Rigid.scaled model.model_scale (configured q model.chain i * visual.origin) := by
    have hsplit : placed nodes (model.path i ++ ["visual", visual.name, "mesh"]) =
        placed nodes (model.path i) * along (fun a => (nodes a).elim 1 Node.pose) (model.path i)
          ["visual", visual.name, "mesh"] := along_append _ [] _ _
    rw [hsplit, h.placed_path hroot hmount, map_mul, ← mul_assoc]
    simp only [along, List.append_assoc, List.cons_append, List.nil_append]
    rw [h.between i, hframe, hmesh]
    simp [pose_visual_frame, pose_mesh_node]
  unfold drawn_vertices
  rw [hmesh]
  show vertices.map _ = _
  refine List.map_congr_left fun v _ => ?_
  have hscale : model.model_scale • visual.scale * v =
      model.model_scale • (visual.scale * v) := smul_mul_assoc _ _ _
  rw [hplaced, hscale, Rigid.act_mul, Rigid.scaled_act]
  show _ + model.mount.rot *ᵥ _ = _
  rw [Matrix.mulVec_smul]
  rfl

/-- The nodes on the way to a mesh are the root, the frames of the links before it, its visual's
frame and itself. -/
theorem on_the_way (i : ℕ) (name : String) {a : List String}
    (ha : a ∈ nested [] (model.path i ++ ["visual", name, "mesh"])) :
    nodes a = none ∨ a = model.root ∨ (∃ k link, model.chain[k]? = some link ∧ a = model.path k) ∨
      a = model.path i ++ ["visual", name] ∨ a = model.path i ++ ["visual", name, "mesh"] := by
  rw [RobotModel.path, List.append_assoc, nested_append, nested_append, List.mem_append,
    List.mem_append] at ha
  rcases ha with hroot | hlinks | hvisual
  · obtain ⟨k, _, rfl⟩ := mem_nested.1 hroot
    by_cases hwhole : [] ++ model.root.take (k + 1) = model.root
    · exact .inr (.inl hwhole)
    · exact .inl (h.above _ (List.take_prefix _ _) hwhole)
  · obtain ⟨k, hk, rfl⟩ := mem_nested.1 hlinks
    rw [List.length_take, RobotModel.names, List.length_map] at hk
    have hlen : k < model.chain.length := by omega
    refine .inr (.inr (.inl ⟨k, model.chain[k], List.getElem?_eq_getElem hlen, ?_⟩))
    rw [List.take_take, Nat.min_eq_left (by omega)]
    rfl
  · simp only [nested, List.mem_cons, List.not_mem_nil, or_false, List.append_assoc,
      List.cons_append, List.nil_append] at hvisual
    rcases hvisual with rfl | rfl | rfl
    · left
      rw [← List.append_assoc]
      exact h.between i
    · refine .inr (.inr (.inr (.inl ?_)))
      rw [RobotModel.path, List.append_assoc]
    · refine .inr (.inr (.inr (.inr ?_)))
      rw [RobotModel.path, List.append_assoc]

/-- A mesh is seen when its model is: no node on the way down to it but the root is ever hidden. -/
theorem shown_iff {i : ℕ} {link : Link ℝ} (hlink : model.chain[i]? = some link)
    {visual : Visual ℝ} (hvisual : visual ∈ model.attached i link)
    {vertices : List (Fin 3 → ℝ)} (hasset : assets visual.mesh = .mesh vertices)
    (hroot : model.root ≠ []) :
    shown nodes (model.path i ++ ["visual", visual.name, "mesh"]) ↔ visible = true := by
  obtain ⟨hframe, hmesh⟩ := h.visuals i link hlink visual hvisual vertices hasset
  constructor
  · intro hshown
    refine hshown model.root ?_ _ h.root
    refine mem_nested.2 ⟨model.root.length - 1, ?_, ?_⟩
    · rw [RobotModel.path, List.length_append, List.length_append]
      have hpos := List.length_pos_of_ne_nil hroot
      omega
    · rw [Nat.sub_add_cancel (List.length_pos_of_ne_nil hroot), RobotModel.path, List.append_assoc,
        List.take_left, List.nil_append]
  · intro hvisible a ha node hnode
    rcases h.on_the_way i visual.name ha with hnone | rfl | ⟨k, link', hlink', rfl⟩ | rfl | rfl
    · rw [hnone] at hnode
      cases hnode
    · rw [h.root] at hnode
      obtain rfl := Option.some.inj hnode
      exact hvisible
    · rw [h.frames k link' hlink'] at hnode
      obtain rfl := Option.some.inj hnode
      rfl
    · rw [hframe] at hnode
      obtain rfl := Option.some.inj hnode
      rfl
    · rw [hmesh] at hnode
      obtain rfl := Option.some.inj hnode
      rfl

/-- The last frame is at the end that `fk_world_eef` computes, away from the mount by the scale. -/
theorem placed_end (hroot : model.root ≠ []) {side : String}
    (hside : MOUNTS.lookup side = some model.mount) {n : ℕ} (hn : model.chain.length = n + 1) :
    ∃ eef, fk_world_eef side q model.chain = .ok eef ∧
      (placed nodes (model.path n)).translation =
        model.mount.translation + model.model_scale • (eef - model.mount.translation) := by
  have hcounts : CountsJoints q 0 0 := (Nat.zero_min _).symm
  have hall : configured q model.chain n = (model.chain.mapIdx (jointed q)).prod := by
    rw [configured, List.take_of_length_le (by rw [List.length_mapIdx, hn])]
  have hfk := fk_from_eq q hcounts model.mount.pose model.chain
  simp only [Nat.zero_add] at hfk
  refine ⟨_, by rw [fk_world_eef, hside], ?_⟩
  rw [h.placed_path hroot (rot_of_mount (.inl hside)), hall]
  show _ = model.mount.translation + model.model_scale •
    (fk_from q 0 0 model.mount.pose.translation model.mount.pose.rotation model.chain - _)
  rw [hfk, Rigid.mul_translation, Rigid.mul_translation, Rigid.scaled_translation,
    Matrix.mulVec_smul]
  show _ = _ + model.model_scale • (model.mount.translation + _ - model.mount.translation)
  rw [add_sub_cancel_left]
  rfl

end Drawn

/-- The quaternion of a link is a unit one, so its rotation is one. -/
theorem normSq_pose_quat (q : List ℝ) (i : ℕ) (link : Link ℝ) :
    normSq (pose_quat q i link).quaternion = 1 := by
  have hrpy : ∀ r p y : ℝ, normSq (quat_from_rpy r p y).quaternion = 1 := by
    intro r p y
    rw [quaternion_from_rpy]
    exact normSq_euler_turns r p y
  unfold pose_quat
  cases joint_angle q i with
  | some angle =>
    show normSq (quat_mul _ _).quaternion = 1
    rw [quaternion_mul, map_mul, hrpy, normSq_from_axis_angle, one_mul]
  | none => exact hrpy _ _ _

/-- Whatever has been done to a model, in exact arithmetic every mesh of it is the one of the robot
at the last angles that its joints were set to, as large as the model's scale has it, and is seen
if the model was shown last; the frame of the last link is at the end that the kinematics
computes. -/
theorem robot_drawn_enlarged {side : String} (hmount : MOUNTS.lookup side = some model.mount ∨
    factr_mount side = some model.mount) (hroot : model.root ≠ []) (hnamed : model.WellNamed)
    {visible : Bool} {nodes nodes' : Nodes ℝ}
    (hclear : ∀ p, p <+: model.root ∨ model.root <+: p → nodes p = none)
    (hcreate : model.create assets visible nodes = .ok nodes') (changes : List (Change ℝ)) :
    let scene := changes.foldl model.change nodes'
    let q := (changes.filterMap Change.angles).getLastD (List.replicate 7 0)
    let visible' := (changes.filterMap Change.shows).getLastD visible
    (∀ i link, model.chain[i]? = some link → ∀ visual ∈ model.attached i link,
      ∀ vertices, assets visual.mesh = .mesh vertices →
        drawn_vertices scene (model.path i ++ ["visual", visual.name, "mesh"]) =
          (vertices.map fun v => model.mount.translation + model.model_scale •
            (model.mount.rot *ᵥ
              (configured q model.chain i * visual.origin).act (visual.scale * v))) ∧
        (shown scene (model.path i ++ ["visual", visual.name, "mesh"]) ↔ visible' = true)) ∧
    (∀ i link, model.chain[i]? = some link → ∃ node, scene (model.path i) = some node ∧
      normSq node.wxyz.quaternion = 1) ∧
    (∀ n, model.chain.length = n + 1 → MOUNTS.lookup side = some model.mount →
      ∃ eef, fk_world_eef side q model.chain = .ok eef ∧
        (placed scene (model.path n)).translation =
          model.mount.translation + model.model_scale • (eef - model.mount.translation)) := by
  intro scene q visible'
  have hstart := (RobotModel.drawn_create hnamed hcreate (fun p hp _ => hclear p (.inl hp))
    fun p hp => hclear p (.inr hp)).1
  have hdrawn : Drawn assets model q visible' scene := hstart.changes hnamed.links changes
  refine ⟨fun i link hlink visual hvisual vertices hasset => ⟨?_, ?_⟩, fun i link hlink => ?_,
    fun n hn hside => hdrawn.placed_end hroot hside hn⟩
  · exact hdrawn.drawn_vertices_eq hroot (rot_of_mount hmount) hlink hvisual hasset
  · exact hdrawn.shown_iff hlink hvisual hasset hroot
  · exact ⟨_, hdrawn.frames i link hlink, normSq_pose_quat q i link⟩

/-- A file with a base and one joint. The first visual of the link has no mesh, and the second no
name. -/
def two_links_file : Urdf ℝ where
  joints := [⟨"base_link", "link1", ![0, 0, 1], (0, 0, 0), ![0, 0, 1]⟩]
  links := [("link1", [⟨some "cylinder", none, 0, (0, 0, 0), 1⟩,
    ⟨none, some "link1.stl", 0, (0, 0, 0), 1⟩])]
  resolve filename := filename

/-- Its chain on the left mount, twice as large. -/
noncomputable def two_links : RobotModel ℝ where
  root := ["robot", "left", "factr"]
  chain := ((parse_chain 2 two_links_file "base_link").map Chain.links).getD []
  mount := mount (-1) (-MOUNT_TILT_RAD)
  model_scale := 2
  follower_gripper := false

/-- The file of the example is well named, the visuals of its one link included. -/
theorem two_links_file_wellNamed : two_links_file.WellNamed where
  joints joint hjoint := by
    obtain rfl := List.mem_singleton.1 hjoint
    decide
  distinct link hlink := by
    obtain rfl := List.mem_singleton.1 hlink
    simp [VisualElement.given]
  reserved link hlink element helement name hname := by
    obtain rfl := List.mem_singleton.1 hlink
    obtain rfl : name = "cylinder" := by
      have hcases : element = ⟨some "cylinder", none, 0, (0, 0, 0), 1⟩ ∨
          element = ⟨none, some "link1.stl", 0, (0, 0, 0), 1⟩ := by simpa using helement
      rcases hcases with rfl | rfl
      · exact (Option.some.inj hname).symm
      · cases hname
    refine ⟨by decide, fun i h => ?_⟩
    have hhead := congrArg (fun s : String => s.toList.head?) h
    simp [toString] at hhead

/-- A turned joint, between hiding the model and showing it again: the general theorem at a model of
two links, with both kinds of changes in between. -/
theorem two_links_drawn : ∃ nodes',
    two_links.create (fun _ => .mesh [0]) true (fun _ => none) = .ok nodes' ∧
    let scene := [.set_visible false, .update [3], .set_visible true].foldl two_links.change nodes'
    drawn_vertices scene
      ["robot", "left", "factr", "base_link", "link1", "visual", "visual_1", "mesh"] =
        [two_links.mount.translation + (2 : ℝ) • (two_links.mount.rot *ᵥ
          (configured [3] two_links.chain 1 * (⟨"visual_1", "link1.stl", 0, (0, 0, 0), 1⟩ :
            Visual ℝ).origin).act (1 * 0))] ∧
    shown scene ["robot", "left", "factr", "base_link", "link1", "visual", "visual_1", "mesh"] := by
  obtain ⟨chain, hparse⟩ : ∃ chain, parse_chain 2 two_links_file "base_link" = some chain :=
    ⟨_, rfl⟩
  have hlinks : ∀ link ∈ two_links.chain, link.WellNamed := by
    rw [two_links, hparse]
    exact parse_chain_wellNamed two_links_file_wellNamed (by decide) hparse
  have hdrawn := @robot_drawn_enlarged (fun _ => .mesh [0]) two_links "left" (.inl rfl) (by decide)
    (RobotModel.wellNamed_of_links hlinks) true (fun _ => none) _ (fun _ _ => rfl) rfl
    [.set_visible false, .update [3], .set_visible true]
  obtain ⟨hvertices, hshown⟩ := hdrawn.1 1 _ rfl _ List.mem_cons_self [0] rfl
  exact ⟨_, rfl, hvertices, hshown.2 rfl⟩

end Real

end DualFlexivControl.Visualization
