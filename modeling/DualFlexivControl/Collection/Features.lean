/-
The recorded schema and the assembly of one frame: `collection/features.py`.

`FrameBuilder` derives the names and widths of every recorded vector from the rig, and packs
one frame from the observation of a tick and the targets of that tick. The observation maps a
stream to its newest sample; a stream with no sample, or none at all, blocks the frame.
-/
import DualFlexivControl.Layout

set_option autoImplicit false

namespace DualFlexivControl.Collection

open Results Tiling Control

/-! ## Streams and images -/

/-- `factr_stream_name` -/
def factr_stream_name (side : String) : String := s!"factr/{side}"

/-- `raw_factr_stream_name` -/
def raw_factr_stream_name (side : String) : String := s!"factr/raw/{side}"

structure CameraCfg where
  views : List String
  height : ℕ
  width : ℕ
  deriving DecidableEq, Repr

/-- `RGB_VIEWS` -/
def RGB_VIEWS : List String := ["left", "right", "color"]

/-- One entry of `_images`. -/
structure Image where
  key : String
  stream : String
  shape : List ℕ
  deriving DecidableEq, Repr

/-- The RGB views of one camera; depth is not exported. -/
def camera_images (camera : String × CameraCfg) : List Image :=
  let rgb := camera.2.views.filter RGB_VIEWS.contains
  rgb.map fun view =>
    let suffix := if rgb.length = 1 then "" else s!"_{view}"
    ⟨s!"observation.images.{camera.1}{suffix}", s!"cam/{camera.1}/{view}",
      [camera.2.height, camera.2.width, 3]⟩

/-! ## The frame builder -/

/-- `FrameBuilder` -/
structure FrameBuilder where
  arms : Arms
  instruction : String
  state_signals : List String
  video : Bool
  layout : DFCStateActionLayout
  images : List Image

/-- `FrameBuilder.__init__` -/
def FrameBuilder.init (arms : Arms) (teleop_sides : List String)
    (cameras : List (String × CameraCfg)) (instruction : String) (state_signals : List String)
    (video : Bool) : Except LayoutError FrameBuilder := do
  let layout ← DFCStateActionLayout.from_arms arms state_signals teleop_sides
  pure ⟨arms, instruction, state_signals, video, layout, cameras.flatMap camera_images⟩

/-- One entry of the `features` dict. -/
structure Feature where
  dtype : String
  shape : List ℕ
  names : List String
  deriving DecidableEq, Repr

/-- `feats[key] = feature` -/
def set_feature (feats : List (String × Feature)) (key : String) (feature : Feature) :
    List (String × Feature) :=
  if (feats.map Prod.fst).contains key then
    feats.map fun entry => if entry.1 = key then (key, feature) else entry
  else feats ++ [(key, feature)]

namespace FrameBuilder

variable (fb : FrameBuilder)

/-- `stream_names` -/
def stream_names : List String :=
  fb.layout.state_stream_names ++
    fb.layout.sides.flatMap (fun side => [factr_stream_name side, raw_factr_stream_name side]) ++
    fb.images.map Image.stream

/-- The two FACTR features of one side, `arms[side].dof + 1` wide each. -/
def factr_features (side : String) : Except LayoutError (List (String × Feature)) := do
  let arm ← fb.arms.get_arm side
  let dim := arm.dof + 1
  let names := (List.range (dim - 1)).map (fun j => s!"{side}.joint.{j}") ++ [s!"{side}.gripper"]
  pure [(s!"observation.factr.{side}", ⟨"float32", [dim], names⟩),
    (s!"observation.factr_raw.{side}", ⟨"float32", [dim], names⟩)]

/-- An image's feature. -/
def image_feature (image : Image) : String × Feature :=
  (image.key, ⟨if fb.video then "video" else "image", image.shape,
    ["height", "width", "channels"]⟩)

/-- The action's entry. -/
def action_feature : Feature := ⟨"float32", [fb.layout.action_dim], fb.layout.action_names⟩

/-- The state's entry. -/
def state_feature : Feature := ⟨"float32", [fb.layout.state_dim], fb.layout.state_names⟩

/-- `features` -/
def features : Except LayoutError (List (String × Feature)) := do
  let factr ← collect fb.factr_features fb.layout.sides
  pure ((factr.flatten ++ fb.images.map fb.image_feature).foldl
    (fun feats entry => set_feature feats entry.1 entry.2)
    [("observation.state", fb.state_feature), ("action", fb.action_feature)])

end FrameBuilder

/-! ## The targets of one tick -/

/-- A leader's sample: a stream's vectors are never empty. -/
structure Sample (F : Type) where
  values : List F
  nonempty : values ≠ []

/-- A sample's trailing value, the gripper's. -/
def Sample.trailing {F : Type} (raw : Sample F) : F := raw.values.getLast raw.nonempty

/-- A dict by side. -/
abbrev BySide (α : Type) := String → Option α

/-- The targets of a tick: `q_d` and `gripper`. -/
structure Targets (F : Type) where
  q_d : BySide (List F)
  gripper : BySide F

section Frames

variable {F F32 U8 : Type} [Zero F]

/-- `actions_from_leaders`: each recorded side with a sample gets `raw[:action_dof]`, and
`raw[-1] if raw.size else 0.0`. -/
def FrameBuilder.actions_from_leaders (fb : FrameBuilder) (leaders : BySide (Sample F)) :
    Targets F where
  q_d side := do
    let part ← fb.layout.part_of side
    let raw ← leaders side
    some (raw.values.take part.dim)
  gripper side := do
    let _ ← fb.layout.part_of side
    let raw ← leaders side
    some (raw.values.getLastD 0)

section Actions

variable {fb : FrameBuilder} {leaders : BySide (Sample F)} {side : String}

theorem trailing_eq (raw : Sample F) : raw.values.getLastD 0 = raw.trailing := by
  unfold Sample.trailing
  rw [List.getLastD_eq_getLast?, List.getLast?_eq_some_getLast raw.nonempty]
  rfl

/-- A recorded side's fresh targets: the q_d block of its sample and the trailing value. -/
theorem actions_of_part {part : ActionPart} (hpart : fb.layout.part_of side = some part) :
    (fb.actions_from_leaders leaders).q_d side =
        (leaders side).map (fun raw => raw.values.take part.dim) ∧
      (fb.actions_from_leaders leaders).gripper side =
        (leaders side).map Sample.trailing := by
  unfold FrameBuilder.actions_from_leaders
  dsimp only
  rw [hpart]
  cases leaders side with
  | none => exact ⟨rfl, rfl⟩
  | some raw => exact ⟨rfl, congrArg some (trailing_eq raw)⟩

/-- A side that is not recorded has no targets. -/
theorem actions_of_unrecorded (hpart : fb.layout.part_of side = none) :
    (fb.actions_from_leaders leaders).q_d side = none ∧
      (fb.actions_from_leaders leaders).gripper side = none := by
  unfold FrameBuilder.actions_from_leaders
  dsimp only
  rw [hpart]
  exact ⟨rfl, rfl⟩

end Actions

/-! ## The frame -/

/-- What `brain.observe()` has of a stream: the newest sample, if there is one. -/
abbrev Observation (F : Type) := String → Option (List F)

/-- One `add_frame` dict. -/
structure Frame (F32 U8 : Type) where
  state : List F32
  action : List F32
  task : String
  factr : List (String × List F32)
  factr_raw : List (String × List F32)
  images : List (String × List ℕ × List U8)
  deriving DecidableEq, Repr

/-- What assembling a frame raises. -/
inductive FrameError
  | layout (error : LayoutError)
  | image_shape (key : String) (size : ℕ) (shape : List ℕ)
  deriving DecidableEq, Repr

/-- The newest samples of the listed streams, if all have one. -/
def newest_of (observation : Observation F) : List String → Option (List (List F))
  | [] => some []
  | stream :: rest => do
    let newest ← observation stream
    let others ← newest_of observation rest
    some (newest :: others)

/-- `np.asarray(newest, dtype=np.uint8).reshape(shape)` -/
def reshape (u8 : F → U8) (image : Image) (newest : List F) :
    Except FrameError (String × List ℕ × List U8) :=
  if newest.length ≠ image.shape.prod then
    .error (.image_shape image.key newest.length image.shape)
  else .ok (image.key, image.shape, newest.map u8)

/-- The images of a frame, in order, up to the first stream with no sample. -/
def image_entries (u8 : F → U8) (observation : Observation F) :
    List Image → Except FrameError (Option (List (String × List ℕ × List U8)))
  | [] => .ok (some [])
  | image :: rest =>
    match observation image.stream with
    | none => .ok none
    | some newest => do
      let entry ← reshape u8 image newest
      let others ← image_entries u8 observation rest
      pure (others.map (entry :: ·))

/-- `build`: one frame, or `None` if a required sample is missing. -/
def FrameBuilder.build (fb : FrameBuilder) (f32 : F → F32) (u8 : F → U8)
    (observation : Observation F) (targets : Targets F) :
    Except FrameError (Option (Frame F32 U8)) :=
  match newest_of observation fb.layout.state_stream_names with
  | none => .ok none
  | some _ => do
    let state ← (fb.layout.pack_state f32 fun key =>
      observation s!"{key.1}/{key.2}").mapError .layout
    if fb.layout.sides.any fun side => (targets.q_d side).isNone then .ok none
    else
      let action ← (fb.layout.pack_action f32 targets.q_d targets.gripper).mapError .layout
      match newest_of observation (fb.layout.sides.map factr_stream_name),
          newest_of observation (fb.layout.sides.map raw_factr_stream_name) with
      | some factr, some factr_raw =>
        let images ← image_entries u8 observation fb.images
        pure (images.map fun images => ⟨state, action, fb.instruction,
          fb.layout.sides.zip (factr.map (·.map f32)),
          fb.layout.sides.zip (factr_raw.map (·.map f32)), images⟩)
      | _, _ => .ok none

end Frames

end DualFlexivControl.Collection
