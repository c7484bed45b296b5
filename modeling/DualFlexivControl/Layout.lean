/-
The canonical DFC state and action vectors: `layout.py`.

The state vector is one block per side and state signal, the action vector one block per
recorded side, its primary field followed by its gripper. Sides come in one order whatever the
rig's dict says. Names, widths and slices are all read off the list of parts, so a layout keeps
just that list; packing fills the blocks and `split` reads them back.

Scalars are a type for each dtype: `F` for the float64 values that are handed in, `F32` for the
float32 vectors that are packed, and `f32` converts.
-/
import Mathlib.Data.List.Sort
import DualFlexivControl.Control.Schema
import DualFlexivControl.Lib.Tiling

set_option autoImplicit false

namespace DualFlexivControl

open Results Tiling Control

/-- One arm, as far as the layout and the collection read it. -/
structure ArmCfg where
  dof : ℕ
  streams : List (String × ℕ)
  control : ControlCfg
  deriving DecidableEq, Repr

/-- A dict from side to arm, in insertion order. -/
structure Arms where
  entries : List (String × ArmCfg)
  nodup : (entries.map Prod.fst).Nodup

/-- What building a layout or packing a vector raises. -/
inductive LayoutError
  | unknown_action_sides (sides : List String)
  | unknown_state_signal (signal side : String)
  | schema (error : SchemaError)
  | no_side (side : String)
  | no_block (side signal : String)
  | state_block_size (side signal : String) (size expected : ℕ)
  | action_block_size (side : String) (size expected : ℕ)
  | action_shape (size expected : ℕ)
  deriving DecidableEq, Repr

namespace Arms

variable (arms : Arms)

def sides : List String := arms.entries.map Prod.fst

/-- `arms[side]` -/
def get_arm (side : String) : Except LayoutError ArmCfg :=
  match arms.entries.lookup side with
  | some arm => .ok arm
  | none => .error (.no_side side)

end Arms

/-! ## The order of the sides -/

/-- `order.get(side, 99)` -/
def side_order (side : String) : ℕ :=
  if side = "left" then 0 else if side = "right" then 1 else 99

/-- The sort key `(order.get(side, 99), side)`. -/
def side_le (a b : String) : Prop :=
  side_order a < side_order b ∨ (side_order a = side_order b ∧ a ≤ b)

instance : DecidableRel side_le := fun _ _ => inferInstanceAs (Decidable (_ ∨ _))

/-- `sorted_sides`: left, right, then any additional names. -/
def sorted_sides (arms : Arms) : List String := arms.sides.insertionSort side_le

theorem mem_sorted_sides {arms : Arms} {side : String} :
    side ∈ sorted_sides arms ↔ side ∈ arms.sides := List.mem_insertionSort side_le

theorem nodup_sorted_sides (arms : Arms) : (sorted_sides arms).Nodup :=
  (List.perm_insertionSort side_le arms.sides).nodup_iff.2 arms.nodup

/-! ## The layout -/

/-- One side's part of the action vector: `dim` values of its primary field, then the gripper. -/
structure ActionPart where
  side : String
  field : String
  dim : ℕ
  deriving DecidableEq, Repr

/-- `DFCStateActionLayout`: the parts of both vectors, in order; a side has one action part. -/
structure DFCStateActionLayout where
  state_signals : List String
  state_sides : List String
  state_parts : List ((String × String) × ℕ)
  action_parts : List ActionPart
  nodup : (action_parts.map ActionPart.side).Nodup

/-- The state part of one side and signal. -/
def state_part (arms : Arms) (key : String × String) :
    Except LayoutError ((String × String) × ℕ) := do
  let arm ← arms.get_arm key.1
  match arm.streams.lookup key.2 with
  | some dim => pure (key, dim)
  | none => .error (.unknown_state_signal key.2 key.1)

/-- The action part of one side: the primary field of its control kind. -/
def action_part (arms : Arms) (side : String) : Except LayoutError ActionPart := do
  let arm ← arms.get_arm side
  let field ← arm.control.action_field.mapError .schema
  let dim ← arm.control.action_dim.mapError .schema
  pure ⟨side, field, dim⟩

theorem action_part_side {arms : Arms} {side : String} {part : ActionPart}
    (h : action_part arms side = .ok part) : part.side = side := by
  unfold action_part at h
  obtain ⟨_, _, h⟩ := bind_ok.1 h
  obtain ⟨_, _, h⟩ := bind_ok.1 h
  obtain ⟨_, _, h⟩ := bind_ok.1 h
  rw [← pure_ok.1 h]

/-- The parts are those of the sides, in order, since a side without a part is an error and not left
out. -/
theorem action_parts_sides {arms : Arms} {sides : List String} :
    ∀ {parts : List ActionPart}, collect (action_part arms) sides = .ok parts →
      parts.map ActionPart.side = sides := by
  induction sides with
  | nil =>
    intro parts h
    rw [← Except.ok.inj h]
    rfl
  | cons side rest ih =>
    intro parts h
    obtain ⟨part, tail, hpart, htail, rfl⟩ := collect_cons.1 h
    rw [List.map_cons, action_part_side hpart, ih htail]

/-- `DFCStateActionLayout.__init__` -/
def DFCStateActionLayout.from_arms (arms : Arms) (state_signals action_sides : List String) :
    Except LayoutError DFCStateActionLayout :=
  let unknown := action_sides.filter fun side => !arms.sides.contains side
  if unknown ≠ [] then .error (.unknown_action_sides unknown)
  else
    let state_sides := sorted_sides arms
    let keys := state_sides.flatMap fun side => state_signals.map fun signal => (side, signal)
    match collect (state_part arms) keys with
    | .error e => .error e
    | .ok state_parts =>
      let sides := state_sides.filter fun side => action_sides.contains side
      match h : collect (action_part arms) sides with
      | .error e => .error e
      | .ok action_parts =>
        .ok ⟨state_signals, state_sides, state_parts, action_parts, by
          rw [action_parts_sides h]
          exact (nodup_sorted_sides arms).filter _⟩

/-! ## What a built layout is made of -/

section Built

variable {arms : Arms}

/-- Every side of the rig has an arm, the one of the dict's entry under it. -/
theorem get_arm_of_mem {side : String} (h : side ∈ arms.sides) :
    ∃ arm, arms.get_arm side = .ok arm := by
  unfold Arms.get_arm
  cases hlookup : arms.entries.lookup side with
  | some arm => exact ⟨arm, rfl⟩
  | none =>
    obtain ⟨e, he, hside⟩ := List.mem_map.1 h
    have hne := List.lookup_eq_none_iff.1 hlookup e he
    rw [hside] at hne
    simp at hne

/-- The action part of a side is its controller's primary field, as wide as the controller's action,
and the side itself. -/
theorem action_part_ok {side : String} {part : ActionPart} :
    action_part arms side = .ok part ↔ ∃ arm, arms.get_arm side = .ok arm ∧
      arm.control.action_field = .ok part.field ∧ arm.control.action_dim = .ok part.dim ∧
      part.side = side := by
  unfold action_part
  simp only [bind_ok, mapError_ok, pure_ok]
  constructor
  · rintro ⟨arm, harm, field, hfield, dim, hdim, rfl⟩
    exact ⟨arm, harm, hfield, hdim, rfl⟩
  · rintro ⟨arm, harm, hfield, hdim, rfl⟩
    exact ⟨arm, harm, _, hfield, _, hdim, rfl⟩

/-- What a built layout is, part by part: the recorded sides are the rig's, the signals are kept,
and both vectors have a part for each of their keys. -/
theorem from_arms_iff {state_signals action_sides : List String} {layout : DFCStateActionLayout} :
    DFCStateActionLayout.from_arms arms state_signals action_sides = .ok layout ↔
      (∀ side ∈ action_sides, side ∈ arms.sides) ∧
      layout.state_signals = state_signals ∧ layout.state_sides = sorted_sides arms ∧
      collect (state_part arms) ((sorted_sides arms).flatMap fun side =>
        state_signals.map fun signal => (side, signal)) = .ok layout.state_parts ∧
      collect (action_part arms) ((sorted_sides arms).filter fun side =>
        action_sides.contains side) = .ok layout.action_parts := by
  -- unknown sides are refused first, then the parts are collected
  have hunknown : ¬ (action_sides.filter fun side => !arms.sides.contains side) ≠ [] ↔
      ∀ side ∈ action_sides, side ∈ arms.sides := by
    rw [not_not, List.filter_eq_nil_iff]
    simp
  unfold DFCStateActionLayout.from_arms
  dsimp only
  rw [guard_ok, hunknown]
  refine and_congr_right fun _ => ?_
  cases hstate : collect (state_part arms) ((sorted_sides arms).flatMap fun side =>
      state_signals.map fun signal => (side, signal)) with
  | error e => simp
  | ok state_parts =>
    dsimp only
    split
    · rename_i e haction
      constructor
      · intro h
        exact absurd h (by simp)
      · rintro ⟨-, -, -, hactions⟩
        exact absurd (haction.symm.trans hactions) (by simp)
    · rename_i action_parts haction
      constructor
      · intro h
        rw [← Except.ok.inj h]
        exact ⟨rfl, rfl, rfl, haction⟩
      · rintro ⟨hsignals, hsides, hparts, hactions⟩
        have hactions' := Except.ok.inj (haction.symm.trans hactions)
        have hparts' := Except.ok.inj hparts
        obtain ⟨signals, sides, parts, actions, nodup⟩ := layout
        dsimp only at hsignals hsides hparts' hactions'
        subst hsignals hsides hparts' hactions'
        rfl

theorem from_arms_ok {state_signals action_sides : List String} {layout : DFCStateActionLayout}
    (h : DFCStateActionLayout.from_arms arms state_signals action_sides = .ok layout) :
    (∀ side ∈ action_sides, side ∈ arms.sides) ∧
      collect (state_part arms) ((sorted_sides arms).flatMap fun side =>
        state_signals.map fun signal => (side, signal)) = .ok layout.state_parts ∧
      collect (action_part arms) ((sorted_sides arms).filter fun side =>
        action_sides.contains side) = .ok layout.action_parts := by
  obtain ⟨hdrawn, -, -, hstate, haction⟩ := from_arms_iff.1 h
  exact ⟨hdrawn, hstate, haction⟩

end Built

namespace DFCStateActionLayout

variable (layout : DFCStateActionLayout)

/-- The recorded sides, in vector order. -/
def sides : List String := layout.action_parts.map ActionPart.side

def state_dim : ℕ := extent layout.state_parts

/-- The action vector's blocks: each is a primary slice and the gripper index after it. -/
def action_blocks : List (Block ActionPart) :=
  place 0 (layout.action_parts.map fun part => (part, part.dim + 1))

def action_dim : ℕ := extent (layout.action_parts.map fun part => (part, part.dim + 1))

/-- `f"{side}.{signal}.{i}" for i in range(dim)`, over the state blocks. -/
def state_names : List String :=
  layout.state_parts.flatMap fun part =>
    (List.range part.2).map fun i => s!"{part.1.1}.{part.1.2}.{i}"

/-- A side's names: those of its primary field, then its gripper. -/
def part_names (part : ActionPart) : List String :=
  (List.range part.dim).map (fun i => s!"{part.side}.{part.field}.{i}") ++
    [s!"{part.side}.gripper"]

def action_names : List String := layout.action_parts.flatMap part_names

/-- `state_stream_names` -/
def state_stream_names : List String :=
  layout.state_parts.map fun part => s!"{part.1.1}/{part.1.2}"

/-- The part behind `_field[side]`, `_primary[side]` and `_gripper[side]`. -/
def part_of (side : String) : Option ActionPart :=
  layout.action_parts.find? fun part => part.side == side

/-- `field` -/
def field (side : String) : Option String := (layout.part_of side).map ActionPart.field

/-- `action_dof`: the width of a side's primary slice. -/
def action_dof (side : String) : Option ℕ := (layout.part_of side).map ActionPart.dim

/-- `_state` is a dict: of two blocks with one key the later one stays. -/
def last_per_key : List (Block (String × String)) → List (Block (String × String))
  | [] => []
  | b :: rest =>
    if (rest.map Block.label).contains b.label then last_per_key rest
    else b :: last_per_key rest

/-- `state_slice` -/
def state_slice (key : String × String) : Option (ℕ × ℕ) :=
  (block_at id (last_per_key (place 0 layout.state_parts)) key).map fun b => (b.start, b.stop)

/-- `primary_slice` -/
def primary_slice (side : String) : Option (ℕ × ℕ) :=
  (block_at ActionPart.side layout.action_blocks side).map fun b =>
    (b.start, b.start + b.label.dim)

/-- `gripper_index` -/
def gripper_index (side : String) : Option ℕ :=
  (block_at ActionPart.side layout.action_blocks side).map fun b => b.start + b.label.dim

section Pack

variable {F F32 : Type} [Zero F] (f32 : F → F32)

/-- The value of one state block. -/
def state_value (values : String × String → Option (List F)) (b : Block (String × String)) :
    Except LayoutError (List F32) :=
  match values b.label with
  | none => .error (.no_block b.label.1 b.label.2)
  | some value =>
    if value.length ≠ b.width then
      .error (.state_block_size b.label.1 b.label.2 value.length b.width)
    else .ok (value.map f32)

/-- `pack_state` -/
def pack_state (values : String × String → Option (List F)) : Except LayoutError (List F32) :=
  fill (state_value f32 values) (last_per_key (place 0 layout.state_parts))
    (List.replicate layout.state_dim (f32 0))

/-- What `pack_action` writes for one side: the primary slice, and the gripper index after it. -/
def action_value (primary : String → Option (List F)) (gripper : String → Option F)
    (b : Block ActionPart) : Except LayoutError (List F32) :=
  match primary b.label.side with
  | none => .error (.no_side b.label.side)
  | some value =>
    if value.length ≠ b.label.dim then
      .error (.action_block_size b.label.side value.length b.label.dim)
    else .ok (value.map f32 ++ [f32 ((gripper b.label.side).getD 0)])

/-- `pack_action` -/
def pack_action (primary : String → Option (List F)) (gripper : String → Option F) :
    Except LayoutError (List F32) :=
  fill (action_value f32 primary gripper) layout.action_blocks
    (List.replicate layout.action_dim (f32 0))

/-- One side of a split action. -/
structure SideAction (F : Type) where
  side : String
  field : String
  primary : List F
  gripper : F
  deriving DecidableEq, Repr

/-- One side's primary slice and gripper entry. -/
def split_block (action : List F) (b : Block ActionPart) : SideAction F :=
  ⟨b.label.side, b.label.field, (action.drop b.start).take b.label.dim,
    (action.drop (b.start + b.label.dim)).headD 0⟩

/-- `split` -/
def split (action : List F) : Except LayoutError (List (SideAction F)) :=
  if action.length ≠ layout.action_dim then
    .error (.action_shape action.length layout.action_dim)
  else .ok (layout.action_blocks.map (split_block action))

end Pack

/-! ## What a packed action holds -/

section Pack

variable {layout : DFCStateActionLayout} {F F32 : Type} [Zero F] {f32 : F → F32}
  {primary : String → Option (List F)} {gripper : String → Option F}

/-- An action block is as wide as its part says. -/
theorem width_action_block {b : Block ActionPart} (hb : b ∈ layout.action_blocks) :
    b.width = b.label.dim + 1 := by
  obtain ⟨part, _, heq⟩ := List.mem_map.1 (part_of_place hb)
  obtain ⟨hlabel, hwidth⟩ := Prod.mk.inj heq
  rw [← hwidth, ← hlabel]

/-- A side's part is the only one under its name. -/
theorem part_of_mem {part : ActionPart} (hpart : part ∈ layout.action_parts) :
    layout.part_of part.side = some part :=
  find_by_key layout.nodup hpart

theorem label_mem {b : Block ActionPart} (hb : b ∈ layout.action_blocks) :
    b.label ∈ layout.action_parts := by
  obtain ⟨part, hpart, heq⟩ := List.mem_map.1 (part_of_place hb)
  rw [← (Prod.mk.inj heq).1]
  exact hpart

theorem part_of_action_block {b : Block ActionPart} (hb : b ∈ layout.action_blocks) :
    layout.part_of b.label.side = some b.label := part_of_mem (label_mem hb)

theorem action_value_ok {b : Block ActionPart} {w : List F32} :
    action_value f32 primary gripper b = .ok w ↔
      ∃ value, primary b.label.side = some value ∧ value.length = b.label.dim ∧
        w = value.map f32 ++ [f32 ((gripper b.label.side).getD 0)] := by
  unfold action_value
  cases primary b.label.side with
  | none => simp
  | some value =>
    dsimp only
    rw [guard_ok, not_not]
    constructor
    · rintro ⟨hlen, hw⟩
      exact ⟨value, rfl, hlen, (Except.ok.inj hw).symm⟩
    · rintro ⟨value', hvalue, hlen, hw⟩
      rw [Option.some.inj hvalue, hw]
      exact ⟨hlen, rfl⟩

/-- An action is packed when every side has a value of its width. -/
theorem pack_action_ok_iff :
    (∃ action, layout.pack_action f32 primary gripper = .ok action) ↔
      ∀ b ∈ layout.action_blocks, ∃ value, primary b.label.side = some value ∧
        value.length = b.label.dim := by
  refine (fill_ok_iff _ _ _).trans (forall₂_congr fun b _ => ?_)
  constructor
  · rintro ⟨w, hw⟩
    obtain ⟨value, hvalue, hlen, -⟩ := action_value_ok.1 hw
    exact ⟨value, hvalue, hlen⟩
  · rintro ⟨value, hvalue, hlen⟩
    exact ⟨_, action_value_ok.2 ⟨value, hvalue, hlen, rfl⟩⟩

/-- A packed action has its width, and each side's block is that side's value followed by its
gripper. -/
theorem pack_action_spec {action : List F32}
    (h : layout.pack_action f32 primary gripper = .ok action) :
    action.length = layout.action_dim ∧ ∀ b ∈ layout.action_blocks,
      ∃ value, primary b.label.side = some value ∧ value.length = b.label.dim ∧
        slice b action = value.map f32 ++ [f32 ((gripper b.label.side).getD 0)] := by
  have hwidth : ∀ b ∈ layout.action_blocks, ∀ w,
      action_value f32 primary gripper b = .ok w → w.length = b.width := by
    intro b hb w hw
    obtain ⟨value, _, hlen, rfl⟩ := action_value_ok.1 hw
    rw [width_action_block hb, List.length_append, List.length_map, hlen]
    rfl
  obtain ⟨hlength, -, hslices⟩ := fill_spec hwidth
    (by rw [List.length_replicate, Nat.zero_add]; rfl) h
  refine ⟨hlength.trans (List.length_replicate ..), ?_⟩
  intro b hb
  exact action_value_ok.1 (hslices b hb)

end Pack

end DFCStateActionLayout

end DualFlexivControl
