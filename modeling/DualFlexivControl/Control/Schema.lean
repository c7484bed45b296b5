/-
The command schema of a control kind: which fields it commands, which of them travel on the
setpoint channel, and which one a policy or a leader fills.

Everything is read from `ControlCfg.command` (field to width) and `ControlCfg.streamed` (the
fields of a setpoint, in order). Scalars are of any type `F` with a zero.
-/
import Mathlib.Data.List.Basic
import DualFlexivControl.Lib.Results

set_option autoImplicit false

namespace DualFlexivControl.Control

open Results

/-- `ControlCfg.kind` -/
inductive Kind
  | qpos
  | qvel
  | end_effector
  | eef_vel
  | force
  | other (name : String)
  deriving DecidableEq, Repr

/-- The command schema of one arm's control. -/
structure ControlCfg where
  kind : Kind
  command : List (String × ℕ)
  streamed : List String
  deriving DecidableEq, Repr

/-- What the schema functions raise: a kind with no action mapping, an absolute field with no
measured value to hold, or a field that is not in a dict. -/
inductive SchemaError
  | no_action_mapping (kind : Kind)
  | no_held_value (kind : Kind) (field : String)
  | key_error (field : String)
  deriving DecidableEq, Repr

/-- `d[key]` -/
def get_item {α : Type} (field : String) (entry : Option α) : Except SchemaError α :=
  match entry with
  | some a => .ok a
  | none => .error (.key_error field)

/-- `_ACTION_PRIMARY` -/
def ACTION_PRIMARY : Kind → Option String
  | .qpos => some "q_d"
  | .qvel => some "dq_d"
  | .end_effector => some "pose_d"
  | .eef_vel => some "twist_d"
  | .force => some "wrench_d"
  | .other _ => none

/-- `_ABSOLUTE_FIELDS` -/
def ABSOLUTE_FIELDS : List String := ["q_d", "pose_d"]

namespace ControlCfg

variable (ctrl_cfg : ControlCfg)

/-- The streamed field an action fills for this kind. -/
def action_field : Except SchemaError String :=
  match ACTION_PRIMARY ctrl_cfg.kind with
  | some field => .ok field
  | none => .error (.no_action_mapping ctrl_cfg.kind)

/-- Width of one side's action for this kind. -/
def action_dim : Except SchemaError ℕ := do
  let field ← ctrl_cfg.action_field
  get_item field (ctrl_cfg.command.lookup field)

/-- Streamed fields that must be held at measured: absolute, and not the primary one. -/
def action_hold_fields : Except SchemaError (List String) := do
  let primary ← ctrl_cfg.action_field
  pure (ctrl_cfg.streamed.filter fun f => f != primary && ABSOLUTE_FIELDS.contains f)

section Pack

variable {F : Type}

/-- `pack_streamed`: concatenate the streamed fields into one setpoint vector. -/
def pack_streamed (fields : String → Option (List F)) : Except SchemaError (List F) := do
  let parts ← collect (fun f => get_item f (fields f)) ctrl_cfg.streamed
  pure parts.flatten

/-- What `pack_action` puts into one streamed field. -/
def action_value [Zero F] (primary : String) (primary_value : List F)
    (held : String → Option (List F)) (f : String) : Except SchemaError (List F) :=
  if f = primary then .ok primary_value
  else if ABSOLUTE_FIELDS.contains f then
    match held f with
    | some value => .ok value
    | none => .error (.no_held_value ctrl_cfg.kind f)
  else do
    let dim ← get_item f (ctrl_cfg.command.lookup f)
    pure (List.replicate dim 0)

/-- `pack_action`: one setpoint vector from an action for any control kind. -/
def pack_action [Zero F] (primary_value : List F) (held : String → Option (List F)) :
    Except SchemaError (List F) := do
  let primary ← ctrl_cfg.action_field
  let values ← collect (ctrl_cfg.action_value primary primary_value held) ctrl_cfg.streamed
  pure values.flatten

end Pack

end ControlCfg

/-! ## What a packed setpoint holds -/

section Pack

variable {F : Type}

theorem get_item_ok {α : Type} {field : String} {entry : Option α} {a : α} :
    get_item field entry = .ok a ↔ entry = some a := by
  cases entry with
  | none => simp [get_item]
  | some b => simp [get_item]

/-- A packed setpoint is the streamed fields' values, one after the other. -/
theorem pack_streamed_ok {ctrl_cfg : ControlCfg} {fields : String → Option (List F)}
    {setpoint : List F} :
    ctrl_cfg.pack_streamed fields = .ok setpoint ↔
      ∃ parts, List.Forall₂ (fun f part => fields f = some part) ctrl_cfg.streamed parts ∧
        setpoint = parts.flatten := by
  unfold ControlCfg.pack_streamed
  rw [bind_ok]
  refine exists_congr fun parts => ?_
  rw [collect_ok, pure_ok, eq_comm (a := parts.flatten)]
  simp only [get_item_ok]

end Pack

end DualFlexivControl.Control
