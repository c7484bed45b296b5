/-
The brain's control writers, as the loops that post through them see them.

`Brain.command` looks its side's writer up and writes a vector of the channel's width; a side
with no writer, and a vector of another width, raise.
-/
import Mathlib.Data.List.Basic

set_option autoImplicit false

namespace DualFlexivControl.Brain

/-- The width of each open setpoint channel, and the sides with a gripper channel. -/
structure Writers where
  setpoint_dim : String → Option ℕ
  gripper_sides : List String

/-- What a write raises. -/
inductive WriteError
  | no_channel (side : String)
  | sample_shape (side : String) (size expected : ℕ)
  deriving DecidableEq, Repr

/-- `brain.command`: whether the setpoint is posted. -/
def Writers.command {F : Type} (w : Writers) (side : String) (setpoint : List F) :
    Except WriteError Unit :=
  match w.setpoint_dim side with
  | none => .error (.no_channel side)
  | some dim =>
    if setpoint.length ≠ dim then .error (.sample_shape side setpoint.length dim)
    else .ok ()

end DualFlexivControl.Brain
