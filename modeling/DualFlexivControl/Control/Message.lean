/-
`control/message.py`: discrete commands as rows of the command ring, and the scan the
arm makes over what it drained.

A row is `[kind, *args]`, zero-padded to the width of the ring. Decoding rounds the
first word with Python's `round`, halves to even, and raises on a code that is no
`CommandKind`.
-/
import Mathlib.Algebra.Order.Floor.Semiring
import Mathlib.Data.Rat.Floor
import Mathlib.Tactic.Linarith

set_option autoImplicit false

namespace DualFlexivControl.Control

/-! ## Commands -/

/-- `CommandKind`. -/
inductive CommandKind where
  | none
  | home
  | stop
  | switch_mode
  | servo_on
  deriving DecidableEq

/-- The value of the enumeration member. -/
def CommandKind.code : CommandKind → ℤ
  | .none => 0
  | .home => 1
  | .stop => 2
  | .switch_mode => 3
  | .servo_on => 4

/-- `CommandKind(code)`; the source raises `ValueError` on any other code. -/
def CommandKind.of_code (code : ℤ) : Option CommandKind :=
  [.none, .home, .stop, .switch_mode, .servo_on].find? (fun k => k.code == code)

/-- Python's `round` to an integer. -/
def py_round (q : ℚ) : ℤ :=
  if q - ⌊q⌋ < 1 / 2 then ⌊q⌋
  else if 1 / 2 < q - ⌊q⌋ then ⌊q⌋ + 1
  else if ⌊q⌋ % 2 = 0 then ⌊q⌋ else ⌊q⌋ + 1

/-- `ControlCommand`. -/
structure ControlCommand where
  kind : CommandKind
  args : List ℚ
  deriving DecidableEq

/-- `ControlCommand.encode`; `none` is the `ValueError` of a command that does not fit. -/
def ControlCommand.encode (c : ControlCommand) (dim : ℕ) : Option (List ℚ) :=
  if dim < 1 + c.args.length then none
  else some ((c.kind.code : ℚ) :: c.args ++ List.replicate (dim - 1 - c.args.length) 0)

/-- `ControlCommand.decode`; `none` is the exception of a row it cannot read. -/
def ControlCommand.decode : List ℚ → Option ControlCommand
  | [] => none
  | kind :: args => (CommandKind.of_code (py_round kind)).map fun k => ⟨k, args⟩

/-- The loop of `_drain_commands` over the rows it drained: whether it met a STOP, or
`none` if a row before it raised. -/
def scan_commands : List (List ℚ) → Option Bool
  | [] => some false
  | row :: rest =>
    match ControlCommand.decode row with
    | none => none
    | some cmd => if cmd.kind = .stop then some true else scan_commands rest

@[simp] theorem scan_commands_nil : scan_commands [] = some false := rfl

/-! ## What the scan and the encoding guarantee -/

theorem py_round_intCast (n : ℤ) : py_round n = n := by
  unfold py_round
  rw [Int.floor_intCast, sub_self, if_pos (by norm_num)]

theorem CommandKind.of_code_code (k : CommandKind) : CommandKind.of_code k.code = some k := by
  cases k <;> rfl

/-- Decoding an encoded command gives it back, with the padding among its arguments. -/
theorem decode_encode {c : ControlCommand} {dim : ℕ} {row : List ℚ}
    (h : c.encode dim = some row) :
    ControlCommand.decode row =
      some ⟨c.kind, c.args ++ List.replicate (dim - 1 - c.args.length) 0⟩ := by
  unfold ControlCommand.encode at h
  split at h
  · cases h
  · cases h
    simp only [List.cons_append, ControlCommand.decode, py_round_intCast,
      CommandKind.of_code_code, Option.map_some]

/-- A row that is a STOP. -/
def IsStop (row : List ℚ) : Prop := ∃ args, ControlCommand.decode row = some ⟨.stop, args⟩

/-- A scan that found nothing has looked at every row, so none of them is a STOP, whatever the
others are. -/
theorem not_isStop_of_scan {rows : List (List ℚ)} (h : scan_commands rows = some false)
    {row : List ℚ} (hrow : row ∈ rows) : ¬ IsStop row := by
  induction rows with
  | nil => cases hrow
  | cons r rest ih =>
    unfold scan_commands at h
    cases hdec : ControlCommand.decode r with
    | none =>
      rw [hdec] at h
      cases h
    | some cmd =>
      rw [hdec] at h
      dsimp only at h
      by_cases hstop : cmd.kind = .stop
      · rw [if_pos hstop] at h
        cases h
      · rw [if_neg hstop] at h
        rcases List.mem_cons.mp hrow with rfl | hrow
        · rintro ⟨args, hargs⟩
          rw [hdec] at hargs
          cases hargs
          exact hstop rfl
        · exact ih h hrow

end DualFlexivControl.Control
