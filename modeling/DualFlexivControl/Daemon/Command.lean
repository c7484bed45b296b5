/-
The daemon's commands: JSON objects, and what makes a start one of them well formed.

A command is a dictionary that came out of `json.loads`, so every field of it can be
missing or hold any JSON value, and `_validate_start` is what stands between such a value
and the start gates. It is purely structural and answers the same for the same command at
any time, which is why a queued start does not have to be validated again.

Python's `str.isalnum` goes by the Unicode tables. Which characters it holds of is left
open ([`Alphabet`]).
-/
import DualFlexivControl.Lib.Ieee
import DualFlexivControl.Session.Protocol

set_option autoImplicit false

namespace DualFlexivControl.Daemon

open Session (Phase)

/-! ## JSON values -/

/-- What `json.loads` returns. Integers and floats are different types; an object has
each key once, the last one of the text. -/
inductive Json where
  | null
  | bool (b : Bool)
  | int (i : ℤ)
  | float (x : Ieee)
  | str (s : String)
  | arr (xs : List Json)
  | obj (fields : List (String × Json))

/-- `bool(x)`. A NaN is true. -/
def Json.truthy : Json → Bool
  | .null => false
  | .bool b => b
  | .int i => i != 0
  | .float x => x != .fin 0
  | .str s => s != ""
  | .arr xs => !xs.isEmpty
  | .obj fields => !fields.isEmpty

/-- `x == s`, for a string `s`. -/
def Json.isStr (s : String) : Json → Bool
  | .str t => t == s
  | _ => false

/-- `fields.get(key)`: a missing key reads as `None`, and so does a `null`. -/
def get_field (fields : List (String × Json)) (key : String) : Json :=
  (fields.lookup key).getD .null

/-! ## Commands -/

/-- A command. The number says which command it was, in the order they were received; no
code reads it. -/
structure Command where
  id : ℕ
  fields : List (String × Json)

/-- `cmd.get(key)`. -/
def Command.get (cmd : Command) (key : String) : Json := get_field cmd.fields key

/-- What the session states are called in `session.json`. -/
inductive Mode where
  | viewing
  | collection
  | eval
  | skill
  | saving
  deriving DecidableEq

/-- A run in a phase shows the phase as the session's state. -/
def mode : Phase → Mode
  | .collection => .collection
  | .eval => .eval
  | .skill => .skill

@[simp] theorem mode_ne_viewing (phase : Phase) : mode phase ≠ .viewing := by
  cases phase <;> decide

@[simp] theorem mode_ne_saving (phase : Phase) : mode phase ≠ .saving := by
  cases phase <;> decide

/-- The phase a JSON value names: `phase in PHASES`. -/
def phase_of : Json → Option Phase
  | .str s =>
    if s = "collection" then some .collection
    else if s = "eval" then some .eval
    else if s = "skill" then some .skill
    else none
  | _ => none

/-- The characters `str.isalnum` holds of. -/
abbrev Alphabet := Char → Bool

/-- `isinstance(x, str) and x and all(c.isalnum() or c in "._-" for c in x)`. -/
def is_name (isalnum : Alphabet) : Json → Bool
  | .str s => s != "" && s.toList.all fun c => isalnum c || c ∈ ['.', '_', '-']
  | _ => false

/-- `isinstance(x, int) and 0 < x < 65536`; a `bool` is an `int`. -/
def is_port : Json → Bool
  | .int i => 0 < i && i < 65536
  | .bool b => b
  | _ => false

/-- `x is not None and not check(x)`. -/
def fails (check : Json → Bool) : Json → Bool
  | .null => false
  | x => !check x

/-- The field a malformed start command is refused for. -/
inductive StartField where
  | phase_or_task
  | skill
  /-- A skill run without a skill name. -/
  | missing_skill
  | port
  | host
  | policy
  deriving DecidableEq

/-- The task of a start: a skill replay is task-independent and takes the default. -/
def Command.task (cmd : Command) (phase : Phase) : Json :=
  if phase = .skill ∧ (cmd.get "task").truthy = false then .str "default" else cmd.get "task"

/-- What a run is labelled by: its skill (the composed task is incidental), or its task. -/
def Command.label (cmd : Command) (phase : Phase) : Json :=
  if phase = .skill then cmd.get "skill" else cmd.task phase

/-- `_validate_start`: the field that is wrong, or the phase of a well-formed command. -/
def validate_start (isalnum : Alphabet) (cmd : Command) : Except StartField Phase :=
  match phase_of (cmd.get "phase") with
  | none => .error .phase_or_task
  | some phase =>
    if !(cmd.task phase).truthy then .error .phase_or_task
    else if fails (is_name isalnum) (cmd.get "skill") then .error .skill
    else if phase = .skill ∧ (cmd.get "skill").truthy = false then .error .missing_skill
    else if fails is_port (cmd.get "port") then .error .port
    else if fails (is_name isalnum) (cmd.get "host") then .error .host
    else if fails (is_name isalnum) (cmd.get "policy") then .error .policy
    else .ok phase

/-- A start or switch command `_validate_start` has nothing to say against. -/
def WellFormed (isalnum : Alphabet) (cmd : Command) : Prop :=
  ∃ phase, validate_start isalnum cmd = .ok phase

/-- The validated phase is the one the command names. -/
theorem phase_of_validate_start {isalnum : Alphabet} {cmd : Command} {phase : Phase}
    (h : validate_start isalnum cmd = .ok phase) : phase_of (cmd.get "phase") = some phase := by
  unfold validate_start at h
  split at h
  · exact absurd h (by simp)
  · next found hfound =>
    rw [hfound]
    split_ifs at h
    simpa using h

end DualFlexivControl.Daemon
