/-
JSON documents on disk, and what Python makes of the values in them.

A file that should hold a document can be unreadable, can be no JSON, or can hold any JSON value,
and each step of a reader (`json.loads`, `.get`, `int`, a loop over a value) raises its own
exception on the values it does not take. Which strings are numbers is left open: Python goes by
the Unicode tables there ([`Numerals`]).
-/
import Mathlib.Algebra.Order.Floor.Ring
import DualFlexivControl.Lib.Results
import DualFlexivControl.Daemon.Command

set_option autoImplicit false

namespace DualFlexivControl.Documents

open Daemon (Json)

/-- The built-in exceptions a reader can raise. -/
inductive PyError
  | os_error
  | value_error
  | type_error
  | attribute_error
  | overflow_error
  | recursion_error
  deriving DecidableEq, Repr

/-- What reading and parsing a file comes to. -/
inductive FileText
  | unreadable
  | not_json
  | nested_too_deep
  | document (doc : Json)

/-- `json.loads(path.read_text())` -/
def json_loads : FileText → Except PyError Json
  | .unreadable => .error .os_error
  | .not_json => .error .value_error
  | .nested_too_deep => .error .recursion_error
  | .document doc => .ok doc

/-- `doc.get(key)`, which only objects have: the value under the key, if there is one. -/
def get (doc : Json) (key : String) : Except PyError (Option Json) :=
  match doc with
  | .obj fields => .ok (fields.lookup key)
  | _ => .error .attribute_error

/-- `value or default` -/
def or_default (value default : Json) : Json := if value.truthy then value else default

/-- The strings that `int` and `float` read as a number. -/
structure Numerals where
  int_of : String → Option ℤ
  float_of : String → Option Ieee

/-- `int(value)`: floats are cut off towards zero. -/
def int (numerals : Numerals) : Json → Except PyError ℤ
  | .bool b => .ok (if b then 1 else 0)
  | .int i => .ok i
  | .float (.fin q) => .ok (if 0 ≤ q then ⌊q⌋ else ⌈q⌉)
  | .float (.inf _) => .error .overflow_error
  | .float (.nan _) => .error .value_error
  | .str s =>
    match numerals.int_of s with
    | some i => .ok i
    | none => .error .value_error
  | _ => .error .type_error

/-- `float(value)`; integers are taken as they are. -/
def float (numerals : Numerals) : Json → Except PyError Ieee
  | .bool b => .ok (.fin (if b then 1 else 0))
  | .int i => .ok (.fin i)
  | .float x => .ok x
  | .str s =>
    match numerals.float_of s with
    | some x => .ok x
    | none => .error .value_error
  | _ => .error .type_error

/-- `value.items()`, which only objects have. -/
def items : Json → Except PyError (List (String × Json))
  | .obj fields => .ok fields
  | _ => .error .attribute_error

/-- `list(value)`: a string gives its characters and an object its keys. -/
def iterate : Json → Except PyError (List Json)
  | .arr xs => .ok xs
  | .str s => .ok (s.toList.map fun c => .str (String.singleton c))
  | .obj fields => .ok (fields.map fun entry => .str entry.1)
  | _ => .error .type_error

end DualFlexivControl.Documents
