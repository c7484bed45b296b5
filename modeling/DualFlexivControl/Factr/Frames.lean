/-
The frames of a leader's server: `_extract_list` of `interfaces/factr/client.py`, and
`_handle_stream_frame` and `_parse` of its `FactrServerClient`.

A frame is text, which is JSON or not. It is accepted if it is an object that bears the side and
one of two types: of telemetry nothing more is asked, while a reading has to hold a list, in one of
several places, that numpy makes a vector of the server's width of. What a valid reading is can be
said by its content alone ([`Reading`]), and a frame is accepted as a reading exactly when it is
one ([`handle_reading_iff`]).
-/
import DualFlexivControl.Daemon.Command

set_option autoImplicit false

namespace DualFlexivControl.Factr.Frames

open Daemon (Json get_field)

/-! ## Arrays and exceptions -/

/-- What a conversion to float raises. -/
inductive PyError
  | key_error
  | type_error
  | value_error
  | overflow_error
  deriving DecidableEq, Repr

/-- A float64 array: its shape, and its values in order. -/
structure NdArray where
  shape : List ℕ
  values : List Ieee
  size : values.length = shape.prod

/-- An array of one axis. -/
def NdArray.vector (values : List Ieee) : NdArray :=
  ⟨[values.length], values, List.prod_singleton.symm⟩

/-- `np.asarray(value, dtype=np.float64)`, `float(text)`, and how an integer is rounded, which may
overflow. -/
structure Floats where
  asarray : Json → Except PyError NdArray
  of_string : String → Option Ieee
  of_int : ℤ → Option Ieee

/-! ## The client -/

/-- `_POSITION_KEYS` -/
def POSITION_KEYS : List String :=
  ["joint_pos", "positions", "q", "joint_positions", "joints", "data"]

/-- `_extract_list` -/
def extract_list : Json → Option (List Json)
  | .arr xs => some xs
  | .obj fields => POSITION_KEYS.findSome? fun key =>
    match fields.lookup key with
    | some (.arr xs) => some xs
    | _ => none
  | _ => none

/-- Why a message is not accepted. -/
inductive FrameError
  | undecodable
  | non_object
  | wrong_side
  | unknown_type
  | no_list
  | wrong_shape
  | conversion (e : PyError)

/-- An accepted message. Of telemetry all but its type is kept. -/
inductive Frame
  | reading (joint_pos : List Ieee)
  | telemetry (fields : List (String × Json))

/-- A message, as text or bytes that decode to a JSON value or to none. -/
abbrev Message := Option Json

section Parse

variable (np : Floats)

/-- `FactrServerClient._parse`: the joint positions of a reading, under the side's own key or at
the top. -/
def parse (side : String) (dof : ℕ) (payload : List (String × Json)) :
    Except FrameError (List Ieee) :=
  match extract_list ((payload.lookup side).getD (.obj payload)) with
  | none => .error .no_list
  | some data =>
    match np.asarray (.arr data) with
    | .error e => .error (.conversion e)
    | .ok arr => if arr.shape = [dof] then .ok arr.values else .error .wrong_shape

/-- `FactrServerClient._handle_stream_frame`, up to the caches. -/
def handle_stream_frame (side : String) (dof : ℕ) (message : Message) : Except FrameError Frame :=
  match message with
  | none => .error .undecodable
  | some (.obj payload) =>
    if !(get_field payload "side").isStr side then .error .wrong_side
    else if (get_field payload "type").isStr "reading" then
      (parse np side dof payload).map .reading
    else if (get_field payload "type").isStr "telemetry" then
      .ok (.telemetry (payload.filter (·.1 != "type")))
    else .error .unknown_type
  | some _ => .error .non_object

end Parse

/-! ## Valid messages, by content -/

/-- An object that says that it comes from a side and that it is of a type. -/
structure Bears (side type : String) (message : Message) (payload : List (String × Json)) :
    Prop where
  object : message = some (.obj payload)
  side : payload.lookup "side" = some (.str side)
  type : payload.lookup "type" = some (.str type)

/-- Where a value has its list: it is one, or it is an object that has one under the first of the
keys that has any. -/
def ListOf (value : Json) (data : List Json) : Prop :=
  value = .arr data ∨ ∃ fields before key after, value = .obj fields ∧
    POSITION_KEYS = before ++ key :: after ∧ fields.lookup key = some (.arr data) ∧
    ∀ other ∈ before, ∀ xs, fields.lookup other ≠ some (.arr xs)

/-- A valid reading: its list, under the side's own key or in the payload itself, is a vector with
one number for each value of the server. -/
structure Reading (np : Floats) (side : String) (dof : ℕ) (message : Message)
    (joint_pos : List Ieee) : Prop where
  valid : ∃ payload data arr, Bears side "reading" message payload ∧
    ListOf ((payload.lookup side).getD (.obj payload)) data ∧
    np.asarray (.arr data) = .ok arr ∧ arr.shape = [dof] ∧ arr.values = joint_pos

theorem Reading.length {np : Floats} {side : String} {dof : ℕ} {message : Message}
    {joint_pos : List Ieee} (h : Reading np side dof message joint_pos) :
    joint_pos.length = dof := by
  obtain ⟨_, _, arr, _, _, _, hshape, rfl⟩ := h.valid
  rw [arr.size, hshape, List.prod_singleton]

/-- A valid telemetry message, and all that it says but its type. -/
def Telemetry (side : String) (message : Message) (fields : List (String × Json)) : Prop :=
  ∃ payload, Bears side "telemetry" message payload ∧ fields = payload.filter (·.1 != "type")

theorem isStr_get_field {payload : List (String × Json)} {key text : String} :
    (get_field payload key).isStr text = true ↔ payload.lookup key = some (.str text) := by
  unfold get_field
  cases payload.lookup key with
  | none => simp [Json.isStr]
  | some value => cases value <;> simp [Json.isStr]

theorem extract_list_iff {value : Json} {data : List Json} :
    extract_list value = some data ↔ ListOf value data := by
  cases value with
  | arr xs =>
    constructor
    · rintro ⟨⟩
      exact .inl rfl
    · rintro (h | ⟨_, _, _, _, h, _⟩)
      · rw [Json.arr.inj h]
        rfl
      · cases h
  | obj fields =>
    -- the first key that has a list is the one that counts
    have hfound : ∀ key xs, (match fields.lookup key with
        | some (.arr xs) => some xs
        | _ => none) = some xs ↔ fields.lookup key = some (.arr xs) := by
      intro key xs
      split
      · rename_i h
        rw [h]
        simp
      · rename_i h
        simp only [reduceCtorEq, false_iff]
        exact h xs
    have hmissing : ∀ key, (match fields.lookup key with
        | some (.arr xs) => some xs
        | _ => none) = none ↔ ∀ xs, fields.lookup key ≠ some (.arr xs) := by
      intro key
      rw [Option.eq_none_iff_forall_ne_some]
      exact forall_congr' fun xs => not_congr (hfound key xs)
    unfold extract_list
    rw [List.findSome?_eq_some_iff]
    constructor
    · rintro ⟨before, key, after, hkeys, hkey, hbefore⟩
      exact .inr ⟨fields, before, key, after, rfl, hkeys, (hfound key data).1 hkey,
        fun other hother => (hmissing other).1 (hbefore other hother)⟩
    · rintro (h | ⟨_, before, key, after, h, hkeys, hkey, hbefore⟩)
      · cases h
      · obtain rfl := Json.obj.inj h
        exact ⟨before, key, after, hkeys, (hfound key data).2 hkey,
          fun other hother => (hmissing other).2 (hbefore other hother)⟩
  | null => simp [extract_list, ListOf]
  | bool b => simp [extract_list, ListOf]
  | int i => simp [extract_list, ListOf]
  | float x => simp [extract_list, ListOf]
  | str s => simp [extract_list, ListOf]

section Accepted

variable {np : Floats} {side : String} {dof : ℕ} {message : Message}

theorem parse_ok_iff {payload : List (String × Json)} {joint_pos : List Ieee} :
    parse np side dof payload = .ok joint_pos ↔
      ∃ data arr, ListOf ((payload.lookup side).getD (.obj payload)) data ∧
        np.asarray (.arr data) = .ok arr ∧ arr.shape = [dof] ∧ arr.values = joint_pos := by
  unfold parse
  constructor
  · intro h
    split at h
    · cases h
    · rename_i data hdata
      split at h
      · cases h
      · rename_i arr harr
        split at h
        · rename_i hshape
          exact ⟨data, arr, extract_list_iff.1 hdata, harr, hshape, Except.ok.inj h⟩
        · cases h
  · rintro ⟨data, arr, hdata, harr, hshape, rfl⟩
    rw [extract_list_iff.2 hdata]
    simp only [harr, if_pos hshape]

/-- A message is accepted as a reading exactly when it is a valid one. -/
theorem handle_reading_iff {joint_pos : List Ieee} :
    handle_stream_frame np side dof message = .ok (.reading joint_pos) ↔
      Reading np side dof message joint_pos := by
  constructor
  · intro h
    unfold handle_stream_frame at h
    split at h
    · cases h
    · rename_i payload
      split at h
      · cases h
      rename_i hside
      rw [Bool.not_eq_true', Bool.not_eq_false, isStr_get_field] at hside
      split at h
      · rename_i htype
        cases hparse : parse np side dof payload with
        | error e =>
          rw [hparse] at h
          cases h
        | ok found =>
          rw [hparse] at h
          cases h
          obtain ⟨data, arr, hvalid⟩ := parse_ok_iff.1 hparse
          exact ⟨payload, data, arr, ⟨rfl, hside, isStr_get_field.1 htype⟩, hvalid⟩
      · split at h
        · cases h
        · cases h
    · cases h
  · rintro ⟨payload, data, arr, ⟨rfl, hside, htype⟩, hvalid⟩
    unfold handle_stream_frame
    simp only [isStr_get_field.2 hside, isStr_get_field.2 htype,
      parse_ok_iff.2 ⟨data, arr, hvalid⟩, Except.map, Bool.not_true, Bool.false_eq_true, if_false,
      if_true]

/-- And as telemetry exactly when it is that by its content: an object of the side with the
telemetry type. -/
theorem handle_telemetry_iff {fields : List (String × Json)} :
    handle_stream_frame np side dof message = .ok (.telemetry fields) ↔
      Telemetry side message fields := by
  constructor
  · intro h
    unfold handle_stream_frame at h
    split at h
    · cases h
    · rename_i payload
      split at h
      · cases h
      rename_i hside
      rw [Bool.not_eq_true', Bool.not_eq_false, isStr_get_field] at hside
      split at h
      · cases hparse : parse np side dof payload with
        | error e =>
          rw [hparse] at h
          cases h
        | ok found =>
          rw [hparse] at h
          cases h
      · split at h
        · rename_i htype
          cases h
          exact ⟨payload, ⟨rfl, hside, isStr_get_field.1 htype⟩, rfl⟩
        · cases h
    · cases h
  · rintro ⟨payload, ⟨rfl, hside, htype⟩, rfl⟩
    have hother : (get_field payload "type").isStr "reading" = false := by
      rw [Bool.eq_false_iff, ne_eq, isStr_get_field, htype]
      simp
    unfold handle_stream_frame
    simp only [isStr_get_field.2 hside, isStr_get_field.2 htype, hother, Bool.not_true,
      Bool.false_eq_true, if_false, if_true]

/-- What is neither is rejected, and nothing else is: each message is a reading, telemetry, or an
error. -/
theorem handle_error_iff :
    (∃ e, handle_stream_frame np side dof message = .error e) ↔
      (∀ joint_pos, ¬ Reading np side dof message joint_pos) ∧
        ∀ fields, ¬ Telemetry side message fields := by
  constructor
  · rintro ⟨e, he⟩
    constructor
    · intro joint_pos h
      rw [handle_reading_iff.2 h] at he
      cases he
    · intro fields h
      rw [handle_telemetry_iff.2 h] at he
      cases he
  · rintro ⟨hreading, htelemetry⟩
    cases h : handle_stream_frame np side dof message with
    | error e => exact ⟨e, rfl⟩
    | ok frame =>
      cases frame with
      | reading joint_pos => exact absurd (handle_reading_iff.1 h) (hreading joint_pos)
      | telemetry fields => exact absurd (handle_telemetry_iff.1 h) (htelemetry fields)

end Accepted

end DualFlexivControl.Factr.Frames
