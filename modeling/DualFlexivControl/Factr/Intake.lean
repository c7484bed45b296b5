/-
What the FACTR node takes in: the caches of `FactrServerClient` and `get_telemetry` of
`interfaces/factr/client.py`, `poll` and `_append_telemetry` of `interfaces/factr/interface.py`.

A receiver thread for each side turns messages into two caches, one for readings and one for
telemetry with a version, and the node's loop reads them when it polls. A reading is checked before
it is cached, telemetry only when it is published; so a telemetry frame that is malformed has a
version like every other. What the loop publishes of a frame it has parsed as a whole before
([`parse_telemetry_iff`]), and it records the version whether the frame was good or not.

The receivers and the steps of a poll come in any order. An integer that no float can hold is an
`OverflowError`, which neither side catches: it ends the receiver, which is started again, and it
leaves the poll, which ends the node.
-/
import DualFlexivControl.Factr.Frames
import DualFlexivControl.Lib.Results
import DualFlexivControl.Lib.Runs
import DualFlexivControl.Streams.Declared

set_option autoImplicit false

namespace DualFlexivControl.Factr.Intake

open Daemon (Json)
open Frames (PyError NdArray Floats Message handle_stream_frame)
open Streams (TELEMETRY_VECTOR_FIELDS TELEMETRY_SCALAR_FIELDS)

/-! ## The client -/

/-- The caches of a `FactrServerClient`. -/
structure Client where
  latest_joint_pos : Option (List Ieee)
  latest_telemetry : Option (List (String × Json))
  telemetry_version : ℕ

def Client.new : Client := ⟨none, none, 0⟩

section Parse

variable (np : Floats)

/-- The caches after a message. An exception leaves them alone. -/
def Client.receive (c : Client) (side : String) (dof : ℕ) (message : Message) : Client :=
  match handle_stream_frame np side dof message with
  | .ok (.reading joint_pos) => { c with latest_joint_pos := some joint_pos }
  | .ok (.telemetry fields) =>
    { c with latest_telemetry := some fields, telemetry_version := c.telemetry_version + 1 }
  | .error _ => c

/-- `get_telemetry` -/
def Client.get_telemetry (c : Client) : Option (ℕ × List (String × Json)) :=
  c.latest_telemetry.map (c.telemetry_version, ·)

/-! ## The fields of a telemetry frame -/

/-- `float(x)` -/
def to_float : Json → Except PyError Ieee
  | .null => .error .type_error
  | .bool b => .ok (.fin (if b then 1 else 0))
  | .int i => match np.of_int i with
    | some x => .ok x
    | none => .error .overflow_error
  | .float x => .ok x
  | .str s => match np.of_string s with
    | some x => .ok x
    | none => .error .value_error
  | .arr _ => .error .type_error
  | .obj _ => .error .type_error

/-- A field with one value for each arm joint. -/
def vector_field (dof : ℕ) (telemetry : List (String × Json)) (field : String) :
    Except PyError (String × List Ieee) :=
  match telemetry.lookup field with
  | none => .error .key_error
  | some value =>
    match np.asarray value with
    | .error e => .error e
    | .ok arr =>
      -- the arm's joints are one less than the server's values
      if 0 < dof ∧ arr.shape = [dof - 1] ∧ arr.values.all Ieee.isFinite then
        .ok (field, arr.values)
      else .error .value_error

def scalar_field (telemetry : List (String × Json)) (field : String) :
    Except PyError (String × List Ieee) :=
  match telemetry.lookup field with
  | none => .error .key_error
  | some value =>
    match to_float np value with
    | .error e => .error e
    | .ok x => if x.isFinite then .ok (field, [x]) else .error .value_error

/-- The `try` of `_append_telemetry`. -/
def parse_telemetry (dof : ℕ) (telemetry : List (String × Json)) :
    Except PyError (List (String × List Ieee)) := do
  let vectors ← Results.collect (vector_field np dof telemetry) TELEMETRY_VECTOR_FIELDS
  let scalars ← Results.collect (scalar_field np telemetry) TELEMETRY_SCALAR_FIELDS
  return vectors ++ scalars

end Parse

/-! ## The node -/

/-- What a poll has for one side. Telemetry is there when its version is new. -/
structure Telemetry where
  version : ℕ
  fields : List (String × List Ieee)

structure SideSample where
  side : String
  joint_pos : List Ieee
  telemetry : Option Telemetry

/-- Where the node's loop is: between two polls; with the sides still to ask and what it has got;
between a side's reading and its telemetry; or ended by an exception. -/
inductive Pc
  | idle
  | polling (todo : List String) (sample : List SideSample)
  | appending (side : String) (joint_pos : List Ieee) (todo : List String)
      (sample : List SideSample)
  | raised

/-- The clients' caches, `_telemetry_versions`, the loop, and the messages and published samples
so far. -/
structure World where
  clients : String → Client
  telemetry_versions : String → Option ℕ
  pc : Pc
  received : List (String × Message)
  published : List (List SideSample)

def World.new : World := ⟨fun _ => .new, fun _ => none, .idle, [], []⟩

/-- A receiver handles a message; a poll starts; the next side is asked, and its reading is fresh
or not; its telemetry is read; the poll ends. -/
inductive Event
  | receive (side : String) (message : Message)
  | poll
  | ask (fresh : Bool)
  | append
  | publish

section Step

variable (np : Floats) (dof : String → ℕ) (sides : List String)

/-- `_append_telemetry` -/
def append_telemetry (w : World) (side : String) (joint_pos : List Ieee) (todo : List String)
    (sample : List SideSample) : World :=
  let without := Pc.polling todo (sample ++ [⟨side, joint_pos, none⟩])
  match (w.clients side).get_telemetry with
  | none => { w with pc := without }
  | some (version, telemetry) =>
    if w.telemetry_versions side = some version then { w with pc := without }
    else
      let recorded := fun s => if s = side then some version else w.telemetry_versions s
      match parse_telemetry np (dof side) telemetry with
      | .ok fields =>
        { w with
          telemetry_versions := recorded
          pc := .polling todo (sample ++ [⟨side, joint_pos, some ⟨version, fields⟩⟩]) }
      -- no `ArithmeticError` is caught
      | .error .overflow_error => { w with pc := .raised }
      | .error _ => { w with telemetry_versions := recorded, pc := without }

def step (w : World) : Event → World
  | .receive side message =>
    { w with
      clients := fun s =>
        if s = side then (w.clients side).receive np side (dof side) message else w.clients s
      received := w.received ++ [(side, message)] }
  | .poll =>
    match w.pc with
    | .idle => { w with pc := .polling sides [] }
    | _ => w
  | .ask fresh =>
    match w.pc with
    | .polling (side :: todo) sample =>
      match fresh, (w.clients side).latest_joint_pos with
      | true, some joint_pos => { w with pc := .appending side joint_pos todo sample }
      | _, _ => { w with pc := .polling todo sample }
    | _ => w
  | .append =>
    match w.pc with
    | .appending side joint_pos todo sample => append_telemetry np dof w side joint_pos todo sample
    | _ => w
  | .publish =>
    match w.pc with
    | .polling [] sample =>
      { w with
        pc := .idle
        published := if sample.isEmpty then w.published else w.published ++ [sample] }
    | _ => w

def run (events : List Event) : World := Runs.run (step np dof sides) World.new events

end Step

/-! ## What has been accepted -/

section Accepted

variable (np : Floats) (dof : String → ℕ)

/-- The readings among the messages of a side. -/
def reading_of (side : String) (entry : String × Message) : Option (List Ieee) :=
  if entry.1 = side then
    match handle_stream_frame np side (dof side) entry.2 with
    | .ok (.reading joint_pos) => some joint_pos
    | _ => none
  else none

/-- The telemetry among them. -/
def telemetry_of (side : String) (entry : String × Message) : Option (List (String × Json)) :=
  if entry.1 = side then
    match handle_stream_frame np side (dof side) entry.2 with
    | .ok (.telemetry fields) => some fields
    | _ => none
  else none

def World.readings (w : World) (side : String) : List (List Ieee) :=
  w.received.filterMap (reading_of np dof side)

def World.frames (w : World) (side : String) : List (List (String × Json)) :=
  w.received.filterMap (telemetry_of np dof side)

/-- The readings that have come depend on the messages received alone. -/
theorem readings_of_received {w w' : World} (h : w'.received = w.received) (side : String) :
    w'.readings np dof side = w.readings np dof side := by
  rw [World.readings, h, World.readings]

/-- So do the telemetry frames. -/
theorem frames_of_received {w w' : World} (h : w'.received = w.received) (side : String) :
    w'.frames np dof side = w.frames np dof side := by
  rw [World.frames, h, World.frames]

end Accepted

/-- The samples that a poll has collected. -/
def Pc.sample : Pc → List SideSample
  | .polling _ sample => sample
  | .appending _ _ _ sample => sample
  | _ => []

/-- All samples, published or not yet. -/
def World.samples (w : World) : List SideSample := w.published.flatten ++ w.pc.sample

/-- The telemetry versions of a side in some samples, in order. -/
def versions (side : String) (samples : List SideSample) : List ℕ :=
  samples.filterMap fun x => if x.side = side then x.telemetry.map (·.version) else none

/-- The streams of a side's telemetry, with their widths. -/
def declared (dof : ℕ) : List (String × ℕ) :=
  TELEMETRY_VECTOR_FIELDS.map (·, dof - 1) ++ TELEMETRY_SCALAR_FIELDS.map (·, 1)

/-! ## A frame is parsed as a whole -/

section Whole

variable (np : Floats) (dof : ℕ) (telemetry : List (String × Json))

/-- A field of a frame that is a vector of finite numbers, one for each joint of the arm. -/
def VectorField (p : String × List Ieee) : Prop :=
  ∃ value arr, telemetry.lookup p.1 = some value ∧ np.asarray value = .ok arr ∧
    0 < dof ∧ arr.shape = [dof - 1] ∧ arr.values = p.2 ∧ ∀ v ∈ p.2, v.isFinite = true

/-- A field of a frame that is a finite number. -/
def ScalarField (p : String × List Ieee) : Prop :=
  ∃ value x, telemetry.lookup p.1 = some value ∧ to_float np value = .ok x ∧ p.2 = [x] ∧
    x.isFinite = true

/-- What a frame says if it says all of it: every declared field, in order, each from this
frame. -/
def Whole (fields : List (String × List Ieee)) : Prop :=
  ∃ vectors scalars, fields = vectors ++ scalars ∧
    vectors.map Prod.fst = TELEMETRY_VECTOR_FIELDS ∧
    scalars.map Prod.fst = TELEMETRY_SCALAR_FIELDS ∧
    (∀ p ∈ vectors, VectorField np dof telemetry p) ∧
    ∀ p ∈ scalars, ScalarField np telemetry p

variable {np dof telemetry}

/-- A vector field is taken in when it is there, is an array of the side's width and all its entries
are finite. -/
theorem vector_field_iff {field : String} {p : String × List Ieee} :
    vector_field np dof telemetry field = .ok p ↔
      p.1 = field ∧ VectorField np dof telemetry p := by
  unfold vector_field
  constructor
  · intro h
    split at h
    · cases h
    · rename_i value hlookup
      split at h
      · cases h
      · rename_i arr harray
        split at h
        · rename_i hgood
          obtain rfl := Except.ok.inj h
          exact ⟨rfl, value, arr, hlookup, harray, hgood.1, hgood.2.1, rfl,
            List.all_eq_true.1 hgood.2.2⟩
        · cases h
  · rintro ⟨rfl, value, arr, hlookup, harray, hpos, hshape, hvalues, hfinite⟩
    rw [← hvalues, ← List.all_eq_true] at hfinite
    simp only [hlookup, harray, if_pos (And.intro hpos (And.intro hshape hfinite))]
    rw [hvalues]

/-- A scalar field is taken in when it is there and converts to a finite float. -/
theorem scalar_field_iff {field : String} {p : String × List Ieee} :
    scalar_field np telemetry field = .ok p ↔ p.1 = field ∧ ScalarField np telemetry p := by
  unfold scalar_field
  constructor
  · intro h
    split at h
    · cases h
    · rename_i value hlookup
      split at h
      · cases h
      · rename_i x hfloat
        split at h
        · rename_i hfinite
          obtain rfl := Except.ok.inj h
          exact ⟨rfl, value, x, hlookup, hfloat, rfl, hfinite⟩
        · cases h
  · obtain ⟨name, values⟩ := p
    rintro ⟨rfl, value, x, hlookup, hfloat, hvalues, hfinite⟩
    dsimp only at hlookup hvalues ⊢
    simp only [hlookup, hfloat, if_pos hfinite, hvalues]

/-- A list of fields that was made one by one: the names are those asked for. -/
theorem forall₂_fields {P : String × List Ieee → Prop} {names : List String}
    {fields : List (String × List Ieee)} :
    List.Forall₂ (fun name p => p.1 = name ∧ P p) names fields ↔
      fields.map Prod.fst = names ∧ ∀ p ∈ fields, P p := by
  constructor
  · intro h
    induction h with
    | nil => exact ⟨rfl, fun p hp => nomatch hp⟩
    | cons hp _ ih =>
      refine ⟨?_, List.forall_mem_cons.2 ⟨hp.2, ih.2⟩⟩
      rw [List.map_cons, ih.1, hp.1]
  · rintro ⟨rfl, h⟩
    induction fields with
    | nil => exact .nil
    | cons p rest ih =>
      obtain ⟨hp, hrest⟩ := List.forall_mem_cons.1 h
      exact .cons ⟨rfl, hp⟩ (ih hrest)

/-- A frame is parsed to its fields exactly when it is whole. -/
theorem parse_telemetry_iff {fields : List (String × List Ieee)} :
    parse_telemetry np dof telemetry = .ok fields ↔ Whole np dof telemetry fields := by
  simp only [parse_telemetry, Results.bind_ok, Results.pure_ok, Results.collect_ok,
    vector_field_iff, scalar_field_iff, forall₂_fields]
  constructor
  · rintro ⟨vectors, hvectors, scalars, hscalars, rfl⟩
    exact ⟨vectors, scalars, rfl, hvectors.1, hscalars.1, hvectors.2, hscalars.2⟩
  · rintro ⟨vectors, scalars, rfl, hnames, hnames', hvectors, hscalars⟩
    exact ⟨vectors, ⟨hnames, hvectors⟩, scalars, ⟨hnames', hscalars⟩, rfl⟩

/-- The streams take what a whole frame says: its fields have the declared names and widths. -/
theorem Whole.declared {fields : List (String × List Ieee)} (h : Whole np dof telemetry fields) :
    (fields.map fun p => (p.1, p.2.length)) = declared dof := by
  obtain ⟨vectors, scalars, rfl, hnames, hnames', hvectors, hscalars⟩ := h
  have hwidth : ∀ p ∈ vectors, (p.1, p.2.length) = (p.1, dof - 1) := by
    intro p hp
    obtain ⟨value, arr, _, _, _, hshape, hvalues, _⟩ := hvectors p hp
    rw [← hvalues, arr.size, hshape, List.prod_singleton]
  have hone : ∀ p ∈ scalars, (p.1, p.2.length) = (p.1, 1) := by
    intro p hp
    obtain ⟨value, x, _, _, hx, _⟩ := hscalars p hp
    rw [hx, List.length_singleton]
  unfold Intake.declared
  rw [List.map_append, ← hnames, ← hnames', List.map_map, List.map_map]
  congr 1
  · exact List.map_congr_left hwidth
  · exact List.map_congr_left hone

/-- A frame that says all of it has no NaN and no infinity in any field. -/
theorem Whole.finite {fields : List (String × List Ieee)} (h : Whole np dof telemetry fields) :
    ∀ p ∈ fields, ∀ v ∈ p.2, v.isFinite = true := by
  obtain ⟨vectors, scalars, rfl, _, _, hvectors, hscalars⟩ := h
  intro p hp v hv
  rcases List.mem_append.1 hp with hin | hin
  · obtain ⟨_, _, _, _, _, _, _, hfinite⟩ := hvectors p hin
    exact hfinite v hv
  · obtain ⟨_, x, _, _, hx, hfinite⟩ := hscalars p hin
    rw [hx] at hv
    rw [List.mem_singleton.1 hv]
    exact hfinite

end Whole

/-! ## The invariant -/

section Invariant

variable (np : Floats) (dof : String → ℕ) (sides : List String)

/-- The caches are what the accepted messages of a side say last, the versions of what has been
collected increase up to the recorded one, and all of it was parsed from the frame of its
version. -/
structure Inv (w : World) : Prop where
  joint_pos : ∀ side, (w.clients side).latest_joint_pos = (w.readings np dof side).getLast?
  telemetry : ∀ side, (w.clients side).latest_telemetry = (w.frames np dof side).getLast?
  version : ∀ side, (w.clients side).telemetry_version = (w.frames np dof side).length
  recorded : ∀ side v, w.telemetry_versions side = some v → v ≤ (w.frames np dof side).length
  increasing : ∀ side, (versions side w.samples).Pairwise (· < ·)
  taken : ∀ side, ∀ v ∈ versions side w.samples,
    ∃ last, w.telemetry_versions side = some last ∧ v ≤ last
  whole : ∀ x ∈ w.samples, ∀ t, x.telemetry = some t → 0 < t.version ∧
    ∃ frame, (w.frames np dof x.side)[t.version - 1]? = some frame ∧
      parse_telemetry np (dof x.side) frame = .ok t.fields

variable {np dof sides}

/-- Before the first message both caches are empty and nothing has been published. -/
theorem inv_new : Inv np dof World.new where
  joint_pos _ := rfl
  telemetry _ := rfl
  version _ := rfl
  recorded _ _ h := nomatch h
  increasing _ := List.Pairwise.nil
  taken _ _ h := nomatch h
  whole _ h := nomatch h

/-- The versions published by two stretches of a run, one after the other. -/
theorem versions_append (side : String) (xs ys : List SideSample) :
    versions side (xs ++ ys) = versions side xs ++ versions side ys := List.filterMap_append

/-- What takes in no message and collects no telemetry keeps the invariant; versions may be
recorded. -/
theorem Inv.mono {w w' : World} (h : Inv np dof w) (hclients : w'.clients = w.clients)
    (hreceived : w'.received = w.received)
    (hrecorded : ∀ s v, w'.telemetry_versions s = some v → v ≤ (w.frames np dof s).length)
    (hgrown : ∀ s v, w.telemetry_versions s = some v →
      ∃ v', w'.telemetry_versions s = some v' ∧ v ≤ v')
    (hversions : ∀ s, (versions s w'.samples).Sublist (versions s w.samples))
    (hsamples : ∀ x ∈ w'.samples, x.telemetry ≠ none → x ∈ w.samples) : Inv np dof w' := by
  have hframes := frames_of_received np dof hreceived
  have hreadings := readings_of_received np dof hreceived
  refine ⟨?_, ?_, ?_, ?_, ?_, ?_, ?_⟩
  · intro side
    rw [hclients, hreadings]
    exact h.joint_pos side
  · intro side
    rw [hclients, hframes]
    exact h.telemetry side
  · intro side
    rw [hclients, hframes]
    exact h.version side
  · intro side v hv
    rw [hframes]
    exact hrecorded side v hv
  · intro side
    exact (h.increasing side).sublist (hversions side)
  · intro side v hv
    obtain ⟨last, hlast, hle⟩ := h.taken side v ((hversions side).subset hv)
    obtain ⟨last', hlast', hle'⟩ := hgrown side last hlast
    exact ⟨last', hlast', hle.trans hle'⟩
  · intro x hx t ht
    rw [hframes]
    exact h.whole x (hsamples x hx (by rw [ht]; exact Option.some_ne_none t)) t ht

/-- A step of the loop that only drops samples, or none. -/
theorem Inv.keep {w w' : World} (h : Inv np dof w) (hclients : w'.clients = w.clients)
    (hreceived : w'.received = w.received)
    (hversions : w'.telemetry_versions = w.telemetry_versions)
    (hsamples : w'.samples.Sublist w.samples) : Inv np dof w' :=
  h.mono hclients hreceived (fun s v hv => h.recorded s v (hversions ▸ hv))
    (fun _ v hv => ⟨v, hversions ▸ hv, le_rfl⟩) (fun _ => hsamples.filterMap _)
    fun _ hx _ => hsamples.subset hx

/-- The newest of a list that may have got one more entry. -/
theorem getLast?_append_toList {α : Type} (xs : List α) (o : Option α) :
    (xs ++ o.toList).getLast? = o.or xs.getLast? := by
  cases o with
  | none => simp
  | some a => simp

/-- What a message does to the caches of its own side: a valid reading or telemetry frame replaces
the cached one, and anything else leaves both. -/
theorem receive_eq (c : Client) (side : String) (message : Message) :
    (c.receive np side (dof side) message).latest_joint_pos =
        (reading_of np dof side (side, message)).or c.latest_joint_pos ∧
      (c.receive np side (dof side) message).latest_telemetry =
        (telemetry_of np dof side (side, message)).or c.latest_telemetry ∧
      (c.receive np side (dof side) message).telemetry_version =
        c.telemetry_version + (telemetry_of np dof side (side, message)).toList.length := by
  unfold Client.receive reading_of telemetry_of
  rw [if_pos rfl, if_pos rfl]
  cases handle_stream_frame np side (dof side) message with
  | error e => exact ⟨rfl, rfl, rfl⟩
  | ok frame =>
    cases frame with
    | reading joint_pos => exact ⟨rfl, rfl, rfl⟩
    | telemetry fields => exact ⟨rfl, rfl, rfl⟩

/-- A message adds a reading of its side if it is one, and leaves those of the other sides. -/
theorem readings_receive (w : World) (side : String) (message : Message) (s : String) :
    (step np dof sides w (.receive side message)).readings np dof s =
      w.readings np dof s ++ (reading_of np dof s (side, message)).toList := by
  show (w.received ++ [(side, message)]).filterMap _ = _
  rw [List.filterMap_append]
  cases hreading : reading_of np dof s (side, message) <;> simp [World.readings, hreading]

/-- A message adds a telemetry frame of its side if it is one. -/
theorem frames_receive (w : World) (side : String) (message : Message) (s : String) :
    (step np dof sides w (.receive side message)).frames np dof s =
      w.frames np dof s ++ (telemetry_of np dof s (side, message)).toList := by
  show (w.received ++ [(side, message)]).filterMap _ = _
  rw [List.filterMap_append]
  cases htelemetry : telemetry_of np dof s (side, message) <;> simp [World.frames, htelemetry]

/-- A receiver's step keeps the invariant: new frames come at the end, so the versions that are
recorded keep their frames. -/
theorem Inv.receive {w : World} (h : Inv np dof w) (side : String) (message : Message) :
    Inv np dof (step np dof sides w (.receive side message)) := by
  have hclient : ∀ s, (step np dof sides w (.receive side message)).clients s =
      if s = side then (w.clients side).receive np side (dof side) message else w.clients s :=
    fun s => rfl
  have hother : ∀ s, s ≠ side → reading_of np dof s (side, message) = none ∧
      telemetry_of np dof s (side, message) = none :=
    fun s hs => ⟨if_neg fun heq => hs heq.symm, if_neg fun heq => hs heq.symm⟩
  refine ⟨?_, ?_, ?_, ?_, h.increasing, h.taken, ?_⟩
  · intro s
    rw [hclient, readings_receive, getLast?_append_toList]
    by_cases hs : s = side
    · subst hs
      rw [if_pos rfl, (receive_eq _ _ _).1, h.joint_pos]
    · rw [if_neg hs, (hother s hs).1, h.joint_pos]
      rfl
  · intro s
    rw [hclient, frames_receive, getLast?_append_toList]
    by_cases hs : s = side
    · subst hs
      rw [if_pos rfl, (receive_eq _ _ _).2.1, h.telemetry]
    · rw [if_neg hs, (hother s hs).2, h.telemetry]
      rfl
  · intro s
    rw [hclient, frames_receive, List.length_append]
    by_cases hs : s = side
    · subst hs
      rw [if_pos rfl, (receive_eq _ _ _).2.2, h.version]
    · rw [if_neg hs, (hother s hs).2, h.version]
      rfl
  · intro s v hv
    rw [frames_receive, List.length_append]
    exact (h.recorded s v hv).trans (Nat.le_add_right _ _)
  · intro x hx t ht
    obtain ⟨hpos, frame, hframe, hparse⟩ := h.whole x hx t ht
    refine ⟨hpos, frame, ?_, hparse⟩
    rw [frames_receive, List.getElem?_append_left (List.getElem?_eq_some_iff.1 hframe).1]
    exact hframe

/-- A side that is collected without telemetry publishes nothing of it, though its version may be
taken as seen. -/
theorem Inv.without {w w' : World} (h : Inv np dof w) (hclients : w'.clients = w.clients)
    (hreceived : w'.received = w.received)
    (hrecorded : ∀ s v, w'.telemetry_versions s = some v → v ≤ (w.frames np dof s).length)
    (hgrown : ∀ s v, w.telemetry_versions s = some v →
      ∃ v', w'.telemetry_versions s = some v' ∧ v ≤ v')
    {x : SideSample} (hx : x.telemetry = none) (hsamples : w'.samples = w.samples ++ [x]) :
    Inv np dof w' := by
  refine h.mono hclients hreceived hrecorded hgrown (fun _ => ?_) fun y hy hsome => ?_
  · have hnone : ∀ s, versions s [x] = [] := fun s => by simp [versions, hx]
    rw [hsamples, versions_append, hnone, List.append_nil]
  · rw [hsamples, List.mem_append, List.mem_singleton] at hy
    rcases hy with hold | rfl
    · exact hold
    · exact absurd hx hsome

/-- The latest telemetry of a client is the frame that its version counts. -/
theorem Inv.get_telemetry {w : World} (h : Inv np dof w) {side : String} {version : ℕ}
    {frame : List (String × Json)}
    (hget : (w.clients side).get_telemetry = some (version, frame)) :
    version = (w.frames np dof side).length ∧ 0 < version ∧
      (w.frames np dof side)[version - 1]? = some frame := by
  obtain ⟨latest, hlatest, heq⟩ := Option.map_eq_some_iff.1 hget
  obtain ⟨rfl, rfl⟩ := Prod.mk.inj heq
  rw [h.telemetry, List.getLast?_eq_getElem?] at hlatest
  have hversion := h.version side
  have hlt := (List.getElem?_eq_some_iff.1 hlatest).1
  -- a latest frame is there, so one was counted
  refine ⟨hversion, by omega, ?_⟩
  rw [hversion]
  exact hlatest

/-- A side that is collected with the telemetry of a new version. -/
theorem Inv.collected {w w' : World} (h : Inv np dof w) (hclients : w'.clients = w.clients)
    (hreceived : w'.received = w.received) {side : String} {joint_pos : List Ieee} {version : ℕ}
    {frame : List (String × Json)} {fields : List (String × List Ieee)}
    (hget : (w.clients side).get_telemetry = some (version, frame))
    (hnew : w.telemetry_versions side ≠ some version)
    (hparse : parse_telemetry np (dof side) frame = .ok fields)
    (hversions : ∀ s, w'.telemetry_versions s =
      if s = side then some version else w.telemetry_versions s)
    (hsamples : w'.samples = w.samples ++ [⟨side, joint_pos, some ⟨version, fields⟩⟩]) :
    Inv np dof w' := by
  obtain ⟨hcount, hpos, hframe⟩ := h.get_telemetry hget
  have hframes := frames_of_received np dof hreceived
  have hreadings := readings_of_received np dof hreceived
  -- all that has been taken of the side is older
  have holder : ∀ v ∈ versions side w.samples, v < version := by
    intro v hv
    obtain ⟨last, hlast, hle⟩ := h.taken side v hv
    have hbound := h.recorded side last hlast
    have hne : last ≠ version := by
      rintro rfl
      exact hnew hlast
    omega
  have hlist : ∀ s, versions s w'.samples =
      versions s w.samples ++ if s = side then [version] else [] := by
    intro s
    rw [hsamples, versions_append]
    congr 1
    by_cases hs : s = side
    · rw [if_pos hs]
      simp [versions, hs]
    · rw [if_neg hs]
      simp [versions, Ne.symm hs]
  refine ⟨?_, ?_, ?_, ?_, ?_, ?_, ?_⟩
  · intro s
    rw [hclients, hreadings]
    exact h.joint_pos s
  · intro s
    rw [hclients, hframes]
    exact h.telemetry s
  · intro s
    rw [hclients, hframes]
    exact h.version s
  · intro s v hv
    rw [hframes]
    rw [hversions] at hv
    split at hv
    · rename_i hs
      rw [← Option.some.inj hv, hs, hcount]
    · exact h.recorded s v hv
  · intro s
    rw [hlist]
    split
    · rename_i hs
      subst hs
      rw [List.pairwise_append]
      refine ⟨h.increasing s, List.pairwise_singleton _ _, fun a ha b hb => ?_⟩
      rw [List.mem_singleton.1 hb]
      exact holder a ha
    · rw [List.append_nil]
      exact h.increasing s
  · intro s v hv
    rw [hlist] at hv
    rw [hversions]
    split at hv
    · rename_i hs
      subst hs
      rw [if_pos rfl]
      refine ⟨version, rfl, ?_⟩
      rcases List.mem_append.1 hv with hold | hnewest
      · exact (holder v hold).le
      · exact (List.mem_singleton.1 hnewest).le
    · rename_i hs
      rw [if_neg hs]
      rw [List.append_nil] at hv
      exact h.taken s v hv
  · intro x hx t ht
    rw [hframes]
    rw [hsamples, List.mem_append, List.mem_singleton] at hx
    rcases hx with hold | rfl
    · exact h.whole x hold t ht
    · obtain rfl := Option.some.inj ht
      exact ⟨hpos, frame, hframe, hparse⟩

/-- Appending a side's telemetry publishes a frame that is whole, or none, and takes the version as
seen either way. -/
theorem Inv.append {w : World} (h : Inv np dof w) {side : String} {joint_pos : List Ieee}
    {todo : List String} {sample : List SideSample}
    (hpc : w.pc = .appending side joint_pos todo sample) :
    Inv np dof (append_telemetry np dof w side joint_pos todo sample) := by
  have hsamples : w.samples = w.published.flatten ++ sample := by
    rw [World.samples, hpc]
    rfl
  have hsame : ∀ s v, w.telemetry_versions s = some v →
      ∃ v', w.telemetry_versions s = some v' ∧ v ≤ v' := fun s v hv => ⟨v, hv, le_rfl⟩
  have hadded : ∀ x : SideSample, w.published.flatten ++ (sample ++ [x]) = w.samples ++ [x] := by
    intro x
    rw [hsamples, List.append_assoc]
  unfold append_telemetry
  cases hget : (w.clients side).get_telemetry with
  | none => exact h.without rfl rfl h.recorded hsame rfl (hadded _)
  | some entry =>
    obtain ⟨version, frame⟩ := entry
    dsimp only
    by_cases hknown : w.telemetry_versions side = some version
    · rw [if_pos hknown]
      exact h.without rfl rfl h.recorded hsame rfl (hadded _)
    rw [if_neg hknown]
    obtain ⟨hcount, _, _⟩ := h.get_telemetry hget
    cases hparse : parse_telemetry np (dof side) frame with
    | ok fields =>
      exact h.collected rfl rfl hget hknown hparse (fun _ => rfl) (hadded _)
    | error e =>
      have hrecorded : ∀ s v, (if s = side then some version else w.telemetry_versions s) =
          some v → v ≤ (w.frames np dof s).length := by
        intro s v hv
        split at hv
        · rename_i hs
          rw [← Option.some.inj hv, hs, hcount]
        · exact h.recorded s v hv
      have hgrown : ∀ s v, w.telemetry_versions s = some v →
          ∃ v', (if s = side then some version else w.telemetry_versions s) = some v' ∧
            v ≤ v' := by
        intro s v hv
        by_cases hs : s = side
        · rw [if_pos hs]
          refine ⟨version, rfl, ?_⟩
          rw [hcount, ← hs]
          exact h.recorded s v hv
        · rw [if_neg hs]
          exact ⟨v, hv, le_rfl⟩
      cases e with
      | overflow_error =>
        -- the poll's samples are lost, and the version is not recorded
        refine h.keep rfl rfl rfl ?_
        show (w.published.flatten ++ []).Sublist _
        rw [hsamples, List.append_nil]
        exact List.sublist_append_left _ _
      | key_error => exact h.without rfl rfl hrecorded hgrown rfl (hadded _)
      | type_error => exact h.without rfl rfl hrecorded hgrown rfl (hadded _)
      | value_error => exact h.without rfl rfl hrecorded hgrown rfl (hadded _)

/-- Every step keeps the invariant, the receivers' as the polls', in whichever order they come. -/
theorem Inv.step {w : World} (h : Inv np dof w) (e : Event) :
    Inv np dof (step np dof sides w e) := by
  cases e with
  | receive side message => exact h.receive side message
  -- nothing is read or cached when a poll starts
  | poll =>
    cases hpc : w.pc with
    | idle =>
      have hstep : Intake.step np dof sides w .poll = { w with pc := .polling sides [] } := by
        simp only [Intake.step, hpc]
      rw [hstep]
      refine h.keep rfl rfl rfl ?_
      rw [World.samples, World.samples, hpc]
      rfl
    | polling todo sample => simpa only [Intake.step, hpc] using h
    | appending side joint_pos todo sample => simpa only [Intake.step, hpc] using h
    | raised => simpa only [Intake.step, hpc] using h
  -- a side without a fresh reading is left out of the sample
  | ask fresh =>
    cases hpc : w.pc with
    | idle => simpa only [Intake.step, hpc] using h
    | polling todo sample =>
      cases todo with
      | nil => simpa only [Intake.step, hpc] using h
      | cons side todo =>
        have hsamples : w.published.flatten ++ sample = w.samples := by
          rw [World.samples, hpc]
          rfl
        have hkept : ∀ pc : Pc, pc.sample = sample → Inv np dof { w with pc := pc } := by
          intro pc hsample
          refine h.keep rfl rfl rfl ?_
          show (w.published.flatten ++ pc.sample).Sublist w.samples
          rw [hsample, hsamples]
        simp only [Intake.step, hpc]
        split
        · exact hkept _ rfl
        · exact hkept _ rfl
    | appending side joint_pos todo sample => simpa only [Intake.step, hpc] using h
    | raised => simpa only [Intake.step, hpc] using h
  | append =>
    cases hpc : w.pc with
    | idle => simpa only [Intake.step, hpc] using h
    | polling todo sample => simpa only [Intake.step, hpc] using h
    | appending side joint_pos todo sample => simpa only [Intake.step, hpc] using h.append hpc
    | raised => simpa only [Intake.step, hpc] using h
  -- what was collected becomes published, so the samples stay the same
  | publish =>
    cases hpc : w.pc with
    | idle => simpa only [Intake.step, hpc] using h
    | polling todo sample =>
      cases todo with
      | nil =>
        simp only [Intake.step, hpc]
        refine h.keep rfl rfl rfl ?_
        rw [World.samples, World.samples, hpc]
        show ((if sample.isEmpty then w.published
          else w.published ++ [sample]).flatten ++ []).Sublist (w.published.flatten ++ sample)
        rw [List.append_nil]
        cases sample with
        | nil => exact List.sublist_append_left _ _
        | cons x rest =>
          show (w.published ++ [x :: rest]).flatten.Sublist (w.published.flatten ++ x :: rest)
          rw [List.flatten_append, List.flatten_singleton]
      | cons side todo => simpa only [Intake.step, hpc] using h
    | appending side joint_pos todo sample => simpa only [Intake.step, hpc] using h
    | raised => simpa only [Intake.step, hpc] using h

/-- By induction on the events, the caches and what is published are right in every run. -/
theorem inv_run (events : List Event) : Inv np dof (run np dof sides events) := by
  have hvalid : Runs.Valid (step np dof sides) (fun _ _ => True) World.new events :=
    Runs.Valid.of_forall (fun _ _ => trivial) events _
  exact Runs.run_induct (fun _ e _ h => h.step e) events _ inv_new hvalid

/-! ## All or nothing -/

/-- The cached reading is the last valid one among the messages of the side; without any there is
none. -/
def LastReading (np : Floats) (side : String) (dof : ℕ) (received : List (String × Message))
    (cached : Option (List Ieee)) : Prop :=
  match cached with
  | none => ∀ message, (side, message) ∈ received →
    ∀ joint_pos, ¬ Frames.Reading np side dof message joint_pos
  | some joint_pos => ∃ before message after, received = before ++ (side, message) :: after ∧
    Frames.Reading np side dof message joint_pos ∧
    ∀ later, (side, later) ∈ after → ∀ jp, ¬ Frames.Reading np side dof later jp

/-- The telemetry frames among the messages of a side, in order. -/
inductive TelemetryFrames (side : String) :
    List (String × Message) → List (List (String × Json)) → Prop
  | nil : TelemetryFrames side [] []
  | frame {message received fields frames} (valid : Frames.Telemetry side message fields)
      (rest : TelemetryFrames side received frames) :
      TelemetryFrames side ((side, message) :: received) (fields :: frames)
  | other {entry received frames}
      (none : entry.1 = side → ∀ fields, ¬ Frames.Telemetry side entry.2 fields)
      (rest : TelemetryFrames side received frames) :
      TelemetryFrames side (entry :: received) frames

/-- The reading that a message is taken for is the one that its content says it is. -/
theorem reading_of_eq_some {side : String} {message : Message} {joint_pos : List Ieee} :
    reading_of np dof side (side, message) = some joint_pos ↔
      Frames.Reading np side (dof side) message joint_pos := by
  rw [← Frames.handle_reading_iff, reading_of, if_pos rfl]
  cases handle_stream_frame np side (dof side) message with
  | error e => simp
  | ok frame => cases frame <;> simp

/-- The telemetry that a message is taken for is the one that its content says it is. -/
theorem telemetry_of_eq_some {side : String} {message : Message}
    {fields : List (String × Json)} :
    telemetry_of np dof side (side, message) = some fields ↔
      Frames.Telemetry side message fields := by
  rw [← @Frames.handle_telemetry_iff np side (dof side), telemetry_of, if_pos rfl]
  cases handle_stream_frame np side (dof side) message with
  | error e => simp
  | ok frame => cases frame <;> simp

/-- The last reading by content is the last that was accepted, so the cache may be spoken of by what
messages say. -/
theorem lastReading_readings (received : List (String × Message)) (side : String) :
    LastReading np side (dof side) received
      (received.filterMap (reading_of np dof side)).getLast? := by
  -- from the end: the newest message is a reading of the side, or the ones before it decide
  induction received using List.reverseRecOn with
  | nil => exact fun message h => nomatch h
  | append_singleton received entry ih =>
    rw [List.filterMap_append]
    cases hentry : reading_of np dof side entry with
    | some joint_pos =>
      obtain ⟨s, message⟩ := entry
      have hs : s = side := by
        by_contra hs
        rw [reading_of, if_neg hs] at hentry
        cases hentry
      subst hs
      simp only [List.filterMap_cons, hentry, List.filterMap_nil, List.getLast?_append,
        List.getLast?_singleton, Option.some_or]
      exact ⟨received, message, [], rfl, reading_of_eq_some.1 hentry, fun _ h => nomatch h⟩
    | none =>
      have hinvalid : ∀ message, entry = (side, message) →
          ∀ jp, ¬ Frames.Reading np side (dof side) message jp := by
        rintro message rfl jp hjp
        rw [reading_of_eq_some.2 hjp] at hentry
        cases hentry
      simp only [List.filterMap_cons, hentry, List.filterMap_nil, List.append_nil]
      revert ih
      cases (received.filterMap (reading_of np dof side)).getLast? with
      | none =>
        intro ih message h
        rcases List.mem_append.1 h with hold | hnew
        · exact ih message hold
        · exact hinvalid message (List.mem_singleton.1 hnew).symm
      | some joint_pos =>
        rintro ⟨before, message, after, rfl, hvalid, hafter⟩
        refine ⟨before, message, after ++ [entry], by simp, hvalid, fun later h => ?_⟩
        rcases List.mem_append.1 h with hold | hnew
        · exact hafter later hold
        · exact hinvalid later (List.mem_singleton.1 hnew).symm

/-- The telemetry frames by content are those that were accepted, in the order in which they were
received. -/
theorem telemetryFrames_frames (received : List (String × Message)) (side : String) :
    TelemetryFrames side received (received.filterMap (telemetry_of np dof side)) := by
  induction received with
  | nil => exact .nil
  | cons entry rest ih =>
    obtain ⟨s, message⟩ := entry
    rw [List.filterMap_cons]
    by_cases hs : s = side
    · subst hs
      cases hentry : telemetry_of np dof s (s, message) with
      | some fields => exact .frame (telemetry_of_eq_some.1 hentry) ih
      | none =>
        refine .other (fun _ fields h => ?_) ih
        rw [telemetry_of_eq_some.2 h] at hentry
        cases hentry
    · rw [telemetry_of, if_neg hs]
      exact .other (fun h => absurd h hs) ih

/-- A frame that is new and whole is collected when its side is. -/
theorem append_whole {w : World} {side : String} {joint_pos : List Ieee} {todo : List String}
    {sample : List SideSample} (hpc : w.pc = .appending side joint_pos todo sample) {version : ℕ}
    {frame : List (String × Json)} {fields : List (String × List Ieee)}
    (hget : (w.clients side).get_telemetry = some (version, frame))
    (hnew : w.telemetry_versions side ≠ some version)
    (hwhole : Whole np (dof side) frame fields) :
    (step np dof sides w .append).pc =
      .polling todo (sample ++ [⟨side, joint_pos, some ⟨version, fields⟩⟩]) := by
  simp only [step, hpc, append_telemetry, hget, if_neg hnew, parse_telemetry_iff.2 hwhole]

/-- In every run of receivers and polls the cached reading is the last valid one of the side, and
a message that is no valid reading never changes it; the telemetry version counts the valid
telemetry frames; and a version is published at most once, with every declared field of its own
frame, all finite and of the declared widths. A new frame that is whole is published whole. -/
theorem intake_all_or_nothing (np : Floats) (dof : String → ℕ) (sides : List String)
    (events : List Event) (side : String) :
    let w := run np dof sides events
    LastReading np side (dof side) w.received (w.clients side).latest_joint_pos ∧
    (∀ s message, (∀ jp, ¬ Frames.Reading np s (dof s) message jp) →
      ((step np dof sides w (.receive s message)).clients side).latest_joint_pos =
        (w.clients side).latest_joint_pos) ∧
    ∃ frames, TelemetryFrames side w.received frames ∧
      (w.clients side).telemetry_version = frames.length ∧
      (w.clients side).latest_telemetry = frames.getLast? ∧
      -- what is published, and what is on its way
      (versions side w.samples).Pairwise (· < ·) ∧
      (∀ x ∈ w.samples, x.side = side → ∀ t, x.telemetry = some t →
        0 < t.version ∧ ∃ frame, frames[t.version - 1]? = some frame ∧
          Whole np (dof side) frame t.fields ∧
          (t.fields.map fun p => (p.1, p.2.length)) = declared (dof side) ∧
          ∀ p ∈ t.fields, ∀ v ∈ p.2, v.isFinite = true) ∧
      ∀ joint_pos todo sample, w.pc = .appending side joint_pos todo sample →
        ∀ frame, frames.getLast? = some frame →
          w.telemetry_versions side ≠ some frames.length →
            ∀ fields, Whole np (dof side) frame fields →
              (step np dof sides w .append).pc =
                .polling todo (sample ++ [⟨side, joint_pos, some ⟨frames.length, fields⟩⟩]) := by
  intro w
  have h : Inv np dof w := inv_run events
  refine ⟨?_, ?_, w.frames np dof side, telemetryFrames_frames w.received side, h.version side,
    h.telemetry side, h.increasing side, ?_, ?_⟩
  · rw [h.joint_pos side]
    exact lastReading_readings w.received side
  · intro s message hinvalid
    show (if side = s then (w.clients s).receive np s (dof s) message
      else w.clients side).latest_joint_pos = _
    by_cases hs : side = s
    · subst hs
      have hnone : reading_of np dof side (side, message) = none := by
        rw [Option.eq_none_iff_forall_ne_some]
        exact fun jp hjp => hinvalid jp (reading_of_eq_some.1 hjp)
      rw [if_pos rfl, (receive_eq _ _ _).1, hnone]
      rfl
    · rw [if_neg hs]
  · rintro x hx rfl t ht
    obtain ⟨hpos, frame, hframe, hparse⟩ := h.whole x hx t ht
    have hwhole := parse_telemetry_iff.1 hparse
    exact ⟨hpos, frame, hframe, hwhole, hwhole.declared, hwhole.finite⟩
  · intro joint_pos todo sample hpc frame hframe hnew fields hwhole
    have hget : (w.clients side).get_telemetry =
        some ((w.frames np dof side).length, frame) := by
      rw [Client.get_telemetry, h.telemetry, hframe, h.version]
      rfl
    exact append_whole hpc hget hnew hwhole

end Invariant

/-! ## One frame -/

/-- Arrays of floats. -/
def vectors : Floats where
  asarray
    | .arr xs => match xs.mapM (fun x => match x with | .float x => some x | _ => none) with
      | some values => .ok (.vector values)
      | none => .error .value_error
    | _ => .error .value_error
  of_string _ := none
  of_int i := some (.fin i)

/-- The telemetry of a leader of one joint. -/
def one_joint : List (String × Json) :=
  [("side", .str "left"), ("type", .str "telemetry")] ++
    TELEMETRY_VECTOR_FIELDS.map (·, .arr [.float (.fin 1)]) ++
    TELEMETRY_SCALAR_FIELDS.map (·, .float (.fin 0))

/-- Its reading, its telemetry and one that is malformed, each polled. -/
def three_frames : List Event :=
  [.receive "left" (some (.obj [("side", .str "left"), ("type", .str "reading"),
      ("q", .arr [.float (.fin 1), .float (.fin 2)])])),
    .receive "left" (some (.obj one_joint)), .poll, .ask true, .append, .publish,
    .receive "left" (some (.obj [("side", .str "left"), ("type", .str "telemetry")])),
    .poll, .ask true, .append, .publish]

/-- What it is published as. -/
def first_fields : List (String × List Ieee) :=
  TELEMETRY_VECTOR_FIELDS.map (·, [.fin 1]) ++ TELEMETRY_SCALAR_FIELDS.map (·, [.fin 0])

def first_sample : SideSample := ⟨"left", [.fin 1, .fin 2], some ⟨1, first_fields⟩⟩

/-- The reading stays while the malformed frame comes, both telemetry frames count, and the first is
published whole. -/
theorem intake_three_frames :
    let w := run vectors (fun _ => 2) ["left"] three_frames
    w.published = [[first_sample], [⟨"left", [.fin 1, .fin 2], none⟩]] ∧
    LastReading vectors "left" 2 w.received (some [.fin 1, .fin 2]) ∧
    ∃ frames, TelemetryFrames "left" w.received frames ∧ frames.length = 2 ∧
      ∃ frame, frames[0]? = some frame ∧ Whole vectors 2 frame first_fields := by
  have hpublished : (run vectors (fun _ => 2) ["left"] three_frames).published =
      [[first_sample], [⟨"left", [.fin 1, .fin 2], none⟩]] := rfl
  obtain ⟨hreading, _, frames, hframes, hversion, _, _, hwhole, _⟩ :=
    intake_all_or_nothing vectors (fun _ => 2) ["left"] three_frames "left"
  have hsample : first_sample ∈ (run vectors (fun _ => 2) ["left"] three_frames).samples := by
    rw [World.samples, hpublished]
    exact List.mem_append_left _ (List.mem_cons_self ..)
  obtain ⟨_, frame, hframe, hfields, _⟩ := hwhole first_sample hsample rfl _ rfl
  exact ⟨hpublished, hreading, frames, hframes, hversion.symm, frame, hframe, hfields⟩

end DualFlexivControl.Factr.Intake
