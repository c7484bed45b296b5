/-
Stream names and what the viewers make of them: `visualization/schema.py` and the plot definitions
of `plotly_dash/view.py`.

A viewer knows a stream by its name alone. `parse_stream_name` reads a route off the name and
refuses what it does not know, at the start of the viewer process; a route is all that the viewer
looks at later. So two things must hold: no two names have the same route, and every name a viewer
is started with has one. The first does, since a name can be put together again from its route
([`StreamRoute.name`]); the second depends on the names of the cameras only.
-/
import DualFlexivControl.Streams.Declared

set_option autoImplicit false

namespace DualFlexivControl.Viewers

open DualFlexivControl.Streams

/-! ## Routes -/

def SIDES : List String := ["left", "right"]

inductive RouteKind
  | proprio
  | factr
  | horizon
  | policy
  | camera
  deriving DecidableEq, Repr

structure StreamRoute where
  kind : RouteKind
  side : Option String
  signal : String
  deriving DecidableEq, Repr

/-- `name.split("/")` -/
def path_split (name : String) : List String := (name.toList.splitOn '/').map String.ofList

/-- `none` is the `ValueError` of a name without an adapter. -/
def parse_stream_name (name : String) : Option StreamRoute :=
  match path_split name with
  | [a, b] =>
    if a ∈ SIDES ∧ b ∈ PROPRIO_SIGNALS then some ⟨.proprio, some a, b⟩
    else if a = "factr" ∧ b ∈ SIDES then some ⟨.factr, some b, "leader"⟩
    else if name = "eval/policy_comm" then some ⟨.policy, none, "comm"⟩
    else none
  | [a, b, c] =>
    if a = "factr" ∧ b = "raw" ∧ c ∈ SIDES then some ⟨.factr, some c, "raw"⟩
    else if a = "eval" ∧ b ∈ SIDES ∧ c ∈ ["q_horizon", "eef_horizon"] then
      some ⟨.horizon, some b, c⟩
    else if a = "cam" then some ⟨.camera, some b, c⟩
    else none
  | [a, b, c, d] =>
    if a = "factr" ∧ b = "telemetry" ∧ c ∈ SIDES ∧
        d ∈ TELEMETRY_VECTOR_FIELDS ++ TELEMETRY_SCALAR_FIELDS then some ⟨.factr, some c, d⟩
    else none
  | _ => none

/-- The name a route was read off. -/
def StreamRoute.name (route : StreamRoute) : String :=
  let side := route.side.getD ""
  match route.kind with
  | .proprio => side ++ "/" ++ route.signal
  | .factr =>
    if route.signal = "leader" then "factr/" ++ side
    else if route.signal = "raw" then "factr/raw/" ++ side
    else "factr/telemetry/" ++ side ++ "/" ++ route.signal
  | .horizon => "eval/" ++ side ++ "/" ++ route.signal
  | .policy => "eval/policy_comm"
  | .camera => "cam/" ++ side ++ "/" ++ route.signal

/-- What a manifest says of a stream's samples. -/
structure EntryShape where
  dtype : String
  dim : ℕ
  deriving DecidableEq, Repr

/-- `entry_matches` -/
def entry_matches (route : StreamRoute) (entry : EntryShape) : Bool :=
  if route.kind = .camera then decide (0 < entry.dim)
  else if entry.dtype ∉ ["float32", "float64"] ∨ entry.dim = 0 then false
  else if route.kind = .proprio ∧ route.signal = "eef" then decide (3 ≤ entry.dim)
  else if route.kind = .policy then decide (entry.dim = 3)
  else true

/-! ## The names the viewers are started with -/

/-- `scene_stream_names` -/
def scene_stream_names (sides camera_names : List String) : List String :=
  (sides.flatMap fun side =>
    [side ++ "/q", side ++ "/eef", "factr/" ++ side,
      "factr/telemetry/" ++ side ++ "/model_q_rad",
      "eval/" ++ side ++ "/q_horizon", "eval/" ++ side ++ "/eef_horizon"]) ++
  camera_names.flatMap fun camera => ["cam/" ++ camera ++ "/left", "cam/" ++ camera ++ "/depth"]

/-- `plot_stream_names` -/
def plot_stream_names (sides : List String) : List String :=
  (sides.flatMap fun side => PROPRIO_SIGNALS.map fun signal => side ++ "/" ++ signal) ++
  (sides.flatMap fun side =>
    ["factr/" ++ side, "factr/raw/" ++ side] ++
      (TELEMETRY_VECTOR_FIELDS ++ TELEMETRY_SCALAR_FIELDS).map fun field =>
        "factr/telemetry/" ++ side ++ "/" ++ field) ++
  ["eval/policy_comm"]

/-- `default_stream_names`: the union, in the order of first occurrence. -/
def default_stream_names (sides camera_names : List String) : List String :=
  (plot_stream_names sides ++ scene_stream_names sides camera_names).eraseDups

/-! ## A name from its route -/

section Names

variable {name : String}

/-- The parts of a name, joined, are the name. -/
theorem toList_of_parts :
    name.toList = ['/'].intercalate ((path_split name).map String.toList) := by
  unfold path_split
  have hlist : String.toList ∘ String.ofList = id := funext fun _ => String.toList_ofList
  rw [List.map_map, hlist, List.map_id, List.intercalate_splitOn]

theorem name_of_two {a b : String} (h : path_split name = [a, b]) : name = a ++ "/" ++ b := by
  rw [← String.toList_inj, toList_of_parts, h]
  simp [List.intercalate]

theorem name_of_three {a b c : String} (h : path_split name = [a, b, c]) :
    name = a ++ "/" ++ b ++ "/" ++ c := by
  rw [← String.toList_inj, toList_of_parts, h]
  simp [List.intercalate]

theorem name_of_four {a b c d : String} (h : path_split name = [a, b, c, d]) :
    name = a ++ "/" ++ b ++ "/" ++ c ++ "/" ++ d := by
  rw [← String.toList_inj, toList_of_parts, h]
  simp [List.intercalate]

/-- No slash. -/
def Slashless (s : String) : Prop := '/' ∉ s.toList

instance : DecidablePred Slashless := fun s => inferInstanceAs (Decidable ('/' ∉ s.toList))

/-- A name is split at a slash, and what is on either side of it. -/
theorem path_split_append (a b : String) :
    path_split (a ++ "/" ++ b) = path_split a ++ path_split b := by
  have hjoin : (a ++ "/" ++ b).toList = a.toList ++ '/' :: b.toList := by simp
  unfold path_split
  rw [hjoin, List.splitOn_append_cons_self, List.map_append]

theorem Slashless.path_split {a : String} (h : Slashless a) : path_split a = [a] := by
  unfold Viewers.path_split
  rw [List.splitOn_eq_singleton h, List.map_singleton, String.ofList_toList]

theorem path_split_ne_nil (a : String) : path_split a ≠ [] := by
  unfold path_split
  rw [ne_eq, List.map_eq_nil_iff]
  exact List.splitOn_ne_nil _ _

/-- A name with a slash has at least two parts, and this is what makes it unreadable as a part of a
longer one. -/
theorem two_parts {a : String} (h : ¬ Slashless a) :
    ∃ first second rest, path_split a = first :: second :: rest := by
  obtain ⟨front, back, hsplit⟩ := List.append_of_mem (not_not.1 h)
  have ha : a = String.ofList front ++ "/" ++ String.ofList back := by
    rw [← String.toList_inj, hsplit]
    simp
  rw [ha, path_split_append]
  obtain ⟨first, rest, hfirst⟩ := List.exists_cons_of_ne_nil (path_split_ne_nil (.ofList front))
  obtain ⟨second, rest', hsecond⟩ := List.exists_cons_of_ne_nil (path_split_ne_nil (.ofList back))
  rw [hfirst, hsecond]
  cases rest with
  | nil => exact ⟨first, second, rest', rfl⟩
  | cons third rest => exact ⟨first, third, _, rfl⟩

/-- The route of a name says the name: what was parsed is put together to the same text again. -/
theorem name_parse {route : StreamRoute} (h : parse_stream_name name = some route) :
    route.name = name := by
  unfold parse_stream_name at h
  split at h
  · rename_i a b hparts
    -- two parts: an arm's signal, a leader, or the policy's events
    rw [name_of_two hparts] at h ⊢
    split at h
    · obtain rfl := Option.some.inj h
      rfl
    split at h
    · rename_i hleader
      obtain rfl := Option.some.inj h
      rw [hleader.1]
      rfl
    split at h
    · rename_i hcomm
      obtain rfl := Option.some.inj h
      exact hcomm.symm
    · exact nomatch h
  · rename_i a b c hparts
    -- three parts: a raw leader, a horizon, or a camera's view
    rw [name_of_three hparts] at *
    split at h
    · rename_i hraw
      obtain rfl := Option.some.inj h
      rw [hraw.1, hraw.2.1]
      rfl
    split at h
    · rename_i hhorizon
      obtain rfl := Option.some.inj h
      rw [hhorizon.1]
      rfl
    split at h
    · rename_i hcam
      obtain rfl := Option.some.inj h
      rw [hcam]
      rfl
    · exact nomatch h
  · rename_i a b c d hparts
    -- four parts: the telemetry of a leader
    rw [name_of_four hparts]
    split at h
    · rename_i htelemetry
      obtain ⟨rfl, rfl, -, hfield⟩ := htelemetry
      obtain rfl := Option.some.inj h
      have hfields : ∀ field ∈ TELEMETRY_VECTOR_FIELDS ++ TELEMETRY_SCALAR_FIELDS,
          field ≠ "leader" ∧ field ≠ "raw" := by decide
      obtain ⟨hleader, hraw⟩ := hfields d hfield
      unfold StreamRoute.name
      simp only [if_neg hleader, if_neg hraw, Option.getD_some]
      rfl
    · exact nomatch h
  · exact nomatch h

/-- A camera's stream has a route iff the camera's name has no slash. -/
theorem camera_parse_iff {camera path : String} (view : String) (hview : Slashless view)
    (hpath : path = "/" ++ view) :
    (parse_stream_name ("cam/" ++ camera ++ path)).isSome = true ↔ Slashless camera := by
  have hparts : path_split ("cam/" ++ camera ++ path) =
      "cam" :: (path_split camera ++ [view]) := by
    rw [hpath, ← String.append_assoc, path_split_append, hview.path_split,
      show "cam/" ++ camera = "cam" ++ "/" ++ camera from rfl, path_split_append]
    rfl
  constructor
  · intro h
    by_contra hslash
    obtain ⟨first, second, rest, hcamera⟩ := two_parts hslash
    rw [hcamera] at hparts
    unfold parse_stream_name at h
    rw [hparts] at h
    -- four parts and more, the first of them not `factr`
    cases rest with
    | nil => exact nomatch h
    | cons third rest =>
      cases rest with
      | nil => exact nomatch h
      | cons fourth rest => exact nomatch h
  · intro hcamera
    rw [hcamera.path_split] at hparts
    unfold parse_stream_name
    rw [hparts]
    simp

theorem slashless_of_side {side : String} (hside : side ∈ SIDES) : Slashless side := by
  have hall : ∀ side ∈ SIDES, Slashless side := by decide
  exact hall side hside

/-- A telemetry field has a route at every side, whether it is a vector or a scalar. -/
theorem telemetry_parse {side field : String} (hside : side ∈ SIDES)
    (hfield : field ∈ TELEMETRY_VECTOR_FIELDS ++ TELEMETRY_SCALAR_FIELDS) :
    (parse_stream_name ("factr/telemetry/" ++ side ++ "/" ++ field)).isSome = true := by
  have hfields : ∀ field ∈ TELEMETRY_VECTOR_FIELDS ++ TELEMETRY_SCALAR_FIELDS, Slashless field := by
    decide
  have hparts : path_split ("factr/telemetry/" ++ side ++ "/" ++ field) =
      ["factr", "telemetry", side, field] := by
    rw [path_split_append, (hfields field hfield).path_split,
      show "factr/telemetry/" ++ side = "factr/telemetry" ++ "/" ++ side from rfl,
      path_split_append, (slashless_of_side hside).path_split]
    rfl
  unfold parse_stream_name
  rw [hparts]
  dsimp only
  rw [if_pos ⟨rfl, rfl, hside, hfield⟩]
  rfl

/-- The names of a plot do not depend on the rig, only on its sides, and all of them have routes. -/
theorem plot_names_parse {sides : List String} (hsides : ∀ side ∈ sides, side ∈ SIDES) :
    ∀ name ∈ plot_stream_names sides, (parse_stream_name name).isSome = true := by
  have hproprio : ∀ side ∈ SIDES, ∀ signal ∈ PROPRIO_SIGNALS,
      (parse_stream_name (side ++ "/" ++ signal)).isSome = true := by decide +kernel
  have hleaders : ∀ side ∈ SIDES, ∀ name ∈ ["factr/" ++ side, "factr/raw/" ++ side],
      (parse_stream_name name).isSome = true := by decide +kernel
  intro name hname
  unfold plot_stream_names at hname
  rcases List.mem_append.1 hname with hname | hname
  · rcases List.mem_append.1 hname with hname | hname
    · obtain ⟨side, hside, hname⟩ := List.mem_flatMap.1 hname
      obtain ⟨signal, hsignal, rfl⟩ := List.mem_map.1 hname
      exact hproprio side (hsides side hside) signal hsignal
    · obtain ⟨side, hside, hname⟩ := List.mem_flatMap.1 hname
      rcases List.mem_append.1 hname with hname | hname
      · exact hleaders side (hsides side hside) name hname
      · obtain ⟨field, hfield, rfl⟩ := List.mem_map.1 hname
        exact telemetry_parse (hsides side hside) hfield
  · rw [List.mem_singleton.1 hname]
    decide

theorem scene_names_parse {sides : List String} (hsides : ∀ side ∈ sides, side ∈ SIDES) :
    ∀ name ∈ scene_stream_names sides [], (parse_stream_name name).isSome = true := by
  have hall : ∀ side ∈ SIDES, ∀ name ∈ scene_stream_names [side] [],
      (parse_stream_name name).isSome = true := by decide +kernel
  intro name hname
  unfold scene_stream_names at hname
  rw [List.flatMap_nil, List.append_nil] at hname
  obtain ⟨side, hside, hname⟩ := List.mem_flatMap.1 hname
  refine hall side (hsides side hside) name ?_
  simpa only [scene_stream_names, List.flatMap_cons, List.flatMap_nil, List.append_nil] using hname

/-- Names and routes determine each other, and the viewers of a rig can read all of their names
exactly if no camera's name has a slash. -/
theorem stream_names_have_routes {sides : List String} (hsides : ∀ side ∈ sides, side ∈ SIDES)
    (camera_names : List String) :
    (∀ name route, parse_stream_name name = some route → route.name = name) ∧
      ((∀ name ∈ default_stream_names sides camera_names,
        (parse_stream_name name).isSome = true) ↔
        ∀ camera ∈ camera_names, Slashless camera) := by
  refine ⟨fun name route => name_parse, ?_⟩
  have hmem : ∀ name, name ∈ default_stream_names sides camera_names ↔
      name ∈ plot_stream_names sides ∨ name ∈ scene_stream_names sides [] ∨
        ∃ camera ∈ camera_names,
          name ∈ ["cam/" ++ camera ++ "/left", "cam/" ++ camera ++ "/depth"] := by
    intro name
    unfold default_stream_names scene_stream_names
    rw [List.mem_eraseDups, List.mem_append, List.mem_append, List.flatMap_nil, List.append_nil,
      List.mem_flatMap (l := camera_names)]
  constructor
  · intro hall camera hcamera
    have hleft := hall ("cam/" ++ camera ++ "/left")
      ((hmem _).2 (.inr (.inr ⟨camera, hcamera, List.mem_cons_self⟩)))
    exact (camera_parse_iff "left" (by decide) rfl).1 hleft
  · intro hcameras name hname
    rcases (hmem name).1 hname with hplot | hscene | ⟨camera, hcamera, hview⟩
    · exact plot_names_parse hsides name hplot
    · exact scene_names_parse hsides name hscene
    · simp only [List.mem_cons, List.not_mem_nil, or_false] at hview
      rcases hview with rfl | rfl
      · exact (camera_parse_iff "left" (by decide) rfl).2 (hcameras camera hcamera)
      · exact (camera_parse_iff "depth" (by decide) rfl).2 (hcameras camera hcamera)

/-- The rig of the tests: two arms and three cameras. -/
theorem bimanual_names_have_routes :
    ((default_stream_names SIDES ["wrist_left", "wrist_right", "static"]).all fun name =>
      (parse_stream_name name).isSome) = true :=
  List.all_eq_true.2 ((stream_names_have_routes (fun _ h => h) _).2.2 (by decide))

end Names

end DualFlexivControl.Viewers
