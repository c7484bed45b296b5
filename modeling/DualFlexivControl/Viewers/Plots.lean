/-
The live plots: `PlotStore` of `plotly_dash/view.py`, filled by the consumer's thread, and the pages
that poll it.

A page tells the server which samples it has and is sent some newer ones; it never says what it
shows. Between its request and the answer's arrival the store goes on: samples come, old ones fall
out of the window, the run ends and another begins. The epoch in the page's cursor is all that
keeps samples of two runs apart.

Over all interleavings with any number of pages, what a graph shows are samples of one run in
their order, none twice, up to the one its cursor names, and it is the run that the page's status
line names ([`Shows`]). A page that falls behind loses samples; one that never has more than
`MAX_CATCHUP_SAMPLES` to fetch shows an unbroken piece.

The browser's part is what Plotly documents: a figure that is sent replaces the graph, and
`extendData` appends to each trace and drops its oldest points. A page has one update under way at
a time, since the interval that triggers them is disabled meanwhile.
-/
import DualFlexivControl.Lib.CatchUp
import DualFlexivControl.Lib.Ieee
import DualFlexivControl.Lib.Runs
import DualFlexivControl.Viewers.Routes

set_option autoImplicit false

namespace DualFlexivControl.Viewers.Plots

open DualFlexivControl.Streams

/-! ## The graphs -/

def HISTORY_LENGTH : ℕ := 1024

def MAX_CATCHUP_SAMPLES : ℕ := 3

def FOLLOWER_GRID_SIGNALS : List String := ["eef", "q", "dq", "tau", "tau_ext", "wrench", "eef_vel"]

/-- The keys of `FACTR_TITLES`. -/
def LEADER_GRID_SIGNALS : List String :=
  ["q", "grip", "raw"] ++ TELEMETRY_VECTOR_FIELDS ++ TELEMETRY_SCALAR_FIELDS

def POLICY_COUNTER_LABELS : List String := ["sent", "received", "errors", "in flight"]

/-- `PROPRIO_DIMS` -/
def proprio_dim (signal : String) : ℕ :=
  if signal = "eef" then 3 else if signal = "wrench" ∨ signal = "eef_vel" then 6 else 7

structure PlotSpec where
  key : String
  stream_name : String
  tab : String
  route : StreamRoute
  dim : ℕ
  deriving DecidableEq, Repr

def component_labels (route : StreamRoute) (dim : ℕ) : List String :=
  let labels :=
    if route.kind = .policy ∧ route.signal = "packets" then POLICY_COUNTER_LABELS
    else if route.kind = .policy ∧ route.signal = "latency_ms" then ["ms"]
    else if route.signal ∈ ["q", "dq", "tau", "tau_ext", "leader"] ∨
        "torque".toList <:+: route.signal.toList then
      (List.range dim).map fun i => s!"J{i + 1}"
    else if route.signal = "wrench" then ["Fx", "Fy", "Fz", "Mx", "My", "Mz"]
    else if route.signal = "eef" then ["x", "y", "z"]
    else if route.signal = "eef_vel" then ["vx", "vy", "vz", "wx", "wy", "wz"]
    else []
  (List.range dim).map fun i => labels.getD i s!"[{i}]"

/-- The stream of a leader's graph and its width. -/
def leader_stream (side signal : String) : String × ℕ :=
  if signal = "q" then ("factr/" ++ side, 7)
  else if signal = "grip" then ("factr/" ++ side, 1)
  else if signal = "raw" then ("factr/raw/" ++ side, 8)
  else if signal ∈ TELEMETRY_VECTOR_FIELDS then ("factr/telemetry/" ++ side ++ "/" ++ signal, 7)
  else ("factr/telemetry/" ++ side ++ "/" ++ signal, 1)

def PLOT_SPECS : List PlotSpec :=
  (FOLLOWER_GRID_SIGNALS.flatMap fun signal => SIDES.map fun side =>
    ⟨"follower/" ++ side ++ "/" ++ signal, side ++ "/" ++ signal, "follower",
      ⟨.proprio, some side, signal⟩, proprio_dim signal⟩) ++
  (LEADER_GRID_SIGNALS.flatMap fun signal => SIDES.map fun side =>
    ⟨"leader/" ++ side ++ "/" ++ signal, (leader_stream side signal).1, "leader",
      ⟨.factr, some side, signal⟩, (leader_stream side signal).2⟩) ++
  [⟨"policy/packets", "eval/policy_comm", "policy", ⟨.policy, none, "packets"⟩, 4⟩,
   ⟨"policy/latency_ms", "eval/policy_comm", "policy", ⟨.policy, none, "latency_ms"⟩, 1⟩]

/-- `SPEC_BY_KEY` -/
def spec_by_key (key : String) : Option PlotSpec := PLOT_SPECS.find? fun spec => spec.key = key

/-! ## The store -/

/-- A sample of a graph: its time since the first one of the run, and its components. -/
structure Point where
  x : ℚ
  y : List Ieee
  deriving DecidableEq

/-- `_Series` -/
structure Series where
  points : List (ℕ × Point)
  version : ℕ
  deriving DecidableEq

def Series.empty : Series := ⟨[], 0⟩

def Series.append (series : Series) (point : Point) : Series :=
  ⟨(series.points ++ [(series.version + 1, point)]).rtake HISTORY_LENGTH, series.version + 1⟩

/-- The samples after a cursor, as many as are sent at once. -/
def Series.fresh (series : Series) (cursor : ℕ) : List (ℕ × Point) :=
  (series.points.filter fun point => decide (cursor < point.1)).rtake MAX_CATCHUP_SAMPLES

structure PlotStore where
  series : String → Series
  epoch : ℕ
  run_id : Option String
  origin_t_ns : Option ℤ

/-- Newer samples of a graph, and the version of the last one. -/
structure Fresh where
  version : ℕ
  x : List ℚ
  y : List (List Ieee)
  deriving DecidableEq

structure Snapshot where
  epoch : ℕ
  run_id : Option String
  available : String → Bool
  series : String → Option Fresh

namespace PlotStore

def init : PlotStore := ⟨fun _ => .empty, 0, none, none⟩

variable (store : PlotStore)

/-- `_reset` -/
def reset (run_id : Option String) : PlotStore :=
  ⟨fun _ => .empty, store.epoch + 1, run_id, none⟩

def attach (run_id : String) : PlotStore :=
  if store.run_id = some run_id then store else store.reset (some run_id)

def detach : PlotStore := if store.run_id.isSome then store.reset none else store

/-- The sample as it is stored. -/
def point (value : List Ieee) (t_ns : ℤ) : Point :=
  ⟨(t_ns - store.origin_t_ns.getD t_ns : ℤ) / 1000000000, value⟩

/-- `append`: `none` is the `KeyError` of an unknown graph. -/
def append (key : String) (value : List Ieee) (t_ns : ℤ) : Option (Bool × PlotStore) :=
  (spec_by_key key).map fun spec =>
    if value.length = spec.dim ∧ value.all Ieee.isFinite then
      (true, { store with
        origin_t_ns := some (store.origin_t_ns.getD t_ns)
        series := Function.update store.series key
          ((store.series key).append (store.point value t_ns)) })
    else (false, store)

def snapshot (cursors : String → Option ℕ) : Snapshot where
  epoch := store.epoch
  run_id := store.run_id
  available key := !(store.series key).points.isEmpty
  series key :=
    let fresh := (store.series key).fresh ((cursors key).getD 0)
    fresh.getLast?.map fun newest =>
      ⟨newest.1, fresh.map fun point => point.2.x, fresh.map fun point => point.2.y⟩

end PlotStore

/-! ## The callback and the page -/

/-- The content of `plot-cursors`. -/
structure Cursor where
  epoch : ℕ
  versions : String → Option ℕ

/-- The `extendData` of a graph. -/
structure Extension where
  x : List (List ℚ)
  y : List (List Ieee)
  traces : List ℕ
  max_points : ℕ
  deriving DecidableEq

/-- What an update sends: whether empty figures, the extensions, which tabs' notes are hidden, the
cursor, and the run in the status line. -/
structure Response where
  clear : Bool
  extensions : String → Option Extension
  hidden : String → Bool
  cursor : Cursor
  run_id : Option String

/-- The tabs with a sample. -/
def Snapshot.hidden (snapshot : Snapshot) (tab : String) : Bool :=
  PLOT_SPECS.any fun spec => spec.tab = tab && snapshot.available spec.key

/-- The answer that begins an epoch. -/
def Snapshot.restart (snapshot : Snapshot) (clear : Bool) : Response :=
  ⟨clear, fun _ => none, snapshot.hidden, ⟨snapshot.epoch, fun _ => none⟩, snapshot.run_id⟩

/-- The answer within an epoch. -/
def Snapshot.extend (snapshot : Snapshot) (cursor : Cursor) : Response where
  clear := false
  extensions key := (spec_by_key key).bind fun spec => (snapshot.series key).map fun fresh =>
    ⟨(List.range spec.dim).map fun _ => fresh.x,
      (List.range spec.dim).map fun i => fresh.y.map fun row => row.getD i 0,
      List.range spec.dim, HISTORY_LENGTH⟩
  hidden := snapshot.hidden
  cursor := ⟨snapshot.epoch, fun key =>
    match spec_by_key key, snapshot.series key with
    | some _, some fresh => some fresh.version
    | _, _ => cursor.versions key⟩
  run_id := snapshot.run_id

/-- `update_plots`. A page that was just loaded sends no cursor, and has empty figures. -/
def update_plots (store : PlotStore) (cursor : Option Cursor) : Response :=
  let snapshot := store.snapshot ((cursor.map Cursor.versions).getD fun _ => none)
  match cursor with
  | none => snapshot.restart false
  | some cursor =>
    if cursor.epoch ≠ snapshot.epoch then snapshot.restart true else snapshot.extend cursor

structure Trace where
  name : String
  x : List ℚ
  y : List Ieee
  deriving DecidableEq

/-- The traces of `empty_figure`. -/
def empty_figure (spec : PlotSpec) : List Trace :=
  (component_labels spec.route spec.dim).map fun label => ⟨label, [], []⟩

/-- What the browser does with an extension: it appends to each trace that is named and keeps its
newest points. -/
def Extension.apply (e : Extension) (figure : List Trace) : List Trace :=
  figure.mapIdx fun k trace =>
    match (e.traces.zip (e.x.zip e.y)).lookup k with
    | none => trace
    | some (x, y) =>
      { trace with x := (trace.x ++ x).rtake e.max_points, y := (trace.y ++ y).rtake e.max_points }

/-- An open page: its graphs, what it will send, its status line, its notes, and an answer on its
way to it. -/
structure Page where
  figures : String → List Trace
  cursor : Option Cursor
  run_id : Option String
  hidden : String → Bool
  pending : Option Response

/-- The empty figure of a graph. -/
def figure_of (key : String) : List Trace := ((spec_by_key key).map empty_figure).getD []

/-- The layout as it is served. -/
def Page.loaded : Page := ⟨figure_of, none, none, fun _ => false, none⟩

/-- An answer arrives. -/
def Page.apply (page : Page) (r : Response) : Page where
  figures key :=
    let figure := if r.clear then figure_of key else page.figures key
    ((r.extensions key).map fun e => e.apply figure).getD figure
  cursor := some r.cursor
  run_id := r.run_id
  hidden := r.hidden
  pending := none

/-! ## Everything together -/

/-- The store, the pages, and what no code keeps: the samples every epoch took in, and its run. -/
structure World where
  store : PlotStore
  pages : ℕ → Page
  past : ℕ → String → List Point
  runs : ℕ → Option String

def World.init : World := ⟨.init, fun _ => .loaded, fun _ _ => [], fun _ => none⟩

/-- The consumer attaches, detaches or appends; a page's request is served, its answer arrives or
is lost, or the page is loaded again. -/
inductive PlotEvent
  | attach (run_id : String)
  | detach
  | append (key : String) (value : List Ieee) (t_ns : ℤ)
  | serve (page : ℕ)
  | deliver (page : ℕ)
  | lose (page : ℕ)
  | reload (page : ℕ)

namespace World

variable (w : World)

/-- The store was attached or detached. -/
def switch (store : PlotStore) : World :=
  { w with store := store, runs := Function.update w.runs store.epoch store.run_id }

def set_page (i : ℕ) (page : Page) : World := { w with pages := Function.update w.pages i page }

def step : PlotEvent → World
  | .attach run_id => w.switch (w.store.attach run_id)
  | .detach => w.switch w.store.detach
  | .append key value t_ns =>
    match w.store.append key value t_ns with
    | some (true, store) =>
      { w with
        store := store
        past := Function.update w.past w.store.epoch (Function.update (w.past w.store.epoch) key
          (w.past w.store.epoch key ++ [w.store.point value t_ns])) }
    | _ => w
  | .serve i => w.set_page i
      { w.pages i with pending := some (update_plots w.store (w.pages i).cursor) }
  | .deliver i =>
    match (w.pages i).pending with
    | none => w
    | some r => w.set_page i ((w.pages i).apply r)
  | .lose i => w.set_page i { w.pages i with pending := none }
  | .reload i => w.set_page i .loaded

/-- A page waits for its answer before it asks again. -/
def valid : PlotEvent → Prop
  | .serve i => (w.pages i).pending = none
  | _ => True

/-- No page that has samples of the run asks for more of a graph than an update sends. -/
def keeps_up : PlotEvent → Prop
  | .serve i => (w.pages i).pending = none ∧
      ∀ cursor, (w.pages i).cursor = some cursor → cursor.epoch = w.store.epoch →
        ∀ key version, cursor.versions key = some version →
          (w.store.series key).version ≤ version + MAX_CATCHUP_SAMPLES
  | _ => True

end World

/-- The traces that show some samples. -/
def traces (spec : PlotSpec) (points : List Point) : List Trace :=
  (component_labels spec.route spec.dim).mapIdx fun i label =>
    ⟨label, points.map Point.x, points.map fun point => point.y.getD i 0⟩

/-- What a page shows of the samples taken in, which those it shows of a graph are related to as
`Related` says: of one epoch, whose run is in the status line, as many as the window holds, up to
the one the cursor names. -/
def Shows (Related : List Point → List Point → Prop) (w : World) (page : Page) : Prop :=
  match page.cursor with
  | none => page.figures = figure_of
  | some cursor => cursor.epoch ≤ w.store.epoch ∧ page.run_id = w.runs cursor.epoch ∧
      ∀ spec ∈ PLOT_SPECS, ∃ points,
        (cursor.versions spec.key).getD 0 ≤ (w.past cursor.epoch spec.key).length ∧
        Related points ((w.past cursor.epoch spec.key).take
          ((cursor.versions spec.key).getD 0)) ∧
        points.length ≤ HISTORY_LENGTH ∧
        points.getLast? = ((w.past cursor.epoch spec.key).take
          ((cursor.versions spec.key).getD 0)).getLast? ∧
        page.figures spec.key = traces spec points

/-! ## A graph's traces -/

section Traces

variable {spec : PlotSpec}

theorem spec_by_key_of_mem : ∀ spec ∈ PLOT_SPECS, spec_by_key spec.key = some spec := by
  decide +kernel

theorem length_component_labels (route : StreamRoute) (dim : ℕ) :
    (component_labels route dim).length = dim := by
  unfold component_labels
  rw [List.length_map, List.length_range]

theorem getElem?_traces (points : List Point) (k : ℕ) :
    (traces spec points)[k]? = (component_labels spec.route spec.dim)[k]?.map fun label =>
      ⟨label, points.map Point.x, points.map fun point => point.y.getD k 0⟩ :=
  List.getElem?_mapIdx

/-- An empty figure shows no samples. -/
theorem figure_of_spec (hspec : spec ∈ PLOT_SPECS) : figure_of spec.key = traces spec [] := by
  unfold figure_of
  rw [spec_by_key_of_mem spec hspec]
  refine List.ext_getElem? fun k => ?_
  rw [getElem?_traces]
  exact List.getElem?_map

/-- What a list of keys with their values has for one of them. -/
theorem lookup_map {β : Type} (f : ℕ → β) {k : ℕ} {keys : List ℕ} (hk : k ∈ keys) :
    (keys.map fun i => (i, f i)).lookup k = some (f k) := by
  induction keys with
  | nil => exact absurd hk List.not_mem_nil
  | cons i rest ih =>
    rw [List.map_cons, List.lookup_cons]
    by_cases hik : k = i
    · rw [hik, beq_self_eq_true]
    · rw [beq_false_of_ne hik]
      exact ih ((List.mem_cons.1 hk).resolve_left hik)

/-- The extension that some samples are sent as. -/
def extension (spec : PlotSpec) (rows : List Point) : Extension :=
  ⟨(List.range spec.dim).map fun _ => rows.map Point.x,
    (List.range spec.dim).map fun i => (rows.map Point.y).map fun row => row.getD i 0,
    List.range spec.dim, HISTORY_LENGTH⟩

/-- A graph that is sent samples shows them after its own, the oldest ones gone. -/
theorem apply_extension (points rows : List Point) :
    (extension spec rows).apply (traces spec points) =
      traces spec ((points ++ rows).rtake HISTORY_LENGTH) := by
  have hlookup : ∀ k < spec.dim, ((extension spec rows).traces.zip
      ((extension spec rows).x.zip (extension spec rows).y)).lookup k =
        some (rows.map Point.x, (rows.map Point.y).map fun row => row.getD k 0) := by
    intro k hk
    unfold extension
    dsimp only
    rw [List.zip_map', ← List.map_id (List.range spec.dim), List.map_map, List.zip_map']
    exact lookup_map _ (List.mem_range.2 hk)
  refine List.ext_getElem? fun k => ?_
  unfold Extension.apply
  rw [List.getElem?_mapIdx, getElem?_traces, getElem?_traces]
  cases hlabel : (component_labels spec.route spec.dim)[k]? with
  | none => rfl
  | some label =>
    have hk := (List.getElem?_eq_some_iff.1 hlabel).1
    rw [length_component_labels] at hk
    simp only [Option.map_some, hlookup k hk]
    rw [CatchUp.map_rtake, CatchUp.map_rtake, List.map_append, List.map_append, List.map_map]
    rfl

end Traces

/-! ## The store and its past -/

/-- The store keeps the end of what its epoch took in; later epochs have taken in nothing; and no
sample is of the wrong width or not finite. -/
structure Sound (w : World) : Prop where
  series : ∀ key, w.store.series key =
    ⟨CatchUp.kept HISTORY_LENGTH (w.past w.store.epoch key),
      (w.past w.store.epoch key).length⟩
  later : ∀ e, w.store.epoch < e → ∀ key, w.past e key = []
  runs : w.runs w.store.epoch = w.store.run_id
  widths : ∀ e key, ∀ point ∈ w.past e key,
    ∃ spec, spec_by_key key = some spec ∧ point.y.length = spec.dim ∧
      point.y.all Ieee.isFinite = true

section Store

variable {w : World} {R : List Point → List Point → Prop}

theorem Sound.init : Sound World.init where
  series key := by
    show Series.empty = ⟨CatchUp.kept _ [], 0⟩
    rw [CatchUp.kept_nil]
    rfl
  later _ _ _ := rfl
  runs := rfl
  widths _ _ point h := absurd h List.not_mem_nil

/-- A new epoch begins with nothing: no graph has points of an earlier one. -/
theorem Sound.reset (h : Sound w) (run_id : Option String) :
    Sound (w.switch (w.store.reset run_id)) where
  series key := by
    show Series.empty = ⟨CatchUp.kept _ (w.past (w.store.epoch + 1) key),
      (w.past (w.store.epoch + 1) key).length⟩
    rw [h.later _ (Nat.lt_succ_self _), CatchUp.kept_nil]
    rfl
  later e he := h.later e (Nat.lt_of_succ_lt he)
  runs := Function.update_self ..
  widths := h.widths

theorem Sound.stay (h : Sound w) : Sound (w.switch w.store) where
  series := h.series
  later := h.later
  runs := Function.update_self ..
  widths := h.widths

/-- What `append` does if it takes a sample in: it is of a graph, as wide as that and finite, and it
goes behind the graph's points. -/
theorem append_cases {store' : PlotStore} {key : String} {value : List Ieee} {t_ns : ℤ}
    (h : w.store.append key value t_ns = some (true, store')) :
    (∃ spec, spec_by_key key = some spec ∧ value.length = spec.dim ∧
      value.all Ieee.isFinite = true) ∧
    store' = { w.store with
      origin_t_ns := some (w.store.origin_t_ns.getD t_ns)
      series := Function.update w.store.series key
        ((w.store.series key).append (w.store.point value t_ns)) } := by
  unfold PlotStore.append at h
  cases hspec : spec_by_key key with
  | none =>
    rw [hspec] at h
    exact nomatch h
  | some spec =>
    rw [hspec, Option.map_some] at h
    split at h
    · rename_i hvalue
      exact ⟨⟨spec, rfl, hvalue⟩, (Prod.mk.inj (Option.some.inj h)).2.symm⟩
    · exact Bool.noConfusion (Prod.mk.inj (Option.some.inj h)).1

theorem append_series (log : List Point) (point : Point) :
    Series.append ⟨CatchUp.kept HISTORY_LENGTH log, log.length⟩ point =
      ⟨CatchUp.kept HISTORY_LENGTH (log ++ [point]), (log ++ [point]).length⟩ := by
  unfold Series.append
  rw [CatchUp.kept_concat (by decide), List.length_append, List.length_singleton]

/-- The past of a graph after a sample: one point more in the present epoch, and nothing else. -/
theorem past_append (e : ℕ) (key key' : String) (point : Point) :
    Function.update w.past w.store.epoch (Function.update (w.past w.store.epoch) key
        (w.past w.store.epoch key ++ [point])) e key' =
      if e = w.store.epoch ∧ key' = key then w.past e key' ++ [point] else w.past e key' := by
  by_cases he : e = w.store.epoch
  · subst he
    rw [Function.update_self]
    by_cases hkey : key' = key
    · rw [hkey, Function.update_self, if_pos ⟨rfl, rfl⟩]
    · rw [Function.update_of_ne hkey, if_neg fun h => hkey h.2]
  · rw [Function.update_of_ne he, if_neg fun h => he h.1]

theorem Sound.append (h : Sound w) {key : String} {value : List Ieee} {t_ns : ℤ} :
    Sound (w.step (.append key value t_ns)) := by
  unfold World.step
  dsimp only
  split
  · rename_i store happend
    obtain ⟨hvalue, rfl⟩ := append_cases happend
    refine ⟨?_, ?_, h.runs, ?_⟩
    · intro key'
      dsimp only
      rw [past_append]
      by_cases hkey : key' = key
      · subst hkey
        rw [Function.update_self, if_pos ⟨rfl, rfl⟩, h.series, append_series]
      · rw [Function.update_of_ne hkey, if_neg fun h => hkey h.2]
        exact h.series key'
    · intro e he key'
      dsimp only at he ⊢
      rw [past_append, if_neg fun h => he.ne' h.1]
      exact h.later e he key'
    · intro e key' point hpoint
      dsimp only at hpoint
      rw [past_append] at hpoint
      split at hpoint
      · rename_i heq
        rcases List.mem_append.1 hpoint with hpoint | hpoint
        · exact h.widths e key' point hpoint
        · obtain rfl := List.mem_singleton.1 hpoint
          rw [heq.2]
          exact hvalue
      · exact h.widths e key' point hpoint
  · exact h

theorem Sound.step (h : Sound w) (e : PlotEvent) : Sound (w.step e) := by
  cases e with
  | attach run_id =>
    show Sound (w.switch (w.store.attach run_id))
    unfold PlotStore.attach
    split
    · exact h.stay
    · exact h.reset _
  | detach =>
    show Sound (w.switch w.store.detach)
    unfold PlotStore.detach
    split
    · exact h.reset _
    · exact h.stay
  | append key value t_ns => exact h.append
  | serve i => exact ⟨h.series, h.later, h.runs, h.widths⟩
  | deliver i =>
    unfold World.step
    dsimp only
    split
    · exact h
    · exact ⟨h.series, h.later, h.runs, h.widths⟩
  | lose i => exact ⟨h.series, h.later, h.runs, h.widths⟩
  | reload i => exact ⟨h.series, h.later, h.runs, h.widths⟩

end Store

/-! ## A page -/

section Pages

variable {w w' : World} {page : Page} {R : List Point → List Point → Prop}

/-- What a snapshot has for a graph: the newest few samples after the cursor, if there are any. -/
theorem snapshot_series (h : Sound w) (cursors : String → Option ℕ) (key : String) :
    (w.store.snapshot cursors).series key =
      if (w.past w.store.epoch key).length ≤ (cursors key).getD 0 then none
      else some ⟨(w.past w.store.epoch key).length,
        (((w.past w.store.epoch key).drop ((cursors key).getD 0)).rtake
          MAX_CATCHUP_SAMPLES).map Point.x,
        (((w.past w.store.epoch key).drop ((cursors key).getD 0)).rtake
          MAX_CATCHUP_SAMPLES).map Point.y⟩ := by
  have hfew : MAX_CATCHUP_SAMPLES ≤ HISTORY_LENGTH := by decide
  have hfresh : (w.store.series key).fresh ((cursors key).getD 0) = CatchUp.fresh HISTORY_LENGTH
      MAX_CATCHUP_SAMPLES ((cursors key).getD 0) (w.past w.store.epoch key) := by
    simp only [Series.fresh, CatchUp.fresh, h.series key]
  unfold PlotStore.snapshot
  dsimp only
  rw [hfresh]
  split
  · rename_i hle
    rw [(CatchUp.fresh_eq_nil_iff hfew (by decide)).2 hle]
    rfl
  · rename_i hlt
    have hlast := CatchUp.getLast?_fresh hfew (by decide) (Nat.lt_of_not_le hlt)
    obtain ⟨newest, hnewest, hversion⟩ := Option.map_eq_some_iff.1 hlast
    rw [hnewest, Option.map_some, hversion, ← CatchUp.map_snd_fresh hfew, List.map_map,
      List.map_map]
    rfl

/-- The page has nothing of the epoch yet: it starts with empty graphs. -/
theorem Shows.restart (hw : Sound w) (hnil : R [] []) (figures : String → List Trace)
    (hfigures : figures = figure_of) (hidden : String → Bool) (pending : Option Response) :
    Shows R w ⟨figures, some ⟨w.store.epoch, fun _ => none⟩, w.store.run_id, hidden, pending⟩ := by
  refine ⟨le_refl _, hw.runs.symm, fun spec hspec => ?_⟩
  refine ⟨[], Nat.zero_le _, hnil, Nat.zero_le _, rfl, ?_⟩
  rw [hfigures]
  exact figure_of_spec hspec

/-- An update that arrives at once leaves a page that shows what it should. -/
theorem Shows.update (h : Shows R w page) (hw : Sound w) (hnil : R [] [])
    (hextend : ∀ cursor, page.cursor = some cursor → cursor.epoch = w.store.epoch →
      ∀ key points, R points ((w.past w.store.epoch key).take ((cursor.versions key).getD 0)) →
        (cursor.versions key).getD 0 < (w.past w.store.epoch key).length →
        R (CatchUp.extend HISTORY_LENGTH MAX_CATCHUP_SAMPLES ((cursor.versions key).getD 0)
          (w.past w.store.epoch key) points) (w.past w.store.epoch key)) :
    Shows R w (page.apply (update_plots w.store page.cursor)) := by
  unfold update_plots
  cases hcursor : page.cursor with
  | none =>
    have hfigures : page.figures = figure_of := by
      unfold Shows at h
      rwa [hcursor] at h
    exact Shows.restart hw hnil _ hfigures _ _
  | some cursor =>
    unfold Shows at h
    rw [hcursor] at h
    obtain ⟨hle, hrun, hgraphs⟩ := h
    -- a page of the same run is extended; one of another run starts over
    by_cases hepoch : cursor.epoch = w.store.epoch
    · have hsame : (w.store.snapshot ((Option.map Cursor.versions (some cursor)).getD
          fun _ => none)).epoch = cursor.epoch := hepoch.symm
      dsimp only
      rw [hsame, if_neg (not_not.2 rfl)]
      refine ⟨le_refl _, hw.runs.symm, fun spec hspec => ?_⟩
      obtain ⟨points, hversion, hrelated, hlength, hlast, hfigure⟩ := hgraphs spec hspec
      rw [hepoch] at hversion hrelated hlast
      dsimp only [Page.apply, Snapshot.extend, Option.map_some, Option.getD_some]
      rw [snapshot_series hw, spec_by_key_of_mem spec hspec, Option.bind_some]
      -- a plot that is up to date is not touched
      by_cases hseen : (w.past w.store.epoch spec.key).length ≤ (cursor.versions spec.key).getD 0
      · rw [if_pos hseen]
        exact ⟨points, hversion, hrelated, hlength, hlast, hfigure⟩
      · rw [if_neg hseen]
        have hlt := Nat.lt_of_not_le hseen
        refine ⟨CatchUp.extend HISTORY_LENGTH MAX_CATCHUP_SAMPLES
          ((cursor.versions spec.key).getD 0) (w.past w.store.epoch spec.key) points,
          le_refl _, ?_, CatchUp.length_extend_le, ?_, ?_⟩
        · show R _ ((w.past w.store.epoch spec.key).take (w.past w.store.epoch spec.key).length)
          rw [List.take_length]
          exact hextend cursor hcursor hepoch spec.key points hrelated hlt
        · show _ = ((w.past w.store.epoch spec.key).take
            (w.past w.store.epoch spec.key).length).getLast?
          rw [List.take_length]
          exact CatchUp.getLast?_extend (by decide) (by decide) hlt
        · rw [hfigure]
          exact apply_extension points _
    · have hother : cursor.epoch ≠ (w.store.snapshot ((Option.map Cursor.versions
          (some cursor)).getD fun _ => none)).epoch := hepoch
      dsimp only
      rw [if_pos hother]
      exact Shows.restart hw hnil _ rfl _ _

/-- The cursor of an answer within an epoch names all samples there are. -/
theorem version_update (hw : Sound w) {cursor : Cursor} (hepoch : cursor.epoch = w.store.epoch)
    {spec : PlotSpec} (hspec : spec ∈ PLOT_SPECS) :
    (update_plots w.store (some cursor)).cursor.epoch = w.store.epoch ∧
      (w.past w.store.epoch spec.key).length ≤
        ((update_plots w.store (some cursor)).cursor.versions spec.key).getD 0 := by
  have hsame : (w.store.snapshot ((Option.map Cursor.versions (some cursor)).getD
      fun _ => none)).epoch = cursor.epoch := hepoch.symm
  unfold update_plots
  dsimp only
  rw [hsame, if_neg (not_not.2 rfl)]
  refine ⟨rfl, ?_⟩
  dsimp only [Snapshot.extend, Option.map_some, Option.getD_some]
  rw [snapshot_series hw, spec_by_key_of_mem spec hspec]
  by_cases hseen : (w.past w.store.epoch spec.key).length ≤ (cursor.versions spec.key).getD 0
  · rw [if_pos hseen]
    exact hseen
  · rw [if_neg hseen]
    exact le_refl _

/-- What a page shows stays right as samples come and epochs pass. -/
theorem Shows.later (h : Shows R w page) (hepoch : w.store.epoch ≤ w'.store.epoch)
    (hruns : ∀ e ≤ w.store.epoch, w'.runs e = w.runs e)
    (hpast : ∀ e key, w.past e key <+: w'.past e key) : Shows R w' page := by
  unfold Shows at h ⊢
  cases hcursor : page.cursor with
  | none => rwa [hcursor] at h
  | some cursor =>
    rw [hcursor] at h
    obtain ⟨hle, hrun, hgraphs⟩ := h
    refine ⟨hle.trans hepoch, hrun.trans (hruns _ hle).symm, fun spec hspec => ?_⟩
    obtain ⟨points, hversion, hrelated, hlength, hlast, hfigure⟩ := hgraphs spec hspec
    obtain ⟨rest, hrest⟩ := hpast cursor.epoch spec.key
    have htake : (w'.past cursor.epoch spec.key).take ((cursor.versions spec.key).getD 0) =
        (w.past cursor.epoch spec.key).take ((cursor.versions spec.key).getD 0) := by
      rw [← hrest, List.take_append_of_le_length hversion]
    refine ⟨points, ?_, ?_, hlength, ?_, hfigure⟩
    · rw [← hrest, List.length_append]
      exact hversion.trans (Nat.le_add_right _ _)
    · rw [htake]
      exact hrelated
    · rw [htake]
      exact hlast

/-- The page shows what it should, and will when the answer on its way arrives. -/
def Shown (R : List Point → List Point → Prop) (w : World) (page : Page) : Prop :=
  Shows R w page ∧ ∀ r, page.pending = some r → Shows R w (page.apply r)

theorem shown_loaded : Shown R w .loaded := ⟨rfl, nofun⟩

theorem Shown.later (h : Shown R w page) (hepoch : w.store.epoch ≤ w'.store.epoch)
    (hruns : ∀ e ≤ w.store.epoch, w'.runs e = w.runs e)
    (hpast : ∀ e key, w.past e key <+: w'.past e key) : Shown R w' page :=
  ⟨h.1.later hepoch hruns hpast, fun r hr => (h.2 r hr).later hepoch hruns hpast⟩

/-- The store changes, the pages do not: what a page shows is of the past, and the past stays. -/
theorem shown_switch (hw : Sound w) (h : ∀ i, Shown R w (w.pages i)) {store : PlotStore}
    (hstore : store = w.store ∨ ∃ run_id, store = w.store.reset run_id) :
    ∀ i, Shown R (w.switch store) (w.pages i) := by
  have hepoch : w.store.epoch ≤ store.epoch := by
    rcases hstore with rfl | ⟨run_id, rfl⟩
    · exact le_refl _
    · exact Nat.le_succ _
  refine fun i => (h i).later hepoch (fun e he => ?_) fun e key => List.prefix_refl _
  show Function.update w.runs store.epoch store.run_id e = _
  rcases hstore with rfl | ⟨run_id, rfl⟩
  · rw [← hw.runs, Function.update_eq_self]
  · exact Function.update_of_ne (Nat.lt_succ_of_le he).ne _ _

/-- One page changes. -/
theorem shown_set_page {pages : ℕ → Page} (h : ∀ i, Shown R w (pages i)) {i : ℕ} {page : Page}
    (hpage : Shown R w page) (j : ℕ) : Shown R w (Function.update pages i page j) := by
  by_cases hij : j = i
  · rw [hij, Function.update_self]
    exact hpage
  · rw [Function.update_of_ne hij]
    exact h j

/-- One step keeps all pages right, if what is related stays related in the update served. -/
theorem shown_step (hw : Sound w) (h : ∀ i, Shown R w (w.pages i)) (hnil : R [] []) (e : PlotEvent)
    (hserve : ∀ i, e = .serve i → ∀ cursor, (w.pages i).cursor = some cursor →
      cursor.epoch = w.store.epoch →
      ∀ key points, R points ((w.past w.store.epoch key).take ((cursor.versions key).getD 0)) →
        (cursor.versions key).getD 0 < (w.past w.store.epoch key).length →
        R (CatchUp.extend HISTORY_LENGTH MAX_CATCHUP_SAMPLES ((cursor.versions key).getD 0)
          (w.past w.store.epoch key) points) (w.past w.store.epoch key)) :
    ∀ i, Shown R (w.step e) ((w.step e).pages i) := by
  cases e with
  | attach run_id =>
    refine shown_switch hw h ?_
    unfold PlotStore.attach
    split
    · exact .inl rfl
    · exact .inr ⟨_, rfl⟩
  | detach =>
    refine shown_switch hw h ?_
    unfold PlotStore.detach
    split
    · exact .inr ⟨_, rfl⟩
    · exact .inl rfl
  -- a sample only makes the past longer
  | append key value t_ns =>
    unfold World.step
    dsimp only
    split
    · rename_i store happend
      obtain ⟨-, rfl⟩ := append_cases happend
      refine fun i => (h i).later (le_refl _) (fun e _ => rfl) fun e key' => ?_
      dsimp only
      rw [past_append]
      split
      · exact List.prefix_append _ _
      · exact List.prefix_refl _
    · exact h
  -- an answer is made from the store, and it is shown once it is delivered
  | serve i =>
    have hserved := (h i).1.update hw hnil (hserve i rfl)
    have hpage : Shown R w
        { w.pages i with pending := some (update_plots w.store (w.pages i).cursor) } :=
      ⟨(h i).1, fun r hr => Option.some.inj hr ▸ hserved⟩
    exact shown_set_page h hpage
  | deliver i =>
    unfold World.step
    dsimp only
    split
    · exact h
    · rename_i r hr
      exact shown_set_page h ⟨(h i).2 r hr, nofun⟩
  | lose i => exact shown_set_page h ⟨(h i).1, nofun⟩
  | reload i => exact shown_set_page h shown_loaded

end Pages

/-! ## All interleavings -/

section Interleavings

variable {events : List PlotEvent}

/-- What a run keeps of the pages' graphs is what serving an update keeps, as no other event changes
a page. -/
theorem shown_run {R : List Point → List Point → Prop} {valid : World → PlotEvent → Prop}
    (hnil : R [] [])
    (hserve : ∀ w i, Sound w → valid w (.serve i) → ∀ cursor, (w.pages i).cursor = some cursor →
      cursor.epoch = w.store.epoch →
      ∀ key points, R points ((w.past w.store.epoch key).take ((cursor.versions key).getD 0)) →
        (cursor.versions key).getD 0 < (w.past w.store.epoch key).length →
        R (CatchUp.extend HISTORY_LENGTH MAX_CATCHUP_SAMPLES ((cursor.versions key).getD 0)
          (w.past w.store.epoch key) points) (w.past w.store.epoch key))
    (h : Runs.Valid World.step valid World.init events) :
    Sound (Runs.run World.step World.init events) ∧
      ∀ i, Shown R (Runs.run World.step World.init events)
        ((Runs.run World.step World.init events).pages i) := by
  have hstart : Sound World.init ∧ ∀ i, Shown R World.init (World.init.pages i) :=
    ⟨.init, fun _ => shown_loaded⟩
  suffices hstep : ∀ w e, valid w e → (Sound w ∧ ∀ i, Shown R w (w.pages i)) →
      Sound (w.step e) ∧ ∀ i, Shown R (w.step e) ((w.step e).pages i) from
    Runs.run_induct hstep events _ hstart h
  rintro w e hvalid ⟨hw, hshown⟩
  exact ⟨hw.step e, shown_step hw hshown hnil e fun i he => hserve w i hw (he ▸ hvalid)⟩

/-- A page that asks within an epoch and is answered at once shows the newest samples. -/
theorem newest_shown {w : World} (hw : Sound w) {i : ℕ} (h : Shows List.Sublist w (w.pages i))
    {cursor : Cursor} (hcursor : (w.pages i).cursor = some cursor)
    (hepoch : cursor.epoch = w.store.epoch) : ∀ spec ∈ PLOT_SPECS, ∃ points,
      (((w.step (.serve i)).step (.deliver i)).pages i).figures spec.key = traces spec points ∧
        points.getLast? = (w.past w.store.epoch spec.key).getLast? := by
  have hserved := h.update hw (List.Sublist.refl _) fun cursor _ _ key points hrelated _ =>
    CatchUp.extend_sublist hrelated
  have hpage : ((w.step (.serve i)).step (.deliver i)).pages i =
      ({ w.pages i with pending := some (update_plots w.store (w.pages i).cursor) } : Page).apply
        (update_plots w.store (w.pages i).cursor) := by
    unfold World.step World.set_page
    dsimp only
    rw [Function.update_self]
    dsimp only
    rw [Function.update_self]
  intro spec hspec
  obtain ⟨-, -, hgraphs⟩ := hserved
  obtain ⟨points, hversion, -, -, hlast, hfigure⟩ := hgraphs spec hspec
  have hnewest := version_update hw hepoch hspec
  rw [← hcursor] at hnewest
  refine ⟨points, hpage ▸ hfigure, hlast.trans ?_⟩
  rw [List.take_of_length_le (by rw [hnewest.1]; exact hnewest.2), hnewest.1]

end Interleavings

/-- However the consumer, the pages and the network interleave, every page shows samples of one
run in order and each once, the newest one it was sent among them, and they are finite and as wide
as their graph; and a page that asks within the run is shown the newest ones there are. -/
theorem plots_show_one_run {events : List PlotEvent}
    (h : Runs.Valid World.step World.valid World.init events) (i : ℕ) :
    let w := Runs.run World.step World.init events
    Shows List.Sublist w (w.pages i) ∧
      (∀ e key, ∀ point ∈ w.past e key, ∃ spec, spec_by_key key = some spec ∧
        point.y.length = spec.dim ∧ point.y.all Ieee.isFinite = true) ∧
      ∀ cursor, (w.pages i).cursor = some cursor → cursor.epoch = w.store.epoch →
        ∀ spec ∈ PLOT_SPECS, ∃ points,
          (((w.step (.serve i)).step (.deliver i)).pages i).figures spec.key =
            traces spec points ∧
          points.getLast? = (w.past w.store.epoch spec.key).getLast? := by
  obtain ⟨hw, hshown⟩ := shown_run (List.Sublist.refl _)
    (fun w i _ _ cursor _ _ key points hrelated _ => CatchUp.extend_sublist hrelated) h
  exact ⟨(hshown i).1, hw.widths, fun cursor hcursor hepoch =>
    newest_shown hw (hshown i).1 hcursor hepoch⟩

/-- As long as no page asks for more than an update sends, every graph shows an unbroken piece of
its run up to the newest sample sent. -/
theorem plots_unbroken {events : List PlotEvent}
    (h : Runs.Valid World.step World.keeps_up World.init events) (i : ℕ) :
    Shows List.IsSuffix (Runs.run World.step World.init events)
      ((Runs.run World.step World.init events).pages i) := by
  refine ((shown_run (List.suffix_refl _) ?_ h).2 i).1
  intro w i hw hkeeps cursor hcursor hepoch key points hrelated _
  refine CatchUp.extend_suffix hrelated ?_
  cases hversion : cursor.versions key with
  -- nothing of this graph yet
  | none =>
    rw [hversion] at hrelated
    exact .inr (List.suffix_nil.1 hrelated)
  | some version =>
    have hle := hkeeps.2 cursor hcursor hepoch key version hversion
    rw [hw.series] at hle
    exact .inl hle

/-- A run with a page that is loaded, and two samples of the latency. -/
def latencies : List PlotEvent :=
  [.attach "r", .serve 0, .append "policy/latency_ms" [.fin 5] 1000, .deliver 0, .serve 0,
    .append "policy/latency_ms" [.fin 7] 1000001000, .deliver 0]

theorem latencies_valid : Runs.Valid World.step World.keeps_up World.init latencies := by
  refine ⟨trivial, ⟨rfl, nofun⟩, trivial, trivial, ⟨rfl, ?_⟩, trivial, trivial, trivial⟩
  intro cursor hcursor _ key version hversion
  obtain rfl := Option.some.inj hcursor
  exact nomatch hversion

/-- The first sample is on the page; the second came after the answer was on its way. -/
theorem latencies_shown :
    (let w := Runs.run World.step World.init latencies
    (w.pages 0).figures "policy/latency_ms" = [⟨"ms", [0], [.fin 5]⟩] ∧
      Shows List.IsSuffix w (w.pages 0)) :=
  ⟨by decide +kernel, plots_unbroken latencies_valid 0⟩

/-- When the page asks again it is shown the second one: the general theorem where the answers were
late. -/
theorem latencies_newest : ∃ points,
    (let w := Runs.run World.step World.init latencies
    (((w.step (.serve 0)).step (.deliver 0)).pages 0).figures "policy/latency_ms" =
        traces ⟨"policy/latency_ms", "eval/policy_comm", "policy", ⟨.policy, none, "latency_ms"⟩, 1⟩
          points ∧ points.getLast? = (w.past 1 "policy/latency_ms").getLast?) := by
  have hvalid : Runs.Valid World.step World.valid World.init latencies :=
    ⟨trivial, rfl, trivial, trivial, rfl, trivial, trivial, trivial⟩
  exact (plots_show_one_run hvalid 0).2.2 _ rfl rfl
    ⟨"policy/latency_ms", "eval/policy_comm", "policy", ⟨.policy, none, "latency_ms"⟩, 1⟩
    (by decide +kernel)

end DualFlexivControl.Viewers.Plots
