/-
The OpenPI endpoint adapter: `OpenPIEndpointAdapter` of `policy/adapter.py`.

`encode_request` projects the observation's state and keeps it for later holds;
`decode_actions` projects the returned rows, with held elements taken from the state kept. What
Python and numpy do to values the adapter passes on (arrays from values, pixel conversions,
`str.format`) is a parameter, [`Runtime`]; where one of these raises, so does the adapter, and
not with a `PolicyError`.

A dimension of zero passes the vector through: there the config declares nothing. Everything
else is about non-zero dimensions.
-/
import Mathlib.Algebra.Order.Ring.Int
import Mathlib.Data.List.Induction
import DualFlexivControl.Lib.Effects
import DualFlexivControl.Lib.Gather
import DualFlexivControl.Policy.Projection

set_option autoImplicit false

namespace DualFlexivControl.Policy

open Results Scatter Effect

/-! ## Configs, arrays and what Python does -/

/-- `OpenPIVectorCfg` -/
structure OpenPIVectorCfg (F : Type) where
  key : String
  dim : ℤ
  slices : List IndexCopyCfg
  constants : List (IndexConstantCfg F)

/-- `OpenPIImageCfg` -/
structure OpenPIImageCfg where
  source : String
  key : String
  layout : String

/-- `OpenPIRequestCfg` -/
structure OpenPIRequestCfg (F : Type) where
  state : OpenPIVectorCfg F
  images_key : String
  images : List OpenPIImageCfg
  prompt_key : String
  image_key_template : String
  image_keys : List (String × String)

/-- `OpenPIActionsCfg` -/
structure OpenPIActionsCfg (F : Type) where
  key : String
  dim : ℤ
  slices : List IndexCopyCfg
  state_holds : List IndexCopyCfg
  constants : List (IndexConstantCfg F)

/-- `OpenPIEndpointCfg`: the request, and the actions of the response. -/
structure OpenPIEndpointCfg (F : Type) where
  request : OpenPIRequestCfg F
  actions : OpenPIActionsCfg F

/-- A numpy array, flat in row-major order. -/
structure NdArray (α : Type) where
  shape : List ℕ
  data : List α
  size_eq : data.length = shape.prod

/-- A dict key of a response. -/
inductive Key
  | str (key : String)
  | other (repr : String)
  deriving DecidableEq, Repr

/-- What the endpoint returned. -/
inductive Response (Value : Type)
  | dict (entries : List (Key × Value))
  | other (type_name : String)

/-- What Python and numpy do with values: arrays of a dtype from a value, the pixels of an image
and their conversion, the two float widths, `str.format` and `sorted`. `none` is an exception. -/
structure Runtime (Value Pixels F32 F64 : Type) where
  float32_array : Value → Option (NdArray F32)
  float64_array : Value → Option (NdArray F64)
  pixels : Value → Option Pixels
  shape : Pixels → List ℕ
  moveaxis : Pixels → ℤ → ℤ → Pixels
  to_uint8 : Pixels → Option Pixels
  f32 : F64 → F32
  f64 : F32 → F64
  format_camera : String → String → Option String
  sorted : List Key → Option (List Key)

/-- A `PolicyError`, by what its message shows. -/
inductive PolicyError
  | no_state
  | projection (error : ProjectionError)
  | image_rank (label : String) (shape : List ℕ)
  | image_channels (label : String) (shape : List ℕ)
  | unknown_layout (layout : String)
  | absent_view (key source : String) (available : List String)
  | no_actions (key : String) (got : List Key)
  | not_a_dict (key : String) (type_name : String)
  | actions_shape (shape : List ℕ)
  deriving DecidableEq, Repr

/-- What the adapter raises: a `PolicyError`, or an exception of Python or numpy. -/
inductive AdapterError
  | policy (error : PolicyError)
  | raised
  deriving DecidableEq, Repr

/-- The result of Python, or its exception. -/
def python {α : Type} : Option α → Except AdapterError α
  | some a => .ok a
  | none => .error .raised

/-- A projection's result, or its `PolicyError`. -/
def projection {α : Type} (x : Except ProjectionError α) : Except AdapterError α :=
  x.mapError fun e => .policy (.projection e)

/-- A value of the payload. -/
inductive Wire (Value Pixels F32 : Type)
  | state (state : List F32)
  | image (pixels : Pixels)
  | images (images : List (String × Pixels))
  | task (value : Value)

/-- `d[key] = value` -/
def set_item {α : Type} (d : List (String × α)) (entry : String × α) : List (String × α) :=
  if (d.map Prod.fst).contains entry.1 then
    d.map fun old => if old.1 = entry.1 then entry else old
  else d ++ [entry]

/-- `d.update(entries)` -/
def update_items {α : Type} (d entries : List (String × α)) : List (String × α) :=
  entries.foldl set_item d

/-- The adapter's variable. -/
structure Adapter (F32 : Type) where
  last_dfc_state : Option (List F32)

/-- A method of the adapter. -/
abbrev AdapterM (F32 : Type) := Effect AdapterError (Adapter F32)

/-- `_IMAGE_PREFIX` -/
def IMAGE_PREFIX : String := "observation.images."

/-- `key[len(_IMAGE_PREFIX):]`, of a key that starts with it. -/
def view_of (key : String) : Option String :=
  if IMAGE_PREFIX.toList <+: key.toList then
    some (String.ofList (key.toList.drop IMAGE_PREFIX.length))
  else none

section Adapter

variable {Value Pixels F32 F64 : Type} (py : Runtime Value Pixels F32 F64)

/-! ## Images -/

/-- `_image` -/
def image (value : Value) (layout label : String) : Except AdapterError Pixels := do
  let array ← python (py.pixels value)
  let shape := py.shape array
  if shape.length ≠ 3 then throw (.policy (.image_rank label shape))
  let hwc ←
    if shape.getLast? = some 3 then pure array
    else if shape.head? = some 3 then pure (py.moveaxis array 0 (-1))
    else throw (.policy (.image_channels label shape))
  let hwc ← python (py.to_uint8 hwc)
  if layout = "hwc" then pure hwc
  else if layout = "chw" then pure (py.moveaxis hwc (-1) 0)
  else throw (.policy (.unknown_layout layout))

/-- One entry of `request.images`. -/
def mapped_image (observation : List (String × Value)) (image_cfg : OpenPIImageCfg) :
    Except AdapterError (String × Pixels) :=
  match observation.lookup (IMAGE_PREFIX ++ image_cfg.source) with
  | none =>
    let available := (observation.filterMap fun entry => view_of entry.1).mergeSort
    .error (.policy (.absent_view image_cfg.key image_cfg.source available))
  | some value => do
    let pixels ← image py value image_cfg.layout image_cfg.source
    pure (image_cfg.key, pixels)

/-- One view of the observation, under the key its camera maps to. -/
def template_image (request : OpenPIRequestCfg F64) (entry : String × Value) :
    Except AdapterError (List (String × Pixels)) :=
  match view_of entry.1 with
  | none => .ok []
  | some camera => do
    let templated ← python (py.format_camera request.image_key_template camera)
    let wire_key := (request.image_keys.lookup camera).getD templated
    if wire_key = "" then pure []
    else
      let pixels ← image py entry.2 "hwc" camera
      pure [(wire_key, pixels)]

/-- The entries the images add to the payload. -/
def image_entries (request : OpenPIRequestCfg F64) (observation : List (String × Value)) :
    Except AdapterError (List (String × Wire Value Pixels F32)) :=
  if request.images ≠ [] then do
    let images ← collect (mapped_image py observation) request.images
    if request.images_key ≠ "" then pure [(request.images_key, .images (update_items [] images))]
    else pure (images.map fun entry => (entry.1, .image entry.2))
  else do
    let images ← collect (template_image py request) observation
    pure (images.flatten.map fun entry => (entry.1, .image entry.2))

/-! ## Requests -/

/-- `np.asarray(observation["observation.state"], dtype=np.float32).ravel()` -/
def dfc_state_of (observation : List (String × Value)) : Except AdapterError (List F32) :=
  match observation.lookup "observation.state" with
  | none => .error (.policy .no_state)
  | some value => do
    let array ← python (py.float32_array value)
    pure array.data

/-- The state vector of a request. -/
def request_state [Zero F32] (state_cfg : OpenPIVectorCfg F64) (dfc_state : List F32) :
    Except ProjectionError (List F32) :=
  if state_cfg.dim < 0 then .error (.negative_dim state_cfg.dim)
  else if state_cfg.dim = 0 then .ok dfc_state
  else do
    let state_dim := state_cfg.dim.toNat
    let b ← claim_all
      (copy_item "unnamed state copy" dfc_state.length state_dim fun source target state =>
        scatter state (target.zip (gather dfc_state source)))
      state_cfg.slices ⟨List.replicate state_dim 0, []⟩
    let b ← claim_all
      (constant_item "unnamed state constant" state_dim fun target value state =>
        scatter state (target.map fun i => (i, py.f32 value)))
      state_cfg.constants b
    if missing state_dim b.mapped ≠ [] then .error (.unmapped (missing state_dim b.mapped))
    else .ok b.vector

/-- `encode_request` -/
def encode_request [Zero F32] (cfg : OpenPIEndpointCfg F64)
    (observation : List (String × Value)) :
    AdapterM F32 (List (String × Wire Value Pixels F32)) := do
  let dfc_state ← call (dfc_state_of py observation)
  let state ← call (projection (request_state py cfg.request.state dfc_state))
  let entries ← call (image_entries py cfg.request observation)
  let payload := update_items [(cfg.request.state.key, .state state)] entries
  let task ← call (python (observation.lookup "task"))
  update fun _ => ⟨some dfc_state⟩
  pure (set_item payload (cfg.request.prompt_key, .task task))

/-! ## Responses -/

/-- The rows of an array of shape `(h, w)`. -/
def rows {α : Type} (h w : ℕ) (data : List α) : List (List α) :=
  (List.range h).map fun k => (data.drop (k * w)).take w

/-- The width and the rows of a returned array; a vector is one row. -/
def action_matrix {α : Type} (raw : NdArray α) : Except AdapterError (ℕ × List (List α)) :=
  match raw.shape with
  | [n] => .ok (n, [raw.data])
  | [h, w] => if h = 0 then .error (.policy (.actions_shape [h, w])) else .ok (w, rows h w raw.data)
  | shape => .error (.policy (.actions_shape shape))

/-- The array under the actions key. -/
def response_actions (key : String) :
    Response Value → Except AdapterError (NdArray F64)
  | .other type_name => .error (.policy (.not_a_dict key type_name))
  | .dict entries =>
    match entries.lookup (.str key) with
    | none => do
      let got ← python (py.sorted (entries.map Prod.fst))
      throw (.policy (.no_actions key got))
    | some value => python (py.float64_array value)

/-- The measured-state holds, which need a state to hold. -/
def hold_items (cfg : OpenPIActionsCfg F64) (last_dfc_state : Option (List F32))
    (output_dim : ℕ) (raw : List (List F64)) (b : Claimed (List (List F64))) :
    Except ProjectionError (Claimed (List (List F64))) :=
  if cfg.state_holds = [] then .ok b
  else
    match last_dfc_state with
    | none => .error .no_observation
    | some dfc_state =>
      claim_all
        (copy_item "unnamed measured-state hold" dfc_state.length output_dim
          fun source target output =>
            scatter_rows (fun _ => target.zip (gather (dfc_state.map py.f64) source)) raw output)
        cfg.state_holds b

/-- The projected rows of a response. -/
def action_rows [Zero F64] (cfg : OpenPIActionsCfg F64) (last_dfc_state : Option (List F32))
    (width : ℕ) (raw : List (List F64)) : Except ProjectionError (List (List F64)) :=
  if cfg.dim < 0 then .error (.negative_dim cfg.dim)
  else if cfg.dim = 0 then .ok raw
  else do
    let output_dim := cfg.dim.toNat
    let b ← claim_all
      (copy_item "unnamed action copy" width output_dim fun source target output =>
        scatter_rows (fun row => target.zip (gather row source)) raw output)
      cfg.slices ⟨List.replicate raw.length (List.replicate output_dim 0), []⟩
    let b ← hold_items py cfg last_dfc_state output_dim raw b
    let b ← claim_all
      (constant_item "unnamed action constant" output_dim fun target value output =>
        scatter_rows (fun _ => target.map fun i => (i, value)) raw output)
      cfg.constants b
    if missing output_dim b.mapped ≠ [] then .error (.unmapped (missing output_dim b.mapped))
    else .ok b.vector

/-- `decode_actions` -/
def decode_actions [Zero F64] (cfg : OpenPIEndpointCfg F64) (response : Response Value) :
    AdapterM F32 (List (List F64)) := do
  let raw ← call (response_actions py cfg.actions.key response)
  let (width, raw) ← call (action_matrix raw)
  let adapter ← get
  call (projection (action_rows py cfg.actions adapter.last_dfc_state width raw))

end Adapter

/-! ## What a config declares -/

section Declared

variable {F : Type}

/-- All targets of a request's state. -/
def OpenPIVectorCfg.targets (cfg : OpenPIVectorCfg F) : List IndexValue :=
  cfg.slices.flatMap IndexCopyCfg.target ++ cfg.constants.flatMap IndexConstantCfg.target

/-- All writes of a request's state. -/
def OpenPIVectorCfg.writes (cfg : OpenPIVectorCfg F) : List (IndexValue × Source F) :=
  cfg.slices.flatMap (fun item => item.writes .copied) ++
    cfg.constants.flatMap IndexConstantCfg.writes

/-- The config fits a DFC state of this size. -/
structure OpenPIVectorCfg.Declared (cfg : OpenPIVectorCfg F) (state_size : ℕ) : Prop where
  partition : Partitions cfg.targets cfg.dim
  slices : ∀ item ∈ cfg.slices, item.Paired state_size

/-- All targets of a response's actions. -/
def OpenPIActionsCfg.targets (cfg : OpenPIActionsCfg F) : List IndexValue :=
  cfg.slices.flatMap IndexCopyCfg.target ++ cfg.state_holds.flatMap IndexCopyCfg.target ++
    cfg.constants.flatMap IndexConstantCfg.target

/-- All writes of a response's actions. -/
def OpenPIActionsCfg.writes (cfg : OpenPIActionsCfg F) : List (IndexValue × Source F) :=
  cfg.slices.flatMap (fun item => item.writes .copied) ++
    cfg.state_holds.flatMap (fun item => item.writes .held) ++
    cfg.constants.flatMap IndexConstantCfg.writes

/-- The config fits rows of this width, and the state there is to hold. -/
structure OpenPIActionsCfg.Declared (cfg : OpenPIActionsCfg F) (width : ℕ)
    (state_size : Option ℕ) : Prop where
  partition : Partitions cfg.targets cfg.dim
  slices : ∀ item ∈ cfg.slices, item.Paired width
  holds : ∀ item ∈ cfg.state_holds, ∃ size, state_size = some size ∧ item.Paired size

end Declared

/-- The value of a source of a request's state. -/
def request_value {F32 F64 : Type} (f32 : F64 → F32) (dfc_state : List F32) :
    Source F64 → Option F32
  | .copied index => element dfc_state index
  | .held _ => none
  | .constant value => some (f32 value)

/-- The value of a source of an action row. -/
def action_value {F32 F64 : Type} (f64 : F32 → F64) (raw : List F64)
    (last_dfc_state : Option (List F32)) : Source F64 → Option F64
  | .copied index => element raw index
  | .held index => last_dfc_state.bind fun dfc_state => element (dfc_state.map f64) index
  | .constant value => some value

/-! ## Passes over the items -/

section Passes

variable {F : Type}

/-- The targets of some items are positions below `dim`. -/
theorem within_flatMap {ι : Type} {items : List ι} {target : ι → List IndexValue} {dim : ℕ}
    (h : ∀ item ∈ items, Indexable (target item) dim) :
    ∀ value ∈ items.flatMap target, ∃ i, i < dim ∧ value = .of i := by
  intro value hvalue
  obtain ⟨item, hitem, hvalue⟩ := List.mem_flatMap.1 hvalue
  exact (h item hitem).within value hvalue

theorem positions_append {first second : List IndexValue} :
    positions (first ++ second) = positions first ++ positions second := List.filterMap_append

theorem positions_flatMap {ι : Type} {items : List ι} {target : ι → List IndexValue} :
    positions (items.flatMap target) = items.flatMap fun item => positions (target item) :=
  List.filterMap_flatMap ..

/-- A paired item declares one write for each of its targets. -/
theorem IndexCopyCfg.Paired.targets {item : IndexCopyCfg} {size : ℕ} (h : item.Paired size)
    {source : IndexValue → Source F} : (item.writes source).map Prod.fst = item.target := by
  unfold IndexCopyCfg.writes
  refine List.map_fst_zip ?_
  rw [List.length_map]
  exact Nat.le_of_eq h.lengths.symm

theorem IndexConstantCfg.targets {item : IndexConstantCfg F} :
    item.writes.map Prod.fst = item.target := by
  unfold IndexConstantCfg.writes
  rw [List.map_map]
  exact List.map_id _

theorem targets_flatMap {ι : Type} {items : List ι} {writes : ι → List (IndexValue × Source F)}
    {target : ι → List IndexValue} (h : ∀ item ∈ items, (writes item).map Prod.fst = target item) :
    (items.flatMap writes).map Prod.fst = items.flatMap target := by
  rw [List.map_flatMap]
  exact List.flatMap_congr h

/-- Distinct positions below `dim` of which none is missing partition `[0, dim)`. -/
theorem partition_of_missing {targets : List IndexValue} {dim : ℕ}
    (hwithin : ∀ value ∈ targets, ∃ i, i < dim ∧ value = .of i)
    (hnodup : (positions targets).Nodup) (hmissing : missing dim (positions targets) = []) :
    Partition dim (positions targets) := by
  refine ⟨hnodup, fun i => ⟨?_, missing_eq_nil.1 hmissing i⟩⟩
  intro hi
  obtain ⟨value, hvalue, hposition⟩ := List.mem_filterMap.1 hi
  obtain ⟨j, hj, rfl⟩ := hwithin value hvalue
  obtain rfl := Option.some.inj (position_of.symm.trans hposition)
  exact hj

end Passes

section Projections

variable {Value Pixels F32 F64 : Type} {py : Runtime Value Pixels F32 F64}

/-- A state that is projected was declared to be, and is as declared. -/
theorem request_state_spec [Zero F32] {cfg : OpenPIVectorCfg F64} {dfc_state state : List F32}
    (hdim : cfg.dim ≠ 0) (h : request_state py cfg dfc_state = .ok state) :
    cfg.Declared dfc_state.length ∧
      Projected cfg.dim cfg.writes (request_value py.f32 dfc_state) state := by
  unfold request_state at h
  simp only [guard_ok, if_neg hdim, bind_ok, not_not] at h
  obtain ⟨hnonneg, b₁, h₁, b₂, h₂, hmissing, heq⟩ := h
  obtain rfl := Except.ok.inj heq
  obtain ⟨hslices, hnodup₁, rfl⟩ := ((copy_item_spec ..).claim_all_ok List.nodup_nil).1 h₁
  obtain ⟨hconstants, hnodup, rfl⟩ := ((constant_item_spec ..).claim_all_ok hnodup₁).1 h₂
  rw [List.nil_append] at hnodup hmissing
  rw [← positions_flatMap, ← positions_flatMap, ← positions_append] at hnodup hmissing
  have hn : (cfg.dim.toNat : ℤ) = cfg.dim := Int.toNat_of_nonneg (Int.not_lt.1 hnonneg)
  have hwithin : ∀ value ∈ cfg.targets, ∃ i, i < cfg.dim.toNat ∧ value = .of i := by
    intro value hvalue
    rcases List.mem_append.1 hvalue with hvalue | hvalue
    · exact within_flatMap (fun item hitem => (hslices item hitem).2) value hvalue
    · exact within_flatMap hconstants value hvalue
  have hpart := partition_of_missing hwithin hnodup hmissing
  refine ⟨⟨hn ▸ partitions_iff.2 ⟨hwithin, hpart⟩, fun item hitem => (hslices item hitem).1⟩, ?_⟩
  have hperforms : Performs (request_value py.f32 dfc_state) cfg.writes _ :=
    (performs_flatMap fun item hitem =>
        performs_copy (hslices item hitem).1 (hslices item hitem).2 fun _ => rfl).append
      (performs_flatMap fun item hitem => performs_constant (hconstants item hitem) rfl)
  have htargets : cfg.writes.map Prod.fst = cfg.targets := by
    unfold OpenPIVectorCfg.writes OpenPIVectorCfg.targets
    rw [List.map_append, targets_flatMap fun item hitem => (hslices item hitem).1.targets,
      targets_flatMap fun _ _ => IndexConstantCfg.targets]
  have hzeros : (List.replicate cfg.dim.toNat (0 : F32)).length = cfg.dim.toNat :=
    List.length_replicate
  have hprojected := hperforms.projected (by rw [hperforms.targets, htargets]; exact hpart) hzeros
  rw [hn, scatter_append, ← foldl_scatter, ← foldl_scatter] at hprojected
  exact hprojected

/-- The writes of one hold. -/
def hold_writes (f64 : F32 → F64) (last_dfc_state : Option (List F32)) (item : IndexCopyCfg) :
    List (ℕ × F64) :=
  (positions item.target).zip
    (gather ((last_dfc_state.getD []).map f64) (positions item.source))

/-- Holds that are accepted had a state to hold, and wrote it into every row. -/
theorem hold_items_spec {cfg : OpenPIActionsCfg F64} {last_dfc_state : Option (List F32)}
    {output_dim : ℕ} {raw : List (List F64)} {b b' : Claimed (List (List F64))}
    (hb : b.mapped.Nodup)
    (h : hold_items py cfg last_dfc_state output_dim raw b = .ok b') :
    (∀ item ∈ cfg.state_holds, Indexable item.target output_dim ∧
      ∃ dfc_state, last_dfc_state = some dfc_state ∧ item.Paired dfc_state.length) ∧
    (b.mapped ++ cfg.state_holds.flatMap fun item => positions item.target).Nodup ∧
    b' = ⟨cfg.state_holds.foldl (fun output item =>
        scatter_rows (fun _ => hold_writes py.f64 last_dfc_state item) raw output) b.vector,
      b.mapped ++ cfg.state_holds.flatMap fun item => positions item.target⟩ := by
  unfold hold_items at h
  split at h
  · rename_i hnone
    obtain rfl := Except.ok.inj h
    simp [hnone, hb]
  · cases last_dfc_state with
    | none => exact nomatch h
    | some dfc_state =>
      obtain ⟨hvalid, hnodup, rfl⟩ := ((copy_item_spec ..).claim_all_ok hb).1 h
      exact ⟨fun item hitem => ⟨(hvalid item hitem).2, dfc_state, rfl, (hvalid item hitem).1⟩,
        hnodup, rfl⟩

/-- Rows that are projected were declared to be, and each is as declared. -/
theorem action_rows_spec [Zero F64] {cfg : OpenPIActionsCfg F64}
    {last_dfc_state : Option (List F32)} {width : ℕ} {raw output : List (List F64)}
    (hwidth : ∀ row ∈ raw, row.length = width) (hdim : cfg.dim ≠ 0)
    (h : action_rows py cfg last_dfc_state width raw = .ok output) :
    cfg.Declared width (last_dfc_state.map List.length) ∧
      List.Forall₂ (fun row out =>
        Projected cfg.dim cfg.writes (action_value py.f64 row last_dfc_state) out) raw output := by
  unfold action_rows at h
  simp only [guard_ok, if_neg hdim, bind_ok, not_not] at h
  obtain ⟨hnonneg, b₁, h₁, b₂, h₂, b₃, h₃, hmissing, heq⟩ := h
  obtain rfl := Except.ok.inj heq
  obtain ⟨hslices, hnodup₁, rfl⟩ := ((copy_item_spec ..).claim_all_ok List.nodup_nil).1 h₁
  obtain ⟨hholds, hnodup₂, rfl⟩ := hold_items_spec hnodup₁ h₂
  obtain ⟨hconstants, hnodup, rfl⟩ := ((constant_item_spec ..).claim_all_ok hnodup₂).1 h₃
  rw [List.nil_append] at hnodup hmissing
  rw [← positions_flatMap, ← positions_flatMap, ← positions_flatMap, ← positions_append,
    ← positions_append] at hnodup hmissing
  have hn : (cfg.dim.toNat : ℤ) = cfg.dim := Int.toNat_of_nonneg (Int.not_lt.1 hnonneg)
  have hwithin : ∀ value ∈ cfg.targets, ∃ i, i < cfg.dim.toNat ∧ value = .of i := by
    intro value hvalue
    rcases List.mem_append.1 hvalue with hvalue | hvalue
    · rcases List.mem_append.1 hvalue with hvalue | hvalue
      · exact within_flatMap (fun item hitem => (hslices item hitem).2) value hvalue
      · exact within_flatMap (fun item hitem => (hholds item hitem).1) value hvalue
    · exact within_flatMap hconstants value hvalue
  have hpart := partition_of_missing hwithin hnodup hmissing
  refine ⟨⟨hn ▸ partitions_iff.2 ⟨hwithin, hpart⟩, fun item hitem => (hslices item hitem).1, ?_⟩,
    ?_⟩
  · intro item hitem
    obtain ⟨-, dfc_state, rfl, hpaired⟩ := hholds item hitem
    exact ⟨_, rfl, hpaired⟩
  have htargets : cfg.writes.map Prod.fst = cfg.targets := by
    unfold OpenPIActionsCfg.writes OpenPIActionsCfg.targets
    rw [List.map_append, List.map_append,
      targets_flatMap fun item hitem => (hslices item hitem).1.targets,
      targets_flatMap fun item hitem => (hholds item hitem).2.choose_spec.2.targets,
      targets_flatMap fun _ _ => IndexConstantCfg.targets]
  -- All three passes write into every row; each row starts from zeros.
  dsimp only
  rw [← scatter_rows_nil, foldl_scatter_rows, foldl_scatter_rows, foldl_scatter_rows,
    scatter_rows_replicate, List.forall₂_map_right_iff, List.forall₂_same]
  intro row hrow
  have hpaired : ∀ item ∈ cfg.slices, item.Paired row.length :=
    fun item hitem => hwidth row hrow ▸ (hslices item hitem).1
  have hheld : ∀ item ∈ cfg.state_holds, Performs (action_value py.f64 row last_dfc_state)
      (item.writes .held) (hold_writes py.f64 last_dfc_state item) := by
    intro item hitem
    obtain ⟨htarget, dfc_state, rfl, hpaired⟩ := hholds item hitem
    refine performs_copy ?_ htarget fun _ => rfl
    rwa [Option.getD_some, List.length_map]
  have hperforms : Performs (action_value py.f64 row last_dfc_state) cfg.writes _ :=
    ((performs_flatMap fun item hitem => performs_copy (hpaired item hitem)
        (hslices item hitem).2 fun _ => rfl).append (performs_flatMap hheld)).append
      (performs_flatMap fun item hitem => performs_constant (hconstants item hitem) rfl)
  have hzeros : (List.replicate cfg.dim.toNat (0 : F64)).length = cfg.dim.toNat :=
    List.length_replicate
  have hprojected := hperforms.projected (by rw [hperforms.targets, htargets]; exact hpart) hzeros
  rw [hn] at hprojected
  exact hprojected

end Projections

/-! ## The payload as a dict -/

section Payload

variable {α : Type}

/-- Replacing a key's entry: the new value is found under the key, if it had one, and the others
stay. -/
theorem lookup_replace (d : List (String × α)) (entry : String × α) (key : String) :
    (d.map fun old => if old.1 = entry.1 then entry else old).lookup key =
      if key = entry.1 then (d.lookup key).map fun _ => entry.2 else d.lookup key := by
  induction d with
  | nil =>
    rw [List.map_nil, List.lookup_nil, Option.map_none]
    split <;> rfl
  | cons old rest ih =>
    rw [List.map_cons, Gather.lookup_cons_if]
    by_cases hold : old.1 = entry.1
    · rw [if_pos hold, Gather.lookup_cons_if, ih, hold]
      by_cases hkey : key = entry.1
      · rw [if_pos hkey, if_pos hkey, if_pos hkey, Option.map_some]
      · rw [if_neg hkey, if_neg hkey, if_neg hkey, if_neg hkey]
    · rw [if_neg hold, Gather.lookup_cons_if, ih]
      by_cases hkey : key = old.1
      · rw [if_pos hkey, if_pos hkey, if_neg (hkey ▸ hold)]
      · rw [if_neg hkey, if_neg hkey]

/-- An assignment is read back, and leaves every other key as it is. -/
theorem lookup_set_item (d : List (String × α)) (entry : String × α) (key : String) :
    (set_item d entry).lookup key = if key = entry.1 then some entry.2 else d.lookup key := by
  unfold set_item
  split
  · rename_i hmem
    rw [lookup_replace]
    by_cases hkey : key = entry.1
    · rw [List.contains_iff_mem] at hmem
      have hsome : (d.lookup key).isSome := by
        rw [List.lookup_isSome_iff, hkey]
        obtain ⟨old, hold, hfst⟩ := List.mem_map.1 hmem
        exact ⟨old, hold, (beq_iff_eq : (entry.1 == old.1) = true ↔ _).2 hfst.symm⟩
      obtain ⟨a, ha⟩ := Option.isSome_iff_exists.1 hsome
      rw [if_pos hkey, if_pos hkey, ha, Option.map_some]
    · rw [if_neg hkey, if_neg hkey]
  · rename_i hmem
    rw [List.lookup_append, Gather.lookup_cons_if, List.lookup_nil]
    by_cases hkey : key = entry.1
    · have hnone : d.lookup key = none := by
        rw [List.lookup_eq_none_iff]
        intro old hold
        refine bne_iff_ne.2 fun heq => hmem ?_
        rw [List.contains_iff_mem, ← hkey, heq]
        exact List.mem_map_of_mem hold
      rw [if_pos hkey, if_pos hkey, hnone, Option.none_or]
    · rw [if_neg hkey, if_neg hkey, Option.or_none]

/-- What is read after an update is one of the new entries, or the old one. -/
theorem lookup_update_items {d entries : List (String × α)} {key : String} {a : α}
    (h : (update_items d entries).lookup key = some a) :
    (key, a) ∈ entries ∨ d.lookup key = some a := by
  unfold update_items at h
  induction entries generalizing d with
  | nil => exact .inr h
  | cons entry rest ih =>
    rcases ih h with hmem | hlookup
    · exact .inl (List.mem_cons_of_mem _ hmem)
    · rw [lookup_set_item] at hlookup
      split at hlookup
      · rename_i hkey
        rw [hkey, ← Option.some.inj hlookup]
        exact .inl List.mem_cons_self
      · exact .inr hlookup

/-- An update of other keys. -/
theorem lookup_update_items_of_not_mem {d entries : List (String × α)} {key : String}
    (h : key ∉ entries.map Prod.fst) : (update_items d entries).lookup key = d.lookup key := by
  unfold update_items
  induction entries generalizing d with
  | nil => rfl
  | cons entry rest ih =>
    rw [List.map_cons, List.mem_cons, not_or] at h
    rw [List.foldl_cons, ih h.2, lookup_set_item, if_neg h.1]

/-- The images add no state vector to the payload, under whatever keys they come. -/
theorem image_entries_no_state {Value Pixels F32 F64 : Type} {py : Runtime Value Pixels F32 F64}
    {request : OpenPIRequestCfg F64} {observation : List (String × Value)}
    {entries : List (String × Wire Value Pixels F32)}
    (h : image_entries py request observation = .ok entries) {entry : String × Wire Value Pixels F32}
    (hmem : entry ∈ entries) (vector : List F32) : entry.2 ≠ .state vector := by
  unfold image_entries at h
  split at h
  · rw [bind_ok] at h
    obtain ⟨images, -, h⟩ := h
    split at h
    · rw [← pure_ok.1 h, List.mem_singleton] at hmem
      rw [hmem]
      exact nofun
    · rw [← pure_ok.1 h] at hmem
      obtain ⟨image, -, rfl⟩ := List.mem_map.1 hmem
      exact nofun
  · rw [bind_ok] at h
    obtain ⟨images, -, h⟩ := h
    rw [← pure_ok.1 h] at hmem
    obtain ⟨image, -, rfl⟩ := List.mem_map.1 hmem
    exact nofun

end Payload

/-! ## One call -/

section Calls

variable {Value Pixels F32 F64 : Type} {py : Runtime Value Pixels F32 F64}

theorem projection_error {α : Type} {x : Except ProjectionError α} (h : ∀ a, x ≠ .ok a) :
    ∃ e, projection x = .error (.policy e) := by
  cases x with
  | ok a => exact absurd rfl (h a)
  | error e => exact ⟨.projection e, rfl⟩

theorem projection_ok {α : Type} {x : Except ProjectionError α} {a : α} :
    projection x = .ok a ↔ x = .ok a := mapError_ok

/-- A payload with its parts: the state vector, which is as declared, the entries of the images and
the task. The vector is the payload's value under the state's key, unless the config gives that key
to an image or to the task too, and the payload has no other vector. -/
structure Encoded (py : Runtime Value Pixels F32 F64) (cfg : OpenPIEndpointCfg F64)
    (observation : List (String × Value)) (payload : List (String × Wire Value Pixels F32))
    (dfc_state state : List F32) (entries : List (String × Wire Value Pixels F32))
    (task : Value) : Prop where
  of_state : dfc_state_of py observation = .ok dfc_state
  of_images : image_entries py cfg.request observation = .ok entries
  of_task : observation.lookup "task" = some task
  assembled : payload = set_item
    (update_items [(cfg.request.state.key, Wire.state state)] entries)
    (cfg.request.prompt_key, .task task)
  sent : cfg.request.state.key ∉ entries.map Prod.fst →
    cfg.request.state.key ≠ cfg.request.prompt_key →
    payload.lookup cfg.request.state.key = some (Wire.state state)
  only : ∀ key vector, payload.lookup key = some (Wire.state vector) →
    key = cfg.request.state.key ∧ vector = state
  passed : cfg.request.state.dim = 0 → state = dfc_state
  projected : cfg.request.state.dim ≠ 0 → Projected cfg.request.state.dim
    cfg.request.state.writes (request_value py.f32 dfc_state) state

/-- The payload carries the state vector, and that vector is as declared. -/
def Encodes (py : Runtime Value Pixels F32 F64) (cfg : OpenPIEndpointCfg F64)
    (observation : List (String × Value))
    (payload : List (String × Wire Value Pixels F32)) : Prop :=
  ∃ dfc_state state entries task, Encoded py cfg observation payload dfc_state state entries task

/-- The observation has a state that the request's config fits. -/
def Encodable (py : Runtime Value Pixels F32 F64) (cfg : OpenPIEndpointCfg F64)
    (observation : List (String × Value)) : Prop :=
  ∃ dfc_state, dfc_state_of py observation = .ok dfc_state ∧
    cfg.request.state.Declared dfc_state.length

/-- Every row of actions is as declared, holds taken from the given state. -/
def Decodes (py : Runtime Value Pixels F32 F64) (cfg : OpenPIEndpointCfg F64)
    (last_dfc_state : Option (List F32)) (response : Response Value)
    (output : List (List F64)) : Prop :=
  ∃ array width raw, response_actions py cfg.actions.key response = .ok array ∧
    action_matrix array = .ok (width, raw) ∧ raw ≠ [] ∧ (∀ row ∈ raw, row.length = width) ∧
    (cfg.actions.dim = 0 → output = raw) ∧
    (cfg.actions.dim ≠ 0 → List.Forall₂ (fun row out =>
      Projected cfg.actions.dim cfg.actions.writes (action_value py.f64 row last_dfc_state) out)
      raw output)

/-- The response has actions that the response's config fits. -/
def Decodable (py : Runtime Value Pixels F32 F64) (cfg : OpenPIEndpointCfg F64)
    (last_dfc_state : Option (List F32)) (response : Response Value) : Prop :=
  ∃ array width raw, response_actions py cfg.actions.key response = .ok array ∧
    action_matrix array = .ok (width, raw) ∧
    cfg.actions.Declared width (last_dfc_state.map List.length)

/-- What becomes of a request: encoded as declared, or refused with the state for later holds
unchanged; and what does not fit is refused with a `PolicyError`. -/
structure RequestSpec (py : Runtime Value Pixels F32 F64) (cfg : OpenPIEndpointCfg F64)
    (adapter : Adapter F32) (observation : List (String × Value))
    (out : Except AdapterError (List (String × Wire Value Pixels F32)) × Adapter F32) : Prop where
  encodes : ∀ payload, out.1 = .ok payload → Encodes py cfg observation payload
  kept : ∀ e, out.1 = .error e → out.2 = adapter
  refuses : cfg.request.state.dim ≠ 0 → dfc_state_of py observation ≠ .error .raised →
    ¬ Encodable py cfg observation → ∃ e, out.1 = .error (.policy e)

/-- What becomes of a response. -/
structure ResponseSpec (py : Runtime Value Pixels F32 F64) (cfg : OpenPIEndpointCfg F64)
    (last_dfc_state : Option (List F32)) (response : Response Value)
    (result : Except AdapterError (List (List F64))) : Prop where
  decodes : ∀ output, result = .ok output → Decodes py cfg last_dfc_state response output
  refuses : cfg.actions.dim ≠ 0 →
    response_actions py cfg.actions.key response ≠ .error .raised →
    ¬ Decodable py cfg last_dfc_state response → ∃ e, result = .error (.policy e)

variable (py) in
/-- A request is refused and changes nothing, or it is encoded and its state is kept. -/
theorem encode_request_cases [Zero F32] (cfg : OpenPIEndpointCfg F64) (adapter : Adapter F32)
    (observation : List (String × Value)) :
    (∃ e, exec (encode_request py cfg observation) adapter = (.error e, adapter)) ∨
    ∃ dfc_state payload, dfc_state_of py observation = .ok dfc_state ∧
      exec (encode_request py cfg observation) adapter = (.ok payload, ⟨some dfc_state⟩) ∧
      ∃ state entries task, request_state py cfg.request.state dfc_state = .ok state ∧
        image_entries py cfg.request observation = .ok entries ∧
        observation.lookup "task" = some task ∧
        payload = set_item (update_items [(cfg.request.state.key, .state state)] entries)
          (cfg.request.prompt_key, .task task) := by
  unfold encode_request
  cases hdfc : dfc_state_of py observation with
  | error e => exact .inl ⟨e, rfl⟩
  | ok dfc_state =>
    rw [exec_call_ok_bind]
    cases hstate : projection (request_state py cfg.request.state dfc_state) with
    | error e => exact .inl ⟨e, rfl⟩
    | ok state =>
      rw [exec_call_ok_bind]
      cases hentries : image_entries py cfg.request observation with
      | error e => exact .inl ⟨e, rfl⟩
      | ok entries =>
        rw [exec_call_ok_bind]
        cases htask : observation.lookup "task" with
        | none => exact .inl ⟨.raised, rfl⟩
        | some task =>
          exact .inr ⟨dfc_state, _, rfl, rfl, state, entries, task, projection_ok.1 hstate, rfl,
            rfl, rfl⟩

/-- What a request is encoded to carries its state as declared, provided that no other entry comes
under the state's key. -/
theorem encoded_of_parts [Zero F32] {cfg : OpenPIEndpointCfg F64}
    {observation : List (String × Value)} {dfc_state state : List F32}
    {entries : List (String × Wire Value Pixels F32)} {task : Value}
    (hdfc : dfc_state_of py observation = .ok dfc_state)
    (hstate : request_state py cfg.request.state dfc_state = .ok state)
    (hentries : image_entries py cfg.request observation = .ok entries)
    (htask : observation.lookup "task" = some task) :
    Encoded py cfg observation
      (set_item (update_items [(cfg.request.state.key, Wire.state state)] entries)
        (cfg.request.prompt_key, .task task)) dfc_state state entries task := by
  refine ⟨hdfc, hentries, htask, rfl, ?_, ?_, ?_, ?_⟩
  · intro himages hprompt
    rw [lookup_set_item, if_neg hprompt, lookup_update_items_of_not_mem himages]
    exact List.lookup_cons_self
  · intro key vector hlookup
    rw [lookup_set_item] at hlookup
    split at hlookup
    · exact nomatch hlookup
    · rcases lookup_update_items hlookup with hmem | hfirst
      · exact absurd rfl (image_entries_no_state hentries hmem vector)
      · rw [Gather.lookup_cons_if] at hfirst
        split at hfirst
        · rename_i hkey
          exact ⟨hkey, (Wire.state.inj (Option.some.inj hfirst)).symm⟩
        · exact nomatch hfirst
  · intro hzero
    unfold request_state at hstate
    rw [if_neg (by omega), if_pos hzero] at hstate
    exact (Except.ok.inj hstate).symm
  · intro hdim
    exact (request_state_spec hdim hstate).2

theorem request_spec [Zero F32] (cfg : OpenPIEndpointCfg F64) (adapter : Adapter F32)
    (observation : List (String × Value)) :
    RequestSpec py cfg adapter observation
      (exec (encode_request py cfg observation) adapter) := by
  refine ⟨?_, ?_, ?_⟩
  · intro payload hpayload
    rcases encode_request_cases py cfg adapter observation with
      ⟨e, hexec⟩ | ⟨dfc_state, sent, hdfc, hexec, state, entries, task, hstate, hentries, htask,
        rfl⟩
    · rw [hexec] at hpayload
      exact nomatch hpayload
    · rw [hexec] at hpayload
      rw [← Except.ok.inj hpayload]
      exact ⟨dfc_state, state, entries, task, encoded_of_parts hdfc hstate hentries htask⟩
  · intro e he
    rcases encode_request_cases py cfg adapter observation with
      ⟨e', hexec⟩ | ⟨dfc_state, sent, hdfc, hexec, -⟩
    · rw [hexec]
    · rw [hexec] at he
      exact nomatch he
  · intro hdim hreadable hunfit
    unfold encode_request
    cases hdfc : dfc_state_of py observation with
    | error e =>
      cases e with
      | policy e => exact ⟨e, rfl⟩
      | raised => exact absurd hdfc hreadable
    | ok dfc_state =>
      have hrefused : ∀ state, request_state py cfg.request.state dfc_state ≠ .ok state :=
        fun state hstate => hunfit ⟨dfc_state, hdfc, (request_state_spec hdim hstate).1⟩
      obtain ⟨e, he⟩ := projection_error hrefused
      rw [exec_call_ok_bind, he, exec_call_error_bind]
      exact ⟨e, rfl⟩

/-- The rows of an array have its width, and there is at least one. -/
theorem action_matrix_rows {α : Type} {array : NdArray α} {width : ℕ} {raw : List (List α)}
    (h : action_matrix array = .ok (width, raw)) :
    raw ≠ [] ∧ ∀ row ∈ raw, row.length = width := by
  obtain ⟨shape, data, hsize⟩ := array
  unfold action_matrix at h
  dsimp only at h
  split at h
  · obtain ⟨rfl, rfl⟩ := Prod.mk.inj (Except.ok.inj h)
    refine ⟨List.cons_ne_nil _ _, ?_⟩
    intro row hrow
    rw [List.mem_singleton.1 hrow, hsize, List.prod_singleton]
  · rename_i h' w
    obtain ⟨hrows, h⟩ := guard_ok.1 h
    obtain ⟨rfl, rfl⟩ := Prod.mk.inj (Except.ok.inj h)
    have hdata : data.length = h' * w := by simpa using hsize
    unfold rows
    refine ⟨?_, ?_⟩
    · intro hnil
      exact hrows (List.range_eq_nil.1 (List.map_eq_nil_iff.1 hnil))
    · intro row hrow
      obtain ⟨k, hk, rfl⟩ := List.mem_map.1 hrow
      have hrest : (k + 1) * w ≤ h' * w := Nat.mul_le_mul_right w (List.mem_range.1 hk)
      rw [Nat.succ_mul] at hrest
      rw [List.length_take, List.length_drop, hdata]
      omega
  · exact nomatch h

/-- An array that is no matrix of actions is refused with a `PolicyError`. -/
theorem action_matrix_error {α : Type} {array : NdArray α} {e : AdapterError}
    (h : action_matrix array = .error e) : ∃ shape, e = .policy (.actions_shape shape) := by
  unfold action_matrix at h
  split at h
  · exact nomatch h
  · split at h
    · exact ⟨_, (Except.error.inj h).symm⟩
    · exact nomatch h
  · exact ⟨_, (Except.error.inj h).symm⟩

theorem response_spec [Zero F64] (cfg : OpenPIEndpointCfg F64) (adapter : Adapter F32)
    (response : Response Value) :
    ResponseSpec py cfg adapter.last_dfc_state response
      (exec (decode_actions py cfg response) adapter).1 := by
  unfold decode_actions
  refine ⟨?_, ?_⟩
  · -- what comes out went through every check
    intro output houtput
    cases harray : response_actions py cfg.actions.key response with
    | error e =>
      rw [harray] at houtput
      exact nomatch houtput
    | ok array =>
      rw [harray, exec_call_ok_bind] at houtput
      cases hraw : action_matrix array with
      | error e =>
        rw [hraw] at houtput
        exact nomatch houtput
      | ok matrix =>
        rw [hraw, exec_call_ok_bind] at houtput
        have hrows := projection_ok.1 houtput
        obtain ⟨hne, hwidth⟩ := action_matrix_rows hraw
        refine ⟨array, matrix.1, matrix.2, harray, hraw, hne, hwidth, ?_, ?_⟩
        · intro hzero
          unfold action_rows at hrows
          rw [if_neg (by omega), if_pos hzero] at hrows
          exact (Except.ok.inj hrows).symm
        · intro hdim
          exact (action_rows_spec hwidth hdim hrows).2
  · -- what does not fit is refused at the first check that sees it
    intro hdim hreadable hunfit
    cases harray : response_actions py cfg.actions.key response with
    | error e =>
      cases e with
      | policy e => exact ⟨e, rfl⟩
      | raised => exact absurd harray hreadable
    | ok array =>
      rw [exec_call_ok_bind]
      cases hraw : action_matrix array with
      | error e =>
        obtain ⟨shape, rfl⟩ := action_matrix_error hraw
        exact ⟨.actions_shape shape, rfl⟩
      | ok matrix =>
        rw [exec_call_ok_bind]
        obtain ⟨hne, hwidth⟩ := action_matrix_rows hraw
        have hrefused : ∀ output,
            action_rows py cfg.actions adapter.last_dfc_state matrix.1 matrix.2 ≠ .ok output :=
          fun output hrows =>
            hunfit ⟨array, matrix.1, matrix.2, harray, hraw,
              (action_rows_spec hwidth hdim hrows).1⟩
        exact projection_error hrefused

theorem decode_actions_keeps [Zero F64] (cfg : OpenPIEndpointCfg F64) (adapter : Adapter F32)
    (response : Response Value) :
    (exec (decode_actions py cfg response) adapter).2 = adapter := by
  unfold decode_actions
  cases response_actions py cfg.actions.key response with
  | error e => rfl
  | ok array =>
    rw [exec_call_ok_bind]
    cases action_matrix array with
    | error e => rfl
    | ok matrix => rfl

end Calls

/-! ## Runs -/

section Runs

variable {Value Pixels F32 F64 : Type}

/-- A call of the adapter. -/
inductive Call (Value : Type)
  | encode (observation : List (String × Value))
  | decode (response : Response Value)

/-- A call and what it returned or raised. -/
inductive Event (Value Pixels F32 F64 : Type)
  | encoded (observation : List (String × Value))
      (result : Except AdapterError (List (String × Wire Value Pixels F32)))
  | decoded (response : Response Value) (result : Except AdapterError (List (List F64)))

variable [Zero F32] [Zero F64] (py : Runtime Value Pixels F32 F64) (cfg : OpenPIEndpointCfg F64)

/-- One call, recorded. -/
def perform (run : List (Event Value Pixels F32 F64) × Adapter F32) :
    Call Value → List (Event Value Pixels F32 F64) × Adapter F32
  | .encode observation =>
    let out := exec (encode_request py cfg observation) run.2
    (run.1 ++ [.encoded observation out.1], out.2)
  | .decode response =>
    let out := exec (decode_actions py cfg response) run.2
    (run.1 ++ [.decoded response out.1], out.2)

/-- An adapter's calls from its construction on. -/
def run_calls (calls : List (Call Value)) : List (Event Value Pixels F32 F64) × Adapter F32 :=
  calls.foldl (perform py cfg) ([], ⟨none⟩)

/-- The DFC state of the observation encoded last. -/
def encoded_last (events : List (Event Value Pixels F32 F64)) : Option (List F32) :=
  events.reverse.findSome? fun
    | .encoded observation (.ok _) => (dfc_state_of py observation).toOption
    | _ => none

variable {py cfg}

/-- The state kept for holds is that of the observation encoded last. -/
theorem last_dfc_state_eq (calls : List (Call Value)) :
    (run_calls py cfg calls).2.last_dfc_state = encoded_last py (run_calls py cfg calls).1 := by
  induction calls using List.reverseRecOn with
  | nil => rfl
  | append_singleton calls call ih =>
    unfold run_calls at ih ⊢
    rw [List.foldl_append, List.foldl_cons, List.foldl_nil]
    generalize calls.foldl (perform py cfg) ([], ⟨none⟩) = r at ih ⊢
    obtain ⟨events, adapter⟩ := r
    dsimp only at ih
    cases call with
    | encode observation =>
      unfold perform encoded_last at *
      dsimp only
      rw [List.reverse_append]
      rcases encode_request_cases py cfg adapter observation with
        ⟨e, hexec⟩ | ⟨dfc_state, sent, hdfc, hexec, -⟩
      · rw [hexec]
        exact ih
      · rw [hexec]
        simp [hdfc, Except.toOption]
    | decode response =>
      unfold perform encoded_last at *
      dsimp only
      rw [decode_actions_keeps, List.reverse_append]
      exact ih

/-- Every call of every run: a request is encoded as declared or refused with nothing changed,
and every row of a response is as declared, its holds taken from the observation encoded last. -/
theorem projection_is_declared (py : Runtime Value Pixels F32 F64)
    (cfg : OpenPIEndpointCfg F64) (calls : List (Call Value)) :
    (∀ observation, RequestSpec py cfg (run_calls py cfg calls).2 observation
      (exec (encode_request py cfg observation) (run_calls py cfg calls).2)) ∧
    (∀ response, ResponseSpec py cfg (encoded_last py (run_calls py cfg calls).1) response
      (exec (decode_actions py cfg response) (run_calls py cfg calls).2).1) := by
  refine ⟨fun observation => request_spec .., fun response => ?_⟩
  rw [← last_dfc_state_eq]
  exact response_spec ..

/-- Values that are one number or nothing numpy makes an array of. -/
def single : Runtime (Option ℤ) Unit ℤ ℤ where
  float32_array value := value.map fun a => ⟨[1], [a], rfl⟩
  float64_array value := value.map fun a => ⟨[1], [a], rfl⟩
  pixels _ := none
  shape _ := []
  moveaxis _ _ _ := ()
  to_uint8 _ := none
  f32 a := a
  f64 a := a
  format_camera _ camera := some camera
  sorted keys := some keys

/-- The default config at these dimensions: no item is declared. -/
def undeclared (dim : ℤ) : OpenPIEndpointCfg ℤ :=
  ⟨⟨⟨"observation/state", dim, [], []⟩, "", [], "prompt", "observation/images/\x7bcamera\x7d", []⟩,
    ⟨"actions", dim, [], [], []⟩⟩

/-- A constant state of one element, whose key the prompt has too. -/
def prompt_for_state (value : ℤ) : OpenPIEndpointCfg ℤ :=
  ⟨⟨⟨"observation/state", 1, [], [⟨"", [.of 0], value⟩]⟩, "", [], "observation/state", "", []⟩,
    ⟨"actions", 0, [], [], []⟩⟩

/-- A vector that no item writes passes at dimension zero; at dimension two, where no target is
declared, a response numpy refuses is not refused with a `PolicyError`; and a prompt that is sent
under the state's key takes the place of the state vector. -/
theorem undeclared_passes_through :
    ((exec (encode_request single (undeclared 0)
        [("observation.state", some 7), ("task", none)]) ⟨none⟩).1 =
      .ok [("observation/state", .state [7]), ("prompt", .task none)] ∧
      (undeclared 0).request.state.writes = []) ∧
    (¬ Partitions (undeclared 2).actions.targets 2 ∧
      (exec (decode_actions single (undeclared 2) (.dict [(.str "actions", none)])) ⟨none⟩).1 =
        .error .raised) ∧
    (exec (encode_request single (prompt_for_state 7)
        [("observation.state", some 7), ("task", none)]) ⟨none⟩).1 =
      .ok [("observation/state", .task none)] := by
  refine ⟨⟨?_, rfl⟩, ⟨?_, rfl⟩, rfl⟩
  · rfl
  · intro h
    have hmem := (h.covers (.of 0)).2 ⟨0, by decide, rfl⟩
    exact List.not_mem_nil hmem

end Runs

end DualFlexivControl.Policy
