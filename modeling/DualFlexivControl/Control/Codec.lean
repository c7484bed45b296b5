/-
The setpoint vector on both sides of a channel: what the sender packs, the receiver slices.

Sender and receiver live in two processes and share the schema only. The sender concatenates the
streamed fields in the order of `streamed`; the receiver lays the declared widths out in that
order and reads each field back. The two agree wherever every value has its declared width.
-/
import DualFlexivControl.Lib.Tiling
import DualFlexivControl.Control.Schema
import DualFlexivControl.Brain.Writers

set_option autoImplicit false

namespace DualFlexivControl.Control

open Results Tiling

variable {F : Type}

/-- A dict built item by item: the last value under a key stays. -/
def dict {α : Type} (items : List (String × α)) (key : String) : Option α :=
  items.reverse.lookup key

namespace ControlCfg

variable (ctrl_cfg : ControlCfg)

/-- The width of one command field. -/
def width_of (f : String) : Except SchemaError ℕ := get_item f (ctrl_cfg.command.lookup f)

/-- `setpoint_dim`: the sum of the streamed command fields. -/
def setpoint_dim : Except SchemaError ℕ := do
  let dims ← collect ctrl_cfg.width_of ctrl_cfg.streamed
  pure dims.sum

/-- `streamed_layout`: the slices of the setpoint vector, in `streamed` order. -/
def streamed_layout : Except SchemaError (List (Block String)) := do
  let dims ← collect ctrl_cfg.width_of ctrl_cfg.streamed
  pure (place 0 (ctrl_cfg.streamed.zip dims))

/-- `slice_streamed`: split a received setpoint vector back into its named fields. -/
def slice_streamed (vec : List F) : Except SchemaError (String → Option (List F)) := do
  let layout ← ctrl_cfg.streamed_layout
  pure (dict (layout.map fun b => (b.label, slice b vec)))

/-- The streamed list names distinct command fields, the kind's primary among them. -/
structure Streams : Prop where
  distinct : ctrl_cfg.streamed.Nodup
  declared : ∀ f ∈ ctrl_cfg.streamed, ∃ d, ctrl_cfg.command.lookup f = some d
  has_primary : ∀ primary, ACTION_PRIMARY ctrl_cfg.kind = some primary →
    primary ∈ ctrl_cfg.streamed

/-- The value has the width the schema declares for the field. -/
def Fits (f : String) (value : List F) : Prop := ctrl_cfg.command.lookup f = some value.length

end ControlCfg

/-! ## Dicts of distinct keys -/

section Dict

variable {α : Type}

/-- With distinct keys a lookup finds exactly the entries, by induction on the list. -/
theorem lookup_eq_some {items : List (String × α)} (hnodup : (items.map Prod.fst).Nodup)
    {key : String} {a : α} : items.lookup key = some a ↔ (key, a) ∈ items := by
  induction items with
  | nil => simp
  | cons p rest ih =>
    rw [List.map_cons, List.nodup_cons] at hnodup
    rw [List.lookup_cons, List.mem_cons]
    by_cases hkey : key = p.1
    · subst hkey
      rw [beq_self_eq_true, Option.some_inj]
      constructor
      · intro ha
        exact Or.inl (Prod.ext rfl ha.symm)
      · rintro (ha | ha)
        · exact (congrArg Prod.snd ha).symm
        · exact absurd (List.mem_map_of_mem ha) hnodup.1
    · rw [beq_eq_false_iff_ne.2 hkey]
      rw [ih hnodup.2]
      constructor
      · exact Or.inr
      · rintro (ha | ha)
        · exact absurd (congrArg Prod.fst ha) hkey
        · exact ha

/-- The same for a dict that is built from items: with distinct keys none of them is overwritten. -/
theorem dict_eq_some {items : List (String × α)} (hnodup : (items.map Prod.fst).Nodup)
    {key : String} {a : α} : dict items key = some a ↔ (key, a) ∈ items := by
  have hrev : (items.reverse.map Prod.fst).Nodup := by
    rw [List.map_reverse, List.nodup_reverse]
    exact hnodup
  unfold dict
  rw [lookup_eq_some hrev, List.mem_reverse]

/-- Under each key of a zipped dict stands its own entry, provided that the keys are distinct and
there are as many values. -/
theorem dict_zip {P : String → α → Prop} {keys : List String} {values : List α}
    (hdistinct : keys.Nodup) (h : List.Forall₂ P keys values) {key : String} (hkey : key ∈ keys) :
    ∃ a, dict (keys.zip values) key = some a ∧ P key a := by
  have hfst : (keys.zip values).map Prod.fst = keys :=
    List.map_fst_zip (Nat.le_of_eq h.length_eq)
  have hmem : key ∈ (keys.zip values).map Prod.fst := by
    rw [hfst]
    exact hkey
  obtain ⟨⟨key', a⟩, hpair, rfl⟩ := List.mem_map.1 hmem
  refine ⟨a, (dict_eq_some (by rw [hfst]; exact hdistinct)).2 hpair, ?_⟩
  exact (List.forall₂_iff_zip.1 h).2 hpair

/-- A key that was not given has no value, so a receiver's missing field is one the sender did not
stream. -/
theorem dict_zip_none {keys : List String} {values : List α} (hdistinct : keys.Nodup)
    (hlen : keys.length = values.length) {key : String} (hkey : key ∉ keys) :
    dict (keys.zip values) key = none := by
  have hfst : (keys.zip values).map Prod.fst = keys := List.map_fst_zip (Nat.le_of_eq hlen)
  apply Option.eq_none_iff_forall_not_mem.2
  intro a ha
  have hpair := (dict_eq_some (by rw [hfst]; exact hdistinct)).1 ha
  apply hkey
  rw [← hfst]
  exact List.mem_map_of_mem hpair

end Dict

/-! ## What a vector of fitting values holds -/

section Slices

variable {ctrl_cfg : ControlCfg} {parts : List (List F)}

/-- The width of a field is the one that its command has, and a missing field is an error. -/
theorem width_of_ok {f : String} {d : ℕ} :
    ctrl_cfg.width_of f = .ok d ↔ ctrl_cfg.command.lookup f = some d := get_item_ok

/-- Parts that fit their fields have the fields' widths, in the order in which they are streamed. -/
theorem collect_widths (hfits : List.Forall₂ ctrl_cfg.Fits ctrl_cfg.streamed parts) :
    collect ctrl_cfg.width_of ctrl_cfg.streamed = .ok (parts.map List.length) := by
  rw [collect_ok, List.forall₂_map_right_iff]
  exact hfits.imp fun f part h => width_of_ok.2 h

/-- The vector of fitting values is as wide as the channel. -/
theorem setpoint_dim_flatten (hfits : List.Forall₂ ctrl_cfg.Fits ctrl_cfg.streamed parts) :
    ctrl_cfg.setpoint_dim = .ok parts.flatten.length := by
  unfold ControlCfg.setpoint_dim
  rw [collect_widths hfits, List.length_flatten]
  rfl

/-- The receiver reads every field of such a vector back, and no other. -/
theorem slice_streamed_flatten (hfits : List.Forall₂ ctrl_cfg.Fits ctrl_cfg.streamed parts) :
    ctrl_cfg.slice_streamed parts.flatten = .ok (dict (ctrl_cfg.streamed.zip parts)) := by
  have hlen : ctrl_cfg.streamed.length = parts.length := hfits.length_eq
  have hparts : (ctrl_cfg.streamed.zip parts).map Prod.snd = parts :=
    List.map_snd_zip (Nat.le_of_eq hlen.symm)
  have hzip : (ctrl_cfg.streamed.zip parts).map (fun p => (p.1, p.2.length)) =
      ctrl_cfg.streamed.zip (parts.map List.length) := by
    rw [List.zip_map_right]
    rfl
  have hslices : (place 0 _).map _ = ctrl_cfg.streamed.zip parts := slice_flatten []
  rw [List.nil_append, hparts, hzip] at hslices
  unfold ControlCfg.slice_streamed ControlCfg.streamed_layout
  rw [collect_widths hfits]
  exact congrArg (fun items => Except.ok (dict items)) hslices

end Slices

/-! ## Packing an action -/

section Action

variable [Zero F] {ctrl_cfg : ControlCfg} {primary : String} {primary_value : List F}
  {held : String → Option (List F)} {hold : List String} {f : String}

/-- The action field is the primary one of the controller's kind, if that kind has one. -/
theorem action_field_ok :
    ctrl_cfg.action_field = .ok primary ↔ ACTION_PRIMARY ctrl_cfg.kind = some primary := by
  unfold ControlCfg.action_field
  split
  · next p hp => rw [hp, Option.some_inj, Except.ok.injEq]
  · next hp =>
    rw [hp]
    constructor <;> intro h <;> exact nomatch h

/-- The fields that are held are the absolute ones among the streamed, less the primary. -/
theorem action_hold_fields_ok :
    ctrl_cfg.action_hold_fields = .ok hold ↔
      ∃ primary, ACTION_PRIMARY ctrl_cfg.kind = some primary ∧
        ctrl_cfg.streamed.filter (fun f => f != primary && ABSOLUTE_FIELDS.contains f) = hold := by
  unfold ControlCfg.action_hold_fields
  rw [bind_ok]
  simp only [action_field_ok, pure_ok]

/-- The held fields of a known kind: streamed, absolute and not the primary. -/
theorem mem_hold (hprimary : ACTION_PRIMARY ctrl_cfg.kind = some primary)
    (hhold : ctrl_cfg.action_hold_fields = .ok hold) :
    f ∈ hold ↔ f ∈ ctrl_cfg.streamed ∧ f ≠ primary ∧ f ∈ ABSOLUTE_FIELDS := by
  obtain ⟨p, hp, rfl⟩ := action_hold_fields_ok.1 hhold
  have hpp : p = primary := Option.some.inj (hp.symm.trans hprimary)
  rw [List.mem_filter, Bool.and_eq_true, bne_iff_ne, List.contains_iff_mem, hpp]

/-- The primary field carries the action. -/
theorem action_value_primary :
    ctrl_cfg.action_value primary primary_value held primary = .ok primary_value := by
  unfold ControlCfg.action_value
  rw [if_pos rfl]

/-- Another absolute field carries what is held, and without it packing fails. -/
theorem action_value_held (hne : f ≠ primary) (habs : f ∈ ABSOLUTE_FIELDS) {value : List F} :
    ctrl_cfg.action_value primary primary_value held f = .ok value ↔ held f = some value := by
  unfold ControlCfg.action_value
  rw [if_neg hne, if_pos (List.contains_iff_mem.2 habs)]
  split
  · next v hv => rw [hv, Option.some_inj, Except.ok.injEq]
  · next hv =>
    rw [hv]
    constructor <;> intro h <;> exact nomatch h

/-- A field that is relative is zero, in its own width. -/
theorem action_value_zeros (hne : f ≠ primary) (habs : f ∉ ABSOLUTE_FIELDS) {value : List F} :
    ctrl_cfg.action_value primary primary_value held f = .ok value ↔
      ∃ d, ctrl_cfg.command.lookup f = some d ∧ List.replicate d 0 = value := by
  unfold ControlCfg.action_value
  rw [if_neg hne, if_neg (fun h => habs (List.contains_iff_mem.1 h)), bind_ok]
  simp only [get_item_ok, pure_ok]

/-- A declared field has a value to pack unless it has to be held and is not. -/
theorem exists_action_value (hdeclared : ∃ d, ctrl_cfg.command.lookup f = some d) :
    (∃ value, ctrl_cfg.action_value primary primary_value held f = .ok value) ↔
      ¬ (f ≠ primary ∧ f ∈ ABSOLUTE_FIELDS ∧ held f = none) := by
  by_cases hprimary : f = primary
  · subst hprimary
    exact ⟨fun _ h => h.1 rfl, fun _ => ⟨_, action_value_primary⟩⟩
  by_cases habs : f ∈ ABSOLUTE_FIELDS
  · simp only [action_value_held hprimary habs]
    rw [← Option.isSome_iff_exists, Option.isSome_iff_ne_none]
    exact ⟨fun h hnone => h hnone.2.2, fun h hnone => h ⟨hprimary, habs, hnone⟩⟩
  · obtain ⟨d, hd⟩ := hdeclared
    exact ⟨fun _ h => habs h.2.1, fun _ =>
      ⟨_, (action_value_zeros hprimary habs).2 ⟨d, hd, rfl⟩⟩⟩

/-- An action is packed when every streamed field gets its part, and is these parts in a row. -/
theorem pack_action_ok {vec : List F} :
    ctrl_cfg.pack_action primary_value held = .ok vec ↔
      ∃ primary parts, ACTION_PRIMARY ctrl_cfg.kind = some primary ∧
        List.Forall₂ (fun f part => ctrl_cfg.action_value primary primary_value held f = .ok part)
          ctrl_cfg.streamed parts ∧ parts.flatten = vec := by
  unfold ControlCfg.pack_action
  rw [bind_ok]
  simp only [action_field_ok, bind_ok, collect_ok, pure_ok, exists_and_left]

/-- Packing an action raises where the kind is unknown or a field to hold is missing. -/
theorem pack_action_raises (h : ctrl_cfg.Streams) :
    (∃ e, ctrl_cfg.pack_action primary_value held = .error e) ↔
      ACTION_PRIMARY ctrl_cfg.kind = none ∨
        ∃ hold, ctrl_cfg.action_hold_fields = .ok hold ∧ ∃ f ∈ hold, held f = none := by
  rw [exists_error_iff]
  simp only [pack_action_ok]
  rcases hkind : ACTION_PRIMARY ctrl_cfg.kind with _ | primary
  · constructor
    · intro _
      exact Or.inl rfl
    · rintro _ ⟨vec, p, parts, hp, _⟩
      exact nomatch hp
  · have hvalues : (∃ parts, List.Forall₂ (fun f part =>
        ctrl_cfg.action_value primary primary_value held f = .ok part) ctrl_cfg.streamed parts) ↔
        ∀ f ∈ ctrl_cfg.streamed, ¬ (f ≠ primary ∧ f ∈ ABSOLUTE_FIELDS ∧ held f = none) := by
      simp only [← collect_ok, exists_collect_iff]
      apply forall₂_congr
      intro f hf
      exact exists_action_value (h.declared f hf)
    constructor
    · intro hfail
      right
      by_contra hheld
      apply hfail
      obtain ⟨parts, hparts⟩ := hvalues.2 fun f hf hmissing => hheld
        ⟨_, action_hold_fields_ok.2 ⟨primary, hkind, rfl⟩, f,
          (mem_hold hkind (action_hold_fields_ok.2 ⟨primary, hkind, rfl⟩)).2
            ⟨hf, hmissing.1, hmissing.2.1⟩, hmissing.2.2⟩
      exact ⟨_, primary, parts, rfl, hparts, rfl⟩
    · rintro (hnone | ⟨hold, hhold, f, hf, hnone⟩)
      · exact nomatch hnone
      · rintro ⟨vec, p, parts, hp, hparts, _⟩
        obtain ⟨hstreamed, hne, habs⟩ := (mem_hold hkind hhold).1 hf
        have hpp : primary = p := Option.some.inj hp
        subst hpp
        exact hvalues.1 ⟨parts, hparts⟩ f hstreamed ⟨hne, habs, hnone⟩

/-- Held values of their declared widths and a primary value of width `action_dim`. -/
structure Fitting (ctrl_cfg : ControlCfg) (primary_value : List F)
    (held : String → Option (List F)) : Prop where
  primary : ∀ d, ctrl_cfg.action_dim = .ok d → primary_value.length = d
  held : ∀ hold, ctrl_cfg.action_hold_fields = .ok hold →
    ∀ f ∈ hold, ∀ value, held f = some value → ctrl_cfg.Fits f value

/-- The width of an action is that of its primary field. -/
theorem action_dim_ok {d : ℕ} (hprimary : ACTION_PRIMARY ctrl_cfg.kind = some primary) :
    ctrl_cfg.action_dim = .ok d ↔ ctrl_cfg.command.lookup primary = some d := by
  unfold ControlCfg.action_dim
  rw [bind_ok]
  simp only [action_field_ok, hprimary, Option.some_inj, get_item_ok, exists_eq_left']

/-- What a streamed field is filled with has the field's width: the action's own, what is held, or
zeros. -/
theorem action_value_fits (h : ctrl_cfg.Streams)
    (hprimary : ACTION_PRIMARY ctrl_cfg.kind = some primary)
    (hfit : Fitting ctrl_cfg primary_value held) (hf : f ∈ ctrl_cfg.streamed) {value : List F}
    (hvalue : ctrl_cfg.action_value primary primary_value held f = .ok value) :
    ctrl_cfg.Fits f value := by
  obtain ⟨d, hd⟩ := h.declared f hf
  by_cases hp : f = primary
  · subst hp
    rw [action_value_primary, Except.ok.injEq] at hvalue
    have hlen := hfit.primary d ((action_dim_ok hprimary).2 hd)
    rw [ControlCfg.Fits, ← hvalue, hlen, hd]
  by_cases habs : f ∈ ABSOLUTE_FIELDS
  · have hhold := action_hold_fields_ok.2 ⟨primary, hprimary, rfl⟩
    apply hfit.held _ hhold f ((mem_hold hprimary hhold).2 ⟨hf, hp, habs⟩)
    exact (action_value_held hp habs).1 hvalue
  · obtain ⟨d', hd', hzeros⟩ := (action_value_zeros hp habs).1 hvalue
    rw [ControlCfg.Fits, hd', ← hzeros, List.length_replicate]

/-- What slicing a packed action gives: the primary value, the held fields, zeros elsewhere, and
nothing that is not streamed. -/
structure Sliced (ctrl_cfg : ControlCfg) (primary_value : List F)
    (held fields : String → Option (List F)) : Prop where
  primary : ∀ p, ctrl_cfg.action_field = .ok p → fields p = some primary_value
  held : ∀ hold, ctrl_cfg.action_hold_fields = .ok hold → ∀ f ∈ hold, fields f = held f
  zeros : ∀ p hold, ctrl_cfg.action_field = .ok p → ctrl_cfg.action_hold_fields = .ok hold →
    ∀ f ∈ ctrl_cfg.streamed, f ≠ p → f ∉ hold →
      ∃ d, ctrl_cfg.command.lookup f = some d ∧ fields f = some (List.replicate d 0)
  streamed : ∀ f, f ∉ ctrl_cfg.streamed → fields f = none

/-- A packed action of fitting values has the channel's width and slices back. -/
theorem pack_action_slices (h : ctrl_cfg.Streams) (hfit : Fitting ctrl_cfg primary_value held)
    {vec : List F} (hvec : ctrl_cfg.pack_action primary_value held = .ok vec) :
    ctrl_cfg.setpoint_dim = .ok vec.length ∧
      ∃ fields, ctrl_cfg.slice_streamed vec = .ok fields ∧
        Sliced ctrl_cfg primary_value held fields := by
  obtain ⟨primary, parts, hprimary, hparts, rfl⟩ := pack_action_ok.1 hvec
  have hfits : List.Forall₂ ctrl_cfg.Fits ctrl_cfg.streamed parts := by
    apply List.forall₂_iff_get.2
    refine ⟨hparts.length_eq, fun i hi hi' => ?_⟩
    apply action_value_fits h hprimary hfit (List.getElem_mem hi)
    exact (List.forall₂_iff_get.1 hparts).2 i hi hi'
  -- a streamed field reads back as what it was filled with
  have hfield : ∀ {f value}, f ∈ ctrl_cfg.streamed →
      ctrl_cfg.action_value primary primary_value held f = .ok value →
      dict (ctrl_cfg.streamed.zip parts) f = some value := by
    intro f value hf hvalue
    obtain ⟨part, hpart, hfilled⟩ := dict_zip h.distinct hparts hf
    rw [hpart, Except.ok.inj (hfilled.symm.trans hvalue)]
  refine ⟨setpoint_dim_flatten hfits, _, slice_streamed_flatten hfits, ?_, ?_, ?_, ?_⟩
  · intro p hp
    have hpp : primary = p := Option.some.inj (hprimary.symm.trans (action_field_ok.1 hp))
    rw [← hpp]
    exact hfield (h.has_primary primary hprimary) action_value_primary
  · intro hold hhold f hf
    obtain ⟨hstreamed, hne, habs⟩ := (mem_hold hprimary hhold).1 hf
    obtain ⟨part, hpart, hfilled⟩ := dict_zip h.distinct hparts hstreamed
    rw [hpart]
    exact ((action_value_held hne habs).1 hfilled).symm
  · intro p hold hp hhold f hf hne hnot
    have hpp : primary = p := Option.some.inj (hprimary.symm.trans (action_field_ok.1 hp))
    subst hpp
    have habs : f ∉ ABSOLUTE_FIELDS := fun habs =>
      hnot ((mem_hold hprimary hhold).2 ⟨hf, hne, habs⟩)
    obtain ⟨d, hd⟩ := h.declared f hf
    exact ⟨d, hd, hfield hf ((action_value_zeros hne habs).2 ⟨d, hd, rfl⟩)⟩
  · intro f hf
    exact dict_zip_none h.distinct hparts.length_eq hf

end Action

/-! ## The codec -/

/-- A field map read back from the vector it was packed into, in any dict order. -/
theorem slice_pack_streamed {ctrl_cfg : ControlCfg} (h : ctrl_cfg.Streams)
    {items : List (String × List F)} (hcomplete : (items.map Prod.fst).Perm ctrl_cfg.streamed)
    (hfits : ∀ p ∈ items, ctrl_cfg.Fits p.1 p.2) :
    ∃ vec fields, ctrl_cfg.pack_streamed (dict items) = .ok vec ∧
      ctrl_cfg.slice_streamed vec = .ok fields ∧ ∀ f, fields f = dict items f := by
  have hnodup : (items.map Prod.fst).Nodup := hcomplete.nodup_iff.2 h.distinct
  have hentry : ∀ f ∈ ctrl_cfg.streamed, ∃ part, get_item f (dict items f) = .ok part := by
    intro f hf
    obtain ⟨p, hp, rfl⟩ := List.mem_map.1 (hcomplete.mem_iff.2 hf)
    exact ⟨p.2, get_item_ok.2 ((dict_eq_some hnodup).2 hp)⟩
  obtain ⟨parts, hparts⟩ := exists_collect hentry
  rw [collect_ok] at hparts
  have hvalues : List.Forall₂ (fun f part => dict items f = some part) ctrl_cfg.streamed parts :=
    hparts.imp fun f part hpart => get_item_ok.1 hpart
  have hwidths : List.Forall₂ ctrl_cfg.Fits ctrl_cfg.streamed parts :=
    hvalues.imp fun f part hpart => hfits (f, part) ((dict_eq_some hnodup).1 hpart)
  refine ⟨parts.flatten, _, pack_streamed_ok.2 ⟨parts, hvalues, rfl⟩,
    slice_streamed_flatten hwidths, ?_⟩
  intro f
  by_cases hf : f ∈ ctrl_cfg.streamed
  · obtain ⟨part, hpart, hitem⟩ := dict_zip h.distinct hvalues hf
    rw [hpart, hitem]
  · rw [dict_zip_none h.distinct hvalues.length_eq hf]
    symm
    apply Option.eq_none_iff_forall_not_mem.2
    intro a ha
    exact hf (hcomplete.mem_iff.1 (List.mem_map_of_mem ((dict_eq_some hnodup).1 ha)))

/-- Sender and receiver agree on every schema: packing an action raises only for an unknown kind
or a missing held value, what it packs is accepted by the channel and slices back, and so does
every complete field map. -/
theorem setpoint_codec [Zero F] {ctrl_cfg : ControlCfg} (h : ctrl_cfg.Streams)
    (primary_value : List F) (held : String → Option (List F))
    (hwidth : ∀ d, ctrl_cfg.action_dim = .ok d → primary_value.length = d) :
    ((∃ e, ctrl_cfg.pack_action primary_value held = .error e) ↔
      ACTION_PRIMARY ctrl_cfg.kind = none ∨
        ∃ hold, ctrl_cfg.action_hold_fields = .ok hold ∧ ∃ f ∈ hold, held f = none) ∧
    (∀ vec, ctrl_cfg.pack_action primary_value held = .ok vec →
      (∀ hold, ctrl_cfg.action_hold_fields = .ok hold →
        ∀ f ∈ hold, ∀ value, held f = some value → ctrl_cfg.Fits f value) →
      ctrl_cfg.setpoint_dim = .ok vec.length ∧
      (∀ (writers : Brain.Writers) (side : String) (dim : ℕ),
        writers.setpoint_dim side = some dim → ctrl_cfg.setpoint_dim = .ok dim →
          writers.command side vec = .ok ()) ∧
      ∃ fields, ctrl_cfg.slice_streamed vec = .ok fields ∧
        Sliced ctrl_cfg primary_value held fields) ∧
    (∀ items : List (String × List F), (items.map Prod.fst).Perm ctrl_cfg.streamed →
      (∀ p ∈ items, ctrl_cfg.Fits p.1 p.2) →
      ∃ vec fields, ctrl_cfg.pack_streamed (dict items) = .ok vec ∧
        ctrl_cfg.slice_streamed vec = .ok fields ∧ ∀ f, fields f = dict items f) := by
  refine ⟨pack_action_raises h, ?_, fun items => slice_pack_streamed h⟩
  intro vec hvec hheld
  obtain ⟨hdim, hslices⟩ := pack_action_slices h ⟨hwidth, hheld⟩ hvec
  refine ⟨hdim, ?_, hslices⟩
  intro writers side dim hside hdim'
  have hlen : vec.length = dim := Except.ok.inj (hdim.symm.trans hdim')
  unfold Brain.Writers.command
  rw [hside]
  exact if_neg (not_not_intro hlen)

/-- The shipped schema of the `force` kind. -/
def force_cfg : ControlCfg :=
  { kind := .force
    command := [("pose_d", 7), ("twist_d", 6), ("wrench_d", 6)]
    streamed := ["wrench_d", "pose_d"] }

/-- The configuration of the example streams distinct fields of known widths, which is what every
accepted configuration does. -/
theorem force_cfg_streams : force_cfg.Streams where
  distinct := by decide
  declared := by
    intro f hf
    apply Option.isSome_iff_exists.1
    revert f
    decide
  has_primary := by
    intro primary hprimary
    rw [← Option.some.inj hprimary]
    decide

/-- Under `force` a wrench needs a measured pose, and with one both read back. -/
theorem setpoint_codec_force :
    (∃ e, force_cfg.pack_action [1, 2, 3, 4, 5, 6] (fun _ => none) = .error e) ∧
      ∃ fields, force_cfg.slice_streamed [1, 2, 3, 4, 5, 6, 10, 11, 12, 13, 14, 15, 16] =
          .ok fields ∧
        Sliced force_cfg [1, 2, 3, 4, 5, 6]
          (dict [("pose_d", [10, 11, 12, 13, 14, 15, 16])]) fields := by
  have hwidth : ∀ d, force_cfg.action_dim = .ok d → [1, 2, 3, 4, 5, 6].length = d := by
    intro d hd
    exact Except.ok.inj hd
  constructor
  · apply (setpoint_codec force_cfg_streams [1, 2, 3, 4, 5, 6] _ hwidth).1.2
    right
    exact ⟨["pose_d"], by decide, "pose_d", List.mem_singleton_self _, rfl⟩
  · refine ((setpoint_codec force_cfg_streams [1, 2, 3, 4, 5, 6]
      (dict [("pose_d", [10, 11, 12, 13, 14, 15, 16])]) hwidth).2.1 _ (by decide) ?_).2.2
    intro hold hhold f hf value hvalue
    have hhold' : ["pose_d"] = hold := Except.ok.inj hhold
    rw [← hhold', List.mem_singleton] at hf
    rw [hf] at hvalue ⊢
    rw [← Option.some.inj hvalue]
    show force_cfg.command.lookup "pose_d" = some 7
    decide

end DualFlexivControl.Control
