/-
The columns of a canonical layout: `DFCStateActionLayout` as a partition of both vectors.

The state slices tile the state vector, and the primary slices and gripper indices tile the
action vector, since every offset is the running total of the widths before it. The names lie
over the same blocks, so a name tells side, field and offset of the block that owns its index.
Packing therefore puts every value at its slice, and `split` undoes `pack_action`.

A rig's dicts enter only through the lookups made in them, so their order is not seen.
-/
import Mathlib.Data.String.Basic
import DualFlexivControl.Layout

set_option autoImplicit false

namespace DualFlexivControl

open Results Tiling Control

/-! ## The sides of equal rigs -/

/-- Equal arms: their dicts hold the same items. -/
structure ArmCfg.Alike (arm arm' : ArmCfg) : Prop where
  streams : ∀ signal, arm.streams.lookup signal = arm'.streams.lookup signal
  kind : arm.control.kind = arm'.control.kind
  command : ∀ field, arm.control.command.lookup field = arm'.control.command.lookup field

/-- Equal rigs, whatever the order of their entries. -/
structure Arms.Alike (arms arms' : Arms) : Prop where
  sides : ∀ side, side ∈ arms.sides ↔ side ∈ arms'.sides
  arm : ∀ side arm arm', arms.get_arm side = .ok arm → arms'.get_arm side = .ok arm' →
    arm.Alike arm'

/-- The order of the sides is the strings' own, which is transitive as `<` on characters is. -/
theorem side_le_trans {a b c : String} (hab : side_le a b) (hbc : side_le b c) : side_le a c := by
  rcases hab with hab | ⟨hab, hle⟩
  · rcases hbc with hbc | ⟨hbc, _⟩
    · exact Or.inl (hab.trans hbc)
    · exact Or.inl (hbc ▸ hab)
  · rcases hbc with hbc | ⟨hbc, hle'⟩
    · exact Or.inl (hab ▸ hbc)
    · exact Or.inr ⟨hab.trans hbc, le_trans hle hle'⟩

/-- Any two sides compare, as `sorted` needs it to give one order to all of them. -/
theorem side_le_total (a b : String) : side_le a b ∨ side_le b a := by
  rcases Nat.lt_trichotomy (side_order a) (side_order b) with h | h | h
  · exact Or.inl (Or.inl h)
  · rcases le_total a b with hle | hle
    · exact Or.inl (Or.inr ⟨h, hle⟩)
    · exact Or.inr (Or.inr ⟨h.symm, hle⟩)
  · exact Or.inr (Or.inl h)

/-- Two sides that compare both ways are one, so `sorted` has no choice where it puts equal ones. -/
theorem side_le_antisymm {a b : String} (hab : side_le a b) (hba : side_le b a) : a = b := by
  rcases hab with hab | ⟨_, hle⟩
  · rcases hba with hba | ⟨hba, _⟩ <;> omega
  · rcases hba with hba | ⟨_, hle'⟩
    · omega
    · exact le_antisymm hle hle'

instance : IsTrans String side_le := ⟨fun _ _ _ => side_le_trans⟩

instance : Std.Total side_le := ⟨side_le_total⟩

/-- The order of the sides does not depend on that of the dict. -/
theorem sorted_sides_eq {arms arms' : Arms} (h : ∀ side, side ∈ arms.sides ↔ side ∈ arms'.sides) :
    sorted_sides arms = sorted_sides arms' := by
  have hperm : arms.sides.Perm arms'.sides :=
    (List.perm_ext_iff_of_nodup arms.nodup arms'.nodup).2 h
  apply List.Perm.eq_of_pairwise (fun a b _ _ hab hba => side_le_antisymm hab hba)
    (List.pairwise_insertionSort side_le arms.sides)
    (List.pairwise_insertionSort side_le arms'.sides)
  exact (List.perm_insertionSort side_le arms.sides).trans
    (hperm.trans (List.perm_insertionSort side_le arms'.sides).symm)

/-- A side that the rig does not have is an error that names it, whatever else the rig holds. -/
theorem get_arm_of_not_mem {arms : Arms} {side : String} (h : side ∉ arms.sides) :
    arms.get_arm side = .error (.no_side side) := by
  have hlookup : arms.entries.lookup side = none := by
    rw [List.lookup_eq_none_iff]
    intro e he
    rw [bne_iff_ne]
    rintro rfl
    exact h (List.mem_map_of_mem he)
  unfold Arms.get_arm
  rw [hlookup]

/-- What `get_arm` finds is an entry of the rig, with the side that it was asked for. -/
theorem mem_entries_of_get_arm {arms : Arms} {side : String} {arm : ArmCfg}
    (h : arms.get_arm side = .ok arm) : (side, arm) ∈ arms.entries := by
  unfold Arms.get_arm at h
  cases hlookup : arms.entries.lookup side with
  | none =>
    rw [hlookup] at h
    exact absurd h (by simp)
  | some found =>
    rw [hlookup] at h
    rw [← Except.ok.inj h]
    obtain ⟨before, after, hentries, _⟩ := List.lookup_eq_some_iff.1 hlookup
    rw [hentries]
    exact List.mem_append_right _ List.mem_cons_self

section Equal

variable {arms arms' : Arms} (halike : arms.Alike arms')
include halike

/-- A side's arms are equal, or neither rig has it, and then both say so by the same error. -/
theorem get_arm_alike (side : String) :
    (∃ arm arm', arms.get_arm side = .ok arm ∧ arms'.get_arm side = .ok arm' ∧ arm.Alike arm') ∨
      (arms.get_arm side = .error (.no_side side) ∧
        arms'.get_arm side = .error (.no_side side)) := by
  by_cases hside : side ∈ arms.sides
  · obtain ⟨arm, harm⟩ := get_arm_of_mem hside
    obtain ⟨arm', harm'⟩ := get_arm_of_mem ((halike.sides side).1 hside)
    exact Or.inl ⟨arm, arm', harm, harm', halike.arm side arm arm' harm harm'⟩
  · have hside' : side ∉ arms'.sides := fun h => hside ((halike.sides side).2 h)
    exact Or.inr ⟨get_arm_of_not_mem hside, get_arm_of_not_mem hside'⟩

/-- A state part depends on what the lookups in the rig give, and equal rigs give the same. -/
theorem state_part_alike : state_part arms = state_part arms' := by
  funext key
  unfold state_part
  rcases get_arm_alike halike key.1 with ⟨arm, arm', harm, harm', h⟩ | ⟨harm, harm'⟩
  · rw [harm, harm']
    dsimp only [Bind.bind, Except.bind]
    rw [h.streams key.2]
  · rw [harm, harm']

/-- An action part looks up the side's controller and the width of its command, no more of the rig
than that. -/
theorem action_part_alike : action_part arms = action_part arms' := by
  funext side
  unfold action_part
  rcases get_arm_alike halike side with ⟨arm, arm', harm, harm', h⟩ | ⟨harm, harm'⟩
  · have hfield : arm.control.action_field = arm'.control.action_field := by
      unfold ControlCfg.action_field
      rw [h.kind]
    have hdim : arm.control.action_dim = arm'.control.action_dim := by
      unfold ControlCfg.action_dim
      rw [hfield]
      simp only [h.command]
    rw [harm, harm']
    dsimp only [Bind.bind, Except.bind]
    rw [hfield, hdim]
  · rw [harm, harm']

/-- Equal rigs have one layout, and so have action sides listed in another order or twice. -/
theorem from_arms_alike {state_signals action_sides action_sides' : List String}
    (hsides : ∀ side, side ∈ action_sides ↔ side ∈ action_sides') {layout : DFCStateActionLayout}
    (h : DFCStateActionLayout.from_arms arms state_signals action_sides = .ok layout) :
    DFCStateActionLayout.from_arms arms' state_signals action_sides' = .ok layout := by
  obtain ⟨hdrawn, hsignals, hstate_sides, hstate, haction⟩ := from_arms_iff.1 h
  have hsorted := sorted_sides_eq halike.sides
  have hcontains : ∀ side, action_sides'.contains side = action_sides.contains side := by
    intro side
    rw [List.contains_eq_mem, List.contains_eq_mem, decide_eq_decide]
    exact (hsides side).symm
  refine from_arms_iff.2 ⟨?_, hsignals, hstate_sides.trans hsorted, ?_, ?_⟩
  · intro side hside
    exact (halike.sides side).1 (hdrawn side ((hsides side).2 hside))
  · rw [← hsorted, ← state_part_alike halike]
    exact hstate
  · rw [← hsorted, ← action_part_alike halike]
    simp only [hcontains]
    exact haction

end Equal

/-! ## The state blocks -/

/-- A state part is built when the side has an arm with a stream under the signal, and takes its
width from it. -/
theorem state_part_ok {arms : Arms} {key : String × String} {part : (String × String) × ℕ} :
    state_part arms key = .ok part ↔ ∃ arm dim, arms.get_arm key.1 = .ok arm ∧
      arm.streams.lookup key.2 = some dim ∧ part = (key, dim) := by
  unfold state_part
  rw [bind_ok]
  refine exists_congr fun arm => ?_
  rw [exists_and_left]
  refine and_congr_right fun _ => ?_
  cases arm.streams.lookup key.2 with
  | none => simp
  | some dim =>
    dsimp only
    rw [pure_ok]
    simp [eq_comm]

/-- The state parts are those of the keys, in order: a part that cannot be built ends the layout and
is not left out. -/
theorem state_parts_keys {arms : Arms} {keys : List (String × String)} :
    ∀ {parts : List ((String × String) × ℕ)}, collect (state_part arms) keys = .ok parts →
      parts.map Prod.fst = keys := by
  induction keys with
  | nil =>
    intro parts h
    rw [← Except.ok.inj h]
    rfl
  | cons key rest ih =>
    intro parts h
    obtain ⟨part, tail, hpart, htail, rfl⟩ := collect_cons.1 h
    obtain ⟨arm, dim, _, _, rfl⟩ := state_part_ok.1 hpart
    rw [List.map_cons, ih htail]

/-- The dict keeps blocks of the vector, in their order; of those that come under one key it keeps
the last. -/
theorem last_per_key_sublist (blocks : List (Block (String × String))) :
    (DFCStateActionLayout.last_per_key blocks).Sublist blocks := by
  induction blocks with
  | nil => exact List.Sublist.slnil
  | cons b rest ih =>
    unfold DFCStateActionLayout.last_per_key
    by_cases hlater : (rest.map Block.label).contains b.label = true
    · rw [if_pos hlater]
      exact ih.cons b
    · rw [if_neg hlater]
      exact ih.cons_cons b

/-- Where all keys differ, the dict keeps every block, so every block of the vector can be looked
up. -/
theorem last_per_key_of_nodup {blocks : List (Block (String × String))}
    (h : (blocks.map Block.label).Nodup) :
    DFCStateActionLayout.last_per_key blocks = blocks := by
  induction blocks with
  | nil => rfl
  | cons b rest ih =>
    rw [List.map_cons, List.nodup_cons] at h
    unfold DFCStateActionLayout.last_per_key
    have hlater : ¬ (rest.map Block.label).contains b.label = true := by
      rw [List.contains_eq_mem, decide_eq_true_iff]
      exact h.1
    rw [if_neg hlater, ih h.2]

namespace DFCStateActionLayout

/-- `f"{side}.{signal}.{i}"` -/
def state_name (key : String × String) (i : ℕ) : String := s!"{key.1}.{key.2}.{i}"

/-- The names of the state vector, read as the entries of its blocks. -/
theorem state_names_eq (layout : DFCStateActionLayout) :
    layout.state_names = entries state_name layout.state_parts := rfl

section State

variable {layout : DFCStateActionLayout} (hkeys : (layout.state_parts.map Prod.fst).Nodup)
include hkeys

/-- The blocks of the state vector have distinct keys, because the dict has. -/
theorem nodup_state_blocks : ((place 0 layout.state_parts).map Block.label).Nodup := by
  rw [labels_place]
  exact hkeys

/-- The slice under a key is that of its block. -/
theorem state_slice_eq (key : String × String) : layout.state_slice key =
    (block_at id (place 0 layout.state_parts) key).map fun b => (b.start, b.stop) := by
  unfold state_slice
  rw [last_per_key_of_nodup (nodup_state_blocks hkeys)]

/-- A slice is found under a key when a block of the vector has that key, and it is where the block
lies. -/
theorem state_slice_eq_some {key : String × String} {r : ℕ × ℕ} :
    layout.state_slice key = some r ↔
      ∃ b ∈ place 0 layout.state_parts, b.label = key ∧ r = (b.start, b.stop) := by
  rw [state_slice_eq hkeys, Option.map_eq_some_iff]
  constructor
  · rintro ⟨b, hb, rfl⟩
    obtain ⟨hmem, hlabel⟩ := (block_at_eq_some (nodup_state_blocks hkeys)).1 hb
    exact ⟨b, hmem, hlabel, rfl⟩
  · rintro ⟨b, hmem, hlabel, rfl⟩
    exact ⟨b, (block_at_eq_some (nodup_state_blocks hkeys)).2 ⟨hmem, hlabel⟩, rfl⟩

/-- **The state slices tile the state vector**: every index is in the slice of one key, and no slice
reaches beyond it. -/
theorem state_partition : Partition layout.state_slice layout.state_dim := by
  rw [show layout.state_slice = _ from funext (state_slice_eq hkeys)]
  exact partition_place (nodup_state_blocks hkeys)

/-- A key has a slice when it is the key of a part, and the slice has the part's width. -/
theorem state_slice_of_part {key : String × String} {dim : ℕ}
    (hpart : (key, dim) ∈ layout.state_parts) :
    ∃ start, layout.state_slice key = some (start, start + dim) := by
  obtain ⟨b, hb, rfl⟩ := block_of_part hpart 0
  have hwidth : b.width = dim := by
    have h := List.inj_on_of_nodup_map hkeys (part_of_place hb) hpart rfl
    exact (Prod.mk.inj h).2
  have hbounds := place_bounds hb
  refine ⟨b.start, (state_slice_eq_some hkeys).2 ⟨b, hb, rfl, ?_⟩⟩
  rw [← hwidth, Block.width, Nat.add_sub_cancel' hbounds.2.1]

/-- The name of an index tells its block and its place there. -/
theorem state_name_at {side signal : String} {r : ℕ × ℕ} {k : ℕ}
    (hr : layout.state_slice (side, signal) = some r) (hle : r.1 ≤ k) (hlt : k < r.2) :
    layout.state_names[k]? = some s!"{side}.{signal}.{k - r.1}" := by
  obtain ⟨b, hb, hlabel, rfl⟩ := (state_slice_eq_some hkeys).1 hr
  dsimp only at hle hlt ⊢
  have hi : k - b.start < b.width := by
    unfold Block.width
    omega
  have hentry : layout.state_names[b.start - 0 + (k - b.start)]? =
      some (state_name b.label (k - b.start)) := by
    rw [state_names_eq]
    exact entry_of_block hi hb
  rw [hlabel, Nat.sub_zero, Nat.add_sub_cancel' hle] at hentry
  exact hentry

end State

/-- There is a name for every column of the state vector, and no more. -/
theorem length_state_names (layout : DFCStateActionLayout) :
    layout.state_names.length = layout.state_dim := by
  rw [state_names_eq]
  exact length_entries layout.state_parts

/-! ## The action blocks -/

/-- A part of the action vector: a side's primary slice, or its gripper. -/
inductive ActionKey
  | primary (side : String)
  | gripper (side : String)
  deriving DecidableEq, Repr

/-- The entries of such a part. -/
def action_range (layout : DFCStateActionLayout) : ActionKey → Option (ℕ × ℕ)
  | .primary side => layout.primary_slice side
  | .gripper side => (layout.gripper_index side).map fun k => (k, k + 1)

/-- The names of a side's columns. -/
def column_name (part : ActionPart) (i : ℕ) : String :=
  if i < part.dim then s!"{part.side}.{part.field}.{i}" else s!"{part.side}.gripper"

/-- The names of a side are its field's columns and the gripper behind them, one more than its
width. -/
theorem part_names_eq (part : ActionPart) :
    part_names part = (List.range (part.dim + 1)).map (column_name part) := by
  rw [List.range_succ, List.map_append, List.map_singleton, column_name, if_neg (Nat.lt_irrefl _)]
  unfold part_names
  congr 1
  refine List.map_congr_left ?_
  intro i hi
  rw [column_name, if_pos (List.mem_range.1 hi)]

/-- The names of the action vector, read as the entries of blocks that are a column wider than the
field. -/
theorem action_names_eq (layout : DFCStateActionLayout) : layout.action_names =
    entries column_name (layout.action_parts.map fun part => (part, part.dim + 1)) := by
  unfold action_names entries
  rw [List.flatMap_map]
  exact congrArg (fun f => layout.action_parts.flatMap f) (funext part_names_eq)

/-- There is a name for every column of the action vector, the grippers' included. -/
theorem length_action_names (layout : DFCStateActionLayout) :
    layout.action_names.length = layout.action_dim := by
  rw [action_names_eq]
  exact length_entries _

section Action

variable {layout : DFCStateActionLayout}

/-- The blocks of the action vector are those of the recorded sides, in the order of the sides. -/
theorem action_blocks_sides :
    (layout.action_blocks.map fun b => b.label.side) = layout.sides := by
  have hlabels : layout.action_blocks.map Block.label = layout.action_parts := by
    unfold action_blocks
    rw [labels_place, List.map_map]
    exact List.map_id _
  unfold sides
  rw [← hlabels, List.map_map]
  rfl

/-- No side has two blocks of the action vector, so a side's slice and gripper index are
unambiguous. -/
theorem nodup_action_blocks : (layout.action_blocks.map fun b => b.label.side).Nodup := by
  rw [action_blocks_sides]
  exact layout.nodup

/-- The primary slice and the gripper index of a side fill its block. -/
theorem stop_action_block {b : Block ActionPart} (hb : b ∈ layout.action_blocks) :
    b.stop = b.start + b.label.dim + 1 := by
  have hwidth := width_action_block hb
  have hbounds := place_bounds hb
  unfold Block.width at hwidth
  omega

/-- A side's primary slice is its block without the last column. -/
theorem primary_slice_eq_some {side : String} {r : ℕ × ℕ} :
    layout.primary_slice side = some r ↔ ∃ b ∈ layout.action_blocks, b.label.side = side ∧
      r = (b.start, b.start + b.label.dim) := by
  unfold primary_slice
  rw [Option.map_eq_some_iff]
  simp only [block_at_eq_some nodup_action_blocks, and_assoc, eq_comm (a := r)]

/-- A side's gripper index is the last column of its block. -/
theorem gripper_index_eq_some {side : String} {k : ℕ} :
    layout.gripper_index side = some k ↔ ∃ b ∈ layout.action_blocks, b.label.side = side ∧
      k = b.start + b.label.dim := by
  unfold gripper_index
  rw [Option.map_eq_some_iff]
  simp only [block_at_eq_some nodup_action_blocks, and_assoc, eq_comm (a := k)]

/-- Where the two parts of a side lie in its block: the primary slice fills it up to its last
column, which is the gripper's. -/
theorem action_range_eq_some {key : ActionKey} {r : ℕ × ℕ} :
    layout.action_range key = some r ↔ ∃ b ∈ layout.action_blocks,
      (key = .primary b.label.side ∧ r = (b.start, b.start + b.label.dim)) ∨
        (key = .gripper b.label.side ∧ r = (b.start + b.label.dim, b.stop)) := by
  cases key with
  | primary side =>
    refine primary_slice_eq_some.trans (exists_congr fun b => and_congr_right fun _ => ?_)
    simp [eq_comm]
  | gripper side =>
    unfold action_range
    rw [Option.map_eq_some_iff]
    constructor
    · rintro ⟨k, hk, rfl⟩
      obtain ⟨b, hb, rfl, rfl⟩ := gripper_index_eq_some.1 hk
      exact ⟨b, hb, Or.inr ⟨rfl, by rw [stop_action_block hb]⟩⟩
    · rintro ⟨b, hb, ⟨hkey, _⟩ | ⟨hkey, rfl⟩⟩
      · exact absurd hkey (by simp)
      · injection hkey with hside
        exact ⟨_, gripper_index_eq_some.2 ⟨b, hb, hside.symm, rfl⟩, by rw [stop_action_block hb]⟩

/-- The primary slices and the gripper indices tile the action vector: every index is in exactly one
of them, and none reaches beyond the vector. -/
theorem action_partition : Partition layout.action_range layout.action_dim where
  bounds key r hr := by
    obtain ⟨b, hb, hrange⟩ := action_range_eq_some.1 hr
    have hbounds := place_bounds hb
    have hstop := stop_action_block hb
    unfold action_dim
    rcases hrange with ⟨_, rfl⟩ | ⟨_, rfl⟩ <;> dsimp only <;> omega
  cover k hk := by
    obtain ⟨b, hb, hle, hlt⟩ := place_cover (Nat.zero_le k) (by rwa [Nat.zero_add])
    have hstop := stop_action_block hb
    by_cases hprimary : k < b.start + b.label.dim
    · exact ⟨.primary b.label.side, _, action_range_eq_some.2 ⟨b, hb, Or.inl ⟨rfl, rfl⟩⟩,
        hle, hprimary⟩
    · exact ⟨.gripper b.label.side, _, action_range_eq_some.2 ⟨b, hb, Or.inr ⟨rfl, rfl⟩⟩,
        Nat.le_of_not_lt hprimary, hlt⟩
  disjoint key key' r r' k hr hr' hle hlt hle' hlt' := by
    obtain ⟨b, hb, hrange⟩ := action_range_eq_some.1 hr
    obtain ⟨b', hb', hrange'⟩ := action_range_eq_some.1 hr'
    have hstop := stop_action_block hb
    have hstop' := stop_action_block hb'
    have hsame : b = b' := by
      apply owner_unique (k := k) hb hb' <;>
        rcases hrange with ⟨_, rfl⟩ | ⟨_, rfl⟩ <;>
        rcases hrange' with ⟨_, rfl⟩ | ⟨_, rfl⟩ <;> dsimp only at hle hlt hle' hlt' <;> omega
    subst hsame
    rcases hrange with ⟨rfl, rfl⟩ | ⟨rfl, rfl⟩
    · rcases hrange' with ⟨rfl, rfl⟩ | ⟨_, rfl⟩
      · rfl
      · dsimp only at hlt hle'
        omega
    · rcases hrange' with ⟨_, rfl⟩ | ⟨rfl, rfl⟩
      · dsimp only at hle hlt'
        omega
      · rfl

/-- The name of a column, by the block that holds it. -/
theorem action_name_of_block {b : Block ActionPart} (hb : b ∈ layout.action_blocks) {i : ℕ}
    (hi : i ≤ b.label.dim) : layout.action_names[b.start + i]? = some (column_name b.label i) := by
  have hwidth : i < b.width := by
    rw [width_action_block hb]
    omega
  rw [action_names_eq, ← Nat.sub_zero b.start]
  exact entry_of_block hwidth hb

/-- A column in a side's primary slice is named after the side, the controller's field and the place
in the slice. -/
theorem primary_name_at {side : String} {r : ℕ × ℕ} {k : ℕ}
    (hr : layout.primary_slice side = some r) (hle : r.1 ≤ k) (hlt : k < r.2) :
    ∃ field, layout.field side = some field ∧
      layout.action_names[k]? = some s!"{side}.{field}.{k - r.1}" := by
  obtain ⟨b, hb, rfl, rfl⟩ := primary_slice_eq_some.1 hr
  dsimp only at hle hlt ⊢
  have hname := action_name_of_block hb (i := k - b.start) (by omega)
  rw [Nat.add_sub_cancel' hle, column_name, if_pos (by omega)] at hname
  refine ⟨b.label.field, ?_, hname⟩
  unfold field
  rw [part_of_action_block hb]
  rfl

/-- The column at a side's gripper index is named after the side's gripper. -/
theorem gripper_name_at {side : String} {k : ℕ} (hk : layout.gripper_index side = some k) :
    layout.action_names[k]? = some s!"{side}.gripper" := by
  obtain ⟨b, hb, rfl, rfl⟩ := gripper_index_eq_some.1 hk
  rw [action_name_of_block hb (Nat.le_refl _), column_name, if_neg (Nat.lt_irrefl _)]

/-- The sides with columns are the recorded ones. -/
theorem exists_action_block {side : String} :
    (∃ b ∈ layout.action_blocks, b.label.side = side) ↔ side ∈ layout.sides := by
  rw [← action_blocks_sides, List.mem_map]

end Action

/-! ## Packing and splitting -/

section Values

variable {layout : DFCStateActionLayout} {F F32 : Type} [Zero F] {f32 : F → F32}

/-- A block is packed when it has a value of exactly its width, whose numbers are then rounded to
float32. -/
theorem state_value_ok {values : String × String → Option (List F)}
    {b : Block (String × String)} {w : List F32} :
    state_value f32 values b = .ok w ↔
      ∃ value, values b.label = some value ∧ value.length = b.width ∧ w = value.map f32 := by
  unfold state_value
  cases values b.label with
  | none => simp
  | some value =>
    dsimp only
    rw [guard_ok, not_not]
    constructor
    · rintro ⟨hlen, hw⟩
      exact ⟨value, rfl, hlen, (Except.ok.inj hw).symm⟩
    · rintro ⟨value', hvalue, hlen, hw⟩
      rw [Option.some.inj hvalue, hw]
      exact ⟨hlen, rfl⟩

/-- A state is packed when every slice has a value of its width. -/
theorem exists_pack_state (hkeys : (layout.state_parts.map Prod.fst).Nodup)
    {values : String × String → Option (List F)}
    (hvalues : ∀ key r, layout.state_slice key = some r →
      ∃ value, values key = some value ∧ value.length = r.2 - r.1) :
    ∃ state, layout.pack_state f32 values = .ok state := by
  unfold pack_state
  rw [last_per_key_of_nodup (nodup_state_blocks hkeys), fill_ok_iff]
  intro b hb
  obtain ⟨value, hvalue, hlen⟩ :=
    hvalues b.label _ ((state_slice_eq_some hkeys).2 ⟨b, hb, rfl, rfl⟩)
  exact ⟨_, state_value_ok.2 ⟨value, hvalue, hlen, rfl⟩⟩

/-- A packed state has every value at its slice, rounded to float32, and is as long as the layout
says. -/
theorem pack_state_spec {values : String × String → Option (List F)} {state : List F32}
    (h : layout.pack_state f32 values = .ok state) : state.length = layout.state_dim ∧
      ∀ key r, layout.state_slice key = some r → ∃ value, values key = some value ∧
        (state.drop r.1).take (r.2 - r.1) = value.map f32 := by
  have hsublist := last_per_key_sublist (place 0 layout.state_parts)
  have hwidth : ∀ b ∈ last_per_key (place 0 layout.state_parts), ∀ w,
      state_value f32 values b = .ok w → w.length = b.width := by
    intro b _ w hw
    obtain ⟨value, _, hlen, rfl⟩ := state_value_ok.1 hw
    rw [List.length_map, hlen]
  have hbounds : ∀ b ∈ last_per_key (place 0 layout.state_parts), b.start ≤ b.stop ∧
      b.stop ≤ (List.replicate layout.state_dim (f32 0)).length := by
    intro b hb
    have hplace := place_bounds (hsublist.subset hb)
    rw [List.length_replicate]
    unfold state_dim
    omega
  obtain ⟨hlength, -, hslices⟩ :=
    fill_sorted ((sorted_place layout.state_parts 0).sublist hsublist) hbounds hwidth h
  refine ⟨hlength.trans (List.length_replicate ..), ?_⟩
  intro key r hr
  obtain ⟨b, hb, rfl⟩ := Option.map_eq_some_iff.1 hr
  obtain ⟨hmem, rfl⟩ := mem_of_block_at hb
  obtain ⟨value, hvalue, _, hslice⟩ := state_value_ok.1 (hslices b hmem)
  exact ⟨value, hvalue, hslice⟩

/-- What `split` reads off a block that holds a primary value and a gripper. -/
theorem split_block_of_slice {action : List F} {b : Block ActionPart} {value : List F} {g : F}
    (hwidth : b.width = b.label.dim + 1) (hlen : value.length = b.label.dim)
    (hslice : slice b action = value ++ [g]) :
    split_block action b = ⟨b.label.side, b.label.field, value, g⟩ := by
  unfold slice at hslice
  rw [hwidth] at hslice
  have hprimary : (action.drop b.start).take b.label.dim = value := by
    calc (action.drop b.start).take b.label.dim
        = ((action.drop b.start).take (b.label.dim + 1)).take b.label.dim := by
          rw [List.take_take, Nat.min_eq_left (Nat.le_succ _)]
      _ = value := by rw [hslice, ← hlen, List.take_left]
  have hgripper : (action.drop (b.start + b.label.dim)).take 1 = [g] := by
    calc (action.drop (b.start + b.label.dim)).take 1
        = ((action.drop b.start).take (b.label.dim + 1)).drop b.label.dim := by
          rw [List.drop_take, List.drop_drop, Nat.add_sub_cancel_left]
      _ = [g] := by rw [hslice, ← hlen, List.drop_left]
  have hhead : (action.drop (b.start + b.label.dim)).headD 0 = g := by
    cases hrest : action.drop (b.start + b.label.dim) with
    | nil =>
      rw [hrest] at hgripper
      exact absurd hgripper (by simp)
    | cons x rest =>
      rw [hrest] at hgripper
      exact List.head_eq_of_cons_eq hgripper
  unfold split_block
  rw [hprimary, hhead]

/-- Splitting a packed action gives back what was packed, wherever float32 has the values that went
in. -/
theorem split_pack_action {f64 : F32 → F} {primary : String → Option (List F)}
    {gripper : String → Option F} {action : List F32}
    (h : layout.pack_action f32 primary gripper = .ok action)
    (hprimary : ∀ side ∈ layout.sides, ∀ value, primary side = some value →
      ∀ x ∈ value, f64 (f32 x) = x)
    (hgripper : ∀ side ∈ layout.sides, f64 (f32 ((gripper side).getD 0)) = (gripper side).getD 0) :
    ∃ parts, layout.split (action.map f64) = .ok parts ∧
      parts.map SideAction.side = layout.sides ∧
      ∀ part ∈ parts, layout.field part.side = some part.field ∧
        primary part.side = some part.primary ∧ part.gripper = (gripper part.side).getD 0 := by
  obtain ⟨hlength, hslices⟩ := pack_action_spec h
  have hblock : ∀ b ∈ layout.action_blocks, ∃ value, primary b.label.side = some value ∧
      split_block (action.map f64) b =
        ⟨b.label.side, b.label.field, value, (gripper b.label.side).getD 0⟩ := by
    intro b hb
    obtain ⟨value, hvalue, hlen, hslice⟩ := hslices b hb
    have hside : b.label.side ∈ layout.sides := List.mem_map_of_mem (label_mem hb)
    have hback : (value.map f32).map f64 = value := by
      rw [List.map_map]
      exact (List.map_congr_left (hprimary _ hside value hvalue)).trans (List.map_id' value)
    have hread : slice b (action.map f64) = value ++ [(gripper b.label.side).getD 0] := by
      have hmap : slice b (action.map f64) = (slice b action).map f64 := by
        unfold slice
        rw [List.map_take, List.map_drop]
      rw [hmap, hslice, List.map_append, hback, List.map_singleton, hgripper _ hside]
    exact ⟨value, hvalue, split_block_of_slice (width_action_block hb) hlen hread⟩
  refine ⟨_, if_neg (by rw [List.length_map, hlength, not_not]), ?_, ?_⟩
  · rw [List.map_map]
    exact action_blocks_sides
  · intro part hpart
    obtain ⟨b, hb, rfl⟩ := List.mem_map.1 hpart
    obtain ⟨value, hvalue, hsplit⟩ := hblock b hb
    rw [hsplit]
    refine ⟨?_, hvalue, rfl⟩
    unfold field
    rw [part_of_action_block hb]
    rfl

end Values

/-! ## The canonical layout -/

/-- What collection, evaluation, skills and serving take a layout to be. -/
structure Canonical (arms : Arms) (state_signals action_sides : List String)
    (layout : DFCStateActionLayout) : Prop where
  state_keys : ∀ side signal, (∃ r, layout.state_slice (side, signal) = some r) ↔
    side ∈ arms.sides ∧ signal ∈ state_signals
  state_blocks : Partition layout.state_slice layout.state_dim
  state_width : ∀ side arm signal r, arms.get_arm side = .ok arm →
    layout.state_slice (side, signal) = some r → arm.streams.lookup signal = some (r.2 - r.1)
  state_names_length : layout.state_names.length = layout.state_dim
  state_name : ∀ side signal r k, layout.state_slice (side, signal) = some r → r.1 ≤ k → k < r.2 →
    layout.state_names[k]? = some s!"{side}.{signal}.{k - r.1}"
  action_keys : ∀ side, side ∈ layout.sides ↔ side ∈ action_sides
  primary_keys : ∀ side, (∃ r, layout.primary_slice side = some r) ↔ side ∈ action_sides
  gripper_keys : ∀ side, (∃ k, layout.gripper_index side = some k) ↔ side ∈ action_sides
  action_blocks : Partition layout.action_range layout.action_dim
  action_width : ∀ side arm r, arms.get_arm side = .ok arm → layout.primary_slice side = some r →
    arm.control.action_dim = .ok (r.2 - r.1)
  action_names_length : layout.action_names.length = layout.action_dim
  primary_name : ∀ side arm r k, arms.get_arm side = .ok arm →
    layout.primary_slice side = some r → r.1 ≤ k → k < r.2 →
    ∃ field, arm.control.action_field = .ok field ∧
      layout.action_names[k]? = some s!"{side}.{field}.{k - r.1}"
  gripper_name : ∀ side k, layout.gripper_index side = some k →
    layout.action_names[k]? = some s!"{side}.gripper"
  pack_state : ∀ {F F32 : Type} [Zero F] (f32 : F → F32)
    (values : String × String → Option (List F)),
    (∀ key r, layout.state_slice key = some r →
      ∃ value, values key = some value ∧ value.length = r.2 - r.1) →
    ∃ state, layout.pack_state f32 values = .ok state ∧ state.length = layout.state_dim ∧
      ∀ key r, layout.state_slice key = some r → ∃ value, values key = some value ∧
        (state.drop r.1).take (r.2 - r.1) = value.map f32
  split_pack : ∀ {F F32 : Type} [Zero F] (f32 : F → F32) (f64 : F32 → F)
    (primary : String → Option (List F)) (gripper : String → Option F),
    (∀ side r, layout.primary_slice side = some r →
      ∃ value, primary side = some value ∧ value.length = r.2 - r.1 ∧
        ∀ x ∈ value, f64 (f32 x) = x) →
    (∀ side ∈ action_sides, f64 (f32 ((gripper side).getD 0)) = (gripper side).getD 0) →
    ∃ action parts, layout.pack_action f32 primary gripper = .ok action ∧
      layout.split (action.map f64) = .ok parts ∧ parts.map SideAction.side = layout.sides ∧
      ∀ part ∈ parts, layout.field part.side = some part.field ∧
        primary part.side = some part.primary ∧ part.gripper = (gripper part.side).getD 0
  order : ∀ arms' action_sides', arms.Alike arms' →
    (∀ side, side ∈ action_sides ↔ side ∈ action_sides') →
    from_arms arms' state_signals action_sides' = .ok layout

section Built

variable {arms : Arms} {state_signals action_sides : List String} {layout : DFCStateActionLayout}

/-- The keys of the state vector, side by side. -/
theorem mem_state_keys {side signal : String} :
    (side, signal) ∈ (sorted_sides arms).flatMap (fun side => state_signals.map fun signal =>
      (side, signal)) ↔ side ∈ arms.sides ∧ signal ∈ state_signals := by
  simp [mem_sorted_sides]

/-- No side and signal come twice when the signals are listed once each, as the sides are those of a
dict. -/
theorem nodup_state_keys (hdistinct : state_signals.Nodup) :
    ((sorted_sides arms).flatMap fun side =>
      state_signals.map fun signal => (side, signal)).Nodup :=
  (nodup_sorted_sides arms).product hdistinct

/-- A recorded side's block is its controller's primary field and width, which is what a reader of
the vector has to know of it. -/
theorem action_part_of_block
    (h : collect (action_part arms) ((sorted_sides arms).filter fun side =>
      action_sides.contains side) = .ok layout.action_parts)
    {b : Block ActionPart} (hb : b ∈ layout.action_blocks) {arm : ArmCfg}
    (harm : arms.get_arm b.label.side = .ok arm) :
    arm.control.action_field = .ok b.label.field ∧ arm.control.action_dim = .ok b.label.dim := by
  obtain ⟨side, _, hpart⟩ := element_of_collect h _ (label_mem hb)
  obtain ⟨arm', harm', hfield, hdim, hside⟩ := action_part_ok.1 hpart
  rw [hside, harm'] at harm
  rw [← Except.ok.inj harm]
  exact ⟨hfield, hdim⟩

/-- The parts of a layout that was built have distinct keys, those it was asked for. -/
theorem nodup_state_parts (hdistinct : state_signals.Nodup)
    (h : from_arms arms state_signals action_sides = .ok layout) :
    (layout.state_parts.map Prod.fst).Nodup := by
  rw [state_parts_keys (from_arms_ok h).2.1]
  exact nodup_state_keys hdistinct

/-- What `from_arms` builds is the canonical layout of the rig, its signals and its recorded sides.
-/
theorem from_arms_canonical (hdistinct : state_signals.Nodup)
    (h : from_arms arms state_signals action_sides = .ok layout) :
    Canonical arms state_signals action_sides layout := by
  obtain ⟨hdrawn, hstate, haction⟩ := from_arms_ok h
  have hfst := state_parts_keys hstate
  have hkeys := nodup_state_parts hdistinct h
  -- every action side is drawn from the arms, so the layout's sides are the asked ones
  have hsides : ∀ side, side ∈ layout.sides ↔ side ∈ action_sides := by
    intro side
    show side ∈ layout.action_parts.map ActionPart.side ↔ _
    rw [action_parts_sides haction, List.mem_filter, mem_sorted_sides, List.contains_eq_mem,
      decide_eq_true_iff]
    exact ⟨fun h => h.2, fun h => ⟨hdrawn side h, h⟩⟩
  constructor
  case state_keys =>
    intro side signal
    rw [← mem_state_keys, ← hfst]
    constructor
    · rintro ⟨r, hr⟩
      -- a slice is a block of the tiling, and a block is a part that was collected
      obtain ⟨b, hb, hlabel, -⟩ := (state_slice_eq_some hkeys).1 hr
      rw [← hlabel]
      exact List.mem_map_of_mem (part_of_place hb)
    · intro hmem
      obtain ⟨⟨key, dim⟩, hpart, rfl⟩ := List.mem_map.1 hmem
      obtain ⟨start, hslice⟩ := state_slice_of_part hkeys hpart
      exact ⟨_, hslice⟩
  case state_blocks => exact state_partition hkeys
  case state_width =>
    intro side arm signal r harm hr
    obtain ⟨b, hb, hlabel, rfl⟩ := (state_slice_eq_some hkeys).1 hr
    -- the part was made from its own arm and signal, whose width it has
    obtain ⟨key, _, hpart⟩ := element_of_collect hstate _ (part_of_place hb)
    obtain ⟨arm', dim, harm', hdim, heq⟩ := state_part_ok.1 hpart
    obtain ⟨hkey, hwidth⟩ := Prod.mk.inj heq
    rw [← hkey, hlabel] at harm' hdim
    rw [harm] at harm'
    rw [Except.ok.inj harm', hdim, ← hwidth]
    rfl
  case state_names_length => exact length_state_names layout
  case state_name =>
    intro side signal r k hr hle hlt
    exact state_name_at hkeys hr hle hlt
  case action_keys => exact hsides
  case primary_keys =>
    intro side
    rw [← hsides, ← exists_action_block]
    simp only [primary_slice_eq_some]
    constructor
    · rintro ⟨_, b, hb, hside, _⟩
      exact ⟨b, hb, hside⟩
    · rintro ⟨b, hb, hside⟩
      exact ⟨_, b, hb, hside, rfl⟩
  case gripper_keys =>
    intro side
    rw [← hsides, ← exists_action_block]
    simp only [gripper_index_eq_some]
    constructor
    · rintro ⟨_, b, hb, hside, _⟩
      exact ⟨b, hb, hside⟩
    · rintro ⟨b, hb, hside⟩
      exact ⟨_, b, hb, hside, rfl⟩
  case action_blocks => exact action_partition
  case action_width =>
    intro side arm r harm hr
    obtain ⟨b, hb, rfl, rfl⟩ := primary_slice_eq_some.1 hr
    rw [(action_part_of_block haction hb harm).2, Nat.add_sub_cancel_left]
  case action_names_length => exact length_action_names layout
  case primary_name =>
    intro side arm r k harm hr hle hlt
    obtain ⟨b, hb, rfl, rfl⟩ := primary_slice_eq_some.1 hr
    obtain ⟨field, hfield, hname⟩ := primary_name_at hr hle hlt
    refine ⟨field, ?_, hname⟩
    unfold DFCStateActionLayout.field at hfield
    rw [part_of_action_block hb] at hfield
    rw [← Option.some.inj hfield]
    exact (action_part_of_block haction hb harm).1
  case gripper_name =>
    intro side k hk
    exact gripper_name_at hk
  case pack_state =>
    intro F F32 _ f32 values hvalues
    obtain ⟨state, hstate⟩ := @exists_pack_state layout F F32 _ f32 hkeys values hvalues
    exact ⟨state, hstate, pack_state_spec hstate⟩
  case split_pack =>
    intro F F32 _ f32 f64 primary gripper hprimary hgripper
    -- packing succeeds because every side has a value of its block's width
    have hpacked : ∃ action, layout.pack_action f32 primary gripper = .ok action := by
      refine pack_action_ok_iff.2 ?_
      intro b hb
      obtain ⟨value, hvalue, hlen, _⟩ :=
        hprimary b.label.side _ (primary_slice_eq_some.2 ⟨b, hb, rfl, rfl⟩)
      exact ⟨value, hvalue, hlen.trans (Nat.add_sub_cancel_left _ _)⟩
    obtain ⟨action, hpack⟩ := hpacked
    -- values that float32 holds come back as they were
    have hexact : ∀ side ∈ layout.sides, ∀ value, primary side = some value →
        ∀ x ∈ value, f64 (f32 x) = x := by
      intro side hside value hvalue
      obtain ⟨b, hb, rfl⟩ := exists_action_block.2 hside
      obtain ⟨value', hvalue', _, hexact⟩ :=
        hprimary b.label.side _ (primary_slice_eq_some.2 ⟨b, hb, rfl, rfl⟩)
      rw [Option.some.inj (hvalue.symm.trans hvalue')]
      exact hexact
    obtain ⟨parts, hsplit, hparts⟩ := split_pack_action hpack hexact
      (fun side hside => hgripper side ((hsides side).1 hside))
    exact ⟨action, parts, hpack, hsplit, hparts⟩
  case order =>
    intro arms' action_sides' halike hsame
    exact from_arms_alike halike hsame h

/-- Signals that every arm has, and sides whose controllers have an action, make a layout. -/
theorem exists_from_arms
    (hpresent : ∀ side arm, arms.get_arm side = .ok arm →
      ∀ signal ∈ state_signals, ∃ dim, arm.streams.lookup signal = some dim)
    (hdrawn : ∀ side ∈ action_sides, side ∈ arms.sides)
    (hcontrol : ∀ side ∈ action_sides, ∀ arm, arms.get_arm side = .ok arm →
      ∃ dim, arm.control.action_dim = .ok dim) :
    ∃ layout, from_arms arms state_signals action_sides = .ok layout := by
  have hstate : ∃ parts, collect (state_part arms) ((sorted_sides arms).flatMap fun side =>
      state_signals.map fun signal => (side, signal)) = .ok parts := by
    refine exists_collect ?_
    rintro ⟨side, signal⟩ hkey
    obtain ⟨hside, hsignal⟩ := mem_state_keys.1 hkey
    obtain ⟨arm, harm⟩ := get_arm_of_mem hside
    obtain ⟨dim, hdim⟩ := hpresent side arm harm signal hsignal
    exact ⟨_, state_part_ok.2 ⟨arm, dim, harm, hdim, rfl⟩⟩
  have haction : ∃ parts, collect (action_part arms) ((sorted_sides arms).filter fun side =>
      action_sides.contains side) = .ok parts := by
    refine exists_collect ?_
    intro side hside
    have hmem : side ∈ action_sides := by
      have hfilter := (List.mem_filter.1 hside).2
      rwa [List.contains_eq_mem, decide_eq_true_iff] at hfilter
    obtain ⟨arm, harm⟩ := get_arm_of_mem (hdrawn side hmem)
    obtain ⟨dim, hdim⟩ := hcontrol side hmem arm harm
    obtain ⟨field, hfield, _⟩ := bind_ok.1 hdim
    exact ⟨⟨side, field, dim⟩, action_part_ok.2 ⟨arm, harm, hfield, hdim, rfl⟩⟩
  obtain ⟨state_parts, hstate⟩ := hstate
  obtain ⟨action_parts, haction⟩ := haction
  have hnodup : (action_parts.map ActionPart.side).Nodup := by
    rw [action_parts_sides haction]
    exact (nodup_sorted_sides arms).filter _
  exact ⟨⟨state_signals, sorted_sides arms, state_parts, action_parts, hnodup⟩,
    from_arms_iff.2 ⟨hdrawn, rfl, rfl, hstate, haction⟩⟩

/-- A layout of signals that every arm has, over sides of the rig, is built whenever these sides'
controllers have a primary field of known width, and it is canonical. -/
theorem layout_partitions_and_packs (hdistinct : state_signals.Nodup)
    (hpresent : ∀ side arm, arms.get_arm side = .ok arm →
      ∀ signal ∈ state_signals, ∃ dim, arm.streams.lookup signal = some dim)
    (hdrawn : ∀ side ∈ action_sides, side ∈ arms.sides) :
    ((∃ layout, from_arms arms state_signals action_sides = .ok layout) ↔
      ∀ side ∈ action_sides, ∀ arm, arms.get_arm side = .ok arm →
        ∃ dim, arm.control.action_dim = .ok dim) ∧
    ∀ layout, from_arms arms state_signals action_sides = .ok layout →
      Canonical arms state_signals action_sides layout := by
  refine ⟨⟨?_, exists_from_arms hpresent hdrawn⟩, fun layout h => from_arms_canonical hdistinct h⟩
  rintro ⟨layout, h⟩ side hside arm harm
  have hcanonical := from_arms_canonical hdistinct h
  obtain ⟨r, hr⟩ := (hcanonical.primary_keys side).2 hside
  exact ⟨_, hcanonical.action_width side arm r harm hr⟩

end Built

/-- Two unlike arms: a joint-space side and a Cartesian one, with a stream only one of them has. -/
def two_arms : Arms where
  entries := [
    ("right", ⟨7, [("q", 7), ("tau_ext", 7)], ⟨.qpos, [("q_d", 7), ("dq_max", 7)], ["q_d"]⟩⟩),
    ("left", ⟨7, [("tau_ext", 7), ("q", 7), ("tcp_pose", 7)],
      ⟨.end_effector, [("pose_d", 7)], ["pose_d"]⟩⟩)]
  nodup := by decide

/-- The two unlike arms have a canonical layout, though their action sides are listed in another
order and one comes twice. -/
theorem two_arms_partition : ∃ layout,
    from_arms two_arms ["q", "tau_ext"] ["right", "left", "right"] = .ok layout ∧
      Canonical two_arms ["q", "tau_ext"] ["right", "left", "right"] layout := by
  have hstreams : ∀ e ∈ two_arms.entries, ∀ signal ∈ ["q", "tau_ext"],
      ∃ dim, e.2.streams.lookup signal = some dim := by
    simp only [← Option.isSome_iff_exists]
    decide
  have hcontrol : ∀ e ∈ two_arms.entries, ∃ dim, e.2.control.action_dim = .ok dim := by
    intro e he
    simp only [two_arms, List.mem_cons, List.not_mem_nil, or_false] at he
    rcases he with rfl | rfl
    · exact ⟨7, rfl⟩
    · exact ⟨7, rfl⟩
  have h := @layout_partitions_and_packs two_arms ["q", "tau_ext"] ["right", "left", "right"]
    (by decide) (fun _ _ harm => hstreams _ (mem_entries_of_get_arm harm)) (by decide)
  obtain ⟨layout, hlayout⟩ := h.1.2 fun _ _ _ harm => hcontrol _ (mem_entries_of_get_arm harm)
  exact ⟨layout, hlayout, h.2 layout hlayout⟩

end DFCStateActionLayout

end DualFlexivControl
