/-
The readers of column names: `_state_q_index` (`skills.py` and `dashboard/replay.py`),
`_gripper_index` (`skills.py`) and `_action_layout` (`dashboard/replay.py`).

A reader sees nothing but a list of names. It splits each at its dots and files the index under
the first part. On the names of a layout this inverts the naming, as long as no side and no
signal has a dot in it: the parts of a name are then the side, field and offset it was made of,
and the indices filed for a side are those of its block. A block without entries has no names,
so nothing of it is read back.
-/
import DualFlexivControl.Layout.Columns
import DualFlexivControl.Lib.Gather

set_option autoImplicit false

namespace DualFlexivControl

open Results Tiling Control Gather

/-! ## The readers -/

/-- `name.split(".")` -/
def str_split (name : String) : List String := (name.toList.splitOn '.').map String.ofList

/-- `parts[0], i` of a name that has at least three parts and `q` as its second. -/
def read_q (e : String × ℕ) : Option (String × (List ℕ → List ℕ)) :=
  match str_split e.1 with
  | side :: signal :: _ :: _ => if signal = "q" then some (side, fun idx => idx ++ [e.2]) else none
  | _ => none

/-- `_state_q_index` -/
def state_q_index (state_names : List String) : List (String × List ℕ) :=
  gather read_q [] state_names.zipIdx

/-- `parts[0], i` of a name whose two parts end in `gripper`. -/
def read_gripper (e : String × ℕ) : Option (String × (ℕ → ℕ)) :=
  match str_split e.1 with
  | [side, signal] => if signal = "gripper" then some (side, fun _ => e.2) else none
  | _ => none

/-- `_gripper_index` -/
def gripper_index_of (action_names : List String) : List (String × ℕ) :=
  gather read_gripper 0 action_names.zipIdx

/-- `{"field", "cmd", "gripper"}` -/
structure ActionBlock where
  field : Option String
  cmd : List ℕ
  gripper : Option ℕ
  deriving DecidableEq, Repr

/-- What `_action_layout` does with a name's parts, in the entry of its first part. -/
def file_action (parts : List String) (i : ℕ) (blk : ActionBlock) : ActionBlock :=
  match parts with
  | [_, signal] => if signal = "gripper" then { blk with gripper := some i } else blk
  | _ :: field :: _ :: _ => { blk with field := some field, cmd := blk.cmd ++ [i] }
  | _ => blk

def read_action (e : String × ℕ) : Option (String × (ActionBlock → ActionBlock)) :=
  some ((str_split e.1).headD "", file_action (str_split e.1) e.2)

/-- `_action_layout` -/
def action_layout (action_names : List String) : List (String × ActionBlock) :=
  gather read_action ⟨none, [], none⟩ action_names.zipIdx

/-! ## The parts of a name -/

/-- No dot. -/
def Dotless (s : String) : Prop := '.' ∉ s.toList

instance : DecidablePred Dotless := fun s => inferInstanceAs (Decidable ('.' ∉ s.toList))

theorem dotless_toString (n : ℕ) : Dotless (toString n) := by
  intro h
  have hdigit : ('.' : Char).isDigit = true := by
    refine Nat.isDigit_of_mem_toDigits (b := 10) (n := n) (by omega) (by omega) ?_
    rw [← Nat.toList_repr]
    exact h
  exact absurd hdigit (by decide)

/-- Dotless parts joined by dots are split again, which is what makes names of columns readable. -/
theorem str_split_join {name : String} {parts : List String} (hne : parts ≠ [])
    (hparts : ∀ part ∈ parts, Dotless part)
    (hname : name.toList = ['.'].intercalate (parts.map String.toList)) :
    str_split name = parts := by
  unfold str_split
  rw [hname, List.splitOn_intercalate]
  · rw [List.map_map]
    exact (List.map_congr_left fun part _ => String.ofList_toList).trans (List.map_id' parts)
  · intro chars hchars
    obtain ⟨part, hpart, rfl⟩ := List.mem_map.1 hchars
    exact hparts part hpart
  · rw [ne_eq, List.map_eq_nil_iff]
    exact hne

theorem str_split_three {a b c : String} (ha : Dotless a) (hb : Dotless b) (hc : Dotless c) :
    str_split s!"{a}.{b}.{c}" = [a, b, c] := by
  refine str_split_join (List.cons_ne_nil _ _) ?_ ?_
  · simp only [List.forall_mem_cons, List.not_mem_nil, false_implies, implies_true, and_true]
    exact ⟨ha, hb, hc⟩
  · change (a ++ "." ++ b ++ "." ++ c).toList = _
    simp [List.intercalate]

/-! ## What a reader does with a name of the layout -/

/-- Appending the indices of a range one after another is appending the range. -/
theorem apply_all_push (ks : List ℕ) :
    ∀ idx : List ℕ, apply_all (ks.map fun k idx => idx ++ [k]) idx = idx ++ ks := by
  induction ks with
  | nil =>
    intro idx
    rw [List.append_nil]
    rfl
  | cons k rest ih =>
    intro idx
    rw [List.map_cons, apply_all_cons, ih, List.append_assoc]
    rfl

theorem update_read_q {side owner signal : String} (hside : Dotless owner)
    (hsignal : Dotless signal) (i k : ℕ) : update_of read_q side (s!"{owner}.{signal}.{i}", k) =
      if owner = side ∧ signal = "q" then some fun idx => idx ++ [k] else none := by
  have hsplit : str_split s!"{owner}.{signal}.{i}" = [owner, signal, toString i] :=
    str_split_three hside hsignal (dotless_toString i)
  unfold update_of read_q
  rw [hsplit]
  dsimp only
  by_cases hq : signal = "q"
  · rw [if_pos hq]
    by_cases hs : owner = side
    · rw [if_pos ⟨hs, hq⟩]
      exact if_pos hs
    · rw [if_neg (fun h => hs h.1)]
      exact if_neg hs
  · rw [if_neg hq, if_neg (fun h => hq h.2)]

namespace DFCStateActionLayout

/-- The parts of a side's column: side, field and place, or the side and its gripper. -/
theorem str_split_column {part : ActionPart} (hside : Dotless part.side)
    (hfield : Dotless part.field) (i : ℕ) : str_split (column_name part i) =
      if i < part.dim then [part.side, part.field, toString i] else [part.side, "gripper"] := by
  unfold column_name
  by_cases hi : i < part.dim
  · rw [if_pos hi, if_pos hi]
    exact str_split_three hside hfield (dotless_toString i)
  · rw [if_neg hi, if_neg hi]
    refine str_split_join (List.cons_ne_nil _ _) ?_ ?_
    · simp only [List.forall_mem_cons, List.not_mem_nil, false_implies, implies_true, and_true]
      exact ⟨hside, by decide⟩
    · change (part.side ++ ".gripper").toList = _
      simp [List.intercalate]

theorem update_read_gripper {part : ActionPart} (hside : Dotless part.side)
    (hfield : Dotless part.field) {i : ℕ} (hi : i ≤ part.dim) (side : String) (k : ℕ) :
    update_of read_gripper side (column_name part i, k) =
      if part.side = side ∧ i = part.dim then some fun _ => k else none := by
  unfold update_of read_gripper
  rw [str_split_column hside hfield]
  by_cases hlt : i < part.dim
  · rw [if_pos hlt, if_neg (fun h => by omega)]
  · rw [if_neg hlt]
    dsimp only
    rw [if_pos rfl]
    by_cases hs : part.side = side
    · rw [if_pos ⟨hs, by omega⟩]
      exact if_pos hs
    · rw [if_neg (fun h => hs h.1)]
      exact if_neg hs

/-- What a column adds to its side's entry. -/
def file_column (part : ActionPart) (start k : ℕ) (blk : ActionBlock) : ActionBlock :=
  if k - start < part.dim then { blk with field := some part.field, cmd := blk.cmd ++ [k] }
  else { blk with gripper := some k }

theorem update_read_action {part : ActionPart} (hside : Dotless part.side)
    (hfield : Dotless part.field) (side : String) (start k : ℕ) :
    update_of read_action side (column_name part (k - start), k) =
      if part.side = side then some (file_column part start k) else none := by
  unfold update_of read_action
  rw [str_split_column hside hfield]
  by_cases hlt : k - start < part.dim
  · rw [if_pos hlt]
    have hfile : file_action [part.side, part.field, toString (k - start)] k =
        file_column part start k := by
      funext blk
      unfold file_column
      rw [if_pos hlt]
      rfl
    rw [hfile]
    rfl
  · rw [if_neg hlt]
    have hfile : file_action [part.side, "gripper"] k = file_column part start k := by
      funext blk
      unfold file_column
      rw [if_neg hlt]
      rfl
    rw [hfile]
    rfl

/-- Filing a side's primary columns one by one gathers their places in order and notes the field, if
there is a column at all. -/
theorem apply_all_primary {part : ActionPart} {start : ℕ} (ks : List ℕ)
    (hks : ∀ k ∈ ks, k - start < part.dim) :
    ∀ blk : ActionBlock, apply_all (ks.map (file_column part start)) blk =
      ⟨if ks = [] then blk.field else some part.field, blk.cmd ++ ks, blk.gripper⟩ := by
  induction ks with
  | nil =>
    intro blk
    rw [List.append_nil]
    rfl
  | cons k rest ih =>
    intro blk
    rw [List.map_cons, apply_all_cons, ih fun k' hk' => hks k' (List.mem_cons_of_mem _ hk')]
    unfold file_column
    rw [if_pos (hks k List.mem_cons_self), if_neg (List.cons_ne_nil _ _)]
    dsimp only
    rw [ite_self, List.append_assoc]
    rfl

/-! ## Reading a layout's names back -/

section Read

variable {arms : Arms} {state_signals action_sides : List String} {layout : DFCStateActionLayout}

theorem dotless_action_field {control : ControlCfg} {field : String}
    (h : control.action_field = .ok field) : Dotless field := by
  unfold ControlCfg.action_field at h
  cases hkind : control.kind with
  | other name =>
    rw [hkind] at h
    exact absurd h (by simp [ACTION_PRIMARY])
  | _ =>
    rw [hkind] at h
    rw [← Except.ok.inj h]
    decide

theorem dotless_block (h : from_arms arms state_signals action_sides = .ok layout)
    (hdot : ∀ side ∈ arms.sides, Dotless side) {b : Block ActionPart}
    (hb : b ∈ layout.action_blocks) : Dotless b.label.side ∧ Dotless b.label.field := by
  obtain ⟨-, -, haction⟩ := from_arms_ok h
  have hmem : b.label.side ∈ arms.sides := by
    have hside : b.label.side ∈ layout.action_parts.map ActionPart.side :=
      List.mem_map_of_mem (label_mem hb)
    rw [action_parts_sides haction] at hside
    exact mem_sorted_sides.1 (List.mem_filter.1 hside).1
  obtain ⟨arm, harm⟩ := get_arm_of_mem hmem
  exact ⟨hdot _ hmem, dotless_action_field (action_part_of_block haction hb harm).1⟩

/-- Every action name is a column of the block that owns its index. -/
theorem column_at {k : ℕ} {name : String} (hname : layout.action_names[k]? = some name) :
    ∃ b ∈ layout.action_blocks, b.start ≤ k ∧ k < b.stop ∧
      name = column_name b.label (k - b.start) := by
  have hk : k < layout.action_dim := by
    rw [← length_action_names]
    exact (List.getElem?_eq_some_iff.1 hname).1
  obtain ⟨b, hb, hle, hlt⟩ := place_cover (Nat.zero_le k) (by rwa [Nat.zero_add])
  have hstop := stop_action_block hb
  have hcolumn := action_name_of_block hb (i := k - b.start) (by omega)
  rw [Nat.add_sub_cancel' hle] at hcolumn
  exact ⟨b, hb, hle, hlt, Option.some.inj (hname.symm.trans hcolumn)⟩

theorem block_of_side {b b' : Block ActionPart} (hb : b ∈ layout.action_blocks)
    (hb' : b' ∈ layout.action_blocks) (hside : b.label.side = b'.label.side) : b = b' :=
  List.inj_on_of_nodup_map nodup_action_blocks hb hb' hside

/-- `_gripper_index` finds the gripper index of every recorded side, and no other. -/
theorem gripper_index_of_names (h : from_arms arms state_signals action_sides = .ok layout)
    (hdot : ∀ side ∈ arms.sides, Dotless side) (side : String) :
    (gripper_index_of layout.action_names).lookup side = layout.gripper_index side := by
  unfold gripper_index_of
  rw [lookup_gather]
  -- what the reader does with the name of an index of block `b`
  have hupdate : ∀ k name, layout.action_names[k]? = some name → ∃ b ∈ layout.action_blocks,
      b.start ≤ k ∧ k < b.stop ∧ update_of read_gripper side (name, k) =
        if b.label.side = side ∧ k = b.start + b.label.dim then some fun _ => k else none := by
    intro k name hname
    obtain ⟨b, hb, hle, hlt, rfl⟩ := column_at hname
    have hstop := stop_action_block hb
    refine ⟨b, hb, hle, hlt, ?_⟩
    rw [update_read_gripper (dotless_block h hdot hb).1 (dotless_block h hdot hb).2 (by omega)]
    congr 1
    exact propext (and_congr_right fun _ => by omega)
  cases hg : layout.gripper_index side with
  | none =>
    rw [if_pos]
    rw [List.filterMap_eq_nil_iff]
    rintro ⟨name, k⟩ he
    obtain ⟨b, hb, _, _, hread⟩ := hupdate k name (List.mem_zipIdx_iff_getElem?.1 he)
    rw [hread, if_neg]
    rintro ⟨hside, _⟩
    have hsome := gripper_index_eq_some.2 ⟨b, hb, hside, rfl⟩
    rw [hg] at hsome
    exact absurd hsome (by simp)
  | some g =>
    obtain ⟨b, hb, rfl, rfl⟩ := gripper_index_eq_some.1 hg
    have hstop := stop_action_block hb
    have hlast : b.start + b.label.dim + 1 ≤ layout.action_names.length := by
      rw [length_action_names, ← hstop]
      exact (place_bounds hb).2.2.trans_eq (Nat.zero_add _)
    rw [filterMap_zipIdx (u := fun k _ => k) (Nat.le_succ _) hlast]
    · rw [Nat.succ_sub (Nat.le_refl _), Nat.sub_self]
      rfl
    · intro k name hname hle hlt
      obtain ⟨b', hb', hle', hlt', hread⟩ := hupdate k name hname
      have hsame : b = b' := owner_unique (k := k) hb hb' (by omega) (by omega) hle' hlt'
      rw [hread, ← hsame, if_pos ⟨rfl, by omega⟩]
    · intro k name hname hk
      obtain ⟨b', hb', _, _, hread⟩ := hupdate k name hname
      rw [hread, if_neg]
      rintro ⟨hside, hk'⟩
      rw [block_of_side hb' hb hside] at hk'
      omega

/-- `_action_layout` finds every recorded side's columns, and its field where it has any. -/
theorem action_layout_of_block (h : from_arms arms state_signals action_sides = .ok layout)
    (hdot : ∀ side ∈ arms.sides, Dotless side) {b : Block ActionPart}
    (hb : b ∈ layout.action_blocks) :
    (action_layout layout.action_names).lookup b.label.side =
      some ⟨if b.label.dim = 0 then none else some b.label.field,
        List.range' b.start b.label.dim, some (b.start + b.label.dim)⟩ := by
  unfold action_layout
  rw [lookup_gather]
  -- a name belongs to one block and is read as that block's column
  have hupdate : ∀ k name, layout.action_names[k]? = some name → ∃ b' ∈ layout.action_blocks,
      b'.start ≤ k ∧ k < b'.stop ∧ update_of read_action b.label.side (name, k) =
        if b'.label.side = b.label.side then some (file_column b'.label b'.start k) else none := by
    intro k name hname
    obtain ⟨b', hb', hle, hlt, rfl⟩ := column_at hname
    exact ⟨b', hb', hle, hlt, update_read_action (dotless_block h hdot hb').1
      (dotless_block h hdot hb').2 _ _ _⟩
  have hstop := stop_action_block hb
  have hlast : b.stop ≤ layout.action_names.length := by
    rw [length_action_names]
    exact (place_bounds hb).2.2.trans_eq (Nat.zero_add _)
  -- so the names that concern a side are its block's, in order, the gripper's last
  have hfound : layout.action_names.zipIdx.filterMap (update_of read_action b.label.side) =
      (List.range' b.start (b.stop - b.start)).map (file_column b.label b.start) := by
    refine filterMap_zipIdx (by omega) hlast ?_ ?_
    · intro k name hname hle hlt
      obtain ⟨b', hb', hle', hlt', hread⟩ := hupdate k name hname
      have hsame : b = b' := owner_unique (k := k) hb hb' (by omega) (by omega) hle' hlt'
      rw [hread, ← hsame, if_pos rfl]
    · intro k name hname hk
      obtain ⟨b', hb', hle', hlt', hread⟩ := hupdate k name hname
      rw [hread, if_neg]
      intro hside
      rw [block_of_side hb' hb hside] at hle' hlt'
      omega
  have hwidth : b.stop - b.start = b.label.dim + 1 := by omega
  rw [hfound, hwidth, List.range'_1_concat, List.map_append, if_neg (by simp), apply_all_append,
    apply_all_primary (List.range' b.start b.label.dim) ?_]
  · rw [List.nil_append, List.map_singleton, apply_all_cons, apply_all_nil]
    unfold file_column
    rw [if_neg (by omega)]
    simp only [List.range'_eq_nil_iff]
  · intro k hk
    rw [List.mem_range'_1] at hk
    omega

theorem action_layout_of_other (h : from_arms arms state_signals action_sides = .ok layout)
    (hdot : ∀ side ∈ arms.sides, Dotless side) {side : String} (hside : side ∉ layout.sides) :
    (action_layout layout.action_names).lookup side = none := by
  unfold action_layout
  rw [lookup_gather, if_pos]
  rw [List.filterMap_eq_nil_iff]
  rintro ⟨name, k⟩ he
  have hindex : layout.action_names[k]? = some name := List.mem_zipIdx_iff_getElem?.1 he
  obtain ⟨b, hb, _, _, rfl⟩ := column_at hindex
  rw [update_read_action (dotless_block h hdot hb).1 (dotless_block h hdot hb).2, if_neg]
  rintro rfl
  exact hside (List.mem_map_of_mem (label_mem hb))

/-- What `_state_q_index` does with the name of a state index: it files the index under the side
where the signal is `q`, and passes over it elsewhere. -/
theorem update_state_name (hdistinct : state_signals.Nodup)
    (h : from_arms arms state_signals action_sides = .ok layout)
    (hdot : ∀ side ∈ arms.sides, Dotless side) (hsignals : ∀ signal ∈ state_signals, Dotless signal)
    (side : String) {k : ℕ} {name : String} (hname : layout.state_names[k]? = some name) :
    ∃ key r, layout.state_slice key = some r ∧ r.1 ≤ k ∧ k < r.2 ∧
      update_of read_q side (name, k) =
        if key = (side, "q") then some fun idx => idx ++ [k] else none := by
  have hcanonical := from_arms_canonical hdistinct h
  have hk : k < layout.state_dim := by
    rw [← hcanonical.state_names_length]
    exact (List.getElem?_eq_some_iff.1 hname).1
  obtain ⟨⟨side', signal⟩, r, hr, hle, hlt⟩ := hcanonical.state_blocks.cover k hk
  obtain ⟨hside, hsignal⟩ := (hcanonical.state_keys side' signal).1 ⟨r, hr⟩
  have hat := hcanonical.state_name side' signal r k hr hle hlt
  refine ⟨(side', signal), r, hr, hle, hlt, ?_⟩
  rw [Option.some.inj (hname.symm.trans hat),
    update_read_q (hdot side' hside) (hsignals signal hsignal)]
  congr 1
  rw [Prod.mk.injEq]

/-- `_state_q_index` finds the indices of every `q` slice that has any, in order. -/
theorem state_q_index_of_names (hdistinct : state_signals.Nodup)
    (h : from_arms arms state_signals action_sides = .ok layout)
    (hdot : ∀ side ∈ arms.sides, Dotless side) (hsignals : ∀ signal ∈ state_signals, Dotless signal)
    {side : String} {idx : List ℕ} : (state_q_index layout.state_names).lookup side = some idx ↔
      ∃ r, layout.state_slice (side, "q") = some r ∧ r.1 < r.2 ∧
        idx = List.range' r.1 (r.2 - r.1) := by
  have hcanonical := from_arms_canonical hdistinct h
  have hupdate := fun k name (hname : layout.state_names[k]? = some name) =>
    update_state_name hdistinct h hdot hsignals side hname
  unfold state_q_index
  rw [lookup_gather]
  cases hq : layout.state_slice (side, "q") with
  | none =>
    -- no name belongs to such a block, so the side gets no entry
    rw [if_pos]
    · simp
    · rw [List.filterMap_eq_nil_iff]
      rintro ⟨name, k⟩ he
      obtain ⟨key, r, hr, _, _, hread⟩ := hupdate k name (List.mem_zipIdx_iff_getElem?.1 he)
      rw [hread, if_neg]
      rintro rfl
      rw [hq] at hr
      exact absurd hr (by simp)
  | some r =>
    obtain ⟨hle, hlast⟩ := hcanonical.state_blocks.bounds _ r hq
    rw [← hcanonical.state_names_length] at hlast
    -- the names of the block, and no others, push their columns, in order
    have hfound : layout.state_names.zipIdx.filterMap (update_of read_q side) =
        (List.range' r.1 (r.2 - r.1)).map fun k idx => idx ++ [k] := by
      refine filterMap_zipIdx hle hlast ?_ ?_
      · intro k name hname hlo hhi
        obtain ⟨key, r', hr', hlo', hhi', hread⟩ := hupdate k name hname
        rw [hread, if_pos (hcanonical.state_blocks.disjoint _ _ _ _ k hr' hq hlo' hhi' hlo hhi)]
      · intro k name hname hk
        obtain ⟨key, r', hr', hlo', hhi', hread⟩ := hupdate k name hname
        rw [hread, if_neg]
        rintro rfl
        rw [hq] at hr'
        rw [← Option.some.inj hr'] at hlo' hhi'
        omega
    rw [hfound, apply_all_push, List.nil_append]
    simp only [List.map_eq_nil_iff, List.range'_eq_nil_iff, Option.some.injEq, exists_eq_left']
    -- a block of width zero leaves no entry behind
    by_cases hempty : r.2 - r.1 = 0
    · rw [if_pos hempty]
      constructor
      · intro habs
        exact absurd habs (by simp)
      · rintro ⟨hlt, _⟩
        omega
    · rw [if_neg hempty, Option.some.injEq]
      constructor
      · rintro rfl
        exact ⟨by omega, rfl⟩
      · rintro ⟨_, rfl⟩
        rfl

end Read

end DFCStateActionLayout

end DualFlexivControl
