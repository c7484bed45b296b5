/-
How the recorded schema depends on the selected controller.

The action block of `DFCStateActionLayout` takes its field and width from the control kind, and
the collection records through the same layout. Here one rig is given two selections of
controllers: the features of the two builders, and the action they record from a leader
sample, are compared. State, FACTR and image features are read off the rig alone. The action
names are a prefix code, since a side's names end with its gripper, so equal names mean equal
blocks; and a leader's joint targets survive the cut to the block's width exactly when the
block is wide enough.
-/
import Mathlib.Algebra.Ring.Int.Defs
import DualFlexivControl.Collection.Features

set_option autoImplicit false

namespace DualFlexivControl

open Results Tiling Control

/-- The rig with a controller selected for each arm. -/
def Arms.select (arms : Arms) (sel : String → ControlCfg) : Arms where
  entries := arms.entries.map fun e => (e.1, { e.2 with control := sel e.1 })
  nodup := by
    rw [List.map_map]
    exact arms.nodup

section Select

variable (arms : Arms) (sel : String → ControlCfg)

theorem sides_select : (arms.select sel).sides = arms.sides := by
  unfold Arms.sides Arms.select
  rw [List.map_map]
  rfl

theorem sorted_sides_select : sorted_sides (arms.select sel) = sorted_sides arms := by
  unfold sorted_sides
  rw [sides_select]

theorem lookup_select (side : String) (entries : List (String × ArmCfg)) :
    (entries.map fun e => (e.1, { e.2 with control := sel e.1 })).lookup side =
      (entries.lookup side).map fun arm => { arm with control := sel side } := by
  induction entries with
  | nil => rfl
  | cons e rest ih =>
    rw [List.map_cons, List.lookup_cons, List.lookup_cons, ih]
    cases hside : side == e.1 with
    | true =>
      rw [eq_of_beq hside]
      rfl
    | false => rfl

/-- An arm is as it was, but for its controller. -/
theorem get_arm_select {side : String} {arm : ArmCfg} :
    (arms.select sel).get_arm side = .ok arm ↔
      ∃ arm', arms.get_arm side = .ok arm' ∧ arm = { arm' with control := sel side } := by
  unfold Arms.get_arm Arms.select
  rw [lookup_select]
  cases arms.entries.lookup side with
  | none => simp
  | some arm' => simp [eq_comm]

/-- The state blocks do not depend on the controllers. -/
theorem state_part_select (key : String × String) :
    state_part (arms.select sel) key = state_part arms key := by
  unfold state_part Arms.get_arm Arms.select
  rw [lookup_select]
  cases arms.entries.lookup key.1 with
  | none => rfl
  | some arm => rfl

/-- Under a selection the action part of a side is the selected controller's, of the same arm and
side as before. -/
theorem action_part_select {side : String} {part : ActionPart} :
    action_part (arms.select sel) side = .ok part ↔ ∃ arm, arms.get_arm side = .ok arm ∧
      (sel side).action_field = .ok part.field ∧ (sel side).action_dim = .ok part.dim ∧
      part.side = side := by
  rw [action_part_ok]
  constructor
  · rintro ⟨arm, harm, hfield, hdim, hside⟩
    obtain ⟨arm', harm', rfl⟩ := (get_arm_select arms sel).1 harm
    exact ⟨arm', harm', hfield, hdim, hside⟩
  · rintro ⟨arm', harm', hfield, hdim, hside⟩
    exact ⟨_, (get_arm_select arms sel).2 ⟨arm', harm', rfl⟩, hfield, hdim, hside⟩

end Select

/-! ## The names of the action vector -/

/-- The mark of a gripper's name: the primary names end with a digit. -/
def GripperName (name : String) : Prop := name.toList.getLast? = some 'r'

theorem gripper_name (side : String) : GripperName s!"{side}.gripper" := by
  unfold GripperName
  show (side ++ ".gripper").toList.getLast? = some 'r'
  rw [String.toList_append, List.getLast?_append]
  rfl

/-- The primary name of an index. -/
def primary_name (side field : String) (i : ℕ) : String := s!"{side}.{field}.{i}"

theorem not_gripper_name (side field : String) (i : ℕ) :
    ¬ GripperName (primary_name side field i) := by
  unfold GripperName
  have hname : primary_name side field i =
      (side ++ "." ++ field ++ ".") ++ i.repr := rfl
  rw [hname, String.toList_append, List.getLast?_append, Nat.toList_repr]
  intro h
  cases hlast : (Nat.toDigits 10 i).getLast? with
  | none => exact Nat.toDigits_ne_nil (List.getLast?_eq_none_iff.1 hlast)
  | some c =>
    have hdigit := Nat.isDigit_of_mem_toDigits (by decide) (by decide)
      (List.mem_of_getLast? hlast)
    rw [hlast] at h
    have hc : c = 'r' := Option.some.inj h
    rw [hc] at hdigit
    exact absurd hdigit (by decide)

theorem part_names_eq (part : ActionPart) : DFCStateActionLayout.part_names part =
    (List.range part.dim).map (primary_name part.side part.field) ++
      [s!"{part.side}.gripper"] := rfl

theorem terminated_part_names (part : ActionPart) :
    Terminated GripperName (DFCStateActionLayout.part_names part) := by
  refine ⟨_, _, part_names_eq part, gripper_name _, ?_⟩
  intro name hname
  obtain ⟨i, _, rfl⟩ := List.mem_map.1 hname
  exact not_gripper_name _ _ _

/-- The names of a side's block tell its width, and its field where it has any width. -/
theorem part_names_inj {p p' : ActionPart} (hside : p.side = p'.side) :
    DFCStateActionLayout.part_names p = DFCStateActionLayout.part_names p' ↔
      p.dim = p'.dim ∧ (p.dim = 0 ∨ p.field = p'.field) := by
  rw [part_names_eq, part_names_eq, ← hside]
  constructor
  · intro h
    have hbody := List.append_cancel_right h
    have hdim : p.dim = p'.dim := by
      have hlength := congrArg List.length hbody
      rw [List.length_map, List.length_map, List.length_range, List.length_range] at hlength
      exact hlength
    refine ⟨hdim, ?_⟩
    by_cases hzero : p.dim = 0
    · exact .inl hzero
    · right
      rw [← hdim] at hbody
      have hname := List.map_inj_left.1 hbody 0 (List.mem_range.2 (Nat.pos_of_ne_zero hzero))
      have hlist : (p.side ++ "." ++ p.field ++ "." ++ (0 : ℕ).repr).toList =
          (p.side ++ "." ++ p'.field ++ "." ++ (0 : ℕ).repr).toList :=
        congrArg String.toList hname
      simp only [String.toList_append, List.append_assoc, List.append_cancel_left_eq,
        List.append_cancel_right_eq] at hlist
      exact String.toList_inj.1 hlist
  · rintro ⟨hdim, hfield⟩
    rw [← hdim]
    rcases hfield with hzero | hfield
    · rw [hzero]
      rfl
    · rw [hfield]

namespace Collection

/-! ## The features of a builder -/

section Features

variable {arms : Arms} {sel : String → ControlCfg} {teleop_sides : List String}
  {cameras : List (String × CameraCfg)} {instruction : String} {state_signals : List String}
  {video : Bool} {fb : FrameBuilder}

/-- A built builder: what it keeps of the rig, and its layout. -/
theorem init_ok (h : FrameBuilder.init arms teleop_sides cameras instruction state_signals
    video = .ok fb) :
    ∃ layout, DFCStateActionLayout.from_arms arms state_signals teleop_sides = .ok layout ∧
      fb = ⟨arms, instruction, state_signals, video, layout,
        cameras.flatMap camera_images⟩ := by
  obtain ⟨layout, hlayout, hfb⟩ := bind_ok.1 h
  exact ⟨layout, hlayout, (pure_ok.1 hfb).symm⟩

/-- The FACTR features read the arm's dof only. -/
theorem factr_features_select (fb : FrameBuilder) (arms : Arms) (sel : String → ControlCfg)
    (side : String) :
    FrameBuilder.factr_features { fb with arms := arms.select sel } side =
      FrameBuilder.factr_features { fb with arms := arms } side := by
  unfold FrameBuilder.factr_features Arms.get_arm Arms.select
  rw [lookup_select]
  cases arms.entries.lookup side with
  | none => rfl
  | some arm => rfl

/-- Everything but the state and the action. -/
def other_features (arms : Arms) (sides : List String) (fb : FrameBuilder) :
    Except LayoutError (List (String × Feature)) := do
  let factr ← collect (FrameBuilder.factr_features { fb with arms := arms }) sides
  pure (factr.flatten ++ fb.images.map fb.image_feature)

theorem features_eq (fb : FrameBuilder) (arms : Arms) (sel : String → ControlCfg)
    (harms : fb.arms = arms.select sel) :
    fb.features = (do
      let others ← other_features arms fb.layout.sides fb
      pure (others.foldl (fun feats entry => set_feature feats entry.1 entry.2)
        [("observation.state", fb.state_feature), ("action", fb.action_feature)])) := by
  have hfactr : fb.factr_features = FrameBuilder.factr_features { fb with arms := arms } := by
    funext side
    rw [← factr_features_select fb arms sel side, ← harms]
  unfold FrameBuilder.features other_features
  rw [hfactr, bind_assoc]
  rfl

/-- A key of an observation is not the action's. -/
theorem observation_ne_action {key : String} (h : key.toList.head? = some 'o') :
    key ≠ "action" := by
  intro heq
  rw [heq] at h
  exact absurd h (by decide)

theorem head_append {s rest : String} {c : Char} (h : s.toList.head? = some c) :
    (s ++ rest).toList.head? = some c := by
  rw [String.toList_append, List.head?_append, h]
  rfl

theorem lookup_set_feature {feats : List (String × Feature)} {key k : String}
    {feature : Feature} (hne : key ≠ k) :
    (set_feature feats key feature).lookup k = feats.lookup k := by
  have hbeq : (k == key) = false := beq_false_of_ne (Ne.symm hne)
  unfold set_feature
  split
  · clear * - hbeq
    induction feats with
    | nil => rfl
    | cons entry rest ih =>
      rw [List.map_cons]
      split
      · rename_i hkey
        rw [List.lookup_cons, List.lookup_cons, hkey, ih, hbeq]
      · rw [List.lookup_cons, List.lookup_cons, ih]
  · rw [List.lookup_append, List.lookup_cons, hbeq]
    cases feats.lookup k with
    | none => rfl
    | some f => rfl

theorem lookup_foldl_set_feature {k : String} {entries : List (String × Feature)} :
    ∀ {feats : List (String × Feature)}, (∀ e ∈ entries, e.1 ≠ k) →
      (entries.foldl (fun feats entry => set_feature feats entry.1 entry.2) feats).lookup k =
        feats.lookup k := by
  induction entries with
  | nil =>
    intro feats _
    rfl
  | cons e rest ih =>
    intro feats h
    rw [List.foldl_cons, ih fun e' he' => h e' (List.mem_cons_of_mem _ he')]
    exact lookup_set_feature (h e List.mem_cons_self)

/-- The other features are there for sides the rig has, whichever controllers are selected: they
depend on the arms' streams alone. -/
theorem other_features_ok {sides : List String} (fb : FrameBuilder)
    (hsides : ∀ side ∈ sides, ∃ arm, arms.get_arm side = .ok arm) :
    ∃ others, other_features arms sides fb = .ok others := by
  have hfactr : ∃ factr, collect (FrameBuilder.factr_features { fb with arms := arms }) sides =
      .ok factr := by
    refine exists_collect fun side hside => ?_
    obtain ⟨arm, harm⟩ := hsides side hside
    exact ⟨_, bind_ok.2 ⟨arm, harm, rfl⟩⟩
  obtain ⟨factr, hfactr⟩ := hfactr
  exact ⟨_, bind_ok.2 ⟨factr, hfactr, rfl⟩⟩

/-- No other feature is stored under the action's key, so the action's own is not overwritten by
one. -/
theorem other_features_keys {sides : List String} {others : List (String × Feature)}
    (himages : fb.images = cameras.flatMap camera_images)
    (h : other_features arms sides fb = .ok others) : ∀ e ∈ others, e.1 ≠ "action" := by
  obtain ⟨factr, hfactr, hothers⟩ := bind_ok.1 h
  rw [← pure_ok.1 hothers]
  intro e he
  rcases List.mem_append.1 he with he | he
  · obtain ⟨entries, hentries, he⟩ := List.mem_flatten.1 he
    obtain ⟨side, _, hside⟩ := element_of_collect hfactr entries hentries
    obtain ⟨arm, _, hpure⟩ := bind_ok.1 hside
    rw [← pure_ok.1 hpure] at he
    rcases List.mem_cons.1 he with rfl | he
    · exact observation_ne_action (head_append (s := "observation.factr.") rfl)
    · rw [List.mem_singleton.1 he]
      exact observation_ne_action (head_append (s := "observation.factr_raw.") rfl)
  · obtain ⟨image, himage, rfl⟩ := List.mem_map.1 he
    rw [himages] at himage
    obtain ⟨camera, _, himage⟩ := List.mem_flatMap.1 himage
    obtain ⟨view, _, rfl⟩ := List.mem_map.1 himage
    exact observation_ne_action (head_append (head_append (s := "observation.images.") rfl))

end Features

/-! ## What a leader's sample becomes -/

section Records

variable {F F32 : Type}

/-- A sample of width `dof + 1` is its joint targets and its gripper value. -/
theorem values_eq_targets {raw : Sample F} {dof : ℕ} (h : raw.values.length = dof + 1) :
    raw.values = raw.values.take dof ++ [raw.trailing] := by
  have hdof : dof = raw.values.length - 1 := by omega
  rw [hdof, ← List.dropLast_eq_take]
  exact (List.dropLast_append_getLast raw.nonempty).symm

/-- A block wide enough, and no wider than the sample, holds the whole sample. -/
theorem targets_in_block (f32 : F → F32) {raw : Sample F} {dof dim : ℕ}
    (hlen : raw.values.length = dof + 1) (hle : dof ≤ dim) (hge : dim ≤ dof + 1) :
    (raw.values.take dof ++ [raw.trailing]).map f32 <:+:
      (raw.values.take dim).map f32 ++ [f32 raw.trailing] := by
  rcases Nat.eq_or_lt_of_le hle with heq | hlt
  · rw [← heq, List.map_append]
    exact List.infix_rfl
  · have hdim : dim = raw.values.length := by omega
    rw [hdim, List.take_length, ← values_eq_targets hlen]
    exact (List.prefix_append _ _).isInfix

variable [Zero F]

/-- The action recorded in a tick whose leaders are all fresh. -/
def recorded_action (fb : FrameBuilder) (f32 : F → F32) (leaders : BySide (Sample F)) :
    Except LayoutError (List F32) :=
  let acts := fb.actions_from_leaders leaders
  fb.layout.pack_action f32 acts.q_d acts.gripper

/-- Every recorded side has a sample of width `dof + 1`. -/
def FullLeaders (arms : Arms) (fb : FrameBuilder) (leaders : BySide (Sample F)) : Prop :=
  ∀ side ∈ fb.layout.sides, ∃ arm raw, arms.get_arm side = .ok arm ∧
    leaders side = some raw ∧ raw.values.length = arm.dof + 1

/-- From such samples an action is recorded, and each side's block contains all `dof` joint
targets of its sample followed by the gripper value. -/
def RecordsLeaders (arms : Arms) (fb : FrameBuilder) (f32 : F → F32) : Prop :=
  ∀ leaders, FullLeaders arms fb leaders →
    ∃ action, recorded_action fb f32 leaders = .ok action ∧
      ∀ b ∈ fb.layout.action_blocks, ∀ arm raw, arms.get_arm b.label.side = .ok arm →
        leaders b.label.side = some raw →
        (raw.values.take arm.dof ++ [raw.trailing]).map f32 <:+: slice b action

variable {arms : Arms} {fb : FrameBuilder} {f32 : F → F32}

/-- The targets a side's block is packed from. -/
theorem targets_of_block {leaders : BySide (Sample F)} {b : Block ActionPart} {raw : Sample F}
    (hb : b ∈ fb.layout.action_blocks) (hraw : leaders b.label.side = some raw) :
    (fb.actions_from_leaders leaders).q_d b.label.side =
        some (raw.values.take b.label.dim) ∧
      (fb.actions_from_leaders leaders).gripper b.label.side = some raw.trailing := by
  have hpart := DFCStateActionLayout.part_of_action_block hb
  rw [(actions_of_part hpart).1, (actions_of_part hpart).2, hraw]
  exact ⟨rfl, rfl⟩

/-- Which blocks are wide enough: those with room for all joints of their arm, and with at most the
gripper's column beyond. -/
theorem records_iff (hsides : ∀ side ∈ fb.layout.sides, ∃ arm, arms.get_arm side = .ok arm) :
    RecordsLeaders arms fb f32 ↔ ∀ part ∈ fb.layout.action_parts, ∀ arm,
      arms.get_arm part.side = .ok arm → arm.dof ≤ part.dim ∧ part.dim ≤ arm.dof + 1 := by
  constructor
  · intro h part hpart arm harm
    -- samples of zeros tell the widths apart already
    let leaders : BySide (Sample F) := fun side =>
      match arms.get_arm side with
      | .ok arm => some ⟨List.replicate (arm.dof + 1) 0, by simp⟩
      | .error _ => none
    have hfull : FullLeaders arms fb leaders := by
      intro side hside
      obtain ⟨arm, harm⟩ := hsides side hside
      refine ⟨arm, ⟨List.replicate (arm.dof + 1) 0, by simp⟩, harm, ?_, List.length_replicate ..⟩
      show (match arms.get_arm side with | .ok arm => _ | .error _ => _) = _
      rw [harm]
    obtain ⟨action, haction, hblocks⟩ := h leaders hfull
    have hmem : (part, part.dim + 1) ∈
        fb.layout.action_parts.map fun part => (part, part.dim + 1) := List.mem_map_of_mem hpart
    obtain ⟨b, hb, hlabel⟩ := block_of_part hmem 0
    have hside : b.label.side ∈ fb.layout.sides := by
      rw [hlabel]
      exact List.mem_map_of_mem hpart
    have hpartarm : arms.get_arm b.label.side = .ok arm := by
      rw [hlabel]
      exact harm
    obtain ⟨arm', raw, harm', hraw, hlen⟩ := hfull _ hside
    have heq : arm' = arm := Except.ok.inj (harm'.symm.trans hpartarm)
    rw [heq] at hlen
    obtain ⟨-, hspec⟩ := DFCStateActionLayout.pack_action_spec haction
    obtain ⟨value, hvalue, hdim, hslice⟩ := hspec b hb
    rw [(targets_of_block hb hraw).1] at hvalue
    have hinfix := (hblocks b hb arm raw hpartarm hraw).length_le
    rw [hslice] at hinfix
    simp only [List.length_map, List.length_append, List.length_take, hlen, hdim,
      List.length_singleton] at hinfix
    rw [← Option.some.inj hvalue, List.length_take, hlen] at hdim
    have hlabel' : b.label = part := hlabel
    rw [hlabel'] at hdim hinfix
    omega
  · intro h leaders hfull
    have hside : ∀ b ∈ fb.layout.action_blocks, ∃ arm raw,
        arms.get_arm b.label.side = .ok arm ∧ leaders b.label.side = some raw ∧
          raw.values.length = arm.dof + 1 ∧ arm.dof ≤ b.label.dim ∧
          b.label.dim ≤ arm.dof + 1 := by
      intro b hb
      have hpart := DFCStateActionLayout.label_mem hb
      obtain ⟨arm, raw, harm, hraw, hlen⟩ := hfull _ (List.mem_map_of_mem hpart)
      exact ⟨arm, raw, harm, hraw, hlen, h _ hpart arm harm⟩
    have hpacks : ∃ action, recorded_action fb f32 leaders = .ok action := by
      refine DFCStateActionLayout.pack_action_ok_iff.2 fun b hb => ?_
      obtain ⟨arm, raw, -, hraw, hlen, -, hge⟩ := hside b hb
      refine ⟨_, (targets_of_block hb hraw).1, ?_⟩
      rw [List.length_take]
      omega
    obtain ⟨action, haction⟩ := hpacks
    refine ⟨action, haction, ?_⟩
    intro b hb arm raw harm hraw
    obtain ⟨arm', raw', harm', hraw', hlen, hle, hge⟩ := hside b hb
    have harms : arm' = arm := Except.ok.inj (harm'.symm.trans harm)
    have hraws : raw' = raw := Option.some.inj (hraw'.symm.trans hraw)
    rw [harms] at hlen hle hge
    rw [hraws] at hlen
    obtain ⟨-, hspec⟩ := DFCStateActionLayout.pack_action_spec haction
    obtain ⟨value, hvalue, -, hslice⟩ := hspec b hb
    obtain ⟨hq_d, hgrip⟩ := targets_of_block hb hraw
    rw [hq_d] at hvalue
    rw [hslice, hgrip, ← Option.some.inj hvalue]
    exact targets_in_block f32 hlen hle hge

end Records

/-! ## Two selections of controllers -/

/-- What two selections must agree on for one arm: the width of the primary field, which is the
arm's dof or one more, and its name where it has any width. -/
def SameSchema (arms : Arms) (sel₁ sel₂ : String → ControlCfg) (side : String) : Prop :=
  ∃ arm field₁ field₂ dim, arms.get_arm side = .ok arm ∧
    (sel₁ side).action_field = .ok field₁ ∧ (sel₂ side).action_field = .ok field₂ ∧
    (sel₁ side).action_dim = .ok dim ∧ (sel₂ side).action_dim = .ok dim ∧
    (dim = 0 ∨ field₁ = field₂) ∧ arm.dof ≤ dim ∧ dim ≤ arm.dof + 1

section TwoSelections

variable {arms : Arms} {sel₁ sel₂ : String → ControlCfg} {teleop_sides : List String}
  {cameras : List (String × CameraCfg)} {instruction : String} {state_signals : List String}
  {video : Bool} {fb₁ fb₂ : FrameBuilder}

/-- The number of action names is the action's width. -/
theorem length_action_names (layout : DFCStateActionLayout) :
    layout.action_names.length = layout.action_dim := by
  unfold DFCStateActionLayout.action_names DFCStateActionLayout.action_dim
  induction layout.action_parts with
  | nil => rfl
  | cons part rest ih =>
    rw [List.flatMap_cons, List.length_append, ih, List.map_cons, extent_cons, part_names_eq,
      List.length_append, List.length_map, List.length_range]
    rfl

/-- The action features agree when the names of every block do, and names tell how wide a block is.
-/
theorem action_feature_iff : fb₁.action_feature = fb₂.action_feature ↔
    fb₁.layout.action_parts.map DFCStateActionLayout.part_names =
      fb₂.layout.action_parts.map DFCStateActionLayout.part_names := by
  have hterminated : ∀ layout : DFCStateActionLayout,
      ∀ b ∈ layout.action_parts.map DFCStateActionLayout.part_names,
        Terminated GripperName b := by
    intro layout b hb
    obtain ⟨part, _, rfl⟩ := List.mem_map.1 hb
    exact terminated_part_names part
  constructor
  · intro h
    have hnames : fb₁.layout.action_names = fb₂.layout.action_names :=
      congrArg Feature.names h
    unfold DFCStateActionLayout.action_names at hnames
    rw [List.flatMap_def, List.flatMap_def] at hnames
    exact flatten_inj_of_terminated (hterminated _) (hterminated _) hnames
  · intro h
    have hnames : fb₁.layout.action_names = fb₂.layout.action_names := by
      unfold DFCStateActionLayout.action_names
      rw [List.flatMap_def, List.flatMap_def, h]
    unfold FrameBuilder.action_feature
    rw [← length_action_names, ← length_action_names, hnames]

variable (h₁ : FrameBuilder.init (arms.select sel₁) teleop_sides cameras instruction
    state_signals video = .ok fb₁)
  (h₂ : FrameBuilder.init (arms.select sel₂) teleop_sides cameras instruction
    state_signals video = .ok fb₂)

include h₁

/-- The recorded sides, and the action parts, of a builder over the rig. -/
theorem action_parts_of_init :
    (∀ side, side ∈ fb₁.layout.sides ↔ side ∈ teleop_sides) ∧
      (∀ side ∈ teleop_sides, ∃ arm, arms.get_arm side = .ok arm) ∧
      collect (action_part (arms.select sel₁)) ((sorted_sides arms).filter fun side =>
        teleop_sides.contains side) = .ok fb₁.layout.action_parts := by
  obtain ⟨layout, hlayout, rfl⟩ := init_ok h₁
  obtain ⟨hknown, -, hparts⟩ := from_arms_ok hlayout
  rw [sides_select] at hknown
  rw [sorted_sides_select] at hparts
  refine ⟨?_, fun side hside => get_arm_of_mem (hknown side hside), hparts⟩
  intro side
  show side ∈ layout.action_parts.map ActionPart.side ↔ _
  rw [action_parts_sides hparts, List.mem_filter, mem_sorted_sides, List.contains_eq_mem,
    decide_eq_true_iff]
  exact ⟨fun h => h.2, fun h => ⟨hknown side h, h⟩⟩

include h₂

/-- The features agree when the action's entries do: the rest is read off the rig. -/
theorem features_iff : fb₁.features = fb₂.features ↔
    fb₁.action_feature = fb₂.action_feature := by
  obtain ⟨layout₁, hlayout₁, hfb₁⟩ := init_ok h₁
  obtain ⟨layout₂, hlayout₂, hfb₂⟩ := init_ok h₂
  obtain ⟨-, hstate₁, hparts₁⟩ := from_arms_ok hlayout₁
  obtain ⟨-, hstate₂, hparts₂⟩ := from_arms_ok hlayout₂
  rw [sorted_sides_select] at hstate₁ hstate₂ hparts₁ hparts₂
  have hsides : fb₁.layout.sides = fb₂.layout.sides := by
    rw [hfb₁, hfb₂]
    exact (action_parts_sides hparts₁).trans (action_parts_sides hparts₂).symm
  have hstate : fb₁.state_feature = fb₂.state_feature := by
    have hparts : layout₁.state_parts = layout₂.state_parts := by
      simp only [funext (state_part_select arms _)] at hstate₁ hstate₂
      exact Except.ok.inj (hstate₁.symm.trans hstate₂)
    rw [hfb₁, hfb₂]
    unfold FrameBuilder.state_feature DFCStateActionLayout.state_dim
      DFCStateActionLayout.state_names
    rw [hparts]
  have hothers : other_features arms fb₁.layout.sides fb₁ =
      other_features arms fb₂.layout.sides fb₂ := by
    rw [hsides, hfb₁, hfb₂]
    rfl
  rw [features_eq fb₁ arms sel₁ (by rw [hfb₁]), features_eq fb₂ arms sel₂ (by rw [hfb₂]),
    hothers, hstate]
  obtain ⟨hteleop, harms, -⟩ := action_parts_of_init h₂
  obtain ⟨others, hok⟩ :=
    other_features_ok fb₂ fun side hside => harms side ((hteleop side).1 hside)
  rw [hok]
  constructor
  · intro h
    have hkeys := other_features_keys (by rw [hfb₂]) hok
    have hlookup := congrArg (List.lookup "action") (Except.ok.inj h)
    rw [lookup_foldl_set_feature hkeys, lookup_foldl_set_feature hkeys] at hlookup
    exact Option.some.inj hlookup
  · intro h
    rw [h]

omit h₂ in
/-- A recorded arm's part is as wide as its sample asks wherever the schemas agree. -/
theorem width_of_part (hschema : ∀ side ∈ teleop_sides, ∃ arm dim,
      arms.get_arm side = .ok arm ∧ (sel₁ side).action_dim = .ok dim ∧ arm.dof ≤ dim ∧
        dim ≤ arm.dof + 1) :
    ∀ part ∈ fb₁.layout.action_parts, ∀ arm, arms.get_arm part.side = .ok arm →
      arm.dof ≤ part.dim ∧ part.dim ≤ arm.dof + 1 := by
  intro part hpart arm harm
  obtain ⟨hteleop, -, hparts⟩ := action_parts_of_init h₁
  obtain ⟨side, -, hside⟩ := element_of_collect hparts part hpart
  obtain ⟨_, _, -, hdim, rfl⟩ := (action_part_select arms sel₁).1 hside
  obtain ⟨arm', dim, harm', hdim', hle, hge⟩ :=
    hschema part.side ((hteleop _).1 (List.mem_map_of_mem hpart))
  rw [hdim] at hdim'
  rw [Except.ok.inj hdim', Except.ok.inj (harm.symm.trans harm')]
  exact ⟨hle, hge⟩

/-- The features do not depend on the controllers, and both builders record every leader's
sample whole, exactly where the two selections have the same schema for every recorded arm. -/
theorem recording_independent_iff {F F32 : Type} [Zero F] (f32 : F → F32) :
    (fb₁.features = fb₂.features ∧ RecordsLeaders arms fb₁ f32 ∧ RecordsLeaders arms fb₂ f32) ↔
      ∀ side ∈ teleop_sides, SameSchema arms sel₁ sel₂ side := by
  obtain ⟨hteleop₁, harms, hparts₁⟩ := action_parts_of_init h₁
  obtain ⟨hteleop₂, -, hparts₂⟩ := action_parts_of_init h₂
  have hsides₁ : ∀ side ∈ fb₁.layout.sides, ∃ arm, arms.get_arm side = .ok arm :=
    fun side hside => harms side ((hteleop₁ side).1 hside)
  have hsides₂ : ∀ side ∈ fb₂.layout.sides, ∃ arm, arms.get_arm side = .ok arm :=
    fun side hside => harms side ((hteleop₂ side).1 hside)
  have hrecorded : ∀ side, side ∈ (sorted_sides arms).filter (fun side =>
      teleop_sides.contains side) ↔ side ∈ teleop_sides := by
    intro side
    rw [← hteleop₁ side, ← action_parts_sides hparts₁]
    rfl
  rw [features_iff h₁ h₂, action_feature_iff, map_collect_eq_iff hparts₁ hparts₂,
    records_iff hsides₁, records_iff hsides₂]
  constructor
  · -- equal names and widths tell the field and the width of each recorded side
    rintro ⟨hnames, hwidth₁, -⟩ side hside
    obtain ⟨p₁, hp₁, hpart₁⟩ := entry_of_collect hparts₁ side ((hrecorded side).2 hside)
    obtain ⟨p₂, -, hpart₂⟩ := entry_of_collect hparts₂ side ((hrecorded side).2 hside)
    obtain ⟨arm, harm, hfield₁, hdim₁, hside₁⟩ := (action_part_select arms sel₁).1 hpart₁
    obtain ⟨_, _, hfield₂, hdim₂, hside₂⟩ := (action_part_select arms sel₂).1 hpart₂
    have hblock := hnames side ((hrecorded side).2 hside) p₁ p₂ hpart₁ hpart₂
    obtain ⟨hdim, hfield⟩ := (part_names_inj (hside₁.trans hside₂.symm)).1 hblock
    rw [← hdim] at hdim₂
    have hwidth := hwidth₁ p₁ hp₁ arm (by
      rw [hside₁]
      exact harm)
    exact ⟨arm, _, _, _, harm, hfield₁, hfield₂, hdim₁, hdim₂, hfield, hwidth.1, hwidth.2⟩
  · -- side by side the parts have the same field and width, and so the same names
    intro hschema
    refine ⟨?_, width_of_part h₁ ?_, width_of_part h₂ ?_⟩
    · intro side hside p₁ p₂ hpart₁ hpart₂
      obtain ⟨arm, field₁, field₂, dim, -, hf₁, hf₂, hd₁, hd₂, hfield, -⟩ :=
        hschema side ((hrecorded side).1 hside)
      obtain ⟨_, _, hfield₁, hdim₁, hside₁⟩ := (action_part_select arms sel₁).1 hpart₁
      obtain ⟨_, _, hfield₂, hdim₂, hside₂⟩ := (action_part_select arms sel₂).1 hpart₂
      rw [hf₁] at hfield₁
      rw [hf₂] at hfield₂
      rw [hd₁] at hdim₁
      rw [hd₂] at hdim₂
      rw [part_names_inj (hside₁.trans hside₂.symm), ← Except.ok.inj hdim₁,
        ← Except.ok.inj hdim₂, ← Except.ok.inj hfield₁, ← Except.ok.inj hfield₂]
      exact ⟨rfl, hfield⟩
    · intro side hside
      obtain ⟨arm, _, _, dim, harm, -, -, hd₁, -, -, hle, hge⟩ := hschema side hside
      exact ⟨arm, dim, harm, hd₁, hle, hge⟩
    · intro side hside
      obtain ⟨arm, _, _, dim, harm, -, -, -, hd₂, -, hle, hge⟩ := hschema side hside
      exact ⟨arm, dim, harm, hd₂, hle, hge⟩

end TwoSelections

/-! ## The presets `qpos`, `qvel` and `eef_vel` on one arm -/

section Presets

/-- `control/qpos` -/
def qpos_preset : ControlCfg :=
  ⟨.qpos, [("q_d", 7), ("dq_d", 7), ("dq_max", 7), ("ddq_max", 7)], ["q_d", "dq_d"]⟩

/-- `control/qpos` with the targets alone on the channel. -/
def qpos_targets : ControlCfg := { qpos_preset with streamed := ["q_d"] }

/-- `control/eef_vel` -/
def eef_vel_preset : ControlCfg :=
  ⟨.eef_vel, [("pose_d", 7), ("twist_d", 6), ("wrench_d", 6)], ["twist_d"]⟩

/-- A rig of one arm. -/
def left_arm : Arms := ⟨[("left", ⟨7, [("q", 7)], qpos_preset⟩)], by decide⟩

/-- Its builder under a selection, given the action part. -/
def left_builder (control : ControlCfg) (field : String) (dim : ℕ) : FrameBuilder :=
  ⟨left_arm.select fun _ => control, "stack the cups", ["q"], true,
    ⟨["q"], ["left"], [(("left", "q"), 7)], [⟨"left", field, dim⟩], List.nodup_singleton _⟩, []⟩

/-- Two selections of kind `qpos` record the same features and whole samples. -/
theorem recording_independent_qpos :
    (left_builder qpos_preset "q_d" 7).features = (left_builder qpos_targets "q_d" 7).features ∧
      RecordsLeaders left_arm (left_builder qpos_preset "q_d" 7) (id : ℤ → ℤ) ∧
      RecordsLeaders left_arm (left_builder qpos_targets "q_d" 7) (id : ℤ → ℤ) := by
  have h₁ : FrameBuilder.init (left_arm.select fun _ => qpos_preset) ["left"] []
      "stack the cups" ["q"] true = .ok (left_builder qpos_preset "q_d" 7) := rfl
  have h₂ : FrameBuilder.init (left_arm.select fun _ => qpos_targets) ["left"] []
      "stack the cups" ["q"] true = .ok (left_builder qpos_targets "q_d" 7) := rfl
  refine (recording_independent_iff h₁ h₂ (id : ℤ → ℤ)).2 fun side hside => ?_
  rw [List.mem_singleton.1 hside]
  exact ⟨_, "q_d", "q_d", 7, rfl, rfl, rfl, rfl, rfl, .inr rfl, by decide, by decide⟩

/-- Under `eef_vel` the builder has other features than under `qpos`, and from the sample
`1, …, 7, 8` it records six of the seven joint targets. -/
theorem recording_follows_controller :
    FrameBuilder.init (left_arm.select fun _ => qpos_preset) ["left"] []
        "stack the cups" ["q"] true = .ok (left_builder qpos_preset "q_d" 7) ∧
      FrameBuilder.init (left_arm.select fun _ => eef_vel_preset) ["left"] []
        "stack the cups" ["q"] true = .ok (left_builder eef_vel_preset "twist_d" 6) ∧
      (left_builder qpos_preset "q_d" 7).features ≠
        (left_builder eef_vel_preset "twist_d" 6).features ∧
      recorded_action (left_builder eef_vel_preset "twist_d" 6) (id : ℤ → ℤ)
        (fun _ => some ⟨[1, 2, 3, 4, 5, 6, 7, 8], by decide⟩) = .ok [1, 2, 3, 4, 5, 6, 8] ∧
      ¬ RecordsLeaders left_arm (left_builder eef_vel_preset "twist_d" 6) (id : ℤ → ℤ) := by
  have h₁ : FrameBuilder.init (left_arm.select fun _ => qpos_preset) ["left"] []
      "stack the cups" ["q"] true = .ok (left_builder qpos_preset "q_d" 7) := rfl
  have h₂ : FrameBuilder.init (left_arm.select fun _ => eef_vel_preset) ["left"] []
      "stack the cups" ["q"] true = .ok (left_builder eef_vel_preset "twist_d" 6) := rfl
  refine ⟨h₁, h₂, ?_, rfl, ?_⟩
  · rw [Ne, features_iff h₁ h₂]
    intro h
    have hshape : [8] = [7] := congrArg Feature.shape h
    exact absurd hshape (by decide)
  · intro h
    have hsides : ∀ side ∈ (left_builder eef_vel_preset "twist_d" 6).layout.sides,
        ∃ arm, left_arm.get_arm side = .ok arm := by
      intro side hside
      rw [List.mem_singleton.1 hside]
      exact ⟨_, rfl⟩
    have hwidth := (records_iff hsides).1 h ⟨"left", "twist_d", 6⟩ List.mem_cons_self _ rfl
    exact absurd hwidth.1 (by decide)

end Presets

end Collection

end DualFlexivControl
