/-
Teach and repeat: `skill_from_episode` and the setpoints `SkillLoop` posts (`skills.py`).

Teaching reads the joint columns of a recorded episode by the stored names and keeps them as one
trajectory for each side; repeating posts, for each driven side, the frame of its own trajectory.
What the recording wrote at a side's `q` slice is therefore what that side is driven to.

The episode's arrays are an argument: the dataset that stores them is not part of this code.
-/
import DualFlexivControl.Layout.Decode

set_option autoImplicit false

namespace DualFlexivControl.Skills

open Results Tiling Control DFCStateActionLayout

/-- What teaching a skill raises. -/
inductive SkillError
  | index_error (index width : ℕ)
  | no_q_columns (episode_index : ℕ) (repo_id : String)
  | invalid_name (name : String)
  | no_trajectory
  | fps_not_positive
  | bad_shape (name side : String) (frames dof : ℕ)
  deriving DecidableEq, Repr

/-- An array with two axes. -/
structure Array2 (F : Type) where
  rows : List (List F)
  width : ℕ
  rect : ∀ row ∈ rows, row.length = width

section Array2

variable {F : Type}

/-- The entries of a row at some indices. -/
def pick (row : List F) (idx : List ℕ) : List F := idx.filterMap fun i => row[i]?

theorem length_pick {row : List F} (idx : List ℕ) (h : ∀ i ∈ idx, i < row.length) :
    (pick row idx).length = idx.length := by
  induction idx with
  | nil => rfl
  | cons i rest ih =>
    have hi := List.getElem?_eq_getElem (h i List.mem_cons_self)
    unfold pick at ih ⊢
    rw [List.filterMap_cons_some hi, List.length_cons, List.length_cons,
      ih fun i' hi' => h i' (List.mem_cons_of_mem _ hi')]

/-- `arr[:, idx]` -/
def Array2.columns (arr : Array2 F) (idx : List ℕ) : Except SkillError (Array2 F) :=
  if h : ∀ i ∈ idx, i < arr.width then
    .ok ⟨arr.rows.map fun row => pick row idx, idx.length, by
      intro row hrow
      obtain ⟨row', hrow', rfl⟩ := List.mem_map.1 hrow
      exact length_pick idx fun i hi => by rw [arr.rect row' hrow']; exact h i hi⟩
  else .error (.index_error ((idx.find? fun i => decide (arr.width ≤ i)).getD 0) arr.width)

/-- `arr[:, i]` -/
def Array2.column (arr : Array2 F) (i : ℕ) : List F := arr.rows.filterMap fun row => row[i]?

end Array2

/-! ## The skill -/

/-- Where a skill came from. -/
structure Source where
  repo_id : String
  episode_index : ℕ
  task : String
  deriving DecidableEq, Repr

/-- One taught trajectory. Where it came from is a record when it has just been taught, and any
JSON object when it was read from a file. -/
structure Skill (F : Type) (S : Type := Source) where
  name : String
  fps : F
  q : List (String × Array2 F)
  gripper : List (String × List F)
  source : S
  created : String

/-- `Skill.frames` -/
def Skill.frames {F S : Type} (skill : Skill F S) : ℕ :=
  ((skill.q.map fun e => e.2.rows.length).min?).getD 0

/-- What `_read_episode_arrays` returns: one episode's stored names and arrays. -/
structure EpisodeArrays (F : Type) where
  state_names : List String
  action_names : List String
  states : Array2 F
  actions : Array2 F
  fps : F
  tasks : List String

def is_alnum (c : Char) : Bool :=
  ('A' ≤ c && c ≤ 'Z') || ('a' ≤ c && c ≤ 'z') || ('0' ≤ c && c ≤ '9')

def is_name_char (c : Char) : Bool := is_alnum c || c = '.' || c = '_' || c = '-'

/-- `_NAME_RE.match(name)`, for `^[A-Za-z0-9][A-Za-z0-9._-]*$`: a `$` also matches before a line
feed that ends the text. -/
def name_matches (name : String) : Bool :=
  match name.toList with
  | [] => false
  | c :: rest =>
    is_alnum c && (rest.all is_name_char ||
      (rest.getLast? = some '\n' && rest.dropLast.all is_name_char))

section Skill

variable {F : Type} [Zero F] [LE F] [DecidableLE F]

/-- One side's trajectory is `(frames, dof)`. -/
def check_side (name : String) (e : String × Array2 F) : Except SkillError Unit :=
  if e.2.rows.length < 1 ∨ e.2.width < 1 then
    .error (.bad_shape name e.1 e.2.rows.length e.2.width)
  else .ok ()

/-- `Skill.validate` -/
def Skill.validate {S : Type} (skill : Skill F S) : Except SkillError Unit :=
  if ¬ name_matches skill.name = true then .error (.invalid_name skill.name)
  else if skill.q.isEmpty = true then .error .no_trajectory
  else if skill.fps ≤ 0 then .error .fps_not_positive
  else do
    let _ ← collect (check_side skill.name) skill.q
    pure ()

/-- The joint trajectory of each side that has `q` columns. -/
def joint_columns (ep : EpisodeArrays F) (e : String × List ℕ) :
    Except SkillError (String × Array2 F) := do
  let traj ← ep.states.columns e.2
  pure (e.1, traj)

/-- The gripper columns of the sides that have a joint trajectory. -/
def gripper_columns (ep : EpisodeArrays F) (q : List (String × Array2 F)) :
    List (String × List F) :=
  ((gripper_index_of ep.action_names).filter fun e =>
    (q.lookup e.1).isSome && decide (e.2 < ep.actions.width)).map fun e =>
      (e.1, ep.actions.column e.2)

/-- `skill_from_episode`, with the date it is called at. -/
def skill_from_episode (ep : EpisodeArrays F) (repo_id : String) (episode_index : ℕ)
    (name now : String) : Except SkillError (Skill F) :=
  if (state_q_index ep.state_names).isEmpty = true then
    .error (.no_q_columns episode_index repo_id)
  else do
    let q ← collect (joint_columns ep) (state_q_index ep.state_names)
    let skill : Skill F :=
      ⟨name, ep.fps, q, gripper_columns ep q, ⟨repo_id, episode_index, ep.tasks.headD ""⟩, now⟩
    let _ ← skill.validate
    pure skill

end Skill

/-! ## Repeating it -/

/-- An arm, as far as a skill reads it. -/
structure SkillArm where
  control_enabled : Bool
  control : ControlCfg
  deriving DecidableEq, Repr

section Repeat

variable {F : Type} [Zero F]

/-- `SkillNode.drive_sides` -/
def drive_sides (skill : Skill F) (arms : List (String × SkillArm)) : List String :=
  (skill.q.map Prod.fst).filter fun side =>
    match arms.lookup side with
    | some arm => arm.control_enabled && decide (arm.control.kind = .qpos)
    | none => false

/-- The arms that `SkillLoop` is built with: those of the driven sides. -/
def control_arms (skill : Skill F) (arms : List (String × SkillArm)) :
    List (String × ControlCfg) :=
  (drive_sides skill arms).filterMap fun side =>
    (arms.lookup side).map fun arm => (side, arm.control)

/-- What one side is commanded at a frame. -/
def frame_setpoint (skill : Skill F) (index : ℕ) (side : String) (control : ControlCfg) :
    Option (List F) :=
  match skill.q.lookup side with
  | none => none
  | some traj =>
    match traj.rows[min index (traj.rows.length - 1)]? with
    | none => none
    | some q_d =>
      match control.pack_action q_d fun _ => none with
      | .error _ => none
      | .ok setpoint => some setpoint

/-- `SkillLoop._post`: the commands sent before a side raises. -/
def post (skill : Skill F) (index : ℕ) : List (String × ControlCfg) → List (String × List F)
  | [] => []
  | (side, control) :: rest =>
    match frame_setpoint skill index side control with
    | none => []
    | some setpoint => (side, setpoint) :: post skill index rest

end Repeat

/-! ## What a skill holds -/

section Taught

variable {F : Type}

/-- The entries of a range of indices are a slice of the row, as long as the row reaches that far.
-/
theorem pick_range (row : List F) (n : ℕ) :
    ∀ a, a + n ≤ row.length → pick row (List.range' a n) = (row.drop a).take n := by
  induction n with
  | zero =>
    intro a _
    rw [List.take_zero]
    rfl
  | succ n ih =>
    intro a ha
    have hlt : a < row.length := by omega
    have hentry := List.getElem?_eq_getElem hlt
    have hrest := ih (a + 1) (by omega)
    unfold pick at hrest ⊢
    rw [List.range'_succ, List.filterMap_cons_some hentry, hrest, List.drop_eq_getElem_cons hlt,
      List.take_succ_cons]

theorem columns_ok {arr traj : Array2 F} {idx : List ℕ} :
    arr.columns idx = .ok traj ↔ (∀ i ∈ idx, i < arr.width) ∧ traj.width = idx.length ∧
      traj.rows = arr.rows.map fun row => pick row idx := by
  unfold Array2.columns
  by_cases h : ∀ i ∈ idx, i < arr.width
  · rw [dif_pos h]
    constructor
    · intro htraj
      rw [← Except.ok.inj htraj]
      exact ⟨h, rfl, rfl⟩
    · rintro ⟨_, hwidth, hrows⟩
      obtain ⟨rows, width, rect⟩ := traj
      dsimp only at hwidth hrows
      subst hwidth hrows
      rfl
  · rw [dif_neg h]
    simp [h]

/-- The columns of a range are the slice of every row, in a trajectory as wide as the range. -/
theorem columns_range_ok {arr traj : Array2 F} {a b : ℕ} (hab : a < b) (hb : b ≤ arr.width) :
    arr.columns (List.range' a (b - a)) = .ok traj ↔ traj.width = b - a ∧
      traj.rows = arr.rows.map fun row => (row.drop a).take (b - a) := by
  rw [columns_ok, List.length_range']
  have hin : ∀ i ∈ List.range' a (b - a), i < arr.width := by
    intro i hi
    rw [List.mem_range'_1] at hi
    omega
  have hrows : (arr.rows.map fun row => pick row (List.range' a (b - a))) =
      arr.rows.map fun row => (row.drop a).take (b - a) := by
    refine List.map_congr_left ?_
    intro row hrow
    refine pick_range row (b - a) a ?_
    rw [arr.rect row hrow]
    omega
  rw [hrows]
  exact ⟨fun h => h.2, fun h => ⟨hin, h⟩⟩

theorem exists_columns_range (arr : Array2 F) {a b : ℕ} (hab : a < b) (hb : b ≤ arr.width) :
    ∃ traj : Array2 F, traj.width = b - a ∧
      traj.rows = arr.rows.map fun row => (row.drop a).take (b - a) := by
  have hin : ∀ i ∈ List.range' a (b - a), i < arr.width := by
    intro i hi
    rw [List.mem_range'_1] at hi
    omega
  have hcolumns : ∃ traj, arr.columns (List.range' a (b - a)) = .ok traj := by
    unfold Array2.columns
    rw [dif_pos hin]
    exact ⟨_, rfl⟩
  obtain ⟨traj, htraj⟩ := hcolumns
  exact ⟨traj, (columns_range_ok hab hb).1 htraj⟩

/-- A side's trajectory is made of its own columns, those that the names file under the side. -/
theorem lookup_joint_columns {ep : EpisodeArrays F} {side : String} {traj : Array2 F}
    {d : List (String × List ℕ)} :
    ∀ {q : List (String × Array2 F)}, collect (joint_columns ep) d = .ok q →
      (q.lookup side = some traj ↔
        ∃ idx, d.lookup side = some idx ∧ ep.states.columns idx = .ok traj) := by
  induction d with
  | nil =>
    intro q h
    rw [← Except.ok.inj h]
    simp
  | cons e rest ih =>
    intro q h
    obtain ⟨b, bs, hb, hbs, rfl⟩ := collect_cons.1 h
    obtain ⟨traj', htraj', hpure⟩ := bind_ok.1 hb
    obtain ⟨key, idx⟩ := e
    rw [← pure_ok.1 hpure, Gather.lookup_cons_if, Gather.lookup_cons_if]
    by_cases hk : side = key
    · rw [if_pos hk, if_pos hk]
      constructor
      · intro htraj
        rw [← Option.some.inj htraj]
        exact ⟨idx, rfl, htraj'⟩
      · rintro ⟨idx', hidx, htraj⟩
        rw [← Option.some.inj hidx, htraj'] at htraj
        rw [Except.ok.inj htraj]
    · rw [if_neg hk, if_neg hk]
      exact ih hbs

variable [Zero F] [LE F] [DecidableLE F]

/-- A taught skill's trajectories and gripper columns are read off the episode's names. -/
theorem taught_ok {ep : EpisodeArrays F} {repo_id name now : String} {episode_index : ℕ}
    {skill : Skill F} (h : skill_from_episode ep repo_id episode_index name now = .ok skill) :
    collect (joint_columns ep) (state_q_index ep.state_names) = .ok skill.q ∧
      skill.gripper = gripper_columns ep skill.q ∧ skill.fps = ep.fps ∧ skill.name = name := by
  unfold skill_from_episode at h
  rw [guard_ok] at h
  obtain ⟨q, hq, hrest⟩ := bind_ok.1 h.2
  obtain ⟨_, _, hpure⟩ := bind_ok.1 hrest
  rw [← pure_ok.1 hpure]
  exact ⟨hq, rfl, rfl, rfl⟩

end Taught

/-! ## Skills of recorded episodes -/

/-- An episode recorded with a layout: its names are the layout's, and its states were packed from
the frames that were measured. -/
structure Recorded {F F32 : Type} [Zero F] (layout : DFCStateActionLayout) (f32 : F → F32)
    (f64 : F32 → F) (frames : List (String × String → Option (List F)))
    (ep : EpisodeArrays F) : Prop where
  state_names : ep.state_names = layout.state_names
  action_names : ep.action_names = layout.action_names
  state_width : ep.states.width = layout.state_dim
  action_width : ep.actions.width = layout.action_dim
  states : List.Forall₂ (fun frame row => ∃ state, layout.pack_state f32 frame = .ok state ∧
    row = state.map f64) frames ep.states.rows

section Post

variable {F : Type} [Zero F] {skill : Skill F}

/-- What a skill posts for a side comes from that side's trajectory. -/
theorem mem_post {index : ℕ} {side : String} {setpoint : List F}
    {controls : List (String × ControlCfg)} (hpost : (side, setpoint) ∈ post skill index controls) :
    ∃ control, (side, control) ∈ controls ∧
      frame_setpoint skill index side control = some setpoint := by
  induction controls with
  | nil => exact absurd hpost List.not_mem_nil
  | cons e rest ih =>
    obtain ⟨side', control⟩ := e
    unfold post at hpost
    cases hframe : frame_setpoint skill index side' control with
    | none =>
      rw [hframe] at hpost
      exact absurd hpost List.not_mem_nil
    | some setpoint' =>
      rw [hframe] at hpost
      rcases List.mem_cons.1 hpost with heq | hrest
      · obtain ⟨rfl, rfl⟩ := Prod.mk.inj heq
        exact ⟨control, List.mem_cons_self, hframe⟩
      · obtain ⟨control', hmem, hsome⟩ := ih hrest
        exact ⟨control', List.mem_cons_of_mem _ hmem, hsome⟩

theorem frame_setpoint_eq_some {index : ℕ} {side : String} {control : ControlCfg}
    {setpoint : List F} (hframe : frame_setpoint skill index side control = some setpoint) :
    ∃ traj q_d, skill.q.lookup side = some traj ∧
      traj.rows[min index (traj.rows.length - 1)]? = some q_d ∧
      control.pack_action q_d (fun _ => none) = .ok setpoint := by
  unfold frame_setpoint at hframe
  cases hq : skill.q.lookup side with
  | none =>
    rw [hq] at hframe
    exact absurd hframe (by simp)
  | some traj =>
    rw [hq] at hframe
    dsimp only at hframe
    cases hrow : traj.rows[min index (traj.rows.length - 1)]? with
    | none =>
      rw [hrow] at hframe
      exact absurd hframe (by simp)
    | some q_d =>
      rw [hrow] at hframe
      dsimp only at hframe
      cases hpack : control.pack_action q_d fun _ => none with
      | error e =>
        rw [hpack] at hframe
        exact absurd hframe (by simp)
      | ok sp =>
        rw [hpack] at hframe
        rw [← Option.some.inj hframe]
        exact ⟨traj, q_d, rfl, hrow, hpack⟩

omit [Zero F] in
/-- A driven side's control is that of an enabled joint-space arm of the rig, so its setpoints are
joint positions. -/
theorem mem_control_arms {side : String} {control : ControlCfg}
    {rig : List (String × SkillArm)} (hmem : (side, control) ∈ control_arms skill rig) :
    ∃ arm, rig.lookup side = some arm ∧ arm.control_enabled = true ∧ arm.control.kind = .qpos ∧
      control = arm.control := by
  obtain ⟨side', hside, hsome⟩ := List.mem_filterMap.1 hmem
  obtain ⟨arm, harm, heq⟩ := Option.map_eq_some_iff.1 hsome
  obtain ⟨rfl, rfl⟩ := Prod.mk.inj heq
  have hdriven := (List.mem_filter.1 hside).2
  rw [harm] at hdriven
  simp only [Bool.and_eq_true, decide_eq_true_eq] at hdriven
  exact ⟨arm, harm, hdriven.1, hdriven.2, rfl⟩

end Post

section Recorded

variable {arms : Arms} {state_signals action_sides : List String} {layout : DFCStateActionLayout}
  {F F32 : Type} [Zero F] {f32 : F → F32} {f64 : F32 → F}
  {frames : List (String × String → Option (List F))} {ep : EpisodeArrays F}

/-- A slice of the recorded states is what was measured for its key. -/
theorem recorded_slice {key : String × String} {r : ℕ × ℕ}
    (hr : layout.state_slice key = some r)
    {rows : List (List F)} (hrows : List.Forall₂ (fun frame row => ∃ state,
      layout.pack_state f32 frame = .ok state ∧ row = state.map f64) frames rows) :
    List.Forall₂ (fun frame row => ∃ value, frame key = some value ∧
      row = value.map fun x => f64 (f32 x)) frames
      (rows.map fun row => (row.drop r.1).take (r.2 - r.1)) := by
  rw [List.forall₂_map_right_iff]
  refine hrows.imp ?_
  rintro frame row ⟨state, hstate, rfl⟩
  obtain ⟨value, hvalue, hslice⟩ := (pack_state_spec hstate).2 key r hr
  refine ⟨value, hvalue, ?_⟩
  rw [← List.map_drop, ← List.map_take, hslice, List.map_map]
  rfl

variable [LE F] [DecidableLE F] {repo_id name now : String} {episode_index : ℕ} {skill : Skill F}

/-- A taught side has a non-empty `q` slice, and its trajectory is that slice of the states. -/
theorem taught_trajectory (hdistinct : state_signals.Nodup)
    (h : from_arms arms state_signals action_sides = .ok layout)
    (hdot : ∀ side ∈ arms.sides, Dotless side) (hsignals : ∀ signal ∈ state_signals, Dotless signal)
    (hrecorded : Recorded layout f32 f64 frames ep)
    (htaught : skill_from_episode ep repo_id episode_index name now = .ok skill)
    {side : String} {traj : Array2 F} : skill.q.lookup side = some traj ↔
      ∃ r, layout.state_slice (side, "q") = some r ∧ r.1 < r.2 ∧ traj.width = r.2 - r.1 ∧
        traj.rows = ep.states.rows.map fun row => (row.drop r.1).take (r.2 - r.1) := by
  obtain ⟨hq, -, -, -⟩ := taught_ok htaught
  have hcanonical := from_arms_canonical hdistinct h
  rw [hrecorded.state_names] at hq
  rw [lookup_joint_columns hq]
  constructor
  · rintro ⟨idx, hidx, htraj⟩
    obtain ⟨r, hr, hlt, rfl⟩ := (state_q_index_of_names hdistinct h hdot hsignals).1 hidx
    have hbounds := hcanonical.state_blocks.bounds _ r hr
    rw [columns_range_ok hlt (by rw [hrecorded.state_width]; exact hbounds.2)] at htraj
    exact ⟨r, hr, hlt, htraj⟩
  · rintro ⟨r, hr, hlt, htraj⟩
    have hbounds := hcanonical.state_blocks.bounds _ r hr
    refine ⟨_, (state_q_index_of_names hdistinct h hdot hsignals).2 ⟨r, hr, hlt, rfl⟩, ?_⟩
    rw [columns_range_ok hlt (by rw [hrecorded.state_width]; exact hbounds.2)]
    exact htraj

/-- A taught side's gripper column is its own: the column that the names give to the side's gripper,
frame by frame. -/
theorem taught_gripper (h : from_arms arms state_signals action_sides = .ok layout)
    (hdot : ∀ side ∈ arms.sides, Dotless side) (hrecorded : Recorded layout f32 f64 frames ep)
    (htaught : skill_from_episode ep repo_id episode_index name now = .ok skill)
    {side : String} {col : List F} : skill.gripper.lookup side = some col ↔
      (∃ traj, skill.q.lookup side = some traj) ∧
        ∃ k, layout.gripper_index side = some k ∧ col = ep.actions.column k := by
  obtain ⟨-, hgripper, -, -⟩ := taught_ok htaught
  have hnodup : ((gripper_index_of layout.action_names).map Prod.fst).Nodup :=
    Gather.nodup_gather _
  rw [hgripper, gripper_columns, Gather.lookup_map, hrecorded.action_names,
    Gather.lookup_filter hnodup, gripper_index_of_names h hdot, ← Option.isSome_iff_exists]
  cases hg : layout.gripper_index side with
  | none => simp
  | some k =>
    have hrange : layout.action_range (.gripper side) = some (k, k + 1) := by
      show (layout.gripper_index side).map (fun k => (k, k + 1)) = _
      rw [hg]
      rfl
    have hk : k < ep.actions.width := by
      rw [hrecorded.action_width]
      exact (action_partition.bounds _ _ hrange).2
    rw [Option.filter_some, decide_eq_true hk, Bool.and_true]
    by_cases hq : (skill.q.lookup side).isSome = true
    · rw [if_pos hq, Option.map_some, Option.some.injEq]
      constructor
      · rintro rfl
        exact ⟨hq, k, rfl, rfl⟩
      · rintro ⟨_, k', hk', rfl⟩
        rw [Option.some.inj hk']
    · rw [if_neg hq]
      constructor
      · intro habs
        exact absurd habs (by simp)
      · rintro ⟨hsome, _⟩
        exact absurd hsome hq

end Recorded

section Names

variable {arms : Arms} {state_signals action_sides : List String} {layout : DFCStateActionLayout}

/-- The readers of column names give back the layout that the names come from, and a skill taught
by them drives each side with what was measured for its own joints. -/
theorem names_decode_to_their_layout (hdistinct : state_signals.Nodup)
    (h : from_arms arms state_signals action_sides = .ok layout)
    (hdot : ∀ side ∈ arms.sides, Dotless side)
    (hsignals : ∀ signal ∈ state_signals, Dotless signal) :
    (∀ side idx, (state_q_index layout.state_names).lookup side = some idx ↔
      ∃ r, layout.state_slice (side, "q") = some r ∧ r.1 < r.2 ∧
        idx = List.range' r.1 (r.2 - r.1)) ∧
    (∀ side, (gripper_index_of layout.action_names).lookup side = layout.gripper_index side) ∧
    (∀ side ∈ action_sides, ∃ r k field, layout.primary_slice side = some r ∧
      layout.gripper_index side = some k ∧ layout.field side = some field ∧
      (action_layout layout.action_names).lookup side =
        some ⟨if r.1 < r.2 then some field else none, List.range' r.1 (r.2 - r.1), some k⟩) ∧
    (∀ side, side ∉ action_sides → (action_layout layout.action_names).lookup side = none) ∧
    ∀ {F F32 : Type} [Zero F] [LE F] [DecidableLE F] (f32 : F → F32) (f64 : F32 → F)
      (frames : List (String × String → Option (List F))) (ep : EpisodeArrays F)
      (repo_id name now : String) (episode_index : ℕ) (skill : Skill F),
      Recorded layout f32 f64 frames ep →
      skill_from_episode ep repo_id episode_index name now = .ok skill →
      (∀ side, (∃ traj, skill.q.lookup side = some traj) ↔
        ∃ r, layout.state_slice (side, "q") = some r ∧ r.1 < r.2) ∧
      (∀ side traj, skill.q.lookup side = some traj →
        List.Forall₂ (fun frame row => ∃ value, frame (side, "q") = some value ∧
          row = value.map fun x => f64 (f32 x)) frames traj.rows) ∧
      (∀ side col, skill.gripper.lookup side = some col ↔
        (∃ traj, skill.q.lookup side = some traj) ∧
          ∃ k, layout.gripper_index side = some k ∧ col = ep.actions.column k) ∧
      ∀ (rig : List (String × SkillArm)) (index : ℕ) side setpoint,
        (side, setpoint) ∈ post skill index (control_arms skill rig) →
        ∃ arm frame value, rig.lookup side = some arm ∧ arm.control.kind = .qpos ∧
          frames[min index (frames.length - 1)]? = some frame ∧
          frame (side, "q") = some value ∧
          arm.control.pack_action (value.map fun x => f64 (f32 x)) (fun _ => none) =
            .ok setpoint := by
  have hcanonical := from_arms_canonical hdistinct h
  refine ⟨fun side idx => state_q_index_of_names hdistinct h hdot hsignals,
    gripper_index_of_names h hdot, ?_, ?_, ?_⟩
  · intro side hside
    rw [← hcanonical.action_keys, ← exists_action_block] at hside
    obtain ⟨b, hb, rfl⟩ := hside
    -- the block of the side says what its columns are called
    have hfield : layout.field b.label.side = some b.label.field := by
      unfold field
      rw [part_of_action_block hb]
      rfl
    refine ⟨_, _, _, primary_slice_eq_some.2 ⟨b, hb, rfl, rfl⟩,
      gripper_index_eq_some.2 ⟨b, hb, rfl, rfl⟩, hfield, ?_⟩
    rw [action_layout_of_block h hdot hb, Nat.add_sub_cancel_left]
    congr 2
    by_cases hdim : b.label.dim = 0
    · rw [if_pos hdim, if_neg (by omega)]
    · rw [if_neg hdim, if_pos (by omega)]
  · intro side hside
    rw [← hcanonical.action_keys] at hside
    exact action_layout_of_other h hdot hside
  · intro F F32 _ _ _ f32 f64 frames ep repo_id name now episode_index skill hrecorded htaught
    -- the rows of a trajectory are the state's columns, which were recorded from the frames
    have hmeasured : ∀ side traj, skill.q.lookup side = some traj →
        List.Forall₂ (fun frame row => ∃ value, frame (side, "q") = some value ∧
          row = value.map fun x => f64 (f32 x)) frames traj.rows := by
      intro side traj htraj
      obtain ⟨r, hr, _, _, hrows⟩ :=
        (taught_trajectory hdistinct h hdot hsignals hrecorded htaught).1 htraj
      rw [hrows]
      exact recorded_slice hr hrecorded.states
    refine ⟨?_, hmeasured, fun side col => taught_gripper h hdot hrecorded htaught, ?_⟩
    · intro side
      constructor
      · rintro ⟨traj, htraj⟩
        obtain ⟨r, hr, hlt, _⟩ :=
          (taught_trajectory hdistinct h hdot hsignals hrecorded htaught).1 htraj
        exact ⟨r, hr, hlt⟩
      · rintro ⟨r, hr, hlt⟩
        have hbounds := hcanonical.state_blocks.bounds _ r hr
        rw [← hrecorded.state_width] at hbounds
        obtain ⟨traj, htraj⟩ := exists_columns_range ep.states hlt hbounds.2
        exact ⟨traj, (taught_trajectory hdistinct h hdot hsignals hrecorded htaught).2
          ⟨r, hr, hlt, htraj⟩⟩
    · intro rig index side setpoint hpost
      -- a posted setpoint was packed from the row of its own arm
      obtain ⟨control, hmem, hframe⟩ := mem_post hpost
      obtain ⟨arm, harm, _, hkind, rfl⟩ := mem_control_arms hmem
      obtain ⟨traj, q_d, htraj, hrow, hpack⟩ := frame_setpoint_eq_some hframe
      have hrows := hmeasured side traj htraj
      rw [← hrows.length_eq] at hrow
      obtain ⟨frame, hframe_at, value, hvalue, rfl⟩ := entry_of_forall₂ hrows hrow
      exact ⟨arm, frame, value, harm, hkind, hframe_at, hvalue, hpack⟩

end Names

/-! ## One arm -/

/-- A joint-space arm whose primary field has the given width. -/
def solo_arm (width : ℕ) : Arms where
  entries := [("left", ⟨7, [("q", 7)], ⟨.qpos, [("q_d", width)], ["q_d"]⟩⟩)]
  nodup := List.nodup_singleton _

def solo_layout (width : ℕ) : DFCStateActionLayout where
  state_signals := ["q"]
  state_sides := ["left"]
  state_parts := [(("left", "q"), 7)]
  action_parts := [⟨"left", "q_d", width⟩]
  nodup := List.nodup_singleton _

theorem from_solo_arm (width : ℕ) :
    from_arms (solo_arm width) ["q"] ["left"] = .ok (solo_layout width) := by
  refine from_arms_iff.2 ⟨?_, rfl, rfl, rfl, rfl⟩
  intro side hside
  exact hside

/-- The one side of the example has a name without a dot. -/
theorem dotless_solo_arm (width : ℕ) : ∀ side ∈ (solo_arm width).sides, Dotless side := by
  intro side hside
  have hleft : side = "left" := List.mem_singleton.1 hside
  rw [hleft]
  decide

/-- The general theorem at a rig of one arm with seven joints and a gripper. -/
theorem names_decode_solo_arm :
    (state_q_index (solo_layout 7).state_names).lookup "left" = some (List.range' 0 7) ∧
    (gripper_index_of (solo_layout 7).action_names).lookup "left" = some 7 := by
  have h := names_decode_to_their_layout (List.nodup_singleton "q") (from_solo_arm 7)
    (dotless_solo_arm 7) (by decide)
  refine ⟨(h.1 "left" _).2 ⟨(0, 7), rfl, by decide, rfl⟩, ?_⟩
  rw [h.2.1 "left"]
  rfl

/-- A primary slice without entries has no names, so its field is not read back. -/
theorem empty_slice_has_no_field : ¬ ∀ (arms : Arms) (state_signals action_sides : List String)
    (layout : DFCStateActionLayout), state_signals.Nodup →
    from_arms arms state_signals action_sides = .ok layout →
    (∀ side ∈ arms.sides, Dotless side) → (∀ signal ∈ state_signals, Dotless signal) →
    ∀ side ∈ action_sides, ∃ r k field, layout.primary_slice side = some r ∧
      layout.gripper_index side = some k ∧ layout.field side = some field ∧
      (action_layout layout.action_names).lookup side =
        some ⟨some field, List.range' r.1 (r.2 - r.1), some k⟩ := by
  intro h
  obtain ⟨r, k, field, _, _, _, hfound⟩ := h (solo_arm 0) ["q"] ["left"] (solo_layout 0)
    (List.nodup_singleton "q") (from_solo_arm 0) (dotless_solo_arm 0) (by decide) "left"
    (List.mem_singleton_self _)
  have hblock : (⟨⟨"left", "q_d", 0⟩, 0, 1⟩ : Block ActionPart) ∈ (solo_layout 0).action_blocks :=
    List.mem_singleton_self _
  have hread := action_layout_of_block (from_solo_arm 0) (dotless_solo_arm 0) hblock
  rw [hfound] at hread
  exact absurd hread (by simp)

end DualFlexivControl.Skills
