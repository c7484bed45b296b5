/-
The leader's convention: `control/convention.py`, and `_validate_convention` of
`interfaces/factr/interface.py`, which decides what conventions a leader may have.

A leader's joint goes through four steps: degrees, an offset, a change of sign for some joints,
and a wrap to `[-180, 180)`. The code is written over vectors, with slices that forgive, lengths
that broadcast and indices that may be negative; for a convention that has passed its check and a
sample of the server's width none of this happens, and every joint is converted by itself
([`convert_factr_to_rizon_eq`]). What a joint's conversion forgets is then just full turns
([`joint_eq_iff`]).

The check returns the convention with every entry converted to its own type, which is itself here.
-/
import DualFlexivControl.Lib.Maths

set_option autoImplicit false

namespace DualFlexivControl.Convention

/-- `JointConventionCfg` -/
structure JointConventionCfg (F : Type) where
  offsets_deg : List F
  sign_flip_joints : List ℤ
  drop_trailing : ℤ
  gripper_open : Option F
  gripper_closed : Option F

/-- What numpy raises. -/
inductive ConventionError
  | broadcast
  | index
  deriving DecidableEq, Repr

/-! ## The check -/

section Validate

variable {F : Type} [Scalar F]

/-- `a == b` of two floats -/
def equal (a b : F) : Bool := Scalar.le a b && Scalar.le b a

/-- `FactrInterface._validate_convention`, which raises with a text. -/
def validate_convention (isfinite : F → Bool) (side : String) (dof : ℤ)
    (conv : JointConventionCfg F) : Except String (JointConventionCfg F) :=
  let drop := conv.drop_trailing
  let arm_dof := dof - drop
  let offsets := conv.offsets_deg
  let flips := conv.sign_flip_joints
  if drop < 1 ∨ arm_dof ≤ 0 ∨ (offsets.length : ℤ) ≠ arm_dof then
    .error (s!"FACTR {side} invalid leader convention: dof={dof}, drop={drop}, " ++
      s!"offset count={offsets.length}")
  else if flips.toFinset.card ≠ flips.length ∨ flips.any (fun i => i < 0 || arm_dof ≤ i) then
    .error s!"FACTR {side} invalid sign-flip indices: {flips}"
  else match conv.gripper_open, conv.gripper_closed with
  | some opened, some closed =>
    if !(offsets ++ [opened, closed]).all isfinite || equal opened closed then
      .error s!"FACTR {side} leader calibration contains invalid values"
    else .ok conv
  | _, _ => .error s!"FACTR {side} leader gripper calibration is missing"

/-- What a convention has passed, for a server of `dof` values. -/
structure Accepted (isfinite : F → Bool) (dof : ℤ) (conv : JointConventionCfg F) : Prop where
  drop : 1 ≤ conv.drop_trailing
  arm : 0 < dof - conv.drop_trailing
  count : (conv.offsets_deg.length : ℤ) = dof - conv.drop_trailing
  nodup : conv.sign_flip_joints.Nodup
  range : ∀ j ∈ conv.sign_flip_joints, 0 ≤ j ∧ j < dof - conv.drop_trailing
  endpoints : ∃ opened closed, conv.gripper_open = some opened ∧
    conv.gripper_closed = some closed ∧
    (conv.offsets_deg ++ [opened, closed]).all isfinite = true ∧ equal opened closed = false

theorem validate_convention_iff {isfinite : F → Bool} {side : String} {dof : ℤ}
    {conv conv' : JointConventionCfg F} :
    validate_convention isfinite side dof conv = .ok conv' ↔
      conv' = conv ∧ Accepted isfinite dof conv := by
  unfold validate_convention
  -- the counts are checked first, then the flips, then the gripper's endpoints
  by_cases hshape : conv.drop_trailing < 1 ∨ dof - conv.drop_trailing ≤ 0 ∨
      (conv.offsets_deg.length : ℤ) ≠ dof - conv.drop_trailing
  · rw [if_pos hshape]
    constructor
    · intro h
      cases h
    · rintro ⟨rfl, h⟩
      have hdrop := h.drop
      have harm := h.arm
      have hcount := h.count
      omega
  rw [if_neg hshape]
  -- a flip is refused when it is doubled or outside the arm
  by_cases hflips : conv.sign_flip_joints.toFinset.card ≠ conv.sign_flip_joints.length ∨
      conv.sign_flip_joints.any (fun i => i < 0 || dof - conv.drop_trailing ≤ i)
  · rw [if_pos hflips]
    constructor
    · intro h
      cases h
    · rintro ⟨rfl, h⟩
      rcases hflips with hcard | hany
      · exact absurd (List.toFinset_card_of_nodup h.nodup) hcard
      · obtain ⟨j, hj, hout⟩ := List.any_eq_true.1 hany
        have hin := h.range j hj
        simp at hout
        omega
  rw [if_neg hflips]
  push Not at hshape hflips
  obtain ⟨hcard, hrange⟩ := hflips
  have hnodup : conv.sign_flip_joints.Nodup :=
    Multiset.toFinset_card_eq_card_iff_nodup.1 hcard
  have hin : ∀ j ∈ conv.sign_flip_joints, 0 ≤ j ∧ j < dof - conv.drop_trailing := by
    intro j hj
    have hnone := List.any_eq_false.1 (Bool.eq_false_of_not_eq_true hrange) j hj
    simp at hnone
    omega
  -- both endpoints have to be there, finite and different
  cases hopened : conv.gripper_open with
  | none =>
    constructor
    · intro h
      cases h
    · rintro ⟨rfl, h⟩
      obtain ⟨opened, _, hsome, _⟩ := h.endpoints
      rw [hopened] at hsome
      cases hsome
  | some opened =>
    cases hclosed : conv.gripper_closed with
    | none =>
      constructor
      · intro h
        cases h
      · rintro ⟨rfl, h⟩
        obtain ⟨_, closed, _, hsome, _⟩ := h.endpoints
        rw [hclosed] at hsome
        cases hsome
    | some closed =>
      dsimp only
      split
      · rename_i hbad
        constructor
        · intro h
          cases h
        · rintro ⟨rfl, h⟩
          obtain ⟨opened', closed', ho, hc, hfinite, hne⟩ := h.endpoints
          obtain rfl := Option.some.inj (hopened.symm.trans ho)
          obtain rfl := Option.some.inj (hclosed.symm.trans hc)
          rw [hfinite, hne] at hbad
          cases hbad
      · rename_i hgood
        rw [Bool.or_eq_true, not_or, Bool.not_eq_true, Bool.not_eq_false', Bool.not_eq_true]
          at hgood
        constructor
        · intro h
          cases h
          exact ⟨rfl, hshape.1, hshape.2.1, hshape.2.2, hnodup, hin, opened, closed, hopened,
            hclosed, hgood.1, hgood.2⟩
        · rintro ⟨rfl, _⟩
          rfl

end Validate

/-! ## The conversion -/

/-- `xs[:k]` -/
def slice_to {α : Type} (xs : List α) (k : ℤ) : List α :=
  xs.take (if 0 ≤ k then k else xs.length + k).toNat

/-- `q`, less the trailing values. -/
def arm_values {F : Type} (q : List F) (conv : JointConventionCfg F) : List F :=
  if conv.drop_trailing ≠ 0 then slice_to q (q.length - conv.drop_trailing) else q

theorem arm_values_eq {F : Type} {q : List F} {conv : JointConventionCfg F} {dof : ℤ}
    (hdrop : 1 ≤ conv.drop_trailing) (harm : 0 < dof - conv.drop_trailing)
    (hq : (q.length : ℤ) = dof) :
    arm_values q conv = q.take (dof - conv.drop_trailing).toNat := by
  unfold arm_values slice_to
  rw [if_pos (by omega), hq, if_pos harm.le]

section Convert

variable {F : Type} [Add F] [Neg F] [Angles F]

open Angles (degrees radians wrap_deg)

/-- `deg + offsets` of two vectors: equal lengths, or one of them is broadcast. -/
def add_offsets (deg offsets : List F) : Except ConventionError (List F) :=
  if deg.length = offsets.length then .ok (List.zipWith (· + ·) deg offsets)
  else match deg, offsets with
  | deg, [offset] => .ok (deg.map (· + offset))
  | [d], offsets => .ok (offsets.map (d + ·))
  | _, _ => .error .broadcast

/-- `deg[j] = -deg[j]` -/
def flip (deg : List F) (j : ℤ) : Except ConventionError (List F) :=
  let i := if j < 0 then deg.length + j else j
  if 0 ≤ i ∧ i < deg.length then .ok (deg.modify i.toNat Neg.neg) else .error .index

/-- `convert_factr_to_rizon` -/
def convert_factr_to_rizon (q_leader_rad : List F) (conv : JointConventionCfg F) :
    Except ConventionError (List F) := do
  let q := arm_values q_leader_rad conv
  let deg ← add_offsets (q.map degrees) (conv.offsets_deg.take q.length)
  let deg ← conv.sign_flip_joints.foldlM flip deg
  return deg.map fun d => radians (wrap_deg d)

/-- `offsets_from_straight_pose` -/
def offsets_from_straight_pose (q_leader_rad : List F) (conv : JointConventionCfg F) : List F :=
  (arm_values q_leader_rad conv).map fun q => wrap_deg (-degrees q)

/-- `normalize_gripper` -/
def normalize_gripper [Zero F] [One F] [Sub F] [Div F] [Scalar F] (raw : F) (conv : JointConventionCfg F) : F :=
  match conv.gripper_open, conv.gripper_closed with
  | some lo, some hi =>
    if equal lo hi then raw else Scalar.min 1 (Scalar.max 0 ((raw - lo) / (hi - lo)))
  | _, _ => raw

/-! ## Joint by joint -/

/-- The sign of joint `j`, applied. -/
def mirrored (flips : List ℤ) (j : ℕ) (d : F) : F := if (j : ℤ) ∈ flips then -d else d

omit [Add F] [Angles F] in
/-- Flips at different places are independent, so that the loop over the list flips each listed
joint once and no other. -/
theorem foldlM_flip {flips : List ℤ} (hnodup : flips.Nodup) {deg : List F}
    (hrange : ∀ j ∈ flips, 0 ≤ j ∧ j < deg.length) :
    flips.foldlM flip deg = .ok (deg.mapIdx (mirrored flips)) := by
  induction flips generalizing deg with
  | nil =>
    refine congrArg Except.ok (List.ext_getElem? fun i => ?_)
    have hid : (mirrored [] i : F → F) = id := by
      funext d
      simp [mirrored]
    rw [List.getElem?_mapIdx, hid, Option.map_id]
    rfl
  | cons j rest ih =>
    obtain ⟨hj, hrest⟩ := List.nodup_cons.1 hnodup
    obtain ⟨hnonneg, hlt⟩ := hrange j List.mem_cons_self
    have hflip : flip deg j = .ok (deg.modify j.toNat Neg.neg) := by
      unfold flip
      rw [if_neg (not_lt.2 hnonneg)]
      exact if_pos ⟨hnonneg, hlt⟩
    have hlater : ∀ i ∈ rest, 0 ≤ i ∧ i < ((deg.modify j.toNat Neg.neg).length : ℤ) := by
      intro i hi
      rw [List.length_modify]
      exact hrange i (List.mem_cons_of_mem j hi)
    rw [List.foldlM_cons, hflip]
    refine (ih hrest hlater).trans (congrArg Except.ok (List.ext_getElem? fun i => ?_))
    rw [List.getElem?_mapIdx, List.getElem?_mapIdx, List.getElem?_modify, Option.map_eq_map,
      Option.map_map]
    congr 1
    funext d
    -- the place that was just negated is none of those still to come
    by_cases hij : j.toNat = i
    · have hcast : (i : ℤ) = j := by omega
      simp [mirrored, hij, hcast, hj]
    · have hcast : (i : ℤ) ≠ j := by omega
      simp [mirrored, hij, hcast]

section Joint

variable [Zero F]

/-- The conversion of joint `j`. -/
def joint (conv : JointConventionCfg F) (j : ℕ) (x : F) : F :=
  radians (wrap_deg (mirrored conv.sign_flip_joints j (degrees x + conv.offsets_deg.getD j 0)))

/-- Without an exception a sample is converted joint by joint: offset, sign and wrapping of each are
its own. -/
theorem convert_factr_to_rizon_of_fits {q : List F} {conv : JointConventionCfg F}
    (hcount : conv.offsets_deg.length = (arm_values q conv).length)
    (hnodup : conv.sign_flip_joints.Nodup)
    (hrange : ∀ j ∈ conv.sign_flip_joints, 0 ≤ j ∧ j < (arm_values q conv).length) :
    convert_factr_to_rizon q conv = .ok ((arm_values q conv).mapIdx (joint conv)) := by
  generalize hq : arm_values q conv = arm at hcount hrange
  have htake : conv.offsets_deg.take arm.length = conv.offsets_deg :=
    List.take_of_length_le hcount.le
  have hadd : add_offsets (arm.map degrees) conv.offsets_deg =
      .ok (List.zipWith (· + ·) (arm.map degrees) conv.offsets_deg) := by
    apply if_pos
    rw [List.length_map, hcount]
  have hlength : (List.zipWith (· + ·) (arm.map degrees) conv.offsets_deg).length = arm.length := by
    rw [List.length_zipWith, List.length_map, hcount, Nat.min_self]
  have hinside : ∀ j ∈ conv.sign_flip_joints, 0 ≤ j ∧
      j < (List.zipWith (· + ·) (arm.map degrees) conv.offsets_deg).length := by
    rw [hlength]
    exact hrange
  have hflips := foldlM_flip hnodup hinside
  unfold convert_factr_to_rizon
  rw [hq]
  show (add_offsets (arm.map degrees) (conv.offsets_deg.take arm.length) >>= fun deg =>
    conv.sign_flip_joints.foldlM flip deg >>= fun deg => _) = _
  rw [htake]
  show (add_offsets (arm.map degrees) conv.offsets_deg >>= fun deg =>
    conv.sign_flip_joints.foldlM flip deg >>= fun deg => _) = _
  rw [hadd]
  show (conv.sign_flip_joints.foldlM flip _ >>= fun deg => _) = _
  rw [hflips]
  refine congrArg Except.ok (List.ext_getElem? fun j => ?_)
  rw [List.getElem?_map, List.getElem?_mapIdx, List.getElem?_mapIdx, List.getElem?_zipWith,
    List.getElem?_map]
  rcases hx : arm[j]? with - | x
  · rfl
  · obtain ⟨hj, _⟩ := List.getElem?_eq_some_iff.1 hx
    rw [← hcount] at hj
    simp [joint, List.getElem?_eq_getElem hj]

/-- An accepted convention converts every sample of the server's width joint by joint. -/
theorem convert_factr_to_rizon_eq [Scalar F] {isfinite : F → Bool} {q : List F} {conv : JointConventionCfg F}
    {dof : ℤ} (h : Accepted isfinite dof conv) (hq : (q.length : ℤ) = dof) :
    convert_factr_to_rizon q conv =
      .ok ((q.take (dof - conv.drop_trailing).toNat).mapIdx (joint conv)) := by
  have harm := arm_values_eq h.drop h.arm hq
  have hdrop := h.drop
  have hpos := h.arm
  have hcount := h.count
  have hlength : ((arm_values q conv).length : ℤ) = dof - conv.drop_trailing := by
    rw [harm, List.length_take]
    omega
  rw [← harm]
  apply convert_factr_to_rizon_of_fits
  · omega
  · exact h.nodup
  · intro j hj
    rw [hlength]
    exact h.range j hj

end Joint

end Convert

/-! ## The reals -/

section Real

open AddCommGroup
open Maths (degrees radians wrap_deg)

/-- The conversion of a joint, with the functions of the reals. -/
theorem joint_real (conv : JointConventionCfg ℝ) (j : ℕ) (x : ℝ) :
    joint conv j x = radians (wrap_deg (mirrored conv.sign_flip_joints j
      (degrees x + conv.offsets_deg.getD j 0))) := rfl

theorem radians_inj {a b : ℝ} : radians a = radians b ↔ a = b := by
  constructor
  · intro h
    rw [← Maths.degrees_radians a, h, Maths.degrees_radians]
  · rintro rfl
    rfl

/-- A sign does not tell classes of angles apart. -/
theorem mirrored_modEq {flips : List ℤ} {j : ℕ} {a b : ℝ} :
    mirrored flips j a ≡ mirrored flips j b [PMOD (360 : ℝ)] ↔ a ≡ b [PMOD (360 : ℝ)] := by
  unfold mirrored
  split
  · exact neg_modEq_neg
  · rfl

theorem degrees_modEq {x y : ℝ} :
    degrees x ≡ degrees y [PMOD (360 : ℝ)] ↔ ∃ n : ℤ, y = x + n * (2 * Real.pi) := by
  rw [modEq_iff_eq_add_zsmul]
  refine exists_congr fun n => ?_
  rw [zsmul_eq_mul, ← Maths.degrees_turns, ← Maths.degrees_add]
  constructor
  · intro h
    rw [← Maths.radians_degrees y, h, Maths.radians_degrees]
  · rintro rfl
    rfl

/-- What the conversion of a joint forgets is whole turns. -/
theorem joint_eq_iff (conv : JointConventionCfg ℝ) (j : ℕ) (x y : ℝ) :
    joint conv j x = joint conv j y ↔ ∃ n : ℤ, y = x + n * (2 * Real.pi) := by
  rw [joint_real, joint_real, radians_inj, Maths.wrap_deg_inj, mirrored_modEq, modEq_rfl.add_iff_right, degrees_modEq]

theorem joint_mem (conv : JointConventionCfg ℝ) (j : ℕ) (x : ℝ) :
    -Real.pi ≤ joint conv j x ∧ joint conv j x < Real.pi := by
  obtain ⟨hlo, hhi⟩ := Maths.wrap_deg_mem
    (mirrored conv.sign_flip_joints j (degrees x + conv.offsets_deg.getD j 0))
  have hpos : 0 < Real.pi / 180 := div_pos Real.pi_pos (by norm_num)
  rw [joint_real]
  generalize wrap_deg (mirrored conv.sign_flip_joints j
    (degrees x + conv.offsets_deg.getD j 0)) = d at hlo hhi
  show -Real.pi ≤ d * (Real.pi / 180) ∧ d * (Real.pi / 180) < Real.pi
  constructor
  · linarith [mul_le_mul_of_nonneg_right hlo hpos.le]
  · linarith [mul_lt_mul_of_pos_right hhi hpos]

/-- The offset of a straight pose brings it to zero, whatever the sign. -/
theorem joint_eq_zero {conv : JointConventionCfg ℝ} {j : ℕ} {x : ℝ}
    (h : conv.offsets_deg.getD j 0 = wrap_deg (-degrees x)) : joint conv j x = 0 := by
  have hsum : degrees x + wrap_deg (-degrees x) ≡ 0 [PMOD (360 : ℝ)] := by
    have hwrap := (Maths.wrap_deg_modEq (-degrees x)).add_left (degrees x)
    rwa [add_neg_cancel] at hwrap
  have hmirrored : mirrored conv.sign_flip_joints j (0 : ℝ) = 0 := by
    unfold mirrored
    split
    · exact neg_zero
    · rfl
  have hzero : wrap_deg (mirrored conv.sign_flip_joints j
      (degrees x + conv.offsets_deg.getD j 0)) = 0 := by
    rw [h, Maths.wrap_deg_eq_zero, ← hmirrored, mirrored_modEq]
    exact hsum
  rw [joint_real, hzero]
  exact zero_mul _

/-- `offsets_from_straight_pose` solves for the pose it was given: with its offsets that pose
converts to all zeros. -/
theorem convert_straight_pose {isfinite : ℝ → Bool} {dof : ℤ} {conv : JointConventionCfg ℝ}
    (h : Accepted isfinite dof conv) {q : List ℝ} (hq : (q.length : ℤ) = dof) :
    convert_factr_to_rizon q { conv with offsets_deg := offsets_from_straight_pose q conv } =
      .ok (List.replicate (dof - conv.drop_trailing).toNat 0) := by
  have harm := arm_values_eq h.drop h.arm hq
  have hdrop := h.drop
  have hpos := h.arm
  have hlength : (arm_values q conv).length = (dof - conv.drop_trailing).toNat := by
    rw [harm, List.length_take]
    omega
  set solved : JointConventionCfg ℝ :=
    { conv with offsets_deg := offsets_from_straight_pose q conv } with hsolved
  -- the offsets are no part of what is dropped
  have hsame : arm_values q solved = arm_values q conv := rfl
  have hrange : ∀ j ∈ solved.sign_flip_joints, 0 ≤ j ∧ j < (arm_values q solved).length := by
    intro j hj
    have hin := h.range j hj
    rw [hsame, hlength]
    omega
  have hconvert : convert_factr_to_rizon q solved =
      .ok ((arm_values q solved).mapIdx (joint solved)) :=
    convert_factr_to_rizon_of_fits (List.length_map _) h.nodup hrange
  rw [hconvert, hsame]
  refine congrArg Except.ok (List.ext_getElem? fun j => ?_)
  rw [List.getElem?_mapIdx, List.getElem?_replicate]
  by_cases hj : j < (arm_values q conv).length
  · rw [List.getElem?_eq_getElem hj, if_pos (hlength ▸ hj)]
    refine congrArg some (joint_eq_zero ?_)
    rw [hsolved]
    show ((arm_values q conv).map _).getD j 0 = _
    rw [List.getD_eq_getElem?_getD, List.getElem?_map, List.getElem?_eq_getElem hj]
    rfl
  · rw [List.getElem?_eq_none (not_lt.1 hj), if_neg (hlength ▸ hj)]
    rfl

/-- Two samples of one width come to one result exactly when each joint's two angles differ by full
turns. -/
theorem mapIdx_joint_eq_iff (conv : JointConventionCfg ℝ) {n : ℕ} {q q' : List ℝ}
    (hlength : q.length = q'.length) :
    (q.take n).mapIdx (joint conv) = (q'.take n).mapIdx (joint conv) ↔
      ∀ (j : ℕ) (x x' : ℝ), j < n → q[j]? = some x → q'[j]? = some x' →
        ∃ m : ℤ, x' = x + m * (2 * Real.pi) := by
  constructor
  · intro heq j x x' hj hx hx'
    have hentry := congrArg (·[j]?) heq
    simp only [List.getElem?_mapIdx, List.getElem?_take, if_pos hj, hx, hx'] at hentry
    exact (joint_eq_iff conv j x x').1 (Option.some.inj hentry)
  · intro hturns
    apply List.ext_getElem?
    intro j
    rw [List.getElem?_mapIdx, List.getElem?_mapIdx, List.getElem?_take, List.getElem?_take]
    by_cases hj : j < n
    · rw [if_pos hj, if_pos hj]
      by_cases hin : j < q.length
      · have hin' : j < q'.length := hlength ▸ hin
        rw [List.getElem?_eq_getElem hin, List.getElem?_eq_getElem hin']
        exact congrArg some ((joint_eq_iff conv j _ _).2 (hturns j _ _ hj
          (List.getElem?_eq_getElem hin) (List.getElem?_eq_getElem hin')))
      · rw [List.getElem?_eq_none (not_lt.1 hin), List.getElem?_eq_none (hlength ▸ not_lt.1 hin)]
    · rw [if_neg hj, if_neg hj]

/-! ## The gripper -/

section Gripper

variable {conv : JointConventionCfg ℝ} {opened closed : ℝ}

theorem equal_eq_false {a b : ℝ} : equal a b = false ↔ a ≠ b := by
  rw [← Bool.not_eq_true]
  unfold equal
  rw [Bool.and_eq_true, Scalar.le_real, Scalar.le_real, ← le_antisymm_iff]

theorem normalize_gripper_eq (ho : conv.gripper_open = some opened)
    (hc : conv.gripper_closed = some closed) (hne : opened ≠ closed) (raw : ℝ) :
    normalize_gripper raw conv = 1 ⊓ (0 ⊔ (raw - opened) / (closed - opened)) := by
  unfold normalize_gripper
  rw [ho, hc]
  show (if equal opened closed then raw else _) = _
  rw [if_neg (by rw [equal_eq_false.2 hne]; exact Bool.false_ne_true), Scalar.min_real,
    Scalar.max_real]

variable (ho : conv.gripper_open = some opened) (hc : conv.gripper_closed = some closed)
include ho hc

theorem normalize_gripper_mem (hne : opened ≠ closed) (raw : ℝ) :
    0 ≤ normalize_gripper raw conv ∧ normalize_gripper raw conv ≤ 1 := by
  rw [normalize_gripper_eq ho hc hne]
  exact ⟨le_inf zero_le_one le_sup_left, inf_le_left⟩

theorem normalize_gripper_open (hne : opened ≠ closed) : normalize_gripper opened conv = 0 := by
  rw [normalize_gripper_eq ho hc hne, sub_self, zero_div, sup_idem]
  exact inf_of_le_right zero_le_one

theorem normalize_gripper_closed (hne : opened ≠ closed) :
    normalize_gripper closed conv = 1 := by
  rw [normalize_gripper_eq ho hc hne, div_self (sub_ne_zero.2 hne.symm),
    sup_of_le_right zero_le_one, inf_idem]

theorem normalize_gripper_mono (h : opened < closed) :
    Monotone fun raw => normalize_gripper raw conv := by
  intro a b hab
  show normalize_gripper a conv ≤ normalize_gripper b conv
  rw [normalize_gripper_eq ho hc h.ne, normalize_gripper_eq ho hc h.ne]
  have hdiv := div_le_div_of_nonneg_right (sub_le_sub_right hab opened) (sub_pos.2 h).le
  exact inf_le_inf_left 1 (sup_le_sup_left hdiv 0)

theorem normalize_gripper_anti (h : closed < opened) :
    Antitone fun raw => normalize_gripper raw conv := by
  intro a b hab
  show normalize_gripper b conv ≤ normalize_gripper a conv
  rw [normalize_gripper_eq ho hc h.ne', normalize_gripper_eq ho hc h.ne']
  have hdiv := div_le_div_of_nonpos_of_le (sub_neg.2 h).le (sub_le_sub_right hab opened)
  exact inf_le_inf_left 1 (sup_le_sup_left hdiv 0)

end Gripper

/-! ## An accepted convention -/

/-- The laws of a convention that `open_source` has let through: values in a half-open turn, one
result exactly for angles that differ by full turns, each joint by itself, the straight pose at
zero, and a monotone gripper between its ends. -/
theorem convention_laws {isfinite : ℝ → Bool} {side : String} {dof : ℤ}
    {given conv : JointConventionCfg ℝ}
    (h : validate_convention isfinite side dof given = .ok conv) :
    -- a value in [-π, π) for each arm joint
    (∀ q : List ℝ, (q.length : ℤ) = dof → ∃ r, convert_factr_to_rizon q conv = .ok r ∧
      (r.length : ℤ) = dof - conv.drop_trailing ∧ ∀ v ∈ r, -Real.pi ≤ v ∧ v < Real.pi) ∧
    -- the samples of one result are those that differ by whole turns
    (∀ q q' : List ℝ, (q.length : ℤ) = dof → (q'.length : ℤ) = dof →
      (convert_factr_to_rizon q conv = convert_factr_to_rizon q' conv ↔
        ∀ (j : ℕ) (x x' : ℝ), (j : ℤ) < dof - conv.drop_trailing → q[j]? = some x →
          q'[j]? = some x' → ∃ n : ℤ, x' = x + n * (2 * Real.pi))) ∧
    -- a joint depends on its own raw value
    (∀ q q' r r' : List ℝ, (q.length : ℤ) = dof → (q'.length : ℤ) = dof →
      convert_factr_to_rizon q conv = .ok r → convert_factr_to_rizon q' conv = .ok r' →
      ∀ j : ℕ, q[j]? = q'[j]? → r[j]? = r'[j]?) ∧
    -- the straight pose
    (∀ q : List ℝ, (q.length : ℤ) = dof →
      convert_factr_to_rizon q { conv with offsets_deg := offsets_from_straight_pose q conv } =
        .ok (List.replicate (dof - conv.drop_trailing).toNat 0)) ∧
    -- the gripper
    ∃ opened closed, conv.gripper_open = some opened ∧ conv.gripper_closed = some closed ∧
      (∀ raw, 0 ≤ normalize_gripper raw conv ∧ normalize_gripper raw conv ≤ 1) ∧
      normalize_gripper opened conv = 0 ∧ normalize_gripper closed conv = 1 ∧
      (opened ≤ closed → Monotone fun raw => normalize_gripper raw conv) ∧
      (closed ≤ opened → Antitone fun raw => normalize_gripper raw conv) := by
  obtain ⟨rfl, haccepted⟩ := validate_convention_iff.1 h
  have harm := haccepted.arm
  have hdrop := haccepted.drop
  refine ⟨?_, ?_, ?_, ?_, ?_⟩
  · intro q hq
    refine ⟨_, convert_factr_to_rizon_eq haccepted hq, ?_, ?_⟩
    · rw [List.length_mapIdx, List.length_take]
      omega
    · intro v hv
      obtain ⟨j, _, rfl⟩ := List.mem_mapIdx.1 hv
      exact joint_mem conv j _
  · intro q q' hq hq'
    rw [convert_factr_to_rizon_eq haccepted hq, convert_factr_to_rizon_eq haccepted hq',
      Except.ok.injEq, mapIdx_joint_eq_iff conv (by omega)]
    refine forall_congr' fun j => forall_congr' fun x => forall_congr' fun x' => ?_
    rw [Int.lt_toNat]
  · intro q q' r r' hq hq' hr hr' j hj
    rw [convert_factr_to_rizon_eq haccepted hq, Except.ok.injEq] at hr
    rw [convert_factr_to_rizon_eq haccepted hq', Except.ok.injEq] at hr'
    rw [← hr, ← hr', List.getElem?_mapIdx, List.getElem?_mapIdx, List.getElem?_take,
      List.getElem?_take, hj]
  · intro q hq
    exact convert_straight_pose haccepted hq
  · obtain ⟨opened, closed, ho, hc, _, hne⟩ := haccepted.endpoints
    have hne := equal_eq_false.1 hne
    exact ⟨opened, closed, ho, hc, normalize_gripper_mem ho hc hne,
      normalize_gripper_open ho hc hne, normalize_gripper_closed ho hc hne,
      fun hle => normalize_gripper_mono ho hc (lt_of_le_of_ne hle hne),
      fun hle => normalize_gripper_anti ho hc (lt_of_le_of_ne hle hne.symm)⟩

/-- A leader of one joint that is flipped, with a gripper that closes downwards. -/
theorem convention_laws_one_joint :
    ∃ r, convert_factr_to_rizon [Real.pi, 1] ⟨[90], [0], 1, some 1, some 0⟩ = .ok r ∧
      (r.length : ℤ) = 2 - 1 ∧ ∀ v ∈ r, -Real.pi ≤ v ∧ v < Real.pi := by
  have hvalid : validate_convention (fun _ : ℝ => true) "left" 2 ⟨[90], [0], 1, some 1, some 0⟩ =
      .ok ⟨[90], [0], 1, some 1, some 0⟩ := by
    refine validate_convention_iff.2 ⟨rfl, by norm_num, by norm_num, by norm_num, by simp,
      by simp, 1, 0, rfl, rfl, rfl, ?_⟩
    exact equal_eq_false.2 one_ne_zero
  exact (convention_laws hvalid).1 [Real.pi, 1] rfl

end Real

end DualFlexivControl.Convention
