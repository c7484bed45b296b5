/-
Quaternions, matrices and Euler angles in `visualization/geometry.py`, and that they say the same.

The scene gives the pose of a mount or a camera sometimes as a quaternion and sometimes as a
matrix, and quaternions in one of two orders: `(x, y, z, w)` where the module computes with them
and `(w, x, y, z)` where a viewer wants them. The two orders are two types here.

[`wxyz_from_rot`] goes from matrices to quaternions by the largest of the four components, which
it finds from the trace and the diagonal. Every rotation is that of some unit quaternion
([`Rotation.exists_rot`]), and the four branches return that quaternion or its negative.
-/
import DualFlexivControl.Lib.Rotation

set_option autoImplicit false

namespace DualFlexivControl.Visualization

open Matrix Quaternion Rotation
open scoped Maths

/-! ## Quaternions in two orders -/

/-- `(x, y, z, w)` -/
structure Xyzw (F : Type) where
  x : F
  y : F
  z : F
  w : F

/-- `(w, x, y, z)`, the viewer's. -/
structure Wxyz (F : Type) where
  w : F
  x : F
  y : F
  z : F

/-- What `wxyz_from_rot` may run into. -/
inductive GeometryError
  | math_domain
  | zero_division
  deriving DecidableEq, Repr

section Functions

variable {F : Type} [Field F] [Maths F]

open Maths (sin cos atan2 hypot pi)
open Scalar (lit lt abs sqrt)

def Xyzw.quaternion (q : Xyzw F) : ℍ[F] := ⟨q.w, q.x, q.y, q.z⟩

def Wxyz.quaternion (q : Wxyz F) : ℍ[F] := ⟨q.w, q.x, q.y, q.z⟩

/-- `quat_from_rpy` -/
def quat_from_rpy (roll pitch yaw : F) : Xyzw F :=
  let cr := cos (roll / 2)
  let sr := sin (roll / 2)
  let cp := cos (pitch / 2)
  let sp := sin (pitch / 2)
  let cy := cos (yaw / 2)
  let sy := sin (yaw / 2)
  ⟨sr * cp * cy - cr * sp * sy, cr * sp * cy + sr * cp * sy, cr * cp * sy - sr * sp * cy,
    cr * cp * cy + sr * sp * sy⟩

/-- `rot_from_rpy` -/
def rot_from_rpy (roll pitch yaw : F) : Matrix (Fin 3) (Fin 3) F :=
  let cr := cos roll
  let sr := sin roll
  let cp := cos pitch
  let sp := sin pitch
  let cy := cos yaw
  let sy := sin yaw
  !![cy * cp, cy * sp * sr - sy * cr, cy * sp * cr + sy * sr;
    sy * cp, sy * sp * sr + cy * cr, sy * sp * cr - cy * sr;
    -sp, cp * sr, cp * cr]

/-- `rpy_from_rot` -/
def rpy_from_rot (rot : Matrix (Fin 3) (Fin 3) F) : F × F × F :=
  let pitch := atan2 (-rot 2 0) (hypot (rot 0 0) (rot 1 0))
  if lt (lit (1 / 1000000000)) (abs (cos pitch)) then
    (atan2 (rot 2 1) (rot 2 2), pitch, atan2 (rot 1 0) (rot 0 0))
  else (atan2 (-rot 1 2) (rot 1 1), pitch, 0)

/-- `np.linalg.norm` -/
def norm (a : Fin 3 → F) : F := sqrt (a 0 * a 0 + a 1 * a 1 + a 2 * a 2)

/-- `norm < 1e-9 or abs(angle) < 1e-12` -/
def degenerate (axis : Fin 3 → F) (angle : F) : Bool :=
  lt (norm axis) (lit (1 / 1000000000)) || lt (abs angle) (lit (1 / 1000000000000))

/-- `quat_from_axis_angle` -/
def quat_from_axis_angle (axis : Fin 3 → F) (angle : F) : Xyzw F :=
  if degenerate axis angle then ⟨0, 0, 0, 1⟩
  else
    let a := fun i => axis i / norm axis
    let s := sin (angle / 2)
    ⟨a 0 * s, a 1 * s, a 2 * s, cos (angle / 2)⟩

/-- `quat_mul` -/
def quat_mul (q1 q2 : Xyzw F) : Xyzw F where
  x := q1.w * q2.x + q1.x * q2.w + q1.y * q2.z - q1.z * q2.y
  y := q1.w * q2.y - q1.x * q2.z + q1.y * q2.w + q1.z * q2.x
  z := q1.w * q2.z + q1.x * q2.y - q1.y * q2.x + q1.z * q2.w
  w := q1.w * q2.w - q1.x * q2.x - q1.y * q2.y - q1.z * q2.z

/-- `rot_from_axis_angle` -/
def rot_from_axis_angle (axis : Fin 3 → F) (angle : F) : Matrix (Fin 3) (Fin 3) F :=
  if degenerate axis angle then 1
  else
    let a := fun i => axis i / norm axis
    let k := !![0, -a 2, a 1; a 2, 0, -a 0; -a 1, a 0, 0]
    1 + sin angle • k + (1 - cos angle) • (k * k)

/-- `xyzw_to_wxyz` -/
def xyzw_to_wxyz (q : Xyzw F) : Wxyz F := ⟨q.w, q.x, q.y, q.z⟩

/-- `math.sqrt(x) * 2`, for what comes to be a divisor: exact arithmetic has no quotient by
zero. -/
def divisor (x : F) : Except GeometryError F :=
  if lt x 0 then .error .math_domain
  else if lt 0 (sqrt x * 2) then .ok (sqrt x * 2)
  else .error .zero_division

/-- `int(np.argmax(np.diag(m)))`: the first of the largest. -/
def argmax_diag (m : Matrix (Fin 3) (Fin 3) F) : Fin 3 :=
  if Scalar.le (m 1 1) (m 0 0) && Scalar.le (m 2 2) (m 0 0) then 0
  else if Scalar.le (m 2 2) (m 1 1) then 1 else 2

/-- `wxyz_from_rot` -/
def wxyz_from_rot (m : Matrix (Fin 3) (Fin 3) F) : Except GeometryError (Wxyz F) :=
  let tr := m 0 0 + m 1 1 + m 2 2
  if lt 0 tr then do
    let s ← divisor (tr + 1)
    return ⟨1 / 4 * s, (m 2 1 - m 1 2) / s, (m 0 2 - m 2 0) / s, (m 1 0 - m 0 1) / s⟩
  else match argmax_diag m with
  | 0 => do
    let s ← divisor (1 + m 0 0 - m 1 1 - m 2 2)
    return ⟨(m 2 1 - m 1 2) / s, 1 / 4 * s, (m 0 1 + m 1 0) / s, (m 0 2 + m 2 0) / s⟩
  | 1 => do
    let s ← divisor (1 + m 1 1 - m 0 0 - m 2 2)
    return ⟨(m 0 2 - m 2 0) / s, (m 0 1 + m 1 0) / s, 1 / 4 * s, (m 1 2 + m 2 1) / s⟩
  | 2 => do
    let s ← divisor (1 + m 2 2 - m 0 0 - m 1 1)
    return ⟨(m 1 0 - m 0 1) / s, (m 0 2 + m 2 0) / s, (m 1 2 + m 2 1) / s, 1 / 4 * s⟩

/-! ## Mounts -/

/-- A mount's pose in both forms. -/
structure Mount (F : Type) where
  translation : Fin 3 → F
  quat_xyzw : Xyzw F
  rot : Matrix (Fin 3) (Fin 3) F

def MOUNT_SEP_M : F := lit (4447 / 10000)

def MOUNT_TILT_RAD : F := pi / 4

def MOUNT_YAW_RAD : F := pi / 2

def FACTR_BASE_YAW_RAD : F := pi

/-- `_mount` -/
def mount (sep_sign tilt : F) : Mount F where
  translation := ![sep_sign * MOUNT_SEP_M / 2, 0, 0]
  quat_xyzw := quat_mul (quat_from_axis_angle ![0, 1, 0] tilt)
    (quat_from_axis_angle ![0, 0, 1] MOUNT_YAW_RAD)
  rot := rot_from_axis_angle ![0, 1, 0] tilt * rot_from_axis_angle ![0, 0, 1] MOUNT_YAW_RAD

/-- `MOUNTS` -/
def MOUNTS : List (String × Mount F) :=
  [("left", mount (-1) (-MOUNT_TILT_RAD)), ("right", mount 1 MOUNT_TILT_RAD)]

/-- `factr_mount`; a side that has no mount is a `KeyError`. -/
def factr_mount (side : String) : Option (Mount F) :=
  (MOUNTS.lookup side).map fun mount =>
    { translation := mount.translation
      quat_xyzw := quat_mul mount.quat_xyzw
        (quat_from_axis_angle ![0, 0, 1] FACTR_BASE_YAW_RAD)
      rot := mount.rot * rot_from_axis_angle ![0, 0, 1] FACTR_BASE_YAW_RAD }

end Functions

/-! ## The two forms agree -/

section Quaternions

variable {F : Type} [Field F]

@[simp] theorem Xyzw.re_quaternion (q : Xyzw F) : q.quaternion.re = q.w := rfl

@[simp] theorem Xyzw.imI_quaternion (q : Xyzw F) : q.quaternion.imI = q.x := rfl

@[simp] theorem Xyzw.imJ_quaternion (q : Xyzw F) : q.quaternion.imJ = q.y := rfl

@[simp] theorem Xyzw.imK_quaternion (q : Xyzw F) : q.quaternion.imK = q.z := rfl

/-- The two orders are of one quaternion. -/
theorem quaternion_wxyz (q : Xyzw F) : (xyzw_to_wxyz q).quaternion = q.quaternion := rfl

/-- `quat_mul` is Hamilton's product. -/
theorem quaternion_mul (u v : Xyzw F) :
    (quat_mul u v).quaternion = u.quaternion * v.quaternion := by
  ext <;> simp [quat_mul]

end Quaternions

section Real

/-- The quaternion of Euler angles is that of three turns. -/
theorem quaternion_from_rpy (roll pitch yaw : ℝ) :
    (quat_from_rpy roll pitch yaw).quaternion = euler_turns roll pitch yaw := by
  unfold euler_turns
  ext <;> simp [quat_from_rpy] <;> ring

theorem rot_quat_from_rpy (roll pitch yaw : ℝ) :
    rot (quat_from_rpy roll pitch yaw).quaternion = rot_from_rpy roll pitch yaw := by
  rw [quaternion_from_rpy, rot_euler_turns]
  rfl

/-- An axis that is not degenerate, divided by its length, is a unit vector. -/
theorem unit_axis {axis : Fin 3 → ℝ} {angle : ℝ} (h : degenerate axis angle = false) :
    (axis 0 / norm axis) ^ 2 + (axis 1 / norm axis) ^ 2 + (axis 2 / norm axis) ^ 2 = 1 := by
  have hnorm : 0 < norm axis := by
    unfold degenerate at h
    rw [Bool.or_eq_false_iff, Bool.eq_false_iff, Ne, Scalar.lt_real] at h
    have hthreshold : (0 : ℝ) < Scalar.lit (1 / 1000000000) := by
      rw [Scalar.lit_real]
      norm_num
    linarith [not_lt.1 h.1]
  have hsq : norm axis ^ 2 = axis 0 ^ 2 + axis 1 ^ 2 + axis 2 ^ 2 := by
    have hnonneg : 0 ≤ axis 0 * axis 0 + axis 1 * axis 1 + axis 2 * axis 2 :=
      add_nonneg (add_nonneg (mul_self_nonneg _) (mul_self_nonneg _)) (mul_self_nonneg _)
    rw [norm, Scalar.sqrt_real, Real.sq_sqrt hnonneg]
    ring
  rw [div_pow, div_pow, div_pow, ← add_div, ← add_div, ← hsq]
  exact div_self (pow_ne_zero 2 hnorm.ne')

theorem quaternion_from_axis_angle {axis : Fin 3 → ℝ} {angle : ℝ}
    (h : degenerate axis angle = false) : (quat_from_axis_angle axis angle).quaternion =
      turn (fun i => axis i / norm axis) (Real.cos (angle / 2)) (Real.sin (angle / 2)) := by
  unfold quat_from_axis_angle
  rw [if_neg (by rw [h]; exact Bool.false_ne_true)]
  rfl

theorem rot_quat_from_axis_angle (axis : Fin 3 → ℝ) (angle : ℝ) :
    rot (quat_from_axis_angle axis angle).quaternion = rot_from_axis_angle axis angle := by
  by_cases hdegenerate : degenerate axis angle = true
  · -- no axis or no angle: the identity in both forms
    unfold quat_from_axis_angle rot_from_axis_angle
    rw [if_pos hdegenerate, if_pos hdegenerate]
    exact rot_one
  · have hproper := Bool.eq_false_of_not_eq_true hdegenerate
    rw [quaternion_from_axis_angle hproper,
      rot_turn (unit_axis hproper) (Real.cos_sq_add_sin_sq _)]
    obtain ⟨hsin, hcos⟩ := half_angle angle
    rw [hsin, hcos]
    unfold rot_from_axis_angle
    rw [if_neg hdegenerate]
    rfl

/-- Rotations in both forms, of unit length. -/
theorem normSq_from_axis_angle (axis : Fin 3 → ℝ) (angle : ℝ) :
    normSq (quat_from_axis_angle axis angle).quaternion = 1 := by
  by_cases hdegenerate : degenerate axis angle = true
  · unfold quat_from_axis_angle
    rw [if_pos hdegenerate, normSq_def']
    simp
  · have hproper := Bool.eq_false_of_not_eq_true hdegenerate
    rw [quaternion_from_axis_angle hproper]
    exact normSq_turn (unit_axis hproper) (Real.cos_sq_add_sin_sq _)

theorem rot_quat_mul (u v : Xyzw ℝ) :
    rot (quat_mul u v).quaternion = rot u.quaternion * rot v.quaternion := by
  rw [quaternion_mul, rot_mul]

/-! ## From a matrix to a quaternion -/

/-- The divisor of a branch: four times the component it is about. -/
theorem divisor_sq {x : ℝ} (hx : x ≠ 0) : divisor (4 * x ^ 2) = .ok (4 * |x|) := by
  have hroot : √(4 * x ^ 2) = 2 * |x| := by
    rw [show 4 * x ^ 2 = (2 * x) ^ 2 by ring, Real.sqrt_sq_eq_abs, abs_mul, abs_two]
  have hpos : 0 < |x| := abs_pos.2 hx
  have hnonneg : ¬ Scalar.lt (4 * x ^ 2) 0 = true := by
    rw [Scalar.lt_real]
    exact not_lt.2 (by positivity)
  have hdivides : Scalar.lt 0 (Scalar.sqrt (4 * x ^ 2) * 2) = true := by
    rw [Scalar.lt_real, Scalar.sqrt_real, hroot]
    positivity
  unfold divisor
  rw [if_neg hnonneg, if_pos hdivides, Scalar.sqrt_real, hroot]
  congr 1
  ring

/-- The quaternion itself or its negative. -/
def Plus (q : ℍ[ℝ]) (r : Except GeometryError (Wxyz ℝ)) : Prop :=
  ∃ p : Wxyz ℝ, r = .ok p ∧ (p.quaternion = q ∨ p.quaternion = -q)

/-- What the components are after division by four times one of them. -/
theorem plus_of_components {q : ℍ[ℝ]} {x w' x' y' z' : ℝ} (hx : x ≠ 0)
    (hw : w' * |x| = x * q.re) (hx' : x' * |x| = x * q.imI) (hy : y' * |x| = x * q.imJ)
    (hz : z' * |x| = x * q.imK) : Plus q (.ok ⟨w', x', y', z'⟩) := by
  refine ⟨_, rfl, ?_⟩
  rcases lt_or_gt_of_ne hx with hneg | hpos
  · right
    rw [abs_of_neg hneg] at hw hx' hy hz
    have hcancel : ∀ {a b : ℝ}, a * -x = x * b → a = -b := by
      intro a b hab
      apply mul_right_cancel₀ (neg_ne_zero.2 hx)
      linear_combination hab
    ext
    · exact hcancel hw
    · exact hcancel hx'
    · exact hcancel hy
    · exact hcancel hz
  · left
    rw [abs_of_pos hpos] at hw hx' hy hz
    have hcancel : ∀ {a b : ℝ}, a * x = x * b → a = b := by
      intro a b hab
      apply mul_right_cancel₀ hx
      linear_combination hab
    ext
    · exact hcancel hw
    · exact hcancel hx'
    · exact hcancel hy
    · exact hcancel hz

/-- The quotients of a branch, by its divisor. -/
theorem quotient_mul_abs {x : ℝ} (hx : x ≠ 0) {a c : ℝ} (ha : a = 4 * (x * c)) :
    a / (4 * |x|) * |x| = x * c := by
  have habs : |x| ≠ 0 := abs_ne_zero.2 hx
  rw [ha]
  field_simp

theorem quarter_mul_abs (x : ℝ) : 1 / 4 * (4 * |x|) * |x| = x * x := by
  rw [← abs_mul_abs_self x]
  ring

/-- `np.argmax` finds one of the largest entries of the diagonal, by comparing them in order. -/
theorem le_argmax_diag (m : Matrix (Fin 3) (Fin 3) ℝ) (j : Fin 3) :
    m j j ≤ m (argmax_diag m) (argmax_diag m) := by
  unfold argmax_diag
  by_cases h0 : m 1 1 ≤ m 0 0 ∧ m 2 2 ≤ m 0 0
  · rw [if_pos (by simpa using h0)]
    fin_cases j
    · exact le_refl _
    · exact h0.1
    · exact h0.2
  · rw [if_neg (by simpa using h0)]
    -- 0 is not the largest, so the larger of the other two is
    by_cases h1 : m 2 2 ≤ m 1 1
    · rw [if_pos (by simpa using h1)]
      fin_cases j
      · by_contra hlt
        exact h0 ⟨by simp at hlt; exact hlt.le, by simp at hlt; linarith⟩
      · exact le_refl _
      · exact h1
    · rw [if_neg (by simpa using h1)]
      fin_cases j
      · by_contra hlt
        exact h0 ⟨by simp at hlt; linarith, by simp at hlt; exact hlt.le⟩
      · exact (not_le.1 h1).le
      · exact le_refl _

section Branches

variable {q : ℍ[ℝ]} (hunit : normSq q = 1)
include hunit

theorem trace_rot : rot q 0 0 + rot q 1 1 + rot q 2 2 + 1 = 4 * q.re ^ 2 := by
  rw [normSq_def'] at hunit
  simp [rot]
  linear_combination -hunit

/-- Of a quaternion with a small real part some other component is not. -/
theorem component_ne_zero {a b c : ℝ} (htrace : ¬ 0 < rot q 0 0 + rot q 1 1 + rot q 2 2)
    (hsum : q.re ^ 2 + a ^ 2 + b ^ 2 + c ^ 2 = 1) (hb : b ^ 2 ≤ a ^ 2) (hc : c ^ 2 ≤ a ^ 2) :
    a ≠ 0 := by
  intro hzero
  have hre := trace_rot hunit
  rw [hzero] at hsum hb hc
  linarith [not_lt.1 htrace]

/-- In each branch the quaternion comes back, or its negative: the branch divides by a component
that is not zero. -/
theorem plus_wxyz_from_rot : Plus q (wxyz_from_rot (rot q)) := by
  have hsum := hunit
  rw [normSq_def'] at hsum
  unfold wxyz_from_rot
  by_cases htrace : 0 < rot q 0 0 + rot q 1 1 + rot q 2 2
  · have hw : q.re ≠ 0 := by
      intro hzero
      have hre := trace_rot hunit
      rw [hzero] at hre
      linarith
    rw [if_pos (by simpa using htrace), trace_rot hunit, divisor_sq hw]
    refine plus_of_components hw (quarter_mul_abs _) (quotient_mul_abs hw ?_)
      (quotient_mul_abs hw ?_) (quotient_mul_abs hw ?_) <;> simp [rot] <;> ring
  · rw [if_neg (by simpa using htrace)]
    have hlargest := le_argmax_diag (rot q)
    generalize argmax_diag (rot q) = i at hlargest
    have h0 := hlargest 0
    have h1 := hlargest 1
    have h2 := hlargest 2
    -- the largest diagonal entry is that of the largest component
    fin_cases i
    · simp [rot] at h0 h1 h2
      have hx : q.imI ≠ 0 :=
        component_ne_zero hunit htrace hsum (by linarith) (by linarith)
      have hradicand : 1 + rot q 0 0 - rot q 1 1 - rot q 2 2 = 4 * q.imI ^ 2 := by
        simp [rot]
        linear_combination -hsum
      show Plus q (divisor (1 + rot q 0 0 - rot q 1 1 - rot q 2 2) >>= _)
      rw [hradicand, divisor_sq hx]
      refine plus_of_components hx (quotient_mul_abs hx ?_) (quarter_mul_abs _)
        (quotient_mul_abs hx ?_) (quotient_mul_abs hx ?_) <;> simp [rot] <;> ring
    · simp [rot] at h0 h1 h2
      have hy : q.imJ ≠ 0 :=
        component_ne_zero hunit (b := q.imI) (c := q.imK) htrace (by linarith) (by linarith)
          (by linarith)
      have hradicand : 1 + rot q 1 1 - rot q 0 0 - rot q 2 2 = 4 * q.imJ ^ 2 := by
        simp [rot]
        linear_combination -hsum
      show Plus q (divisor (1 + rot q 1 1 - rot q 0 0 - rot q 2 2) >>= _)
      rw [hradicand, divisor_sq hy]
      refine plus_of_components hy (quotient_mul_abs hy ?_) (quotient_mul_abs hy ?_)
        (quarter_mul_abs _) (quotient_mul_abs hy ?_) <;> simp [rot] <;> ring
    · simp [rot] at h0 h1 h2
      have hz : q.imK ≠ 0 :=
        component_ne_zero hunit (b := q.imI) (c := q.imJ) htrace (by linarith) (by linarith)
          (by linarith)
      have hradicand : 1 + rot q 2 2 - rot q 0 0 - rot q 1 1 = 4 * q.imK ^ 2 := by
        simp [rot]
        linear_combination -hsum
      show Plus q (divisor (1 + rot q 2 2 - rot q 0 0 - rot q 1 1) >>= _)
      rw [hradicand, divisor_sq hz]
      refine plus_of_components hz (quotient_mul_abs hz ?_) (quotient_mul_abs hz ?_)
        (quotient_mul_abs hz ?_) (quarter_mul_abs _) <;> simp [rot] <;> ring

end Branches

/-- `wxyz_from_rot` inverts the rotation matrix on all rotations. -/
theorem wxyz_from_rot_eq {m : Matrix (Fin 3) (Fin 3) ℝ} (h : m ∈ SO3 ℝ) :
    ∃ q : Wxyz ℝ, wxyz_from_rot m = .ok q ∧ normSq q.quaternion = 1 ∧ rot q.quaternion = m := by
  obtain ⟨p, hunit, rfl⟩ := exists_rot h
  obtain ⟨q, hq, rfl | hneg⟩ := plus_wxyz_from_rot hunit
  · exact ⟨q, hq, hunit, rfl⟩
  · refine ⟨q, hq, ?_, ?_⟩
    · rw [hneg, normSq_neg, hunit]
    · rw [hneg, rot_neg]

/-- The two forms of a pose in this module are of one rotation. -/
theorem quaternion_and_matrix_agree :
    (∀ roll pitch yaw : ℝ,
      rot (quat_from_rpy roll pitch yaw).quaternion = rot_from_rpy roll pitch yaw) ∧
    (∀ (axis : Fin 3 → ℝ) (angle : ℝ),
      rot (quat_from_axis_angle axis angle).quaternion = rot_from_axis_angle axis angle) ∧
    (∀ u v : Xyzw ℝ,
      rot (quat_mul u v).quaternion = rot u.quaternion * rot v.quaternion) ∧
    (∀ m ∈ SO3 ℝ, ∃ q : Wxyz ℝ,
      wxyz_from_rot m = .ok q ∧ normSq q.quaternion = 1 ∧ rot q.quaternion = m) :=
  ⟨rot_quat_from_rpy, rot_quat_from_axis_angle, rot_quat_mul, fun _ hm => wxyz_from_rot_eq hm⟩

/-- The half turn about the third axis, whose trace is negative. -/
theorem quaternion_and_matrix_agree_half_turn :
    ∃ q : Wxyz ℝ, wxyz_from_rot (rot (⟨0, 0, 1, 0⟩ : Xyzw ℝ).quaternion) = .ok q ∧
      normSq q.quaternion = 1 ∧
      rot q.quaternion = rot (⟨0, 0, 1, 0⟩ : Xyzw ℝ).quaternion := by
  apply quaternion_and_matrix_agree.2.2.2
  apply rot_mem
  rw [normSq_def']
  simp

/-- So they are for the mounts of the arms and of the leaders on them. -/
theorem rot_mount (sep_sign tilt : ℝ) :
    rot (mount sep_sign tilt).quat_xyzw.quaternion = (mount sep_sign tilt).rot := by
  show rot (quat_mul _ _).quaternion = _
  rw [rot_quat_mul, rot_quat_from_axis_angle, rot_quat_from_axis_angle]
  rfl

theorem rot_factr_mount {side : String} {m : Mount ℝ} (h : factr_mount side = some m) :
    rot m.quat_xyzw.quaternion = m.rot := by
  obtain ⟨base, hbase, rfl⟩ := Option.map_eq_some_iff.1 h
  have hagree : rot base.quat_xyzw.quaternion = base.rot := by
    obtain ⟨before, after, hlist, _⟩ := List.lookup_eq_some_iff.1 hbase
    have hmem : (side, base) ∈ MOUNTS := by
      rw [hlist]
      exact List.mem_append_right before List.mem_cons_self
    rw [MOUNTS, List.mem_cons, List.mem_singleton] at hmem
    rcases hmem with heq | heq
    · rw [(Prod.mk.inj heq).2]
      exact rot_mount _ _
    · rw [(Prod.mk.inj heq).2]
      exact rot_mount _ _
  show rot (quat_mul _ _).quaternion = _
  rw [rot_quat_mul, rot_quat_from_axis_angle, hagree]

end Real

end DualFlexivControl.Visualization
