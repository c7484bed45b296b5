/-
End-effector velocity control: `_integrate_pose` in `interfaces/flexiv/source.py`.

The arm has no velocity mode for its tool, so the source integrates the commanded twist into a
pose and sends that. The orientation takes a first-order step, which is left multiplication by
`1 + (dt / 2) ω`: it stretches the quaternion, by at least 1, and the division by the norm that
follows never meets a small one ([`one_le_norm_stepped`]).

What stays true over a run is stated for runs of any length, so it is so after each of their
steps.
-/
import Mathlib.LinearAlgebra.Matrix.DotProduct
import DualFlexivControl.Lib.Rotation

set_option autoImplicit false

namespace DualFlexivControl.Flexiv.IntegratePose

open Matrix Quaternion
open Rotation (pure)
open scoped Maths Rotation

/-- `[qw, qx, qy, qz]` -/
structure Quat (F : Type) where
  w : F
  x : F
  y : F
  z : F

/-- `[x, y, z, qw, qx, qy, qz]` -/
structure Pose (F : Type) where
  position : Fin 3 → F
  orientation : Quat F

/-- Linear, then angular. -/
structure Twist (F : Type) where
  linear : Fin 3 → F
  angular : Fin 3 → F

section Functions

variable {F : Type} [Field F] [Scalar F]

/-- `_quat_mult` -/
def quat_mult (a b : Quat F) : Quat F where
  w := a.w * b.w - a.x * b.x - a.y * b.y - a.z * b.z
  x := a.w * b.x + a.x * b.w + a.y * b.z - a.z * b.y
  y := a.w * b.y - a.x * b.z + a.y * b.w + a.z * b.x
  z := a.w * b.z + a.x * b.y - a.y * b.x + a.z * b.w

/-- `np.linalg.norm` -/
def norm (q : Quat F) : F := Scalar.sqrt (q.w * q.w + q.x * q.x + q.y * q.y + q.z * q.z)

/-- The orientation before it is renormalised, `q + 0.5 * (ω * q) * dt`. -/
def stepped (q : Quat F) (w : Fin 3 → F) (dt : F) : Quat F :=
  let p := quat_mult ⟨0, w 0, w 1, w 2⟩ q
  ⟨q.w + 1 / 2 * p.w * dt, q.x + 1 / 2 * p.x * dt, q.y + 1 / 2 * p.y * dt,
    q.z + 1 / 2 * p.z * dt⟩

/-- `_integrate_pose` -/
def integrate_pose (pose : Pose F) (twist : Twist F) (dt : F) : Pose F :=
  let q := pose.orientation
  let qn := stepped q twist.angular dt
  let n := norm qn
  { position := fun i => pose.position i + twist.linear i * dt
    orientation :=
      if Scalar.lt (Scalar.lit (1 / 1000000000)) n then
        ⟨qn.w / n, qn.x / n, qn.y / n, qn.z / n⟩
      else q }

/-- The fields of a Cartesian setpoint, by its kind. -/
inductive CartesianFields (F : Type)
  | eef_vel (twist_d : Twist F)
  | end_effector (pose_d : Pose F) (twist_d : Option (Twist F))
  | force (pose_d : Option (Pose F)) (wrench_d : Fin 6 → F)

/-- The arguments of `SendCartesianMotionForce`, less the limits. -/
structure CartesianCommand (F : Type) where
  pose_d : Pose F
  wrench_d : Fin 6 → F
  twist_d : Twist F

/-- The Cartesian part of `send_control`: the new `_control_target`, and what is sent. -/
def send_control (control_target : Pose F) (fields : CartesianFields F) (dt : F) :
    Pose F × CartesianCommand F :=
  match fields with
  | .eef_vel twist =>
    let target := integrate_pose control_target twist dt
    (target, ⟨target, 0, twist⟩)
  | .end_effector pose_d twist_d => (control_target, ⟨pose_d, 0, twist_d.getD ⟨0, 0⟩⟩)
  | .force pose_d wrench_d =>
    (control_target, ⟨pose_d.getD control_target, wrench_d, ⟨0, 0⟩⟩)

/-- A run of twists. -/
def integrated (pose : Pose F) (dt : F) (twists : List (Twist F)) : Pose F :=
  twists.foldl (fun pose twist => integrate_pose pose twist dt) pose

/-- The commands of a run of velocity setpoints. -/
def sent (target : Pose F) (dt : F) : List (Twist F) → List (CartesianCommand F)
  | [] => []
  | twist :: rest =>
    (send_control target (.eef_vel twist) dt).2 ::
      sent (send_control target (.eef_vel twist) dt).1 dt rest

/-- What is left of `v` orthogonal to `axis`. -/
def orthogonal (axis v : Fin 3 → F) : Fin 3 → F :=
  v - (v ⬝ᵥ axis / axis ⬝ᵥ axis) • axis

/-- The vector part. -/
def Quat.vector (q : Quat F) : Fin 3 → F := ![q.x, q.y, q.z]

end Functions

/-! ## Quaternions -/

section Quaternions

variable {F : Type} [Field F]

def Quat.quaternion (q : Quat F) : ℍ[F] := ⟨q.w, q.x, q.y, q.z⟩

@[simp] theorem Quat.re_quaternion (q : Quat F) : q.quaternion.re = q.w := rfl

@[simp] theorem Quat.imI_quaternion (q : Quat F) : q.quaternion.imI = q.x := rfl

@[simp] theorem Quat.imJ_quaternion (q : Quat F) : q.quaternion.imJ = q.y := rfl

@[simp] theorem Quat.imK_quaternion (q : Quat F) : q.quaternion.imK = q.z := rfl

/-- `_quat_mult` is Hamilton's product. -/
theorem quaternion_mult (a b : Quat F) :
    (quat_mult a b).quaternion = a.quaternion * b.quaternion := by
  ext <;> simp [quat_mult]

/-- The step is a left multiplication, by one plus half the turn that the twist makes in the time
step. -/
theorem quaternion_stepped (q : Quat F) (w : Fin 3 → F) (dt : F) :
    (stepped q w dt).quaternion = (1 + (dt / 2) • pure w) * q.quaternion := by
  have hproduct := quaternion_mult ⟨0, w 0, w 1, w 2⟩ q
  have hpure : (⟨0, w 0, w 1, w 2⟩ : Quat F).quaternion = pure w := rfl
  rw [hpure] at hproduct
  rw [add_mul, one_mul, smul_mul_assoc, ← hproduct]
  ext
  · simp [stepped]
    ring
  · simp [stepped]
    ring
  · simp [stepped]
    ring
  · simp [stepped]
    ring

end Quaternions

/-! ## A step -/

section Step

variable {q : Quat ℝ} {w : Fin 3 → ℝ} {dt : ℝ}

theorem normSq_stepped (h : normSq q.quaternion = 1) : normSq (stepped q w dt).quaternion =
    1 + dt ^ 2 / 4 * (w 0 ^ 2 + w 1 ^ 2 + w 2 ^ 2) := by
  -- the factor of the left multiplication is one plus a pure quaternion
  have hfactor : normSq (1 + (dt / 2) • pure w) =
      1 + dt ^ 2 / 4 * (w 0 ^ 2 + w 1 ^ 2 + w 2 ^ 2) := by
    rw [normSq_def']
    simp
    ring
  rw [quaternion_stepped, map_mul, hfactor, h, mul_one]

theorem norm_nonneg (q : Quat ℝ) : 0 ≤ norm q := Real.sqrt_nonneg _

theorem norm_sq (q : Quat ℝ) : norm q ^ 2 = normSq q.quaternion := by
  have hsum : normSq q.quaternion = q.w * q.w + q.x * q.x + q.y * q.y + q.z * q.z := by
    rw [normSq_def']
    simp
    ring
  unfold norm
  rw [Scalar.sqrt_real, ← hsum]
  exact Real.sq_sqrt normSq_nonneg

/-- A step from a unit quaternion never shrinks it. -/
theorem one_le_norm_stepped (h : normSq q.quaternion = 1) : 1 ≤ norm (stepped q w dt) := by
  have hsq := norm_sq (stepped q w dt)
  rw [normSq_stepped h] at hsq
  have hstretch : 0 ≤ dt ^ 2 / 4 * (w 0 ^ 2 + w 1 ^ 2 + w 2 ^ 2) := by positivity
  -- a norm is not negative, so it is at least 1 where its square is
  nlinarith [norm_nonneg (stepped q w dt)]

/-- The fallback is for norms that do not occur. -/
theorem not_fallback (h : normSq q.quaternion = 1) :
    Scalar.lt (Scalar.lit (1 / 1000000000)) (norm (stepped q w dt)) = true := by
  rw [Scalar.lt_real, Scalar.lit_real]
  refine lt_of_lt_of_le ?_ (one_le_norm_stepped h)
  norm_num

variable {pose : Pose ℝ} {twist : Twist ℝ}

theorem orientation_integrate_pose (h : normSq pose.orientation.quaternion = 1) :
    (integrate_pose pose twist dt).orientation.quaternion =
      (norm (stepped pose.orientation twist.angular dt))⁻¹ •
        (stepped pose.orientation twist.angular dt).quaternion := by
  unfold integrate_pose
  dsimp only
  rw [if_pos (not_fallback h)]
  ext <;> simp [div_eq_inv_mul]

theorem normSq_integrate_pose (h : normSq pose.orientation.quaternion = 1) :
    normSq (integrate_pose pose twist dt).orientation.quaternion = 1 := by
  have hpos : norm (stepped pose.orientation twist.angular dt) ≠ 0 :=
    (lt_of_lt_of_le zero_lt_one (one_le_norm_stepped h)).ne'
  rw [orientation_integrate_pose h, normSq_smul, ← norm_sq, ← mul_pow,
    inv_mul_cancel₀ hpos, one_pow]

/-- A zero twist is no step: position and orientation stay exactly as they are. -/
theorem integrate_pose_zero (h : normSq pose.orientation.quaternion = 1) :
    integrate_pose pose ⟨0, 0⟩ dt = pose := by
  have hstepped : stepped pose.orientation (0 : Fin 3 → ℝ) dt = pose.orientation := by
    simp [stepped, quat_mult]
  -- the step does nothing, and neither does the division by the norm
  have hnorm : norm pose.orientation = 1 := by
    have hsq := norm_sq pose.orientation
    rw [h] at hsq
    exact (pow_eq_one_iff_of_nonneg (norm_nonneg _) two_ne_zero).1 hsq
  unfold integrate_pose
  dsimp only
  rw [hstepped, hnorm]
  simp

/-- A vector without a part orthogonal to an axis is a multiple of it. -/
theorem orthogonal_eq_zero_iff {axis v : Fin 3 → ℝ} :
    orthogonal axis v = 0 ↔ ∃ c : ℝ, v = c • axis := by
  unfold orthogonal
  rw [sub_eq_zero]
  constructor
  · intro h
    exact ⟨_, h⟩
  · rintro ⟨c, rfl⟩
    -- an axis of zero leaves only the zero vector
    by_cases haxis : axis = 0
    · rw [haxis, smul_zero, smul_zero]
    · have hne : axis ⬝ᵥ axis ≠ 0 := by
        rwa [Ne, dotProduct_self_eq_zero]
      rw [smul_dotProduct, smul_eq_mul, mul_div_assoc, div_self hne, mul_one]

/-- A step about an axis that the vector part is parallel to leaves it parallel. -/
theorem vector_integrate_pose (h : normSq pose.orientation.quaternion = 1) {axis : Fin 3 → ℝ}
    {c : ℝ} (hangular : twist.angular = c • axis)
    (hvector : orthogonal axis pose.orientation.vector = 0) :
    orthogonal axis (integrate_pose pose twist dt).orientation.vector = 0 := by
  obtain ⟨v, hv⟩ := orthogonal_eq_zero_iff.1 hvector
  have hx := congrFun hv 0
  have hy := congrFun hv 1
  have hz := congrFun hv 2
  simp [Quat.vector] at hx hy hz
  rw [orthogonal_eq_zero_iff]
  unfold integrate_pose
  dsimp only
  rw [if_pos (not_fallback h), hangular]
  generalize norm (stepped pose.orientation (c • axis) dt) = n
  refine ⟨(v + 1 / 2 * (c * pose.orientation.w) * dt) / n, ?_⟩
  -- the cross product of the two parallel vectors vanishes
  ext i
  fin_cases i <;> simp [Quat.vector, stepped, quat_mult, hx, hy, hz] <;> ring

end Step

/-! ## A run -/

section Run

variable {pose : Pose ℝ} {dt : ℝ}

theorem normSq_integrated (h : normSq pose.orientation.quaternion = 1)
    (twists : List (Twist ℝ)) :
    normSq (integrated pose dt twists).orientation.quaternion = 1 := by
  induction twists generalizing pose with
  | nil => exact h
  | cons twist rest ih => exact ih (normSq_integrate_pose h)

theorem position_integrated (twists : List (Twist ℝ)) :
    (integrated pose dt twists).position =
      pose.position + dt • (twists.map Twist.linear).sum := by
  induction twists generalizing pose with
  | nil => simp [integrated]
  | cons twist rest ih =>
    refine (@ih (integrate_pose pose twist dt)).trans ?_
    rw [List.map_cons, List.sum_cons]
    ext i
    simp only [integrate_pose, Pi.add_apply, Pi.smul_apply, smul_eq_mul]
    ring

theorem vector_integrated (h : normSq pose.orientation.quaternion = 1) {axis : Fin 3 → ℝ}
    {twists : List (Twist ℝ)} (hangular : ∀ twist ∈ twists, ∃ c : ℝ, twist.angular = c • axis)
    (hvector : orthogonal axis pose.orientation.vector = 0) :
    orthogonal axis (integrated pose dt twists).orientation.vector = 0 := by
  induction twists generalizing pose with
  | nil => exact hvector
  | cons twist rest ih =>
    obtain ⟨c, hc⟩ := hangular twist List.mem_cons_self
    exact ih (normSq_integrate_pose h)
      (fun other hother => hangular other (List.mem_cons_of_mem twist hother))
      (vector_integrate_pose h hc hvector)

/-- What a run of twists keeps, whatever the time step: a unit orientation, with the fallback for a
vanishing norm never taken. -/
theorem integrate_pose_run (h : normSq pose.orientation.quaternion = 1) (dt : ℝ)
    (twists : List (Twist ℝ)) :
    normSq (integrated pose dt twists).orientation.quaternion = 1 ∧
      (∀ w : Fin 3 → ℝ, Scalar.lt (Scalar.lit (1 / 1000000000))
        (norm (stepped (integrated pose dt twists).orientation w dt)) = true) ∧
      (integrated pose dt twists).position =
        pose.position + dt • (twists.map Twist.linear).sum ∧
      integrate_pose (integrated pose dt twists) ⟨0, 0⟩ dt = integrated pose dt twists ∧
      ∀ axis : Fin 3 → ℝ, (∀ twist ∈ twists, ∃ c : ℝ, twist.angular = c • axis) →
        orthogonal axis pose.orientation.vector = 0 →
          orthogonal axis (integrated pose dt twists).orientation.vector = 0 :=
  ⟨normSq_integrated h twists, fun _ => not_fallback (normSq_integrated h twists),
    position_integrated twists, integrate_pose_zero (normSq_integrated h twists),
    fun _ hangular hvector => vector_integrated h hangular hvector⟩

/-- A tool that turns about the third axis, from the pose of no rotation. -/
theorem integrate_pose_run_turning :
    normSq (integrated ⟨0, ⟨1, 0, 0, 0⟩⟩ 1
      [⟨0, ![0, 0, 1]⟩, ⟨0, ![0, 0, 2]⟩]).orientation.quaternion = (1 : ℝ) := by
  refine (integrate_pose_run ?_ 1 _).1
  rw [normSq_def']
  simp

/-- The tick of number `i` sends the pose that the twists up to it integrate to. -/
theorem sent_getElem? (target : Pose ℝ) (dt : ℝ) (twists : List (Twist ℝ)) (i : ℕ) :
    (sent target dt twists)[i]? = twists[i]?.map fun twist =>
      ⟨integrated target dt (twists.take (i + 1)), 0, twist⟩ := by
  induction twists generalizing target i with
  | nil => rfl
  | cons twist rest ih =>
    cases i with
    | zero => rfl
    | succ i => exact ih (integrate_pose target twist dt) i

/-- So no tick of a run sends a pose that is none. -/
theorem normSq_sent (h : normSq pose.orientation.quaternion = 1) {twists : List (Twist ℝ)}
    {command : CartesianCommand ℝ} (hsent : command ∈ sent pose dt twists) :
    normSq command.pose_d.orientation.quaternion = 1 := by
  obtain ⟨i, hi⟩ := List.mem_iff_getElem?.1 hsent
  rw [sent_getElem?] at hi
  obtain ⟨twist, _, rfl⟩ := Option.map_eq_some_iff.1 hi
  exact normSq_integrated h _

end Run

end DualFlexivControl.Flexiv.IntegratePose
