/-
`AdvanceTrajectory` of the native controller: one 1 kHz step of the bounded
trajectory the robot is streamed.

Each joint is on its own. A tick either snaps to the desired position, when that is
within a tenth of a microradian and the joint can be stopped in one tick, or steers
the velocity towards the largest one it could still brake from, by at most one tick
of acceleration. The routine is written once, over [`Scalar`]; here it is read over
the reals, and the limits hold after every tick whatever the desired positions do
([`advance_joint_bounded`] is the step, [`run_trajectory_within`] the run).
-/
import DualFlexivControl.Lib.Scalar
import Mathlib.Tactic.FieldSimp
import Mathlib.Tactic.Positivity

set_option autoImplicit false

namespace DualFlexivControl.Native

open Scalar hiding min max

/-! ## The routine -/

section Routine

variable {F : Type} [Add F] [Sub F] [Mul F] [Div F] [Neg F] [Scalar F]

/-- `dt`, the loop period in seconds. -/
def dt : F := lit (1 / 1000)

/-- The snapping distance `1e-7`. -/
def snap : F := lit (1 / 10000000)

/-- What the controller streams for one joint. -/
structure Joint (F : Type) where
  q : F
  dq : F
  ddq : F
  deriving DecidableEq

/-- `max_joint_vel` and `max_joint_acc`. -/
structure Limits (F : Type) where
  max_joint_vel : F
  max_joint_acc : F

/-- The body of `AdvanceTrajectory`, for one joint. -/
def advance_joint (lim : Limits F) (desired_q : F) (target : Joint F) : Joint F :=
  let delta := desired_q - target.q
  let previous_velocity := target.dq
  if lt (abs delta) snap && le (abs previous_velocity) (lim.max_joint_acc * dt) then
    ⟨desired_q, lit 0, -previous_velocity / dt⟩
  else
    let braking_speed := sqrt (lit 2 * lim.max_joint_acc * abs delta)
    let speed := Scalar.min lim.max_joint_vel braking_speed
    let desired_velocity := copysign speed delta
    let velocity_delta := clamp (desired_velocity - previous_velocity)
      (-lim.max_joint_acc * dt) (lim.max_joint_acc * dt)
    let dq := previous_velocity + velocity_delta
    ⟨target.q + dq * dt, dq, velocity_delta / dt⟩

/-- `AdvanceTrajectory`. -/
def advance_trajectory {dof : ℕ} (lim : Limits F) (desired_q : Fin dof → F)
    (target : Fin dof → Joint F) : Fin dof → Joint F :=
  fun i => advance_joint lim (desired_q i) (target i)

/-- The trajectory state `Run` starts its loop with. -/
def at_rest {dof : ℕ} (setpoint : Fin dof → F) : Fin dof → Joint F :=
  fun i => ⟨setpoint i, lit 0, lit 0⟩

/-- The state after the ticks that tracked `desired`, oldest first. -/
def run_trajectory {dof : ℕ} (lim : Limits F) (setpoint : Fin dof → F)
    (desired : List (Fin dof → F)) : Fin dof → Joint F :=
  desired.foldl (fun target desired_q => advance_trajectory lim desired_q target)
    (at_rest setpoint)

end Routine

/-! ## One tick over the reals -/

/-- The motion limits of a joint after a tick, with where it came from. -/
structure Bounded (lim : Limits ℝ) (before after : Joint ℝ) : Prop where
  velocity : |after.dq| ≤ lim.max_joint_vel
  acceleration : |after.ddq| ≤ lim.max_joint_acc
  integrates : after.dq = before.dq + after.ddq * dt
  step : |after.q - before.q| ≤ max (lim.max_joint_vel * dt) snap

theorem dt_pos : (0 : ℝ) < dt := by
  show (0 : ℝ) < ((1 / 1000 : ℚ) : ℝ)
  norm_num

/-- Snapping: the joint could be stopped within one tick of acceleration, so setting its velocity to
zero exceeds no limit. -/
theorem snap_bounded {lim : Limits ℝ} (hv : 0 < lim.max_joint_vel) {d : ℝ} {j : Joint ℝ}
    (hdelta : |d - j.q| < snap) (hstop : |j.dq| ≤ lim.max_joint_acc * dt) :
    Bounded lim j ⟨d, lit 0, -j.dq / dt⟩ := by
  have hdt := dt_pos
  refine ⟨?_, ?_, ?_, ?_⟩
  · show |((0 : ℚ) : ℝ)| ≤ lim.max_joint_vel
    rw [Rat.cast_zero, abs_zero]
    exact hv.le
  · show |-j.dq / dt| ≤ lim.max_joint_acc
    rw [abs_div, abs_neg, abs_of_pos hdt, div_le_iff₀ hdt]
    exact hstop
  · show ((0 : ℚ) : ℝ) = j.dq + -j.dq / dt * dt
    rw [div_mul_cancel₀ _ hdt.ne', Rat.cast_zero, add_neg_cancel]
  · exact hdelta.le.trans (le_max_right _ _)

/-- Tracking: the velocity moves by at most one tick of acceleration towards one
inside the limit. -/
theorem track_bounded {lim : Limits ℝ} (ha : 0 < lim.max_joint_acc) {j : Joint ℝ}
    (hj : |j.dq| ≤ lim.max_joint_vel) {target : ℝ} (htarget : |target| ≤ lim.max_joint_vel) {vd : ℝ}
    (hvd : vd = clamp (target - j.dq) (-(lim.max_joint_acc * dt)) (lim.max_joint_acc * dt)) :
    Bounded lim j ⟨j.q + (j.dq + vd) * dt, j.dq + vd, vd / dt⟩ := by
  have hdt := dt_pos
  have hm : 0 ≤ lim.max_joint_acc * dt := (mul_pos ha hdt).le
  have hvel : |j.dq + vd| ≤ lim.max_joint_vel := by
    rw [hvd]
    exact abs_add_clamp_real_le hm hj htarget
  refine ⟨hvel, ?_, ?_, ?_⟩
  · show |vd / dt| ≤ lim.max_joint_acc
    rw [abs_div, abs_of_pos hdt, div_le_iff₀ hdt, hvd]
    exact abs_clamp_real_le hm
  · show j.dq + vd = j.dq + vd / dt * dt
    rw [div_mul_cancel₀ _ hdt.ne']
  · show |j.q + (j.dq + vd) * dt - j.q| ≤ max (lim.max_joint_vel * dt) snap
    rw [add_sub_cancel_left, abs_mul, abs_of_pos hdt]
    exact (mul_le_mul_of_nonneg_right hvel hdt.le).trans (le_max_left _ _)

/-- **One tick** keeps velocity and acceleration within the limits and moves no further than it
reports, in each of its branches. -/
theorem advance_joint_bounded {lim : Limits ℝ} (hv : 0 < lim.max_joint_vel)
    (ha : 0 < lim.max_joint_acc) (d : ℝ) {j : Joint ℝ} (hj : |j.dq| ≤ lim.max_joint_vel) :
    Bounded lim j (advance_joint lim d j) := by
  unfold advance_joint
  simp only [abs_real, sqrt_real]
  by_cases hsnap : |d - j.q| < snap ∧ |j.dq| ≤ lim.max_joint_acc * dt
  · rw [if_pos (Bool.and_eq_true_iff.mpr ⟨(lt_real _ _).mpr hsnap.1, (le_real _ _).mpr hsnap.2⟩)]
    exact snap_bounded hv hsnap.1 hsnap.2
  · rw [if_neg fun hcon => hsnap ((Bool.and_eq_true_iff.mp hcon).imp (lt_real _ _).mp
      (le_real _ _).mp)]
    refine track_bounded ha hj ?_ (by rw [neg_mul])
    -- the braking speed is a root, so the limit is what bounds the minimum
    rw [abs_copysign_real, min_real, abs_of_nonneg (le_inf hv.le (Real.sqrt_nonneg _))]
    exact inf_le_left

/-! ## Every tick -/

/-- The velocity limit holds between ticks, whatever was tracked so far, by induction on the
setpoints. -/
theorem run_trajectory_within {dof : ℕ} {lim : Limits ℝ} (hv : 0 < lim.max_joint_vel)
    (ha : 0 < lim.max_joint_acc) (setpoint : Fin dof → ℝ) (desired : List (Fin dof → ℝ))
    (i : Fin dof) : |(run_trajectory lim setpoint desired i).dq| ≤ lim.max_joint_vel := by
  induction desired using List.reverseRecOn with
  | nil =>
    show |((0 : ℚ) : ℝ)| ≤ lim.max_joint_vel
    rw [Rat.cast_zero, abs_zero]
    exact hv.le
  | append_singleton desired d ih =>
    rw [run_trajectory, List.foldl_append]
    exact (advance_joint_bounded hv ha (d i) ih).velocity

/-- **The streamed trajectory is bounded.** From rest anywhere, after any ticks with
any desired positions, the next tick keeps every joint's velocity and acceleration
inside the limits, integrates the acceleration it reports, and moves the position by
no more than a tick at full speed or the snapping distance. -/
theorem streamed_trajectory_bounded {dof : ℕ} (lim : Limits ℝ) (hv : 0 < lim.max_joint_vel)
    (ha : 0 < lim.max_joint_acc) (setpoint : Fin dof → ℝ) (desired : List (Fin dof → ℝ))
    (desired_q : Fin dof → ℝ) (i : Fin dof) :
    Bounded lim (run_trajectory lim setpoint desired i)
      (run_trajectory lim setpoint (desired ++ [desired_q]) i) := by
  have hstep := advance_joint_bounded hv ha (desired_q i)
    (run_trajectory_within hv ha setpoint desired i)
  rwa [show run_trajectory lim setpoint (desired ++ [desired_q]) i =
    advance_joint lim (desired_q i) (run_trajectory lim setpoint desired i) by
      rw [run_trajectory, List.foldl_append]; rfl]

/-- The limits of the controller's own self-test, one joint, a step of one radian. -/
theorem streamed_trajectory_bounded_self_test :
    (0 : ℝ) < 1.5 ∧ (0 : ℝ) < 2 ∧ Bounded ⟨1.5, 2⟩
      (run_trajectory ⟨1.5, 2⟩ (fun _ : Fin 1 => 0) [] 0)
      (run_trajectory ⟨1.5, 2⟩ (fun _ : Fin 1 => 0) [fun _ => 1] 0) := by
  have hv : (0 : ℝ) < 1.5 := by norm_num
  have ha : (0 : ℝ) < 2 := by norm_num
  exact ⟨hv, ha, streamed_trajectory_bounded ⟨1.5, 2⟩ hv ha (fun _ => 0) [] (fun _ => 1) 0⟩

end DualFlexivControl.Native
