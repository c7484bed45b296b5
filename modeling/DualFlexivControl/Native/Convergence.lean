/-
When the streamed trajectory settles at a constant desired position.

`ValidateTrajectory` samples one velocity limit, one acceleration limit and one step of one
radian, and asks for `1e-5`. In the units of [`unit_tick`] every joint follows the same law, with
the velocity limit and the snapping distance of `1e-7` as its only parameters, so the limits under
which it settles from everywhere are those of [`Window`] read back in seconds and radians
([`trajectory_settles_iff`]). The limits of the self-test are not among them: a microradian
away the joint chatters for ever.
-/
import DualFlexivControl.Native.Chatter
import DualFlexivControl.Native.Trajectory

set_option autoImplicit false

namespace DualFlexivControl.Native

open Scalar hiding min max

/-! ## The units -/

section Units

variable {lim : Limits ℝ} {d : ℝ} {j : Joint ℝ}

/-- What a tick of acceleration changes the velocity by. -/
noncomputable def tick_speed (lim : Limits ℝ) : ℝ := lim.max_joint_acc * dt

/-- A joint as the unit law sees it. -/
noncomputable def unit_offset (lim : Limits ℝ) (d : ℝ) (j : Joint ℝ) : Offset :=
  ⟨(d - j.q) / (tick_speed lim * dt), j.dq / tick_speed lim⟩

/-- The velocity limit and the snapping distance as the unit law sees them. -/
noncomputable def speed_limit (lim : Limits ℝ) : ℝ := lim.max_joint_vel / tick_speed lim

noncomputable def window (lim : Limits ℝ) : ℝ := snap / (tick_speed lim * dt)

theorem dt_real : (dt : ℝ) = 1 / 1000 := by
  show ((1 / 1000 : ℚ) : ℝ) = 1 / 1000
  norm_num

theorem snap_real : (snap : ℝ) = 1 / 10000000 := by
  show ((1 / 10000000 : ℚ) : ℝ) = 1 / 10000000
  norm_num

theorem tick_speed_pos (ha : 0 < lim.max_joint_acc) : 0 < tick_speed lim := mul_pos ha dt_pos

theorem delta_eq (ha : 0 < lim.max_joint_acc) :
    d - j.q = tick_speed lim * dt * (unit_offset lim d j).x :=
  (mul_div_cancel₀ _ (mul_pos (tick_speed_pos ha) dt_pos).ne').symm

theorem dq_eq (ha : 0 < lim.max_joint_acc) : j.dq = tick_speed lim * (unit_offset lim d j).u :=
  (mul_div_cancel₀ _ (tick_speed_pos ha).ne').symm

/-- `|delta| < 1e-7` and the joint can be stopped in one tick. -/
theorem snaps_iff (ha : 0 < lim.max_joint_acc) :
    |d - j.q| < snap ∧ |j.dq| ≤ lim.max_joint_acc * dt ↔
      Caught (window lim) (unit_offset lim d j) := by
  have hspeed := tick_speed_pos ha
  have hstep := mul_pos hspeed dt_pos
  unfold Caught window unit_offset
  rw [abs_div, abs_div, abs_of_pos hspeed, abs_of_pos hstep, div_lt_div_iff_of_pos_right hstep,
    div_le_one hspeed]
  rfl

/-- `desired_velocity` is the profile of the unit law, in the units in which one tick of
acceleration is one. -/
theorem desired_velocity_eq (hv : 0 < lim.max_joint_vel) (ha : 0 < lim.max_joint_acc) :
    copysign (Scalar.min lim.max_joint_vel √(lit 2 * lim.max_joint_acc * |d - j.q|)) (d - j.q) =
      tick_speed lim * pull (speed_limit lim) (unit_offset lim d j).x := by
  have hspeed := tick_speed_pos ha
  have hstep := mul_pos hspeed dt_pos
  obtain ⟨x, hx⟩ : ∃ x, x = (unit_offset lim d j).x := ⟨_, rfl⟩
  have hdelta : d - j.q = tick_speed lim * dt * x := hx ▸ delta_eq ha
  have hbrake : √(lit 2 * lim.max_joint_acc * |d - j.q|) = tick_speed lim * √(2 * |x|) := by
    have hsq : lit 2 * lim.max_joint_acc * |d - j.q| = tick_speed lim ^ 2 * (2 * |x|) := by
      rw [hdelta, abs_mul, abs_of_pos hstep]
      show ((2 : ℚ) : ℝ) * lim.max_joint_acc * _ = _
      unfold tick_speed
      push_cast
      ring
    rw [hsq, Real.sqrt_mul (sq_nonneg _), Real.sqrt_sq hspeed.le]
  have hlimit : lim.max_joint_vel = tick_speed lim * speed_limit lim :=
    (mul_div_cancel₀ _ hspeed.ne').symm
  have hmin : min lim.max_joint_vel √(lit 2 * lim.max_joint_acc * |d - j.q|) =
      tick_speed lim * min (speed_limit lim) √(2 * |x|) := by
    rw [hbrake, mul_min_of_nonneg _ _ hspeed.le, ← hlimit]
  have hnonneg : 0 ≤ min lim.max_joint_vel √(lit 2 * lim.max_joint_acc * |d - j.q|) :=
    le_min hv.le (Real.sqrt_nonneg _)
  have hsign : d - j.q < 0 ↔ x < 0 := by
    rw [hdelta, mul_neg_iff]
    simp [hstep, not_lt.2 hstep.le]
  rw [min_real, ← hx]
  show (if d - j.q < 0 then -|min lim.max_joint_vel _| else |min lim.max_joint_vel _|) = _
  rw [abs_of_nonneg hnonneg, hmin]
  unfold pull
  rw [← two_mul]
  by_cases hneg : x < 0
  · rw [if_pos (hsign.2 hneg), if_pos hneg, mul_neg]
  · rw [if_neg (mt hsign.1 hneg), if_neg hneg]

theorem clamp_real {v m : ℝ} (hm : 0 ≤ m) : clamp v (-m) m = max (-m) (min v m) := by
  unfold clamp
  by_cases hlo : v < -m
  · rw [if_pos ((lt_real _ _).2 hlo), min_eq_left (by linarith), max_eq_left hlo.le]
  · rw [if_neg (mt (lt_real _ _).1 hlo)]
    rw [not_lt] at hlo
    by_cases hhi : m < v
    · rw [if_pos ((lt_real _ _).2 hhi), min_eq_right hhi.le, max_eq_right (by linarith)]
    · rw [if_neg (mt (lt_real _ _).1 hhi), min_eq_left (not_lt.1 hhi), max_eq_right hlo]

/-- The new `target_dq`. -/
theorem next_velocity_eq (ha : 0 < lim.max_joint_acc) {V : ℝ} {w : ℝ}
    (hw : w = tick_speed lim * pull V (unit_offset lim d j).x) :
    j.dq + clamp (w - j.dq) (-(tick_speed lim)) (tick_speed lim) =
      tick_speed lim * velocity V (unit_offset lim d j) := by
  have hspeed := tick_speed_pos ha
  rw [clamp_real hspeed.le, ← max_add_add_left, ← min_add_add_left, add_sub_cancel, velocity,
    mul_max_of_nonneg _ _ hspeed.le, mul_min_of_nonneg _ _ hspeed.le, mul_sub, mul_add, mul_one,
    ← dq_eq ha, ← hw, ← sub_eq_add_neg]

/-- **One tick is a tick of the unit law**, with the limits and the snapping distance in its units.
-/
theorem unit_offset_advance (hv : 0 < lim.max_joint_vel) (ha : 0 < lim.max_joint_acc) (d : ℝ)
    (j : Joint ℝ) : unit_offset lim d (advance_joint lim d j) =
      unit_tick (speed_limit lim) (window lim) (unit_offset lim d j) := by
  have hspeed := tick_speed_pos ha
  have hstep := mul_pos hspeed dt_pos
  unfold advance_joint
  simp only [abs_real, sqrt_real]
  by_cases hsnap : |d - j.q| < snap ∧ |j.dq| ≤ lim.max_joint_acc * dt
  · rw [if_pos (Bool.and_eq_true_iff.2 ⟨(lt_real _ _).2 hsnap.1, (le_real _ _).2 hsnap.2⟩),
      tick_caught ((snaps_iff ha).1 hsnap)]
    simp [unit_offset]
  · rw [if_neg fun hcon => hsnap ((Bool.and_eq_true_iff.1 hcon).imp (lt_real _ _).1
      (le_real _ _).1), tick_free (mt (snaps_iff ha).2 hsnap), neg_mul]
    have hnext := next_velocity_eq ha (desired_velocity_eq (d := d) (j := j) hv ha)
    rw [show lim.max_joint_acc * dt = tick_speed lim from rfl, hnext]
    ext
    · show (d - (j.q + tick_speed lim * _ * dt)) / _ = (d - j.q) / _ - _
      rw [div_eq_iff hstep.ne', sub_mul, div_mul_cancel₀ _ hstep.ne']
      ring
    · exact mul_div_cancel_left₀ _ hspeed.ne'

end Units

/-! ## Runs at a constant desired position -/

section Settling

variable {lim : Limits ℝ}

/-- The self-test's question, for every start at rest and every desired position: from some tick
on, every joint is within `1e-5` of it and slower than `1e-5`. -/
def Settles (lim : Limits ℝ) : Prop :=
  ∀ (dof : ℕ) (setpoint desired : Fin dof → ℝ), ∃ N, ∀ n ≥ N, ∀ i,
    |(run_trajectory lim setpoint (List.replicate n desired) i).q - desired i| ≤ 1 / 100000 ∧
      |(run_trajectory lim setpoint (List.replicate n desired) i).dq| ≤ 1 / 100000

theorem unit_offset_run (hv : 0 < lim.max_joint_vel) (ha : 0 < lim.max_joint_acc) {dof : ℕ}
    (setpoint desired : Fin dof → ℝ) (n : ℕ) (i : Fin dof) :
    unit_offset lim (desired i) (run_trajectory lim setpoint (List.replicate n desired) i) =
      (unit_tick (speed_limit lim) (window lim))^[n]
        ⟨(desired i - setpoint i) / (tick_speed lim * dt), 0⟩ := by
  induction n with
  | zero =>
    show unit_offset lim (desired i) ⟨setpoint i, lit 0, lit 0⟩ = _
    simp [unit_offset]
  | succ n ih =>
    rw [List.replicate_succ', run_trajectory, List.foldl_append, Function.iterate_succ_apply', ← ih]
    exact unit_offset_advance hv ha (desired i) _

/-- The unit law at rest at the desired position is the joint there. -/
theorem at_desired {d : ℝ} {j : Joint ℝ} (ha : 0 < lim.max_joint_acc)
    (h : unit_offset lim d j = ⟨0, 0⟩) : j.q = d ∧ j.dq = 0 := by
  have hdelta : d - j.q = tick_speed lim * dt * (unit_offset lim d j).x := delta_eq ha
  have hdq : j.dq = tick_speed lim * (unit_offset lim d j).u := dq_eq ha
  rw [h, mul_zero] at hdelta hdq
  exact ⟨by linarith, hdq⟩

theorem settles_of_window (hv : 0 < lim.max_joint_vel) (ha : 0 < lim.max_joint_acc)
    (h : Window (speed_limit lim) (window lim)) : Settles lim := by
  intro dof setpoint desired
  have hV : 0 < speed_limit lim := div_pos hv (tick_speed_pos ha)
  have hs : 0 < window lim := by
    refine div_pos ?_ (mul_pos (tick_speed_pos ha) dt_pos)
    rw [snap_real]
    norm_num
  choose catch_tick hcatch using fun i =>
    window_settles hV h ((desired i - setpoint i) / (tick_speed lim * dt))
  refine ⟨Finset.univ.sup catch_tick + 1, fun n hn i => ?_⟩
  have hlate : catch_tick i + 1 ≤ n :=
    (Nat.succ_le_succ (Finset.le_sup (Finset.mem_univ i))).trans hn
  obtain ⟨k, rfl⟩ := Nat.exists_eq_add_of_le hlate
  have hrest : unit_offset lim (desired i)
      (run_trajectory lim setpoint (List.replicate (catch_tick i + 1 + k) desired) i) = ⟨0, 0⟩ := by
    rw [unit_offset_run hv ha, show catch_tick i + 1 + k = k + 1 + catch_tick i by ring,
      Function.iterate_add_apply]
    exact stays_caught hs (hcatch i) k
  obtain ⟨hq, hdq⟩ := at_desired ha hrest
  rw [hq, hdq, sub_self, abs_zero]
  constructor <;> norm_num

/-- A joint that chatters faster than the bound is never settled. -/
theorem unsettled_of_chatter (hv : 0 < lim.max_joint_vel) (ha : 0 < lim.max_joint_acc) {x : ℝ}
    (setpoint desired : Fin 1 → ℝ) (hx : (desired 0 - setpoint 0) / (tick_speed lim * dt) = x)
    {c : ℝ}
    (hchatter : ∀ n, c ≤ |((unit_tick (speed_limit lim) (window lim))^[2 * n + 1] ⟨x, 0⟩).u|)
    (hfast : 1 / 100000 < tick_speed lim * c) (N : ℕ) :
    ∃ n ≥ N, 1 / 100000 < |(run_trajectory lim setpoint (List.replicate n desired) 0).dq| := by
  refine ⟨2 * N + 1, by omega, ?_⟩
  rw [dq_eq (d := desired 0) ha, unit_offset_run hv ha, hx, abs_mul, abs_of_pos (tick_speed_pos ha)]
  exact hfast.trans_le (mul_le_mul_of_nonneg_left (hchatter N) (tick_speed_pos ha).le)

/-- The slowest chatter is still faster than the bound, so a joint that is ever slower has settled.
-/
theorem chatter_too_fast (hv : 0 < lim.max_joint_vel) (ha : 0 < lim.max_joint_acc)
    (h : ¬ Window (speed_limit lim) (window lim)) :
    1 / 100000 < tick_speed lim * min (speed_limit lim) (1 / 2) := by
  have hspeed := tick_speed_pos ha
  have hsnap : tick_speed lim * window lim = 1 / 10000 := by
    rw [window, snap_real, dt_real]
    field_simp
    norm_num
  have hle := mul_le_mul_of_nonneg_left (le_min_of_not_window (div_pos hv hspeed) h) hspeed.le
  rw [hsnap] at hle
  exact lt_of_lt_of_le (by norm_num) hle

/-- The windows in seconds and radians. -/
def WideEnough (lim : Limits ℝ) : Prop :=
  lim.max_joint_acc / 1000 ≤ lim.max_joint_vel ∧ lim.max_joint_acc < 1 / 5 ∨
    (lim.max_joint_acc / 2000 < lim.max_joint_vel ∧
      lim.max_joint_vel < lim.max_joint_acc / 1000 ∧ lim.max_joint_acc < 4 / 5) ∨
    lim.max_joint_vel ≤ lim.max_joint_acc / 2000 ∧ lim.max_joint_vel < 1 / 5000

theorem window_iff (ha : 0 < lim.max_joint_acc) :
    Window (speed_limit lim) (window lim) ↔ WideEnough lim := by
  -- in the limits alone: one tick adds a thousandth of the acceleration to the speed
  have hspeed := tick_speed_pos ha
  have hstep := mul_pos hspeed dt_pos
  have htick : tick_speed lim = lim.max_joint_acc / 1000 := by
    rw [tick_speed, dt_real]
    ring
  have hsnap : snap = 1 / (10 * lim.max_joint_acc) * (tick_speed lim * dt) := by
    rw [snap_real, htick, dt_real]
    field_simp
    norm_num
  have hwindow : window lim = 1 / (10 * lim.max_joint_acc) := by
    rw [window, div_eq_iff hstep.ne']
    exact hsnap
  have h10 : 0 < 10 * lim.max_joint_acc := by linarith
  -- the bounds of the three cases, in the limits
  have hone : 1 ≤ speed_limit lim ↔ lim.max_joint_acc / 1000 ≤ lim.max_joint_vel := by
    rw [speed_limit, one_le_div hspeed, htick]
  have hhalf : speed_limit lim ≤ 1 / 2 ↔ lim.max_joint_vel ≤ lim.max_joint_acc / 2000 := by
    rw [speed_limit, div_le_iff₀ hspeed, htick, show (1 / 2 : ℝ) * (lim.max_joint_acc / 1000) =
      lim.max_joint_acc / 2000 by ring]
  have hfast : 1 / 2 < window lim ↔ lim.max_joint_acc < 1 / 5 := by
    rw [hwindow, lt_div_iff₀ h10]
    constructor <;> intro h <;> linarith
  have hbetween : 1 / 8 < window lim ↔ lim.max_joint_acc < 4 / 5 := by
    rw [hwindow, lt_div_iff₀ h10]
    constructor <;> intro h <;> linarith
  have hslow : speed_limit lim / 2 < window lim ↔ lim.max_joint_vel < 1 / 5000 := by
    rw [hwindow, speed_limit, htick, lt_div_iff₀ h10, show lim.max_joint_vel /
      (lim.max_joint_acc / 1000) / 2 * (10 * lim.max_joint_acc) = 5000 * lim.max_joint_vel by
        field_simp
        ring]
    constructor <;> intro h <;> linarith
  have hmiddle := hhalf.not
  rw [not_le, not_le] at hmiddle
  have hbelow := hone.not
  rw [not_le, not_le] at hbelow
  rw [WideEnough, ← hone, ← hfast, ← hmiddle, ← hbelow, ← hbetween, ← hhalf, ← hslow]
  constructor
  · rintro (⟨hV, hs⟩ | ⟨hV, hV1, hs⟩ | ⟨hV, hs⟩)
    · exact Or.inl ⟨hV, hs⟩
    · exact Or.inr (Or.inl ⟨hV, hV1, hs⟩)
    · exact Or.inr (Or.inr ⟨hV, hs⟩)
  · rintro (⟨hV, hs⟩ | ⟨hV, hV1, hs⟩ | ⟨hV, hs⟩)
    · exact .fast hV hs
    · exact .between hV hV1 hs
    · exact .slow hV hs

/-- **When the trajectory settles.** From every start at rest and towards every constant desired
position, exactly under the limits whose snapping window is wide enough. -/
theorem trajectory_settles_iff (lim : Limits ℝ) (hv : 0 < lim.max_joint_vel)
    (ha : 0 < lim.max_joint_acc) : Settles lim ↔ WideEnough lim := by
  rw [← window_iff ha]
  refine ⟨fun hsettles => ?_, settles_of_window hv ha⟩
  by_contra hnarrow
  obtain ⟨x, hx⟩ := chatters (div_pos hv (tick_speed_pos ha)) hnarrow
  have hstep := mul_pos (tick_speed_pos ha) dt_pos
  obtain ⟨N, hN⟩ := hsettles 1 (fun _ => 0) fun _ => x * (tick_speed lim * dt)
  have hdistance : (x * (tick_speed lim * dt) - 0) / (tick_speed lim * dt) = x := by
    rw [sub_zero, mul_div_cancel_right₀ _ hstep.ne']
  obtain ⟨n, hn, hfast⟩ := unsettled_of_chatter hv ha (fun _ => 0)
    (fun _ => x * (tick_speed lim * dt)) hdistance hx (chatter_too_fast hv ha hnarrow) N
  exact absurd (hN n hn 0).2 (not_le.2 hfast)

/-- Slower accelerations settle at any speed. -/
theorem trajectory_settles_iff_gentle :
    (0 : ℝ) < 1.5 ∧ (0 : ℝ) < 0.19 ∧ (Settles ⟨1.5, 0.19⟩ ↔ WideEnough ⟨1.5, 0.19⟩) := by
  have hv : (0 : ℝ) < 1.5 := by norm_num
  have ha : (0 : ℝ) < 0.19 := by norm_num
  exact ⟨hv, ha, trajectory_settles_iff ⟨1.5, 0.19⟩ hv ha⟩

/-- `max_velocity` and `max_acceleration` of `ValidateTrajectory`. -/
noncomputable def self_test_limits : Limits ℝ := ⟨1.5, 2.0⟩

/-- Under the limits of the self-test, one joint and a step of a microradian. -/
theorem self_test_limits_chatter :
    ¬ ∃ N, ∀ n ≥ N, ∀ i : Fin 1,
      |(run_trajectory self_test_limits (fun _ : Fin 1 => (0 : ℝ))
        (List.replicate n fun _ => 1 / 1000000) i).q - 1 / 1000000| ≤ 1 / 100000 ∧
      |(run_trajectory self_test_limits (fun _ : Fin 1 => (0 : ℝ))
        (List.replicate n fun _ => 1 / 1000000) i).dq| ≤ 1 / 100000 := by
  rintro ⟨N, hN⟩
  have hv : 0 < self_test_limits.max_joint_vel := by norm_num [self_test_limits]
  have ha : 0 < self_test_limits.max_joint_acc := by norm_num [self_test_limits]
  have htick : tick_speed self_test_limits = 1 / 500 := by
    rw [tick_speed, dt_real]
    norm_num [self_test_limits]
  have hV : 1 ≤ speed_limit self_test_limits := by
    rw [speed_limit, htick]
    norm_num [self_test_limits]
  have hs : window self_test_limits ≤ 1 / 2 := by
    rw [window, htick, snap_real, dt_real]
    norm_num
  have hdistance : ((1 / 1000000 : ℝ) - 0) / (tick_speed self_test_limits * dt) = 1 / 2 := by
    rw [htick, dt_real]
    norm_num
  have htoo_fast : 1 / 100000 < tick_speed self_test_limits * 1 := by
    rw [htick]
    norm_num
  obtain ⟨n, hn, hfast⟩ := unsettled_of_chatter hv ha (fun _ => 0)
    (fun _ => 1 / 1000000) hdistance (fun n => (chatter_fast hV hs n).ge)
    htoo_fast N
  exact absurd (hN n hn 0).2 (not_le.2 hfast)

end Settling

end DualFlexivControl.Native
