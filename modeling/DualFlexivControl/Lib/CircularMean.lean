/-
The mean of angles, when they take only two opposite values.

The circular mean is the direction of the sum of the unit vectors. Of angles that all lie in one
of two opposite directions it is the direction of the majority, however small that is, and the
squares of the deviations are then those of the minority, half a turn each
([`circular_mean_of_majority`], [`rms_of_majority`]). In a tie the sum vanishes and the direction
is 0, whatever the two directions are; but then the deviations cannot all be small
([`rms_of_tie`]).

Which of the two values an element has is a test `b` on the things the angles come from, and
`b x` stands for the second one.
-/
import Mathlib.Algebra.Order.BigOperators.Group.List
import DualFlexivControl.Lib.Maths

set_option autoImplicit false

namespace Maths

open AddCommGroup

section Statistics

variable {F : Type} [Field F] [Maths F]

/-- `np.mean` -/
def mean (xs : List F) : F := xs.sum / xs.length

/-- The direction of the resultant. -/
def circular_mean_deg (vals : List F) : F :=
  degrees (atan2 (mean (vals.map fun v => sin (radians v)))
    (mean (vals.map fun v => cos (radians v))))

/-- `np.sqrt(np.mean(wrap(vals - off) ** 2))` -/
def rms_deviation (vals : List F) (off : F) : F :=
  Scalar.sqrt (mean (vals.map fun v => wrap_deg (v - off) ^ 2))

end Statistics

/-! ## Sums of two values -/

section Counting

variable {α : Type} (xs : List α) (b : α → Bool)

/-- A sum of `c` and `d` only depends on how many there are of each. -/
theorem sum_map_two {f : α → ℝ} {c d : ℝ} (h : ∀ x ∈ xs, f x = if b x then d else c) :
    (xs.map f).sum = (xs.length - xs.countP b) * c + xs.countP b * d := by
  induction xs with
  | nil => simp
  | cons x xs ih =>
    have hrest := ih fun y hy => h y (List.mem_cons_of_mem x hy)
    rw [List.map_cons, List.sum_cons, hrest, h x List.mem_cons_self, List.countP_cons,
      List.length_cons]
    push_cast
    cases b x
    · simp
      ring
    · simp
      ring

/-- A sum of `c` and `-c` counts the votes. -/
theorem sum_map_signed {f : α → ℝ} {c : ℝ} (h : ∀ x ∈ xs, f x = if b x then -c else c) :
    (xs.map f).sum = (xs.length - 2 * xs.countP b) * c := by
  rw [sum_map_two xs b h]
  ring

end Counting

/-! ## Congruent angles -/

section Real

theorem half_turn_twice (a : ℝ) : a + 180 + 180 ≡ a [PMOD (360 : ℝ)] := by
  rw [modEq_iff_eq_add_zsmul]
  refine ⟨-1, ?_⟩
  rw [zsmul_eq_mul]
  push_cast
  ring

theorem radians_turns {a c : ℝ} (h : a ≡ c [PMOD (360 : ℝ)]) :
    ∃ z : ℤ, radians c = radians a + z * (2 * Real.pi) := by
  obtain ⟨z, rfl⟩ := modEq_iff_eq_add_zsmul.1 h
  refine ⟨z, ?_⟩
  show (a + z • (360 : ℝ)) * (Real.pi / 180) = a * (Real.pi / 180) + z * (2 * Real.pi)
  rw [zsmul_eq_mul]
  ring

theorem sin_radians_congr {a c : ℝ} (h : a ≡ c [PMOD (360 : ℝ)]) :
    Real.sin (radians a) = Real.sin (radians c) := by
  obtain ⟨z, hz⟩ := radians_turns h
  rw [hz, Real.sin_add_int_mul_two_pi]

theorem cos_radians_congr {a c : ℝ} (h : a ≡ c [PMOD (360 : ℝ)]) :
    Real.cos (radians a) = Real.cos (radians c) := by
  obtain ⟨z, hz⟩ := radians_turns h
  rw [hz, Real.cos_add_int_mul_two_pi]

theorem radians_half_turn (a : ℝ) : radians (a + 180) = radians a + Real.pi := by
  show (a + 180) * (Real.pi / 180) = a * (Real.pi / 180) + Real.pi
  ring

/-! ## Two opposite directions -/

variable {α : Type} {xs : List α} {b : α → Bool} {f : α → ℝ} {o : ℝ}

/-- The angles `f x` are `o`, or opposite to it where `b x`. -/
def Opposite (xs : List α) (b : α → Bool) (f : α → ℝ) (o : ℝ) : Prop :=
  ∀ x ∈ xs, f x ≡ o + (if b x then 180 else 0) [PMOD (360 : ℝ)]

/-- Seen from the other direction. -/
theorem Opposite.swap (h : Opposite xs b f o) : Opposite xs (fun x => !b x) f (o + 180) := by
  intro x hx
  refine (h x hx).trans ?_
  show o + (if b x then 180 else 0) ≡ o + 180 + (if !b x then 180 else 0) [PMOD (360 : ℝ)]
  cases b x
  · simpa using (half_turn_twice o).symm
  · simp

/-- The resultant points to the first direction by the surplus of its votes. -/
theorem resultant (h : Opposite xs b f o) :
    mean ((xs.map f).map fun v => Real.sin (radians v)) =
      (xs.length - 2 * xs.countP b : ℝ) / xs.length * Real.sin (radians o) ∧
    mean ((xs.map f).map fun v => Real.cos (radians v)) =
      (xs.length - 2 * xs.countP b : ℝ) / xs.length * Real.cos (radians o) := by
  have hsin : ∀ x ∈ xs, Real.sin (radians (f x)) =
      if b x then -Real.sin (radians o) else Real.sin (radians o) := by
    intro x hx
    rw [sin_radians_congr (h x hx)]
    cases b x
    · simp
    · simp [radians_half_turn, Real.sin_add_pi]
  have hcos : ∀ x ∈ xs, Real.cos (radians (f x)) =
      if b x then -Real.cos (radians o) else Real.cos (radians o) := by
    intro x hx
    rw [cos_radians_congr (h x hx)]
    cases b x
    · simp
    · simp [radians_half_turn, Real.cos_add_pi]
  unfold mean
  rw [List.map_map, List.map_map, List.length_map, List.length_map]
  constructor
  · rw [div_mul_eq_mul_div]
    exact congrArg (· / (xs.length : ℝ)) (sum_map_signed xs b hsin)
  · rw [div_mul_eq_mul_div]
    exact congrArg (· / (xs.length : ℝ)) (sum_map_signed xs b hcos)

/-- A majority decides: the mean of two opposite directions is the one that more samples have. -/
theorem circular_mean_of_majority (h : Opposite xs b f o) (hvotes : 2 * xs.countP b < xs.length) :
    circular_mean_deg (xs.map f) ≡ o [PMOD (360 : ℝ)] := by
  obtain ⟨hsin, hcos⟩ := resultant h
  -- the surplus is a positive length, and the angle is that of its polar form
  have hcast : (2 * xs.countP b : ℝ) < xs.length := by exact_mod_cast hvotes
  have hlength : (0 : ℝ) < xs.length := by
    have hcount : (0 : ℝ) ≤ xs.countP b := Nat.cast_nonneg _
    linarith
  have hpos : 0 < (xs.length - 2 * xs.countP b : ℝ) / xs.length :=
    div_pos (sub_pos.2 hcast) hlength
  unfold circular_mean_deg
  simp only [sin_real, cos_real]
  rw [hsin, hcos, atan2_polar hpos]
  -- `arctan2` gives the angle up to full turns
  have hturns := self_sub_toIocDiv_zsmul Real.two_pi_pos (-Real.pi) (radians o)
  rw [← hturns]
  apply AddCommGroup.ModEq.symm
  rw [modEq_iff_eq_add_zsmul]
  refine ⟨-toIocDiv Real.two_pi_pos (-Real.pi) (radians o), ?_⟩
  have hback := degrees_radians o
  have hstep := degrees_turns (toIocDiv Real.two_pi_pos (-Real.pi) (radians o))
  rw [zsmul_eq_mul, zsmul_eq_mul, sub_eq_add_neg, degrees_add, hback]
  have hneg : degrees (-(toIocDiv Real.two_pi_pos (-Real.pi) (radians o) * (2 * Real.pi))) =
      -degrees (toIocDiv Real.two_pi_pos (-Real.pi) (radians o) * (2 * Real.pi)) := neg_mul _ _
  rw [hneg, hstep]
  push_cast
  ring

/-- Then the minority deviates, by half a turn each, and the deviation is that times the root of its
share. -/
theorem rms_of_majority (h : Opposite xs b f o) {off : ℝ} (hoff : off ≡ o [PMOD (360 : ℝ)]) :
    rms_deviation (xs.map f) off = 180 * √(xs.countP b / xs.length) := by
  -- an angle of the majority does not deviate, one of the minority by half a turn
  have hdeviation : ∀ x ∈ xs, wrap_deg (f x - off) ^ 2 = if b x then 180 ^ 2 else 0 := by
    intro x hx
    have hclass := (h x hx).sub hoff
    rw [add_sub_cancel_left] at hclass
    rw [wrap_deg_inj.2 hclass]
    cases b x
    · simp only [Bool.false_eq_true, if_false]
      rw [wrap_deg_of_mem (by norm_num) (by norm_num)]
      norm_num
    · have hwrap : wrap_deg (180 : ℝ) = -180 := by
        rw [← wrap_deg_of_mem (le_refl (-180 : ℝ)) (by norm_num), wrap_deg_inj,
          modEq_iff_eq_add_zsmul]
        exact ⟨-1, by norm_num⟩
      simp only [if_true]
      rw [hwrap]
      norm_num
  have hsum := sum_map_two xs b hdeviation
  rw [mul_zero, zero_add] at hsum
  unfold rms_deviation mean
  rw [List.map_map, List.length_map]
  show √(((xs.map fun x => wrap_deg (f x - off) ^ 2).sum) / xs.length) = _
  rw [hsum, mul_div_right_comm, mul_comm, Real.sqrt_mul (by norm_num), Real.sqrt_sq (by norm_num)]

/-- One of two opposite angles is at least a right angle, in the mean of the squares. -/
theorem le_sq_add_sq (o : ℝ) : 2 * 90 ^ 2 ≤ wrap_deg o ^ 2 + wrap_deg (o + 180) ^ 2 := by
  obtain ⟨hlo, hhi⟩ := wrap_deg_mem o
  have hclass : wrap_deg (o + 180) = wrap_deg (wrap_deg o + 180) :=
    wrap_deg_inj.2 ((wrap_deg_modEq o).symm.add_right 180)
  rw [hclass]
  generalize wrap_deg o = a at hlo hhi
  -- the opposite angle is on the other side of zero
  by_cases ha : a < 0
  · rw [wrap_deg_of_mem (by linarith) (by linarith)]
    nlinarith [sq_nonneg (a + 90)]
  · have hback : wrap_deg (a + 180) = a - 180 := by
      rw [← wrap_deg_of_mem (by linarith) (by linarith : a - 180 < 180), wrap_deg_inj,
        modEq_iff_eq_add_zsmul]
      refine ⟨-1, ?_⟩
      rw [zsmul_eq_mul]
      push_cast
      ring
    rw [hback]
    nlinarith [sq_nonneg (a - 90)]

/-- In a tie nothing decides, and the deviations show it: they are a quarter turn at least, wherever
the mean is put. -/
theorem rms_of_tie (h : Opposite xs b f o) (hne : xs ≠ [])
    (hvotes : 2 * xs.countP b = xs.length) :
    90 ≤ rms_deviation (xs.map f) (circular_mean_deg (xs.map f)) := by
  have hcast : (xs.length : ℝ) = 2 * xs.countP b := by exact_mod_cast hvotes.symm
  have hlength : (0 : ℝ) < xs.length := by exact_mod_cast List.length_pos_iff.2 hne
  -- the resultant vanishes, and `arctan2(0, 0)` is zero
  have hmean : circular_mean_deg (xs.map f) = 0 := by
    obtain ⟨hsin, hcos⟩ := resultant h
    rw [hcast, sub_self, zero_div, zero_mul] at hsin hcos
    unfold circular_mean_deg
    simp only [sin_real, cos_real]
    rw [hsin, hcos, atan2_zero]
    exact zero_mul _
  have hdeviation : ∀ x ∈ xs, wrap_deg (f x - 0) ^ 2 =
      if b x then wrap_deg (o + 180) ^ 2 else wrap_deg o ^ 2 := by
    intro x hx
    rw [sub_zero, wrap_deg_inj.2 (h x hx)]
    cases b x
    · simp
    · simp
  have hsum := sum_map_two xs b hdeviation
  have hcount : (0 : ℝ) < xs.countP b := by linarith
  rw [hmean]
  unfold rms_deviation mean
  rw [List.map_map, List.length_map]
  show 90 ≤ √(((xs.map fun x => wrap_deg (f x - 0) ^ 2).sum) / xs.length)
  rw [hsum, Real.le_sqrt' (by norm_num), le_div_iff₀ hlength, hcast]
  -- half of the angles deviate by `o`, half by its opposite
  have hboth := mul_le_mul_of_nonneg_left (le_sq_add_sq o) hcount.le
  linarith

end Real

end Maths
