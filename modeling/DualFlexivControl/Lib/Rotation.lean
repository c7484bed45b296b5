/-
Rotations of space: quaternions, orthogonal matrices, Euler angles and rigid motions.

A quaternion turns a vector by conjugation, and [`rot`] is the matrix of that; it is
multiplicative for all quaternions, and a rotation for those of norm 1. That each rotation is one
of these follows from its Euler angles: where the pitch is not a right angle they are read off the
first column and the last row, and where it is, one of the three is free ([`eq_euler`],
[`eq_euler_of_lock`]). A rotation is the matrix of its own cofactors, and all of these are
identities between the entries that use it.
-/
import Mathlib.Algebra.Quaternion
import Mathlib.LinearAlgebra.Matrix.Adjugate
import Mathlib.LinearAlgebra.Matrix.Notation
import Mathlib.LinearAlgebra.UnitaryGroup
import Mathlib.Tactic.FinCases
import DualFlexivControl.Lib.Maths

set_option autoImplicit false

namespace Rotation

open Matrix Quaternion
open scoped Maths

/-- Space has axes, which are numbered from zero. -/
scoped instance three : NeZero 3 := ⟨three_ne_zero⟩

/-- The rotations of space. -/
abbrev SO3 (F : Type) [CommRing F] : Submonoid (Matrix (Fin 3) (Fin 3) F) :=
  specialOrthogonalGroup (Fin 3) F

section Ring

variable {F : Type} [CommRing F]

/-! ## Quaternions -/

/-- A vector as a quaternion. -/
def pure (v : Fin 3 → F) : ℍ[F] := ⟨0, v 0, v 1, v 2⟩

/-- A vector is turned into a quaternion without a real part. -/
@[simp] theorem re_pure (v : Fin 3 → F) : (pure v).re = 0 := rfl

/-- Its first component stands at `i`. -/
@[simp] theorem imI_pure (v : Fin 3 → F) : (pure v).imI = v 0 := rfl

/-- Its second component stands at `j`. -/
@[simp] theorem imJ_pure (v : Fin 3 → F) : (pure v).imJ = v 1 := rfl

/-- Its third component stands at `k`. -/
@[simp] theorem imK_pure (v : Fin 3 → F) : (pure v).imK = v 2 := rfl

/-- The rotation matrix of a quaternion. -/
def rot (q : ℍ[F]) : Matrix (Fin 3) (Fin 3) F :=
  !![q.re ^ 2 + q.imI ^ 2 - q.imJ ^ 2 - q.imK ^ 2, 2 * (q.imI * q.imJ - q.re * q.imK),
      2 * (q.imI * q.imK + q.re * q.imJ);
    2 * (q.imI * q.imJ + q.re * q.imK), q.re ^ 2 - q.imI ^ 2 + q.imJ ^ 2 - q.imK ^ 2,
      2 * (q.imJ * q.imK - q.re * q.imI);
    2 * (q.imI * q.imK - q.re * q.imJ), 2 * (q.imJ * q.imK + q.re * q.imI),
      q.re ^ 2 - q.imI ^ 2 - q.imJ ^ 2 + q.imK ^ 2]

/-- **Quaternions multiply as their rotations do**, so composed motions can be computed on either
side. -/
theorem rot_mul (p q : ℍ[F]) : rot (p * q) = rot p * rot q := by
  ext i j
  fin_cases i <;> fin_cases j <;>
    simp [rot, Matrix.mul_apply, Fin.sum_univ_three] <;> ring

/-- A quaternion and its negative rotate alike, which is why a sign has to be chosen for it. -/
theorem rot_neg (q : ℍ[F]) : rot (-q) = rot q := by
  ext i j
  fin_cases i <;> fin_cases j <;> simp [rot]

/-- The unit quaternion rotates nothing. -/
theorem rot_one : rot (1 : ℍ[F]) = 1 := by
  ext i j
  fin_cases i <;> fin_cases j <;> simp [rot]

/-- The conjugate of a quaternion rotates back: its matrix is the transpose. -/
theorem rot_star (q : ℍ[F]) : rot (star q) = (rot q)ᵀ := by
  ext i j
  fin_cases i <;> fin_cases j <;> simp [rot] <;> ring

/-- A quaternion of norm 1 turns. -/
theorem rot_mem {q : ℍ[F]} (hunit : normSq q = 1) : rot q ∈ SO3 F := by
  rw [mem_specialOrthogonalGroup_iff]
  constructor
  · rw [mem_orthogonalGroup_iff]
    have hstar : q * star q = 1 := by rw [self_mul_star, hunit, coe_one]
    rw [← rot_star, ← rot_mul, hstar, rot_one]
  · have hdet : (rot q).det = normSq q ^ 3 := by
      rw [det_fin_three, normSq_def']
      simp [rot]
      ring
    rw [hdet, hunit, one_pow]

/-! ## The entries of a rotation -/

/-- The equations between the entries of a rotation: its rows and its columns are of length 1 and
orthogonal, and each entry is its own cofactor. -/
structure Entries (m : Matrix (Fin 3) (Fin 3) F) : Prop where
  rows : ∀ i j, m i 0 * m j 0 + m i 1 * m j 1 + m i 2 * m j 2 = if i = j then 1 else 0
  columns : ∀ i j, m 0 i * m 0 j + m 1 i * m 1 j + m 2 i * m 2 j = if i = j then 1 else 0
  cofactors : adjugate m = mᵀ

/-- The equations between the nine entries of a rotation, written out, from orthogonality and the
determinant. -/
theorem entries_of_mem {m : Matrix (Fin 3) (Fin 3) F} (h : m ∈ SO3 F) : Entries m := by
  obtain ⟨horthogonal, hdet⟩ := mem_specialOrthogonalGroup_iff.1 h
  have hleft : mᵀ * m = 1 := (mem_orthogonalGroup_iff' _ _).1 horthogonal
  have hright : m * mᵀ = 1 := (mem_orthogonalGroup_iff _ _).1 horthogonal
  refine ⟨?_, ?_, ?_⟩
  · intro i j
    have hentry := congrFun (congrFun hright i) j
    rwa [mul_apply, Fin.sum_univ_three, one_apply] at hentry
  · intro i j
    have hentry := congrFun (congrFun hleft i) j
    rwa [mul_apply, Fin.sum_univ_three, one_apply] at hentry
  · calc adjugate m = mᵀ * m * adjugate m := by rw [hleft, Matrix.one_mul]
      _ = mᵀ * (m.det • 1) := by rw [Matrix.mul_assoc, mul_adjugate]
      _ = mᵀ := by rw [hdet, one_smul, Matrix.mul_one]

/-- The inverse of a rotation is one, and it is the transpose. -/
theorem transpose_mem {m : Matrix (Fin 3) (Fin 3) F} (h : m ∈ SO3 F) : mᵀ ∈ SO3 F := by
  obtain ⟨horthogonal, hdet⟩ := mem_specialOrthogonalGroup_iff.1 h
  refine mem_specialOrthogonalGroup_iff.2 ⟨?_, by rw [det_transpose, hdet]⟩
  rw [mem_orthogonalGroup_iff, transpose_transpose]
  exact (mem_orthogonalGroup_iff' _ _).1 horthogonal

/-! ## An axis and an angle -/

/-- The matrix of the cross product with `a`. -/
def cross (a : Fin 3 → F) : Matrix (Fin 3) (Fin 3) F :=
  !![0, -a 2, a 1; a 2, 0, -a 0; -a 1, a 0, 0]

/-- The quaternion of a unit axis and half an angle, given by its cosine and sine. -/
def turn (a : Fin 3 → F) (c s : F) : ℍ[F] := ⟨c, a 0 * s, a 1 * s, a 2 * s⟩

section Turn

variable (a : Fin 3 → F) (c s : F)

/-- The real part of a turn is the cosine of half its angle, as it was given. -/
@[simp] theorem re_turn : (turn a c s).re = c := rfl

/-- The imaginary part at `i` is the axis's first component, by the sine. -/
@[simp] theorem imI_turn : (turn a c s).imI = a 0 * s := rfl

/-- The imaginary part at `j` is the axis's second component, by the sine. -/
@[simp] theorem imJ_turn : (turn a c s).imJ = a 1 * s := rfl

/-- The imaginary part at `k` is the axis's third component, by the sine. -/
@[simp] theorem imK_turn : (turn a c s).imK = a 2 * s := rfl

variable {a c s}

/-- A turn about a unit axis by a point of the circle is a unit quaternion. -/
theorem normSq_turn (ha : a 0 ^ 2 + a 1 ^ 2 + a 2 ^ 2 = 1) (hcs : c ^ 2 + s ^ 2 = 1) :
    normSq (turn a c s) = 1 := by
  have hsq : normSq (turn a c s) = c ^ 2 + (a 0 * s) ^ 2 + (a 1 * s) ^ 2 + (a 2 * s) ^ 2 :=
    normSq_def' _
  rw [hsq]
  linear_combination hcs + s ^ 2 * ha

/-- Rodrigues' formula, in the sine and the cosine of half the angle. -/
theorem rot_turn (ha : a 0 ^ 2 + a 1 ^ 2 + a 2 ^ 2 = 1) (hcs : c ^ 2 + s ^ 2 = 1) :
    rot (turn a c s) = 1 + (2 * c * s) • cross a + (2 * s ^ 2) • (cross a * cross a) := by
  ext i j
  fin_cases i <;> fin_cases j <;>
    simp [rot, cross]
  · linear_combination hcs + s ^ 2 * ha
  · ring
  · ring
  · ring
  · linear_combination hcs + s ^ 2 * ha
  · ring
  · ring
  · ring
  · linear_combination hcs + s ^ 2 * ha

end Turn

/-! ## Euler angles -/

/-- Roll, then pitch, then yaw, each by its cosine and sine. -/
def euler (cr sr cp sp cy sy : F) : Matrix (Fin 3) (Fin 3) F :=
  !![cy * cp, cy * sp * sr - sy * cr, cy * sp * cr + sy * sr;
    sy * cp, sy * sp * sr + cy * cr, sy * sp * cr - cy * sr;
    -sp, cp * sr, cp * cr]

/-- A rotation from the angles in its first column and last row, if the pitch is no right angle. -/
theorem eq_euler [IsDomain F] {m : Matrix (Fin 3) (Fin 3) F} (h : Entries m)
    {cr sr cp sp cy sy : F} (hcp : cp ≠ 0) (hsq : cp ^ 2 = m 0 0 ^ 2 + m 1 0 ^ 2)
    (hsp : m 2 0 = -sp) (hcy : cp * cy = m 0 0) (hsy : cp * sy = m 1 0) (hcr : cp * cr = m 2 2)
    (hsr : cp * sr = m 2 1) : m = euler cr sr cp sp cy sy := by
  have hcolumns := h.columns
  have hcofactors := fun i j => congrFun (congrFun h.cofactors i) j
  rw [adjugate_fin_three] at hcofactors
  -- the columns are orthogonal to the first one, and two entries of the last row are cofactors
  have h01 := hcolumns 0 1
  have h02 := hcolumns 0 2
  have h21 := hcofactors 1 2
  have h22 := hcofactors 2 2
  simp at h01 h02 h21 h22
  -- each of the four inner entries holds after multiplication by `cp ^ 2`
  have hcancel : ∀ {a b : F}, cp ^ 2 * a = cp ^ 2 * b → a = b :=
    fun hab => mul_left_cancel₀ (pow_ne_zero 2 hcp) hab
  ext i j
  fin_cases i <;> fin_cases j <;> simp [euler]
  · linear_combination -hcy
  · apply hcancel
    linear_combination m 0 1 * hsq - sp * (cp * sr) * hcy - sp * m 0 0 * hsr + cp * cr * hsy +
      m 1 0 * hcr - m 0 0 * m 2 1 * hsp + m 0 0 * h01 - m 1 0 * h22
  · apply hcancel
    linear_combination m 0 2 * hsq - sp * (cp * cr) * hcy - sp * m 0 0 * hcr - cp * sr * hsy -
      m 1 0 * hsr - m 0 0 * m 2 2 * hsp + m 0 0 * h02 + m 1 0 * h21
  · linear_combination -hsy
  · apply hcancel
    linear_combination m 1 1 * hsq - sp * (cp * sr) * hsy - sp * m 1 0 * hsr - cp * cr * hcy -
      m 0 0 * hcr - m 1 0 * m 2 1 * hsp + m 1 0 * h01 + m 0 0 * h22
  · apply hcancel
    linear_combination m 1 2 * hsq - sp * (cp * cr) * hsy - sp * m 1 0 * hcr + cp * sr * hcy +
      m 0 0 * hsr - m 1 0 * m 2 2 * hsp + m 1 0 * h02 - m 0 0 * h21
  · exact hsp
  · exact hsr.symm
  · exact hcr.symm

/-- A rotation whose pitch is a right angle: the yaw is taken as zero. -/
theorem eq_euler_of_lock {m : Matrix (Fin 3) (Fin 3) F} (h : Entries m) (h00 : m 0 0 = 0)
    (h10 : m 1 0 = 0) {cr sr sp : F} (hsp : m 2 0 = -sp) (hcr : cr = m 1 1)
    (hsr : sr = -m 1 2) : m = euler cr sr 0 sp 1 0 := by
  have hcolumns := h.columns
  have hcofactors := fun i j => congrFun (congrFun h.cofactors i) j
  rw [adjugate_fin_three] at hcofactors
  -- the sine of the pitch has length 1, and the last row no other entry
  have hlength := hcolumns 0 0
  have h01 := hcolumns 0 1
  have h02 := hcolumns 0 2
  have c01 := hcofactors 1 0
  have c02 := hcofactors 2 0
  simp [h00, h10] at hlength h01 h02 c01 c02
  subst hcr hsr
  ext i j
  fin_cases i <;> fin_cases j <;> simp [euler]
  · exact h00
  · linear_combination -c01 + m 1 2 * hsp
  · linear_combination -c02 - m 1 1 * hsp
  · exact h10
  · exact hsp
  · linear_combination m 2 0 * h01 - m 2 1 * hlength
  · linear_combination m 2 0 * h02 - m 2 2 * hlength

end Ring

/-! ## The reals -/

section Real

/-- A real rotation is given by the angles that are read off it. -/
theorem eq_euler_atan2 {m : Matrix (Fin 3) (Fin 3) ℝ} (h : Entries m)
    (hlock : Maths.hypot (m 0 0) (m 1 0) ≠ 0) :
    m = euler (Real.cos (Maths.atan2 (m 2 1) (m 2 2))) (Real.sin (Maths.atan2 (m 2 1) (m 2 2)))
      (Maths.hypot (m 0 0) (m 1 0)) (-m 2 0)
      (Real.cos (Maths.atan2 (m 1 0) (m 0 0))) (Real.sin (Maths.atan2 (m 1 0) (m 0 0))) := by
  -- the first column and the last row have what the sine of the pitch leaves
  have hrow : Maths.hypot (m 2 2) (m 2 1) = Maths.hypot (m 0 0) (m 1 0) := by
    have hcolumn := h.columns 0 0
    have hrow := h.rows 2 2
    simp at hcolumn hrow
    rw [Maths.hypot_real, Maths.hypot_real]
    congr 1
    linear_combination hrow - hcolumn
  refine eq_euler h hlock (Maths.hypot_sq _ _) (neg_neg _).symm (Maths.hypot_mul_cos _ _)
    (Maths.hypot_mul_sin _ _) ?_ ?_
  · rw [← hrow]
    exact Maths.hypot_mul_cos _ _
  · rw [← hrow]
    exact Maths.hypot_mul_sin _ _

/-- At gimbal lock the yaw is taken as zero. -/
theorem eq_euler_atan2_of_lock {m : Matrix (Fin 3) (Fin 3) ℝ} (h : Entries m)
    (hlock : Maths.hypot (m 0 0) (m 1 0) = 0) :
    m = euler (Real.cos (Maths.atan2 (-m 1 2) (m 1 1))) (Real.sin (Maths.atan2 (-m 1 2) (m 1 1)))
      0 (-m 2 0) 1 0 := by
  have hzero := Maths.hypot_sq (m 0 0) (m 1 0)
  rw [hlock] at hzero
  have h00 : m 0 0 = 0 := by nlinarith
  have h10 : m 1 0 = 0 := by nlinarith
  have hrow := h.rows 1 1
  simp [h10] at hrow
  have hunit : m 1 1 ^ 2 + (-m 1 2) ^ 2 = 1 := by linear_combination hrow
  exact eq_euler_of_lock h h00 h10 (neg_neg _).symm (Maths.cos_atan2 hunit) (Maths.sin_atan2 hunit)

/-- The three turns of Euler angles, as quaternions. -/
noncomputable def euler_turns (r p y : ℝ) : ℍ[ℝ] :=
  turn ![0, 0, 1] (Real.cos (y / 2)) (Real.sin (y / 2)) *
    turn ![0, 1, 0] (Real.cos (p / 2)) (Real.sin (p / 2)) *
    turn ![1, 0, 0] (Real.cos (r / 2)) (Real.sin (r / 2))

/-- Three turns about coordinate axes in a row make a unit quaternion. -/
theorem normSq_euler_turns (r p y : ℝ) : normSq (euler_turns r p y) = 1 := by
  have hx : normSq (turn ![(1 : ℝ), 0, 0] (Real.cos (r / 2)) (Real.sin (r / 2))) = 1 :=
    normSq_turn (by simp) (Real.cos_sq_add_sin_sq _)
  have hy : normSq (turn ![(0 : ℝ), 1, 0] (Real.cos (p / 2)) (Real.sin (p / 2))) = 1 :=
    normSq_turn (by simp) (Real.cos_sq_add_sin_sq _)
  have hz : normSq (turn ![(0 : ℝ), 0, 1] (Real.cos (y / 2)) (Real.sin (y / 2))) = 1 :=
    normSq_turn (by simp) (Real.cos_sq_add_sin_sq _)
  unfold euler_turns
  rw [map_mul, map_mul, hx, hy, hz]
  norm_num

/-- Twice the half angle. -/
theorem half_angle (θ : ℝ) : 2 * Real.cos (θ / 2) * Real.sin (θ / 2) = Real.sin θ ∧
    2 * Real.sin (θ / 2) ^ 2 = 1 - Real.cos θ := by
  have hdouble : θ = 2 * (θ / 2) := by ring
  constructor
  · rw [hdouble, Real.sin_two_mul, ← hdouble]
    ring
  · rw [Real.sin_sq_eq_half_sub, ← hdouble]
    ring

/-- The quaternion of roll, pitch and yaw has the matrix that the Euler angles are usually given by.
-/
theorem rot_euler_turns (r p y : ℝ) : rot (euler_turns r p y) =
    euler (Real.cos r) (Real.sin r) (Real.cos p) (Real.sin p) (Real.cos y) (Real.sin y) := by
  unfold euler_turns
  rw [rot_mul, rot_mul, rot_turn (by simp) (Real.cos_sq_add_sin_sq _),
    rot_turn (by simp) (Real.cos_sq_add_sin_sq _), rot_turn (by simp) (Real.cos_sq_add_sin_sq _)]
  simp only [half_angle]
  ext i j
  fin_cases i <;> fin_cases j <;>
    simp [euler, cross, Matrix.mul_apply, Fin.sum_univ_three] <;> ring

/-- Every rotation is that of a quaternion of norm 1. -/
theorem exists_rot {m : Matrix (Fin 3) (Fin 3) ℝ} (h : m ∈ SO3 ℝ) :
    ∃ q : ℍ[ℝ], normSq q = 1 ∧ rot q = m := by
  have hentries := entries_of_mem h
  have hcolumn := hentries.columns 0 0
  simp at hcolumn
  have hpitch : Maths.hypot (m 0 0) (m 1 0) ^ 2 + (-m 2 0) ^ 2 = 1 := by
    rw [Maths.hypot_sq]
    linear_combination hcolumn
  have hcos := Maths.cos_atan2 hpitch
  have hsin := Maths.sin_atan2 hpitch
  by_cases hlock : Maths.hypot (m 0 0) (m 1 0) = 0
  · refine ⟨euler_turns (Maths.atan2 (-m 1 2) (m 1 1)) (Maths.atan2 (-m 2 0) 0) 0,
      normSq_euler_turns _ _ _, ?_⟩
    rw [hlock] at hcos hsin
    rw [rot_euler_turns, hcos, hsin, Real.cos_zero, Real.sin_zero]
    exact (eq_euler_atan2_of_lock hentries hlock).symm
  · refine ⟨euler_turns (Maths.atan2 (m 2 1) (m 2 2))
      (Maths.atan2 (-m 2 0) (Maths.hypot (m 0 0) (m 1 0))) (Maths.atan2 (m 1 0) (m 0 0)),
      normSq_euler_turns _ _ _, ?_⟩
    rw [rot_euler_turns, hcos, hsin]
    exact (eq_euler_atan2 hentries hlock).symm

end Real

/-! ## Rigid motions -/

/-- A rotation, or any linear map, followed by a translation. -/
@[ext] structure Rigid (F : Type) where
  translation : Fin 3 → F
  rotation : Matrix (Fin 3) (Fin 3) F

namespace Rigid

variable {F : Type} [CommRing F]

instance : One (Rigid F) := ⟨0, 1⟩

/-- The motion on the right comes first. -/
instance : Mul (Rigid F) :=
  ⟨fun g h => ⟨g.translation + g.rotation *ᵥ h.translation, g.rotation * h.rotation⟩⟩

/-- The motion that does nothing moves no point. -/
@[simp] theorem one_translation : (1 : Rigid F).translation = 0 := rfl

/-- The motion that does nothing turns no direction. -/
@[simp] theorem one_rotation : (1 : Rigid F).rotation = 1 := rfl

/-- Where a composed motion takes the origin: first by the inner motion, then by the outer one. -/
@[simp] theorem mul_translation (g h : Rigid F) :
    (g * h).translation = g.translation + g.rotation *ᵥ h.translation := rfl

/-- The rotations of composed motions multiply, whatever the translations are. -/
@[simp] theorem mul_rotation (g h : Rigid F) : (g * h).rotation = g.rotation * h.rotation := rfl

instance : Monoid (Rigid F) where
  mul_assoc g h k := by
    ext1
    · simp [Matrix.mulVec_add, Matrix.mulVec_mulVec, add_assoc]
    · simp [Matrix.mul_assoc]
  one_mul g := by
    ext1
    · simp
    · simp
  mul_one g := by
    ext1
    · simp
    · simp

/-- Where a motion takes a point. -/
def act (g : Rigid F) (v : Fin 3 → F) : Fin 3 → F := g.translation + g.rotation *ᵥ v

/-- A composed motion acts as the one after the other, which is what a chain of frames relies on. -/
@[simp] theorem act_mul (g h : Rigid F) (v : Fin 3 → F) : (g * h).act v = g.act (h.act v) := by
  simp [act, Matrix.mulVec_add, Matrix.mulVec_mulVec, add_assoc]

/-- The same motion in a space that is `s` times as large. -/
def scaled (s : F) : Rigid F →* Rigid F where
  toFun g := ⟨s • g.translation, g.rotation⟩
  map_one' := by
    ext1
    · exact smul_zero s
    · rfl
  map_mul' g h := by
    ext1
    · simp [Matrix.mulVec_smul]
    · rfl

/-- Enlarging a motion enlarges its translation. -/
@[simp] theorem scaled_translation (s : F) (g : Rigid F) :
    (scaled s g).translation = s • g.translation := rfl

/-- Enlarging a motion leaves its rotation: angles do not depend on the scale. -/
@[simp] theorem scaled_rotation (s : F) (g : Rigid F) : (scaled s g).rotation = g.rotation := rfl

/-- There it takes the points of a figure that is `s` times as large to those of its image. -/
theorem scaled_act (s : F) (g : Rigid F) (v : Fin 3 → F) :
    (scaled s g).act (s • v) = s • g.act v := by
  simp [act, Matrix.mulVec_smul]

/-- The motion back, if the linear part is orthogonal. -/
theorem mul_back {g : Rigid F} (h : g.rotation ∈ SO3 F) :
    g * ⟨-(g.rotationᵀ) *ᵥ g.translation, g.rotationᵀ⟩ = 1 := by
  obtain ⟨horthogonal, _⟩ := mem_specialOrthogonalGroup_iff.1 h
  have hright : g.rotation * g.rotationᵀ = 1 := (mem_orthogonalGroup_iff _ _).1 horthogonal
  ext1
  · simp [Matrix.neg_mulVec, Matrix.mulVec_neg, Matrix.mulVec_mulVec, hright]
  · simp [hright]

end Rigid

end Rotation
