/-
Angles, as a program with `math` and numpy has them.

[`Maths`] adds the circle functions to [`Scalar`], again with no laws, so that a routine written
with them is one definition. Over the reals they are the exact functions: `atan2` is the argument
of a complex number, which is 0 at the origin as `math.atan2` has it, and `%` takes the sign of
its divisor.

A wrapped angle is the representative of its class modulo a full turn that lies in a half-open
interval, which is `toIcoMod`; so whatever only adds, negates and wraps is settled by congruences.
-/
import Mathlib.Algebra.Order.ToIntervalMod
import Mathlib.Analysis.SpecialFunctions.Complex.Arg
import Mathlib.Tactic.LinearCombination
import DualFlexivControl.Lib.Scalar

set_option autoImplicit false

/-- The circle functions, and Python's `%`. -/
class Maths (F : Type) extends Scalar F where
  pi : F
  sin : F → F
  cos : F → F
  atan2 : F → F → F
  mod : F → F → F

namespace Maths

/-! ## Numerals

Those that angles are written with: the numeral of a field is found at once. -/

scoped instance two : Nat.AtLeastTwo 2 := ⟨le_rfl⟩

scoped instance four : Nat.AtLeastTwo 4 := ⟨by decide⟩

scoped instance half_circle : Nat.AtLeastTwo 180 := ⟨by decide⟩

scoped instance full_circle : Nat.AtLeastTwo 360 := ⟨by decide⟩

section Derived

variable {F : Type} [Field F] [Maths F]

/-- `math.hypot` -/
def hypot (x y : F) : F := Scalar.sqrt (x * x + y * y)

/-- `np.degrees` -/
def degrees (x : F) : F := x * (180 / pi)

/-- `np.radians` -/
def radians (x : F) : F := x * (pi / 180)

/-- `(a + 180.0) % 360.0 - 180.0` -/
def wrap_deg (a : F) : F := mod (a + 180) 360 - 180

end Derived

end Maths

/-- Angles in degrees and in radians, and the wrap of those in degrees. A conversion needs no more
of its numbers than this and sums and signs, so it can be read over floats too, which are no
field. -/
class Angles (F : Type) where
  degrees : F → F
  radians : F → F
  wrap_deg : F → F

namespace Maths

instance {F : Type} [Field F] [Maths F] : Angles F := ⟨degrees, radians, wrap_deg⟩

/-! ## The reals -/

noncomputable instance : Maths ℝ where
  pi := Real.pi
  sin := Real.sin
  cos := Real.cos
  atan2 y x := Complex.arg ⟨x, y⟩
  mod a b := a - b * ⌊a / b⌋

/-- Over the reals the constant is the number itself. -/
@[simp] theorem pi_real : (pi : ℝ) = Real.pi := rfl

/-- Over the reals the sine is Mathlib's. -/
@[simp] theorem sin_real (x : ℝ) : sin x = Real.sin x := rfl

/-- Over the reals the cosine is Mathlib's. -/
@[simp] theorem cos_real (x : ℝ) : cos x = Real.cos x := rfl

section Atan2

variable (x y : ℝ)

/-- The hypotenuse by its defining formula. -/
theorem hypot_real : hypot x y = √(x ^ 2 + y ^ 2) := by
  show √(x * x + y * y) = _
  rw [sq, sq]

/-- The hypotenuse is the modulus of the complex number with these parts, which connects `atan2` to
it. -/
theorem norm_eq_hypot : ‖(⟨x, y⟩ : ℂ)‖ = hypot x y := by
  rw [hypot_real, Complex.norm_def, Complex.normSq_mk, sq, sq]

/-- The square of the hypotenuse, by the theorem of Pythagoras. -/
theorem hypot_sq : hypot x y ^ 2 = x ^ 2 + y ^ 2 := by
  rw [hypot_real]
  exact Real.sq_sqrt (by positivity)

/-- The angle of a vector gives it back, with its length. -/
theorem hypot_mul_cos : hypot x y * Real.cos (atan2 y x) = x := by
  rw [← norm_eq_hypot]
  exact Complex.norm_mul_cos_arg _

/-- A point's second coordinate from its polar ones. -/
theorem hypot_mul_sin : hypot x y * Real.sin (atan2 y x) = y := by
  rw [← norm_eq_hypot]
  exact Complex.norm_mul_sin_arg _

/-- At the origin `atan2` gives zero, as the library's does. -/
theorem atan2_zero : atan2 (0 : ℝ) 0 = 0 := Complex.arg_zero

variable {x y}

/-- On the unit circle the cosine of `atan2` gives the first coordinate back. -/
theorem cos_atan2 (h : x ^ 2 + y ^ 2 = 1) : Real.cos (atan2 y x) = x := by
  have hone : hypot x y = 1 := by rw [hypot_real, h, Real.sqrt_one]
  have hcos := hypot_mul_cos x y
  rwa [hone, one_mul] at hcos

/-- On the unit circle the sine of `atan2` gives the second coordinate back. -/
theorem sin_atan2 (h : x ^ 2 + y ^ 2 = 1) : Real.sin (atan2 y x) = y := by
  have hone : hypot x y = 1 := by rw [hypot_real, h, Real.sqrt_one]
  have hsin := hypot_mul_sin x y
  rwa [hone, one_mul] at hsin

/-- The angle of a vector given by its length and direction is that direction, up to turns. -/
theorem atan2_polar {r : ℝ} (hr : 0 < r) (θ : ℝ) :
    atan2 (r * Real.sin θ) (r * Real.cos θ) = toIocMod Real.two_pi_pos (-Real.pi) θ := by
  have hvector : (⟨r * Real.cos θ, r * Real.sin θ⟩ : ℂ) =
      r * (Complex.cos θ + Complex.sin θ * Complex.I) := by
    apply Complex.ext
    · simp [Complex.cos_ofReal_re, Complex.sin_ofReal_im]
    · simp [Complex.cos_ofReal_im, Complex.sin_ofReal_re]
  show Complex.arg ⟨r * Real.cos θ, r * Real.sin θ⟩ = _
  rw [hvector]
  exact Complex.arg_mul_cos_add_sin_mul_I_eq_toIocMod hr θ

end Atan2

/-! ## Wrapped angles -/

open AddCommGroup

/-- A full turn is positive, as the remainders by it require. -/
theorem turn_pos : (0 : ℝ) < 360 := by norm_num

/-- Wrapping is the remainder in the half-open turn from -180 degrees, so Mathlib's facts about it
apply. -/
theorem wrap_deg_eq (a : ℝ) : wrap_deg a = toIcoMod turn_pos (-180) a := by
  rw [eq_comm, toIcoMod_eq_iff]
  show a + 180 - 360 * ⌊(a + 180) / 360⌋ - 180 ∈ Set.Ico (-180 : ℝ) (-180 + 360) ∧
    ∃ z : ℤ, a = a + 180 - 360 * ⌊(a + 180) / 360⌋ - 180 + z • (360 : ℝ)
  have hfloor := Int.floor_le ((a + 180) / 360)
  have hlt := Int.lt_floor_add_one ((a + 180) / 360)
  rw [le_div_iff₀ turn_pos] at hfloor
  rw [div_lt_iff₀ turn_pos] at hlt
  refine ⟨⟨by linarith, by linarith⟩, ⌊(a + 180) / 360⌋, ?_⟩
  rw [zsmul_eq_mul]
  ring

/-- A wrapped angle lies between -180 degrees, included, and 180, excluded. -/
theorem wrap_deg_mem (a : ℝ) : -180 ≤ wrap_deg a ∧ wrap_deg a < 180 := by
  have hmem := toIcoMod_mem_Ico turn_pos (-180) a
  rw [← wrap_deg_eq] at hmem
  exact ⟨hmem.1, by linarith [hmem.2]⟩

/-- Wrapping is up to full turns. -/
theorem wrap_deg_modEq (a : ℝ) : wrap_deg a ≡ a [PMOD (360 : ℝ)] := by
  rw [wrap_deg_eq]
  exact (toIcoMod_inj turn_pos).1 (toIcoMod_toIcoMod turn_pos (-180) (-180) a)

/-- And tells the class. -/
theorem wrap_deg_inj {a b : ℝ} : wrap_deg a = wrap_deg b ↔ a ≡ b [PMOD (360 : ℝ)] := by
  rw [wrap_deg_eq, wrap_deg_eq]
  exact toIcoMod_inj turn_pos

/-- An angle that lies there already is left alone. -/
theorem wrap_deg_of_mem {a : ℝ} (hlo : -180 ≤ a) (hhi : a < 180) : wrap_deg a = a := by
  rw [wrap_deg_eq, toIcoMod_eq_self]
  exact ⟨hlo, by linarith⟩

/-- An angle is wrapped to zero exactly when it is a number of full turns. -/
theorem wrap_deg_eq_zero {a : ℝ} : wrap_deg a = 0 ↔ a ≡ 0 [PMOD (360 : ℝ)] := by
  have hzero : wrap_deg (0 : ℝ) = 0 := wrap_deg_of_mem (by norm_num) (by norm_num)
  rw [← wrap_deg_inj, hzero]

/-! ## Degrees and radians -/

/-- Converting an angle to degrees and back gives the angle, in exact arithmetic. -/
theorem radians_degrees (x : ℝ) : radians (degrees x) = x := by
  show x * (180 / Real.pi) * (Real.pi / 180) = x
  have hpi := Real.pi_ne_zero
  field_simp

/-- The same the other way around. -/
theorem degrees_radians (x : ℝ) : degrees (radians x) = x := by
  show x * (Real.pi / 180) * (180 / Real.pi) = x
  have hpi := Real.pi_ne_zero
  field_simp

/-- Converting to degrees is linear, so offsets may be added before or after it. -/
theorem degrees_add (x y : ℝ) : degrees (x + y) = degrees x + degrees y := add_mul ..

/-- A whole number of turns. -/
theorem degrees_turns (n : ℤ) : degrees (n * (2 * Real.pi)) = n * 360 := by
  show n * (2 * Real.pi) * (180 / Real.pi) = n * 360
  have hpi := Real.pi_ne_zero
  field_simp
  ring

end Maths
