/-
Numbers as a C++ program sees them.

A numeric routine written against a floating-point type uses a handful of
primitives (`<`, `<=`, `abs`, `sqrt`, `copysign`, literals) and builds the rest
(`min`, `max`, `clamp`) out of comparisons, in a way that is only the lattice
operation when comparisons are total. [`Scalar`] is that handful, with no laws, so
that one definition of a routine can be read over the reals, where its bounds are
theorems, and over values with infinities and NaNs, where they may not be.

The order of the arguments of [`Scalar.min`] and [`Scalar.max`] is the standard
library's and it matters: `min a b` is `a` unless `b < a`, so a NaN on the right is
ignored and one on the left is kept.
-/
import Mathlib.Analysis.Real.Sqrt

set_option autoImplicit false

/-- The primitives beyond the four operations. Comparisons are tests, not
propositions: that is all a program can do with them. -/
class Scalar (F : Type) where
  lit : ℚ → F
  lt : F → F → Bool
  le : F → F → Bool
  abs : F → F
  sqrt : F → F
  copysign : F → F → F

namespace Scalar

variable {F : Type} [Scalar F]

/-- `std::min`. -/
def min (a b : F) : F := if lt b a then b else a

/-- `std::max`. -/
def max (a b : F) : F := if lt a b then b else a

/-- `std::clamp`. -/
def clamp (v lo hi : F) : F := if lt v lo then lo else if lt hi v then hi else v

/-- The loop `worst = max(worst, x)` over a vector, from zero. -/
def foldMax (xs : List F) : F := xs.foldl max (lit 0)

end Scalar

/-! ## The reals -/

noncomputable instance : Scalar ℝ where
  lit q := q
  lt a b := decide (a < b)
  le a b := decide (a ≤ b)
  abs a := |a|
  sqrt := Real.sqrt
  copysign a b := if b < 0 then -|a| else |a|

namespace Scalar

@[simp] theorem lit_real (q : ℚ) : (lit q : ℝ) = q := rfl

@[simp] theorem lt_real (a b : ℝ) : lt a b = true ↔ a < b := decide_eq_true_iff

@[simp] theorem le_real (a b : ℝ) : le a b = true ↔ a ≤ b := decide_eq_true_iff

@[simp] theorem abs_real (a : ℝ) : abs a = |a| := rfl

@[simp] theorem sqrt_real (a : ℝ) : sqrt a = Real.sqrt a := rfl

theorem min_real (a b : ℝ) : min a b = a ⊓ b := by
  unfold min
  by_cases h : b < a
  · rw [if_pos ((lt_real b a).mpr h), inf_eq_right.mpr h.le]
  · rw [if_neg (fun hcon => h ((lt_real b a).mp hcon)), inf_eq_left.mpr (not_lt.mp h)]

theorem max_real (a b : ℝ) : max a b = a ⊔ b := by
  unfold max
  by_cases h : a < b
  · rw [if_pos ((lt_real a b).mpr h), sup_eq_right.mpr h.le]
  · rw [if_neg (fun hcon => h ((lt_real a b).mp hcon)), sup_eq_left.mpr (not_lt.mp h)]

/-- A sign never changes a magnitude. -/
theorem abs_copysign_real (a b : ℝ) : |copysign a b| = |a| := by
  show |(if b < 0 then -|a| else |a|)| = |a|
  split
  · rw [abs_neg, abs_abs]
  · rw [abs_abs]

/-- Clamping to a symmetric interval bounds the magnitude. -/
theorem abs_clamp_real_le {v m : ℝ} (hm : 0 ≤ m) : |clamp v (-m) m| ≤ m := by
  unfold clamp
  by_cases hlo : v < -m
  · rw [if_pos ((lt_real _ _).mpr hlo), abs_neg, abs_of_nonneg hm]
  · rw [if_neg (fun hcon => hlo ((lt_real _ _).mp hcon))]
    by_cases hhi : m < v
    · rw [if_pos ((lt_real _ _).mpr hhi), abs_of_nonneg hm]
    · rw [if_neg (fun hcon => hhi ((lt_real _ _).mp hcon))]
      exact abs_le.mpr ⟨not_lt.mp hlo, not_lt.mp hhi⟩

/-- Moving towards `x` by a clamped difference never leaves an interval that holds
both ends. -/
theorem abs_add_clamp_real_le {u x m b : ℝ} (hm : 0 ≤ m) (hu : |u| ≤ b) (hx : |x| ≤ b) :
    |u + clamp (x - u) (-m) m| ≤ b := by
  rw [abs_le] at hu hx ⊢
  unfold clamp
  by_cases hlo : x - u < -m
  · rw [if_pos ((lt_real _ _).mpr hlo)]
    constructor <;> linarith
  · rw [if_neg (fun hcon => hlo ((lt_real _ _).mp hcon))]
    by_cases hhi : m < x - u
    · rw [if_pos ((lt_real _ _).mpr hhi)]
      constructor <;> linarith
    · rw [if_neg (fun hcon => hhi ((lt_real _ _).mp hcon))]
      constructor <;> linarith

end Scalar
