/-
Rationals with infinities and NaNs, under the comparison rules of IEEE 754.

Finite arithmetic is exact: no rounding, no overflow, one zero. What is kept is
everything that goes wrong with non-finite values. Every comparison with a NaN is
false, `∞ - ∞` and `0 · ∞` are NaNs, and a NaN has a sign bit, which arithmetic is
free to choose and `copysign` can see: an invalid operation produces the negative
one here, and a NaN operand is passed on, the left one first.

The square root is the one operation that is not exact on rationals. Which rational
it is rounded to is a parameter, [`RatSqrt`], and no result depends on it.
-/
import DualFlexivControl.Lib.Scalar
import Mathlib.Data.Rat.Cast.Order

set_option autoImplicit false

/-- A value: finite, an infinity or a NaN, the last two with their sign bits. -/
inductive Ieee where
  | fin (q : ℚ)
  | inf (neg : Bool)
  | nan (neg : Bool)
  deriving DecidableEq

/-- How the square root of a nonnegative rational is rounded. -/
class RatSqrt where
  sqrt : ℚ → ℚ

namespace Ieee

/-! ## Arithmetic -/

/-- The sign bit. -/
def signbit : Ieee → Bool
  | fin q => decide (q < 0)
  | inf s => s
  | nan s => s

def isNaN : Ieee → Bool
  | nan _ => true
  | _ => false

def isFinite : Ieee → Bool
  | fin _ => true
  | _ => false

/-- The NaN of an invalid operation. -/
def invalid : Ieee := nan true

def neg : Ieee → Ieee
  | fin q => fin (-q)
  | inf s => inf !s
  | nan s => nan !s

def add : Ieee → Ieee → Ieee
  | nan s, _ => nan s
  | _, nan s => nan s
  | fin a, fin b => fin (a + b)
  | fin _, inf s => inf s
  | inf s, fin _ => inf s
  | inf s, inf t => if s = t then inf s else invalid

def mul : Ieee → Ieee → Ieee
  | nan s, _ => nan s
  | _, nan s => nan s
  | fin a, fin b => fin (a * b)
  | fin a, inf s => if a = 0 then invalid else inf (xor (decide (a < 0)) s)
  | inf s, fin b => if b = 0 then invalid else inf (xor s (decide (b < 0)))
  | inf s, inf t => inf (xor s t)

def div : Ieee → Ieee → Ieee
  | nan s, _ => nan s
  | _, nan s => nan s
  | fin a, fin b => if b = 0 then (if a = 0 then invalid else inf (decide (a < 0)))
      else fin (a / b)
  | fin _, inf _ => fin 0
  | inf s, fin b => inf (xor s (decide (b < 0)))
  | inf _, inf _ => invalid

/-- `a < b`: false as soon as one of them is a NaN. -/
def lt : Ieee → Ieee → Bool
  | nan _, _ => false
  | _, nan _ => false
  | fin a, fin b => decide (a < b)
  | fin _, inf s => !s
  | inf s, fin _ => s
  | inf s, inf t => s && !t

def le : Ieee → Ieee → Bool
  | nan _, _ => false
  | _, nan _ => false
  | fin a, fin b => decide (a ≤ b)
  | fin _, inf s => !s
  | inf s, fin _ => s
  | inf s, inf t => s || !t

/-- `abs`: the sign bit is cleared. -/
def abs : Ieee → Ieee
  | fin q => fin |q|
  | inf _ => inf false
  | nan _ => nan false

/-- The magnitude of the first with the sign bit of the second. -/
def copysign : Ieee → Ieee → Ieee
  | fin q, y => fin (if y.signbit then -|q| else |q|)
  | inf _, y => inf y.signbit
  | nan _, y => nan y.signbit

def sqrt [RatSqrt] : Ieee → Ieee
  | fin q => if q < 0 then invalid else fin (RatSqrt.sqrt q)
  | inf s => if s then invalid else inf s
  | nan s => nan s

instance : Zero Ieee := ⟨fin 0⟩
instance : One Ieee := ⟨fin 1⟩
instance : Neg Ieee := ⟨neg⟩
instance : Add Ieee := ⟨add⟩
instance : Sub Ieee := ⟨fun a b => add a (neg b)⟩
instance : Mul Ieee := ⟨mul⟩
instance : Div Ieee := ⟨div⟩

instance [RatSqrt] : Scalar Ieee where
  lit := fin
  lt := lt
  le := le
  abs := abs
  sqrt := sqrt
  copysign := copysign

/-! ## Finite operands -/

section Finite

variable (a b : ℚ)

/-- The sum of two finite values is their exact sum: rounding is a step of its own. -/
@[simp] theorem fin_add : fin a + fin b = fin (a + b) := rfl

/-- The difference of two finite values is their exact difference. -/
@[simp] theorem fin_sub : fin a - fin b = fin (a - b) := by
  rw [sub_eq_add_neg a b]
  rfl

/-- The product of two finite values is their exact product. -/
@[simp] theorem fin_mul : fin a * fin b = fin (a * b) := rfl

/-- The negative of a finite value is its exact negative. -/
@[simp] theorem fin_neg : -fin a = fin (-a) := rfl

/-- A number is finite, as the name of its constructor says. -/
@[simp] theorem isFinite_fin : (fin a).isFinite = true := rfl

end Finite

/-- A finite value is a number, so that arithmetic on it is that of the numbers. -/
theorem exists_fin {x : Ieee} (h : x.isFinite = true) : ∃ q, x = fin q := by
  cases x with
  | fin q => exact ⟨q, rfl⟩
  | inf s => cases h
  | nan s => cases h

/-- Sums of finite values are finite in this exact arithmetic. -/
theorem isFinite_add {x y : Ieee} (hx : x.isFinite = true) (hy : y.isFinite = true) :
    (x + y).isFinite = true := by
  obtain ⟨a, rfl⟩ := exists_fin hx
  obtain ⟨b, rfl⟩ := exists_fin hy
  rfl

/-- Differences of finite values are finite. -/
theorem isFinite_sub {x y : Ieee} (hx : x.isFinite = true) (hy : y.isFinite = true) :
    (x - y).isFinite = true := by
  obtain ⟨a, rfl⟩ := exists_fin hx
  obtain ⟨b, rfl⟩ := exists_fin hy
  rfl

/-- Products of finite values are finite. -/
theorem isFinite_mul {x y : Ieee} (hx : x.isFinite = true) (hy : y.isFinite = true) :
    (x * y).isFinite = true := by
  obtain ⟨a, rfl⟩ := exists_fin hx
  obtain ⟨b, rfl⟩ := exists_fin hy
  rfl

/-- A finite difference has finite ends, since an infinity or a NaN on either side would have shown.
-/
theorem isFinite_of_sub {x y : Ieee} (h : (x - y).isFinite = true) :
    x.isFinite = true ∧ y.isFinite = true := by
  cases x with
  | fin a =>
    cases y with
    | fin b => exact ⟨rfl, rfl⟩
    | inf t => cases h
    | nan t => cases h
  | inf s =>
    cases y with
    | fin b => cases h
    -- the difference of two infinities is infinite or a NaN
    | inf t => cases s <;> cases t <;> cases h
    | nan t => cases h
  | nan s =>
    cases y with
    | fin b => cases h
    | inf t => cases h
    | nan t => cases h

/-- An absolute value is a NaN exactly when the value is. -/
theorem isNaN_abs (x : Ieee) : x.abs.isNaN = x.isNaN := by
  cases x <;> rfl

/-- A difference from a finite value is a number unless the other end is a NaN. -/
theorem isNaN_sub_of_isFinite {x y : Ieee} (hx : x.isFinite = true) (hy : y.isNaN = false) :
    (x - y).isNaN = false := by
  obtain ⟨a, rfl⟩ := exists_fin hx
  cases y with
  | fin b => rfl
  | inf t => rfl
  | nan t => cases hy

section Scalar

variable [RatSqrt]

/-- A minimum is one of its arguments, so it is finite if both are. -/
theorem isFinite_min {x y : Ieee} (hx : x.isFinite = true) (hy : y.isFinite = true) :
    (Scalar.min x y).isFinite = true := by
  unfold Scalar.min
  split
  · exact hy
  · exact hx

/-- A value that is clamped between finite bounds is finite if it was. -/
theorem isFinite_clamp {v lo hi : Ieee} (hv : v.isFinite = true) (hlo : lo.isFinite = true)
    (hhi : hi.isFinite = true) : (Scalar.clamp v lo hi).isFinite = true := by
  unfold Scalar.clamp
  split
  · exact hlo
  · split
    · exact hhi
    · exact hv

/-- Another sign keeps a value finite, whatever the sign is taken from, a NaN included. -/
theorem isFinite_copysign {x : Ieee} (hx : x.isFinite = true) (y : Ieee) :
    (Scalar.copysign x y).isFinite = true := by
  obtain ⟨a, rfl⟩ := exists_fin hx
  rfl

/-- The root of a number that is not negative is finite. -/
theorem isFinite_sqrt {q : ℚ} (hq : 0 ≤ q) : (Scalar.sqrt (fin q)).isFinite = true := by
  show (if q < 0 then invalid else fin (RatSqrt.sqrt q)).isFinite = true
  rw [if_neg (not_lt.mpr hq)]
  rfl

end Scalar

/-! ## Order -/

/-- Where a value that is not a NaN sits on the extended line. -/
def place : Ieee → WithBot (WithTop ℚ)
  | fin q => ((q : WithTop ℚ) : WithBot (WithTop ℚ))
  | inf true => ⊥
  | inf false => ((⊤ : WithTop ℚ) : WithBot (WithTop ℚ))
  -- never looked at: every lemma below excludes it
  | nan _ => ⊥

/-- Without a NaN the comparison is that of the places in the extended order. -/
theorem lt_iff_place {x y : Ieee} (hx : x.isNaN = false) (hy : y.isNaN = false) :
    lt x y = true ↔ x.place < y.place := by
  match x, y, hx, hy with
  | fin a, fin b, _, _ => simp [lt, place]
  | fin a, inf true, _, _ => simp [lt, place]
  | fin a, inf false, _, _ =>
    exact ⟨fun _ => WithBot.coe_lt_coe.mpr (WithTop.coe_lt_top a), fun _ => rfl⟩
  | inf true, fin b, _, _ => simp [lt, place]
  | inf false, fin b, _, _ => simp [lt, place]
  | inf true, inf true, _, _ => simp [lt, place]
  | inf true, inf false, _, _ => simp [lt, place]
  | inf false, inf true, _, _ => simp [lt, place]
  | inf false, inf false, _, _ => simp [lt, place]

/-- A finite bound on a magnitude is a bound on a finite number. -/
theorem abs_place_le {x : Ieee} {b : ℚ} (hx : x.isNaN = false)
    (h : x.abs.place ≤ (fin b).place) : ∃ q, x = fin q ∧ |q| ≤ b := by
  cases x with
  | fin q => exact ⟨q, rfl, by simpa [abs, place] using h⟩
  | inf s => simp [abs, place] at h
  | nan s => cases hx

/-! ## Maxima -/

/-- The maximum that passes NaNs on, whichever side they come from. -/
def maximum (a b : Ieee) : Ieee := if le b a || a.isNaN then a else b

/-- An operation that, away from NaNs, returns an upper bound. -/
def UpperBound (m : Ieee → Ieee → Ieee) : Prop :=
  ∀ a b : Ieee, a.isNaN = false → b.isNaN = false →
    (m a b).isNaN = false ∧ a.place ≤ (m a b).place ∧ b.place ≤ (m a b).place

/-- Without a NaN a comparison that fails says that the other one holds. -/
theorem not_lt_iff_place {x y : Ieee} (hx : x.isNaN = false) (hy : y.isNaN = false) :
    lt x y = false ↔ y.place ≤ x.place := by
  rw [← not_lt, ← lt_iff_place hx hy, Bool.not_eq_true]

/-- The same for the weak comparison. -/
theorem le_iff_place {x y : Ieee} (hx : x.isNaN = false) (hy : y.isNaN = false) :
    le x y = true ↔ x.place ≤ y.place := by
  rw [← not_lt_iff_place hy hx]
  match x, y, hx, hy with
  | fin a, fin b, _, _ => simp [lt, le]
  | fin a, inf t, _, _ => simp [lt, le]
  | inf s, fin b, _, _ => simp [lt, le]
  | inf s, inf t, _, _ => cases s <;> cases t <;> simp [lt, le]

/-- `std::max` is an upper bound of both arguments if neither is a NaN. -/
theorem upperBound_max [RatSqrt] : UpperBound Scalar.max := by
  intro a b ha hb
  unfold Scalar.max
  by_cases h : lt a b = true
  · rw [show (Scalar.lt a b : Bool) = true from h, if_pos rfl]
    exact ⟨hb, ((lt_iff_place ha hb).mp h).le, le_rfl⟩
  · have hf : lt a b = false := Bool.eq_false_iff.mpr h
    rw [show (Scalar.lt a b : Bool) = false from hf, if_neg Bool.false_ne_true]
    exact ⟨ha, le_rfl, (not_lt_iff_place ha hb).mp hf⟩

/-- `np.maximum` is one as well; unlike `std::max` it hands a NaN on. -/
theorem upperBound_maximum : UpperBound maximum := by
  intro a b ha hb
  unfold maximum
  rw [ha, Bool.or_false]
  by_cases h : le b a = true
  · rw [if_pos h]
    exact ⟨ha, le_rfl, (le_iff_place hb ha).mp h⟩
  · rw [if_neg h]
    exact ⟨hb, (le_total a.place b.place).resolve_right fun hcon =>
      h ((le_iff_place hb ha).mpr hcon), le_rfl⟩

/-- Folding an upper bound over values none of which is a NaN bounds all of them. -/
theorem UpperBound.foldl {m : Ieee → Ieee → Ieee} (hm : UpperBound m) (xs : List Ieee)
    {acc : Ieee} (hacc : acc.isNaN = false) (hxs : ∀ x ∈ xs, x.isNaN = false) :
    (xs.foldl m acc).isNaN = false ∧ acc.place ≤ (xs.foldl m acc).place ∧
      ∀ x ∈ xs, x.place ≤ (xs.foldl m acc).place := by
  induction xs generalizing acc with
  | nil => exact ⟨hacc, le_rfl, fun x hx => absurd hx List.not_mem_nil⟩
  | cons y ys ih =>
    obtain ⟨hnan, hleft, hright⟩ := hm acc y hacc (hxs y List.mem_cons_self)
    obtain ⟨hres, hlow, hall⟩ := ih hnan fun x hx => hxs x (List.mem_cons_of_mem _ hx)
    refine ⟨hres, hleft.trans hlow, fun x hx => ?_⟩
    rcases List.mem_cons.mp hx with rfl | hx
    · exact hright.trans hlow
    · exact hall x hx

/-! ## Rounding -/

instance : LE Ieee := ⟨fun a b => le a b = true⟩

instance : DecidableLE Ieee := fun a b => inferInstanceAs (Decidable (le a b = true))

/-- Values that compare are no NaNs. -/
theorem isNaN_of_le {x y : Ieee} (h : x ≤ y) : x.isNaN = false ∧ y.isNaN = false := by
  match x, y, h with
  | fin a, fin b, _ => exact ⟨rfl, rfl⟩
  | fin a, inf t, _ => exact ⟨rfl, rfl⟩
  | inf s, fin b, _ => exact ⟨rfl, rfl⟩
  | inf s, inf t, _ => exact ⟨rfl, rfl⟩

/-- How the exact result of an operation is rounded: a greater result to no smaller value, and
zero to zero. It may overflow. -/
structure Rounding where
  round : ℚ → Ieee
  mono : ∀ a b, a ≤ b → round a ≤ round b
  zero : round 0 = fin 0

namespace Rounding

/-- No rounding. -/
def exact : Rounding := ⟨fin, fun _ _ h => decide_eq_true h, rfl⟩

variable (r : Rounding)

/-- A result, rounded; what is not finite is passed on. -/
def fl : Ieee → Ieee
  | fin q => r.round q
  | inf s => inf s
  | nan s => nan s

/-- Rounding a number never gives a NaN, since each number is comparable to itself. -/
theorem isNaN_round (q : ℚ) : (r.round q).isNaN = false := (isNaN_of_le (r.mono q q le_rfl)).1

/-- Rounding keeps the order of all values that compare, the infinities included. -/
theorem fl_mono {x y : Ieee} (h : x ≤ y) : r.fl x ≤ r.fl y := by
  match x, y, h with
  | fin a, fin b, h => exact r.mono a b (of_decide_eq_true h)
  | fin a, inf false, _ =>
    have hnan := r.isNaN_round a
    show le (r.round a) (inf false) = true
    rw [le_iff_place hnan rfl]
    cases hround : r.round a with
    | fin q => exact (WithBot.coe_le_coe.2 le_top)
    | inf s => cases s with
      | true => exact bot_le
      | false => exact le_rfl
    | nan s => rw [hround] at hnan; cases hnan
  | inf true, fin b, _ =>
    show le (inf true) (r.round b) = true
    rw [le_iff_place rfl (r.isNaN_round b)]
    exact bot_le
  | inf true, inf t, _ => rfl
  | inf false, inf false, _ => rfl

end Rounding

/-- An infinity times a positive number keeps its sign. -/
theorem inf_mul_fin {c : ℚ} (hc : 0 < c) (s : Bool) : inf s * fin c = inf s := by
  show (if c = 0 then invalid else inf (xor s (decide (c < 0)))) = inf s
  rw [if_neg (ne_of_gt hc), decide_eq_false (not_lt.2 hc.le), Bool.xor_false]

/-- Scaling by a positive number keeps the order, that of the infinities included. -/
theorem mul_le_mul_fin {x y : Ieee} {c : ℚ} (hc : 0 < c) (h : x ≤ y) : x * fin c ≤ y * fin c := by
  match x, y, h with
  | fin a, fin b, h =>
    exact decide_eq_true (mul_le_mul_of_nonneg_right (of_decide_eq_true h) hc.le)
  | fin a, inf t, h =>
    rw [inf_mul_fin hc]
    exact h
  | inf s, fin b, h =>
    rw [inf_mul_fin hc]
    exact h
  | inf s, inf t, h =>
    rw [inf_mul_fin hc, inf_mul_fin hc]
    exact h

/-- Adding a finite number keeps the order. -/
theorem fin_add_le_fin_add {x y : Ieee} (c : ℚ) (h : x ≤ y) : fin c + x ≤ fin c + y := by
  match x, y, h with
  | fin a, fin b, h => exact decide_eq_true (add_le_add_right (of_decide_eq_true h) c)
  | fin a, inf t, h => exact h
  | inf s, fin b, h => exact h
  | inf s, inf t, h => exact h

/-- `int(x)`: the integer part, towards zero; an infinity and a NaN have none. -/
def trunc : Ieee → Option ℤ
  | fin q => some (if q < 0 then q.ceil else q.floor)
  | inf _ => none
  | nan _ => none

/-- The integer part of what is not negative grows with it, where there is one. -/
theorem trunc_mono {x y : Ieee} {i j : ℤ} (hx : fin 0 ≤ x) (h : x ≤ y) (hi : x.trunc = some i)
    (hj : y.trunc = some j) : i ≤ j := by
  match x, y, hi, hj with
  | fin a, fin b, hi, hj =>
    have ha : 0 ≤ a := of_decide_eq_true hx
    have hab : a ≤ b := of_decide_eq_true h
    simp only [trunc, if_neg (not_lt.2 ha), Option.some_inj] at hi
    simp only [trunc, if_neg (not_lt.2 (ha.trans hab)), Option.some_inj] at hj
    rw [← hi, ← hj]
    exact Rat.floor_monotone hab

/-- What is not below a number has an integer part that is not. -/
theorem le_trunc {x : Ieee} {n : ℕ} {i : ℤ} (h : ¬ x.lt (fin n) = true) (hi : x.trunc = some i) :
    (n : ℤ) ≤ i := by
  match x, hi with
  | fin a, hi =>
    have ha : (n : ℚ) ≤ a := by
      by_contra hlt
      exact h (decide_eq_true (not_le.1 hlt))
    have hpos : (0 : ℚ) ≤ a := le_trans (Nat.cast_nonneg n) ha
    simp only [trunc, if_neg (not_lt.2 hpos), Option.some_inj] at hi
    rw [← hi]
    apply Rat.le_floor_iff.2
    push_cast
    exact ha

end Ieee
