/-
Binary floating-point formats of IEEE 754, and rounding to nearest with ties to even.

A format has a precision, a smallest exponent and a largest one. A rational is measured in the
quantum of its binade, which subnormal numbers share; it is rounded to a whole number of them, and
what reaches the largest exponent is an infinity. A greater number is rounded to no smaller a
value: this is clear inside a binade, and two binades are separated by a power of two that both of
them can represent ([`exists_between`]). So every format is an [`Ieee.Rounding`].

A word holds a sign, an exponent and the digits after the first. Read as one number it is the
distance from zero in steps of the format, and what a rounding carries into the next binade it
carries into the exponent, so that a word can be made of the rounded significand as it is
([`decode_encode`]).
-/
import DualFlexivControl.Lib.Ieee
import Mathlib.Data.Int.Log
import Mathlib.Data.Rat.Floor

set_option autoImplicit false

namespace Ieee

/-! ## The nearest integer -/

/-- The nearest integer, and the even one of two. -/
def roundEven (x : ℚ) : ℤ :=
  if 2 * (x - ⌊x⌋) < 1 then ⌊x⌋
  else if 1 < 2 * (x - ⌊x⌋) then ⌊x⌋ + 1
  else if ⌊x⌋ % 2 = 0 then ⌊x⌋ else ⌊x⌋ + 1

/-- Rounding to an integer gives one of its two neighbours. -/
theorem roundEven_bounds (x : ℚ) : ⌊x⌋ ≤ roundEven x ∧ roundEven x ≤ ⌊x⌋ + 1 := by
  unfold roundEven
  split_ifs <;> omega

/-- An integer is nearest to itself. -/
theorem roundEven_intCast (k : ℤ) : roundEven k = k := by
  unfold roundEven
  rw [Int.floor_intCast, sub_self, mul_zero, if_pos one_pos]

/-- A greater number has no smaller nearest integer. The two share their floor, and then the
fraction decides, or the floors are apart and the bounds do. -/
theorem roundEven_mono {x y : ℚ} (h : x ≤ y) : roundEven x ≤ roundEven y := by
  rcases (Int.floor_mono h).eq_or_lt with hfloor | hfloor
  · unfold roundEven
    rw [← hfloor]
    have hfraction : 2 * (x - ⌊x⌋) ≤ 2 * (y - ⌊x⌋) := by linarith
    split_ifs with hx hy hy' heven hx' hy hy' heven heven hy hy'
    all_goals first | omega | linarith
  · have hx := (roundEven_bounds x).2
    have hy := (roundEven_bounds y).1
    omega

/-! ## Formats -/

/-- A binary format: `precision` bits, exponents of the last one from `min_exponent` on, and
magnitudes below two to the `max_exponent`. -/
structure Format where
  precision : ℕ
  min_exponent : ℤ
  max_exponent : ℤ
  wide : 1 < precision
  range : min_exponent + precision ≤ max_exponent

namespace Format

/-- binary64: a `double`, and a `float` of Python. -/
def double : Format := ⟨53, -1074, 1024, by decide, by decide⟩

/-- binary32: a `float`, and a `numpy.float32`. -/
def single : Format := ⟨24, -149, 128, by decide, by decide⟩

variable (f : Format)

/-- A format has at least one digit. -/
theorem pos : 0 < f.precision := Nat.zero_lt_of_lt f.wide

/-- The exponent of the last bit of a number. -/
def exponent (q : ℚ) : ℤ := max (Int.log 2 |q| + 1 - f.precision) f.min_exponent

/-- The nearest number of the format, if its range had no end. -/
def nearest (q : ℚ) : ℚ := roundEven (q / 2 ^ f.exponent q) * 2 ^ f.exponent q

/-- A number, rounded: from the end of the range on it is an infinity. -/
def round (q : ℚ) : Ieee :=
  if 2 ^ f.max_exponent ≤ |f.nearest q| then inf (decide (q < 0)) else fin (f.nearest q)

/-! ## Rounding is monotone -/

/-- Powers of two are positive, also below one. -/
theorem pow_pos (e : ℤ) : (0 : ℚ) < 2 ^ e := zpow_pos two_pos e

/-- Zero is a number of every format. -/
@[simp] theorem nearest_zero : f.nearest 0 = 0 := by
  have hzero : roundEven 0 = 0 := by simpa using roundEven_intCast 0
  rw [nearest, zero_div, hzero, Int.cast_zero, zero_mul]

/-- A multiple of its quantum that is not below a number is not below its rounding. -/
theorem nearest_le {q m : ℚ} (h : q ≤ m) (hm : ∃ k : ℤ, m = k * 2 ^ f.exponent q) :
    f.nearest q ≤ m := by
  obtain ⟨k, rfl⟩ := hm
  have hq : q / 2 ^ f.exponent q ≤ k := (div_le_iff₀ (pow_pos _)).2 h
  have hround : roundEven (q / 2 ^ f.exponent q) ≤ k := by
    calc roundEven (q / 2 ^ f.exponent q) ≤ roundEven k := roundEven_mono hq
      _ = k := roundEven_intCast k
  exact mul_le_mul_of_nonneg_right (Int.cast_le.2 hround) (pow_pos _).le

/-- And one that is not above it is not above its rounding. -/
theorem le_nearest {q m : ℚ} (h : m ≤ q) (hm : ∃ k : ℤ, m = k * 2 ^ f.exponent q) :
    m ≤ f.nearest q := by
  obtain ⟨k, rfl⟩ := hm
  have hq : (k : ℚ) ≤ q / 2 ^ f.exponent q := (le_div_iff₀ (pow_pos _)).2 h
  have hround : k ≤ roundEven (q / 2 ^ f.exponent q) := by
    calc k = roundEven k := (roundEven_intCast k).symm
      _ ≤ roundEven (q / 2 ^ f.exponent q) := roundEven_mono hq
  exact mul_le_mul_of_nonneg_right (Int.cast_le.2 hround) (pow_pos _).le

/-- A power of two is a whole number of every smaller power of two. -/
theorem pow_multiple {e d : ℤ} (h : d ≤ e) : ∃ k : ℤ, (2 : ℚ) ^ e = k * 2 ^ d := by
  refine ⟨2 ^ (e - d).toNat, ?_⟩
  have hsplit : e = ((e - d).toNat : ℤ) + d := by omega
  calc (2 : ℚ) ^ e = 2 ^ (((e - d).toNat : ℤ) + d) := by rw [← hsplit]
    _ = 2 ^ ((e - d).toNat : ℤ) * 2 ^ d := zpow_add₀ two_ne_zero _ _
    _ = ((2 ^ (e - d).toNat : ℤ) : ℚ) * 2 ^ d := by
      rw [zpow_natCast, Int.cast_pow, Int.cast_ofNat]

/-- Two magnitudes with different quanta have a power of two between them, of which both quanta
are a part: it is where the binade of the greater one begins. -/
theorem exists_between {p q : ℚ} (hq : q ≠ 0) (h : f.exponent p < f.exponent q) :
    ∃ t, |p| ≤ 2 ^ t ∧ (2 : ℚ) ^ t ≤ |q| ∧ f.exponent p ≤ t ∧ f.exponent q ≤ t := by
  have hbinade : Int.log 2 |p| + 1 ≤ Int.log 2 |q| ∧ f.exponent q ≤ Int.log 2 |q| := by
    have hpos := f.pos
    unfold exponent at h ⊢
    omega
  refine ⟨Int.log 2 |q|, ?_, ?_, h.le.trans hbinade.2, hbinade.2⟩
  · calc |p| ≤ 2 ^ (Int.log 2 |p| + 1) := (Int.lt_zpow_succ_log_self one_lt_two |p|).le
      _ ≤ 2 ^ Int.log 2 |q| := zpow_le_zpow_right₀ one_le_two hbinade.1
  · exact_mod_cast Int.zpow_log_le_self one_lt_two (abs_pos.2 hq)

/-- In one binade the nearest integer is monotone. -/
theorem nearest_mono_of_eq {p q : ℚ} (hpq : p ≤ q) (h : f.exponent p = f.exponent q) :
    f.nearest p ≤ f.nearest q := by
  unfold nearest
  rw [h]
  have hscaled : p / 2 ^ f.exponent q ≤ q / 2 ^ f.exponent q :=
    div_le_div_of_nonneg_right hpq (pow_pos _).le
  exact mul_le_mul_of_nonneg_right (Int.cast_le.2 (roundEven_mono hscaled)) (pow_pos _).le

/-- A larger magnitude has an exponent at least as large, so its grid is at least as coarse. -/
theorem exponent_mono {p q : ℚ} (hp : p ≠ 0) (h : |p| ≤ |q|) : f.exponent p ≤ f.exponent q := by
  have hlog := Int.log_mono_right (b := 2) (abs_pos.2 hp) h
  unfold exponent
  omega

/-- Rounding to nearest is monotone. Zero separates the signs, and on either side a power of two
separates the binades. -/
theorem nearest_mono {p q : ℚ} (h : p ≤ q) : f.nearest p ≤ f.nearest q := by
  have hzero : ∀ x : ℚ, ∃ k : ℤ, (0 : ℚ) = k * 2 ^ f.exponent x := fun x => ⟨0, by simp⟩
  rcases le_or_gt p 0 with hp | hp
  · rcases le_or_gt 0 q with hq | hq
    · exact (f.nearest_le hp (hzero p)).trans (f.le_nearest hq (hzero q))
    have hp' : p < 0 := h.trans_lt hq
    have habs : |q| ≤ |p| := by
      rw [abs_of_neg hq, abs_of_neg hp']
      exact neg_le_neg h
    rcases (f.exponent_mono hq.ne habs).eq_or_lt with heq | hlt
    · exact f.nearest_mono_of_eq h heq.symm
    -- below zero the larger number is the one of smaller magnitude
    obtain ⟨t, hqt, htp, heq, hep⟩ := f.exists_between hp'.ne hlt
    rw [abs_of_neg hq] at hqt
    rw [abs_of_neg hp'] at htp
    have hmultiple : ∀ x, f.exponent x ≤ t → ∃ k : ℤ, -(2 : ℚ) ^ t = k * 2 ^ f.exponent x := by
      intro x hx
      obtain ⟨k, hk⟩ := pow_multiple hx
      exact ⟨-k, by rw [hk, Int.cast_neg, neg_mul]⟩
    calc f.nearest p ≤ -2 ^ t := f.nearest_le (by linarith) (hmultiple p hep)
      _ ≤ f.nearest q := f.le_nearest (by linarith) (hmultiple q heq)
  · have hq : 0 < q := hp.trans_le h
    have habs : |p| ≤ |q| := by
      rw [abs_of_pos hp, abs_of_pos hq]
      exact h
    rcases (f.exponent_mono hp.ne' habs).eq_or_lt with heq | hlt
    · exact f.nearest_mono_of_eq h heq
    obtain ⟨t, hpt, htq, hep, heq⟩ := f.exists_between hq.ne' hlt
    rw [abs_of_pos hp] at hpt
    rw [abs_of_pos hq] at htq
    calc f.nearest p ≤ 2 ^ t := f.nearest_le hpt (pow_multiple hep)
      _ ≤ f.nearest q := f.le_nearest htq (pow_multiple heq)

/-- Rounding does not make a number negative. -/
theorem nearest_nonneg {q : ℚ} (h : 0 ≤ q) : 0 ≤ f.nearest q := by
  calc (0 : ℚ) = f.nearest 0 := f.nearest_zero.symm
    _ ≤ f.nearest q := f.nearest_mono h

/-- Nor does it make one positive. -/
theorem nearest_nonpos {q : ℚ} (h : q ≤ 0) : f.nearest q ≤ 0 := by
  calc f.nearest q ≤ f.nearest 0 := f.nearest_mono h
    _ = 0 := f.nearest_zero

/-- Neither overflow nor the infinities change that: a larger number is not rounded to less, beyond
the largest finite one too. -/
theorem round_mono (p q : ℚ) (h : p ≤ q) : f.round p ≤ f.round q := by
  have hnearest := f.nearest_mono h
  unfold round
  by_cases hp : 2 ^ f.max_exponent ≤ |f.nearest p|
  · rw [if_pos hp]
    rcases lt_or_ge p 0 with hneg | hpos
    · -- minus infinity is below everything
      rw [decide_eq_true hneg]
      split_ifs
      · exact rfl
      · exact rfl
    · -- and what is not below an overflow overflows too
      have hq : 2 ^ f.max_exponent ≤ |f.nearest q| := by
        rw [abs_of_nonneg (f.nearest_nonneg hpos)] at hp
        rw [abs_of_nonneg (f.nearest_nonneg (hpos.trans h))]
        exact hp.trans hnearest
      rw [if_pos hq, decide_eq_false (not_lt.2 hpos), decide_eq_false (not_lt.2 (hpos.trans h))]
      exact rfl
  · rw [if_neg hp]
    by_cases hq : 2 ^ f.max_exponent ≤ |f.nearest q|
    · rw [if_pos hq]
      rcases lt_or_ge q 0 with hneg | hpos
      · refine absurd ?_ hp
        rw [abs_of_nonpos (f.nearest_nonpos hneg.le)] at hq
        rw [abs_of_nonpos (f.nearest_nonpos (h.trans hneg.le))]
        linarith
      · rw [decide_eq_false (not_lt.2 hpos)]
        exact rfl
    · rw [if_neg hq]
      exact decide_eq_true hnearest

/-- Zero is rounded to zero, without a sign. -/
theorem round_zero : f.round 0 = fin 0 := by
  unfold round
  rw [nearest_zero, abs_zero, if_neg (not_le.2 (pow_pos _))]

/-- A whole number whose digits fit is itself: its quantum is no greater than one, so that it is a
multiple of it. -/
theorem round_natCast {n : ℕ} (hn : n < 2 ^ f.precision) (hmin : f.min_exponent ≤ 0)
    (hmax : (f.precision : ℤ) ≤ f.max_exponent) : f.round n = fin n := by
  have hnearest : f.nearest n = n := by
    have hquantum : f.exponent n ≤ 0 := by
      have hlog : Int.log 2 |(n : ℚ)| < f.precision := by
        rw [Nat.abs_cast, Int.log_natCast, Int.ofNat_lt]
        exact Nat.log_lt_of_lt_pow' f.pos.ne' hn
      unfold exponent
      omega
    obtain ⟨k, hk⟩ := pow_multiple hquantum
    have hmultiple : ∃ m : ℤ, (n : ℚ) = m * 2 ^ f.exponent n := by
      refine ⟨n * k, ?_⟩
      rw [Int.cast_mul, Int.cast_natCast, mul_assoc, ← hk, zpow_zero, mul_one]
    exact le_antisymm (f.nearest_le le_rfl hmultiple) (f.le_nearest le_rfl hmultiple)
  have hrange : |(n : ℚ)| < 2 ^ f.max_exponent := by
    calc |(n : ℚ)| = n := Nat.abs_cast n
      _ < ((2 ^ f.precision : ℕ) : ℚ) := Nat.cast_lt.2 hn
      _ = 2 ^ (f.precision : ℤ) := by rw [Nat.cast_pow, Nat.cast_ofNat, zpow_natCast]
      _ ≤ 2 ^ f.max_exponent := zpow_le_zpow_right₀ one_le_two hmax
  rw [round, hnearest, if_neg (not_le.2 hrange)]

/-- Every format is a rounding. -/
def rounding : Rounding := ⟨f.round, f.round_mono, f.round_zero⟩

/-! ## Words -/

/-- The digits after the first have so many values. -/
def fractions : ℕ := 2 ^ (f.precision - 1)

/-- The word of an infinity: all bits of the exponent are set. -/
def infinity : ℕ := (f.max_exponent - f.precision - f.min_exponent + 2).toNat * f.fractions

/-- The bit of the sign, above those of the exponent. -/
def sign_bit : ℕ := f.infinity + f.fractions

/-- The exponent, counted from the smallest. -/
def binade (q : ℚ) : ℕ := (f.exponent q - f.min_exponent).toNat

/-- The significand of a magnitude, rounded. -/
def significand (q : ℚ) : ℕ := (roundEven (|q| / 2 ^ f.exponent q)).toNat

/-- A magnitude without its sign, rounded. A significand of a normal number has its first digit in
the place of the exponent, where it adds one. -/
def bits (q : ℚ) : ℕ := if q = 0 then 0 else f.binade q * f.fractions + f.significand q

/-- The word of a number, which is rounded. A NaN is a quiet one. -/
def encode : Ieee → ℕ
  | fin q => (if q < 0 then f.sign_bit else 0) + min f.infinity (f.bits q)
  | inf s => (if s then f.sign_bit else 0) + f.infinity
  | nan s => (if s then f.sign_bit else 0) + (f.infinity + 2 ^ (f.precision - 2))

/-- The magnitude of a word without its sign. -/
def magnitude (n : ℕ) : ℚ :=
  if n < f.fractions then n * 2 ^ f.min_exponent
  else (n % f.fractions + f.fractions : ℕ) *
    2 ^ (((n / f.fractions - 1 : ℕ) : ℤ) + f.min_exponent)

/-- The number of a word without its sign. -/
def unsigned (neg : Bool) (n : ℕ) : Ieee :=
  if n < f.infinity then fin (if neg then -f.magnitude n else f.magnitude n)
  else if n = f.infinity then inf neg else nan neg

/-- The number of a word. -/
def decode (n : ℕ) : Ieee :=
  if n < f.sign_bit then f.unsigned false n else f.unsigned true (n - f.sign_bit)

/-- There is at least one fraction to each exponent. -/
theorem fractions_pos : 0 < f.fractions := Nat.two_pow_pos _

/-- The fractions are half of the significands. -/
theorem two_mul_fractions : 2 * f.fractions = 2 ^ f.precision := by
  have hpos := f.pos
  rw [fractions, ← pow_succ']
  congr 1
  omega

/-- Their number as a power of two, by which significands and exponents are exchanged. -/
theorem fractions_eq_zpow : (f.fractions : ℚ) = 2 ^ ((f.precision : ℤ) - 1) := by
  have hpos := f.pos
  have hcast : ((f.precision - 1 : ℕ) : ℤ) = (f.precision : ℤ) - 1 := by omega
  rw [fractions, Nat.cast_pow, Nat.cast_ofNat, ← zpow_natCast, hcast]

/-- A significand in a binade, its first digit carried or not, is where the word says. -/
theorem magnitude_add {d k : ℕ} (hk : k ≤ 2 * f.fractions) (hd : d = 0 ∨ f.fractions ≤ k) :
    f.magnitude (d * f.fractions + k) = k * 2 ^ ((d : ℤ) + f.min_exponent) := by
  have hpos := f.fractions_pos
  unfold magnitude
  rcases lt_or_ge k f.fractions with hsmall | hlarge
  · -- a subnormal number
    obtain rfl : d = 0 := by omega
    rw [Nat.zero_mul, Nat.zero_add, if_pos hsmall, Nat.cast_zero, zero_add]
  · rcases hk.lt_or_eq with hlt | rfl
    · have hsplit : d * f.fractions + k = (k - f.fractions) + f.fractions * (d + 1) := by
        rw [Nat.mul_succ, Nat.mul_comm]
        omega
      have hmod : (d * f.fractions + k) % f.fractions = k - f.fractions := by
        rw [hsplit, Nat.add_mul_mod_self_left, Nat.mod_eq_of_lt (by omega)]
      have hdiv : (d * f.fractions + k) / f.fractions = d + 1 := by
        rw [hsplit, Nat.add_mul_div_left _ _ hpos, Nat.div_eq_of_lt (by omega), Nat.zero_add]
      have hnot : ¬ d * f.fractions + k < f.fractions := by omega
      rw [if_neg hnot, hmod, hdiv, Nat.sub_add_cancel hlarge, Nat.add_sub_cancel]
    · -- a carry into the next binade
      have hsplit : d * f.fractions + 2 * f.fractions = f.fractions * (d + 2) := by ring
      have hnot : ¬ d * f.fractions + 2 * f.fractions < f.fractions := by omega
      have hnext : ((d + 2 - 1 : ℕ) : ℤ) + f.min_exponent = 1 + ((d : ℤ) + f.min_exponent) := by
        omega
      rw [if_neg hnot, hsplit, Nat.mul_mod_right, Nat.mul_div_cancel_left _ hpos, hnext,
        zpow_add₀ two_ne_zero, zpow_one, Nat.zero_add, Nat.cast_mul, Nat.cast_ofNat]
      ring

/-- A word is below that of an infinity when its magnitude is in the range. -/
theorem magnitude_lt {n : ℕ} : f.magnitude n < 2 ^ f.max_exponent ↔ n < f.infinity := by
  have hpos := f.fractions_pos
  have hrange := f.range
  set top := (f.max_exponent - f.precision - f.min_exponent).toNat with htop
  have hinfinity : f.infinity = (top + 2) * f.fractions := by
    unfold infinity
    congr 1
    omega
  have hmax : f.max_exponent = (f.precision : ℤ) - 1 + (1 + ((top : ℤ) + f.min_exponent)) := by
    omega
  unfold magnitude
  -- subnormals are small; of the others the exponent field decides
  rcases lt_or_ge n f.fractions with hsmall | hlarge
  · rw [if_pos hsmall, hinfinity, iff_true_right (by nlinarith)]
    calc (n : ℚ) * 2 ^ f.min_exponent < f.fractions * 2 ^ f.min_exponent :=
          mul_lt_mul_of_pos_right (Nat.cast_lt.2 hsmall) (pow_pos _)
      _ = 2 ^ ((f.precision : ℤ) - 1 + f.min_exponent) := by
          rw [fractions_eq_zpow, zpow_add₀ two_ne_zero]
      _ ≤ 2 ^ f.max_exponent := zpow_le_zpow_right₀ one_le_two (by omega)
  · rw [if_neg (not_lt.2 hlarge), hinfinity, ← Nat.div_lt_iff_lt_mul hpos]
    have hdiv : 1 ≤ n / f.fractions := (Nat.one_le_div_iff hpos).2 hlarge
    have hmod := Nat.mod_lt n hpos
    set e := n / f.fractions - 1 with he
    constructor
    · intro hlt
      by_contra hge
      refine absurd hlt (not_lt.2 ?_)
      calc (2 : ℚ) ^ f.max_exponent
          = f.fractions * 2 ^ (1 + ((top : ℤ) + f.min_exponent)) := by
            rw [hmax, zpow_add₀ two_ne_zero, fractions_eq_zpow]
        _ ≤ (n % f.fractions + f.fractions : ℕ) * 2 ^ ((e : ℤ) + f.min_exponent) := by
            refine mul_le_mul (Nat.cast_le.2 (Nat.le_add_left _ _)) ?_ (pow_pos _).le
              (Nat.cast_nonneg _)
            exact zpow_le_zpow_right₀ one_le_two (by omega)
    · intro hlt
      calc ((n % f.fractions + f.fractions : ℕ) : ℚ) * 2 ^ ((e : ℤ) + f.min_exponent)
          < (2 * f.fractions : ℕ) * 2 ^ ((e : ℤ) + f.min_exponent) :=
            mul_lt_mul_of_pos_right (Nat.cast_lt.2 (by omega)) (pow_pos _)
        _ = 2 ^ ((f.precision : ℤ) - 1 + (1 + ((e : ℤ) + f.min_exponent))) := by
            rw [Nat.cast_mul, fractions_eq_zpow, zpow_add₀ two_ne_zero (_ - 1), zpow_one_add₀
              two_ne_zero, Nat.cast_ofNat]
            ring
        _ ≤ 2 ^ f.max_exponent := zpow_le_zpow_right₀ one_le_two (by omega)

/-- A rounded significand has no more digits than the format, but for a carry, and no fewer above
the smallest binade. -/
theorem significand_bounds {q : ℚ} (hq : q ≠ 0) : f.significand q ≤ 2 * f.fractions ∧
    (f.binade q = 0 ∨ f.fractions ≤ f.significand q) := by
  have habs : 0 < |q| := abs_pos.2 hq
  have hpow := pow_pos (f.exponent q)
  constructor
  · -- rounding is monotone, so the bounds on the quotient are bounds on the significand
    have hlt : |q| / 2 ^ f.exponent q ≤ ((2 * f.fractions : ℕ) : ℤ) := by
      rw [div_le_iff₀ hpow]
      calc |q| ≤ 2 ^ (Int.log 2 |q| + 1) := (Int.lt_zpow_succ_log_self one_lt_two |q|).le
        _ ≤ 2 ^ ((f.precision : ℤ) + f.exponent q) :=
          zpow_le_zpow_right₀ one_le_two (by unfold exponent; omega)
        _ = ((2 * f.fractions : ℕ) : ℤ) * 2 ^ f.exponent q := by
          rw [zpow_add₀ two_ne_zero, two_mul_fractions, zpow_natCast]
          push_cast
          rfl
    have hround := roundEven_mono hlt
    rw [roundEven_intCast] at hround
    unfold significand
    omega
  · by_cases hsmallest : f.binade q = 0
    · exact .inl hsmallest
    · right
      have hexponent : f.exponent q = Int.log 2 |q| + 1 - f.precision := by
        unfold binade exponent at hsmallest
        unfold exponent
        omega
      have hle : ((f.fractions : ℕ) : ℤ) ≤ |q| / 2 ^ f.exponent q := by
        rw [le_div_iff₀ hpow]
        calc (((f.fractions : ℕ) : ℤ) : ℚ) * 2 ^ f.exponent q
            = 2 ^ ((f.precision : ℤ) - 1 + f.exponent q) := by
              rw [Int.cast_natCast, fractions_eq_zpow, zpow_add₀ two_ne_zero]
          _ = 2 ^ Int.log 2 |q| := by
              rw [hexponent]
              congr 1
              omega
          _ ≤ |q| := by exact_mod_cast Int.zpow_log_le_self one_lt_two habs
      have hround := roundEven_mono hle
      rw [roundEven_intCast] at hround
      unfold significand
      omega

/-- The word of a number has the magnitude that the number is rounded to. -/
theorem magnitude_bits (q : ℚ) : f.magnitude (f.bits q) = f.nearest |q| := by
  unfold bits
  split_ifs with hq
  · subst hq
    rw [abs_zero, nearest_zero, magnitude, if_pos f.fractions_pos, Nat.cast_zero, zero_mul]
  · obtain ⟨hle, hge⟩ := f.significand_bounds hq
    have hexponent : (f.binade q : ℤ) + f.min_exponent = f.exponent q := by
      unfold binade exponent
      omega
    have hnonneg : 0 ≤ roundEven (|q| / 2 ^ f.exponent q) := by
      have hround := roundEven_mono (div_nonneg (abs_nonneg q) (pow_pos (f.exponent q)).le)
      have hzero : roundEven 0 = 0 := by simpa using roundEven_intCast 0
      rwa [hzero] at hround
    have habs : f.exponent |q| = f.exponent q := by unfold exponent; rw [abs_abs]
    rw [f.magnitude_add hle hge, hexponent, nearest, habs, significand]
    congr 1
    exact_mod_cast congrArg (Int.cast (R := ℚ)) (Int.toNat_of_nonneg hnonneg)

end Format

/-- The sign makes no difference to the nearest integer, ties included, since negation keeps what is
even. -/
theorem roundEven_neg (x : ℚ) : roundEven (-x) = -roundEven x := by
  by_cases hx : x = ⌊x⌋
  · rw [hx, ← Int.cast_neg, roundEven_intCast, roundEven_intCast]
  · have hlt : (⌊x⌋ : ℚ) < x := lt_of_le_of_ne (Int.floor_le x) (Ne.symm hx)
    have hup := Int.lt_floor_add_one x
    have hfloor : ⌊-x⌋ = -⌊x⌋ - 1 := by
      rw [Int.floor_eq_iff]
      push_cast
      constructor <;> linarith
    unfold roundEven
    rw [hfloor]
    push_cast
    split_ifs <;> first | omega | linarith

namespace Format

variable (f : Format)

/-- Rounding is odd: ties go to the even neighbour, which negation does not change. -/
theorem nearest_neg (q : ℚ) : f.nearest (-q) = -f.nearest q := by
  unfold nearest exponent
  rw [abs_neg, neg_div, roundEven_neg, Int.cast_neg, neg_mul]

/-- It is therefore enough to round magnitudes. -/
theorem nearest_of_abs (q : ℚ) :
    f.nearest q = if q < 0 then -f.nearest |q| else f.nearest |q| := by
  split_ifs with hq
  · rw [abs_of_neg hq, nearest_neg, neg_neg]
  · rw [abs_of_nonneg (not_lt.1 hq)]

/-- The magnitude of a rounded number is the rounded magnitude. -/
theorem abs_nearest (q : ℚ) : |f.nearest q| = f.nearest |q| := by
  have hnonneg : 0 ≤ f.nearest |q| := f.nearest_nonneg (abs_nonneg q)
  rw [nearest_of_abs]
  split_ifs
  · rw [abs_neg, abs_of_nonneg hnonneg]
  · exact abs_of_nonneg hnonneg

/-- A word is taken apart at its sign. -/
theorem decode_add {s : Bool} {n : ℕ} (h : n < f.sign_bit) :
    f.decode ((if s then f.sign_bit else 0) + n) = f.unsigned s n := by
  unfold decode
  cases s with
  | false => rw [if_neg Bool.false_ne_true, Nat.zero_add, if_pos h]
  | true => rw [if_pos rfl, if_neg (by omega), Nat.add_sub_cancel_left]

/-- The word of a number is that of the number rounded, for NaNs and infinities as well. -/
theorem decode_encode (x : Ieee) : f.decode (f.encode x) = f.rounding.fl x := by
  have hpos := f.fractions_pos
  match x with
  | fin q =>
    have hsign : (if q < 0 then f.sign_bit else 0) =
        if decide (q < 0) then f.sign_bit else 0 := by
      simp only [decide_eq_true_eq]
    have hword : min f.infinity (f.bits q) < f.sign_bit := by
      unfold sign_bit
      omega
    show f.decode ((if q < 0 then f.sign_bit else 0) + min f.infinity (f.bits q)) = f.round q
    rw [hsign, f.decode_add hword]
    unfold unsigned round
    rw [abs_nearest, ← magnitude_bits]
    by_cases hlt : f.bits q < f.infinity
    · rw [Nat.min_eq_right hlt.le, if_pos hlt, if_neg (not_le.2 (f.magnitude_lt.2 hlt)),
        magnitude_bits, f.nearest_of_abs q]
      simp only [decide_eq_true_eq]
    · rw [Nat.min_eq_left (not_lt.1 hlt), if_neg (lt_irrefl _), if_pos rfl,
        if_pos (not_lt.1 (mt f.magnitude_lt.1 hlt))]
  | inf s =>
    have hword : f.infinity < f.sign_bit := by
      unfold sign_bit
      omega
    show f.decode ((if s then f.sign_bit else 0) + f.infinity) = inf s
    rw [f.decode_add hword, unsigned, if_neg (lt_irrefl _), if_pos rfl]
  | nan s =>
    have hquiet : 2 ^ (f.precision - 2) < f.fractions := by
      have hwide := f.wide
      exact Nat.pow_lt_pow_right one_lt_two (by omega)
    have hquiet_pos : 0 < 2 ^ (f.precision - 2) := Nat.two_pow_pos _
    have hword : f.infinity + 2 ^ (f.precision - 2) < f.sign_bit := by
      unfold sign_bit
      omega
    show f.decode ((if s then f.sign_bit else 0) + (f.infinity + 2 ^ (f.precision - 2))) = nan s
    rw [f.decode_add hword, unsigned, if_neg (by omega), if_neg (by omega)]

/-- A tenth in binary32, of which the last digit is rounded up. -/
example : single.encode (fin (1 / 10)) = 0x3DCCCCCD := by decide +kernel

/-- Words have one bit more than the sign, so they fit the unsigned integer of the format's width.
-/
theorem encode_lt (x : Ieee) : f.encode x < 2 * f.sign_bit := by
  have hpos := f.fractions_pos
  have hsign : ∀ s : Bool, (if s then f.sign_bit else 0) ≤ f.sign_bit := by
    intro s
    split_ifs <;> omega
  match x with
  | fin q =>
    have hmin := Nat.min_le_left f.infinity (f.bits q)
    show (if q < 0 then f.sign_bit else 0) + min f.infinity (f.bits q) < 2 * f.sign_bit
    unfold sign_bit
    split_ifs <;> omega
  | inf s =>
    have hs := hsign s
    show (if s then f.sign_bit else 0) + f.infinity < 2 * f.sign_bit
    unfold sign_bit at hs ⊢
    omega
  | nan s =>
    have hs := hsign s
    have hquiet : 2 ^ (f.precision - 2) < f.fractions := by
      have hwide := f.wide
      exact Nat.pow_lt_pow_right one_lt_two (by omega)
    show (if s then f.sign_bit else 0) + (f.infinity + 2 ^ (f.precision - 2)) < 2 * f.sign_bit
    unfold sign_bit at hs ⊢
    omega

end Format

end Ieee
