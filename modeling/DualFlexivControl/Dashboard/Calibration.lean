/-
Solving for a leader's convention in `dashboard/calibration.py`.

Each captured pose gives, for either sign of a joint, an estimate of its offset. With the right
sign the estimates agree. With the wrong one they are off by twice the reference, and as the
references are multiples of a right angle this is a whole number of half turns: the estimates lie
in two opposite directions, and which one an estimate has is the parity of its reference
([`opposite_wrong`]). So the wrong sign fits as well as the right one when all references have one
parity, and it then gives an offset that is as good ([`joint_fit_maps`]).

Otherwise its residual is that of the minority. The tie that the solver allows for is meant for
rounding; but a minority may be so small a part of the samples that its residual is below it
([`Lopsided`]), and nothing else goes wrong.
-/
import DualFlexivControl.Control.Convention
import DualFlexivControl.Lib.CircularMean

set_option autoImplicit false

namespace DualFlexivControl.Calibration

open Maths
open Convention (JointConventionCfg convert_factr_to_rizon arm_values mirrored joint)

/-! ## The solver -/

/-- `PoseFit` -/
structure PoseFit (F : Type) where
  offsets_deg : List F
  sign_flip_joints : List ℕ
  residuals_deg : List F
  ambiguous_joints : List ℕ
  n_samples : ℕ

/-- What `solve_from_samples` raises; numpy has no array with rows of several lengths. -/
inductive SolveError
  | runtime_error (text : String)
  | value_error
  deriving DecidableEq, Repr

/-- What the loop finds for one joint. -/
structure JointFit (F : Type) where
  offset : F
  rms : F
  negative : Bool
  ambiguous : Bool

section Lists

variable {F : Type}

/-- The end of the loop's body. -/
def PoseFit.append (fit : PoseFit F) (j : ℕ) (found : JointFit F) : PoseFit F :=
  { fit with
    offsets_deg := fit.offsets_deg ++ [found.offset]
    sign_flip_joints :=
      if found.negative then fit.sign_flip_joints ++ [j] else fit.sign_flip_joints
    residuals_deg := fit.residuals_deg ++ [found.rms]
    ambiguous_joints :=
      if found.ambiguous then fit.ambiguous_joints ++ [j] else fit.ambiguous_joints }

/-- The width of `np.asarray(rows)`. -/
def width (rows : List (List F)) : Option ℕ :=
  match rows with
  | [] => none
  | row :: rest => if rest.all (·.length == row.length) then some row.length else none

/-- The convention of a fit, for samples with `drop` values after those of the arm. -/
def PoseFit.convention (fit : PoseFit F) (drop : ℕ) : JointConventionCfg F where
  offsets_deg := fit.offsets_deg
  sign_flip_joints := fit.sign_flip_joints.map (↑)
  drop_trailing := drop
  gripper_open := none
  gripper_closed := none

/-- The loop puts the joints' results side by side: offsets in the joints' order, and the lists of
flipped and ambiguous joints ascending. -/
theorem foldl_joint_fits (found : ℕ → JointFit F) (n w : ℕ) :
    (List.range w).foldl (fun (fit : PoseFit F) j => fit.append j (found j))
        ⟨[], [], [], [], n⟩ =
      ⟨(List.range w).map fun j => (found j).offset,
        (List.range w).filter fun j => (found j).negative,
        (List.range w).map fun j => (found j).rms,
        (List.range w).filter fun j => (found j).ambiguous, n⟩ := by
  induction w with
  | zero => rfl
  | succ w ih =>
    rw [List.range_succ, List.foldl_append, ih]
    simp only [List.foldl_cons, List.foldl_nil, PoseFit.append, List.map_append, List.map_cons,
      List.map_nil, List.filter_append]
    congr 1
    · cases hneg : (found w).negative <;> simp [hneg]
    · cases hamb : (found w).ambiguous <;> simp [hamb]

/-- Rows of one length have that width, which is what the solver asks of the leaders' and of the
arms' samples alike. -/
theorem width_eq {rows : List (List F)} {w : ℕ} (hne : rows ≠ [])
    (h : ∀ row ∈ rows, row.length = w) : width rows = some w := by
  cases rows with
  | nil => exact absurd rfl hne
  | cons row rest =>
    have hrow := h row List.mem_cons_self
    have hall : (rest.all (·.length == row.length)) = true := by
      rw [List.all_eq_true]
      intro other hother
      rw [beq_iff_eq, hrow]
      exact h other (List.mem_cons_of_mem row hother)
    exact (if_pos hall).trans (congrArg some hrow)

end Lists

section Functions

variable {F : Type} [Field F] [Maths F]

/-- `_SIGN_TIE_EPS_DEG` -/
def SIGN_TIE_EPS_DEG : F := Scalar.lit (1 / 1000000)

/-- An entry of a row, inside its width. -/
def entry (row : List F) (j : ℕ) : F := row.getD j 0

/-- `_wrap_deg(sign * ref[:, j] - leader[:, j])`, of one sample -/
def estimate (sign : F) (j : ℕ) (pair : List F × List F) : F :=
  wrap_deg (sign * entry pair.2 j - entry pair.1 j)

/-- `fits[sign]` -/
def fit_sign (sign : F) (j : ℕ) (pairs : List (List F × List F)) : F × F :=
  let est := pairs.map (estimate sign j)
  let off := circular_mean_deg est
  (off, rms_deviation est off)

def joint_fit (pairs : List (List F × List F)) (fallback : List ℤ) (j : ℕ) : JointFit F :=
  let plus := fit_sign 1 j pairs
  let minus := fit_sign (-1) j pairs
  let tie := Scalar.le (Scalar.abs (plus.2 - minus.2)) SIGN_TIE_EPS_DEG
  -- `min` keeps the first of two equal keys, which is the positive sign
  let negative := if tie then decide ((j : ℤ) ∈ fallback) else Scalar.lt minus.2 plus.2
  let kept := if negative then minus else plus
  ⟨kept.1, kept.2, negative, tie⟩

/-- `solve_from_samples` -/
def solve_from_samples (pairs : List (List F × List F)) (fallback_flips : List ℤ) :
    Except SolveError (PoseFit F) :=
  if pairs.isEmpty then .error (.runtime_error "no captured pose samples to solve from")
  else match width (pairs.map (·.1)), width (pairs.map (·.2)) with
  | some leader, some ref =>
    if leader ≠ ref then
      .error (.runtime_error
        (s!"sample shape mismatch: leader ({pairs.length}, {leader}) " ++
          s!"vs reference ({pairs.length}, {ref})"))
    else .ok ((List.range leader).foldl
      (fun (fit : PoseFit F) j => fit.append j (joint_fit pairs fallback_flips j))
      ⟨[], [], [], [], pairs.length⟩)
  | _, _ => .error .value_error

/-- Samples of one width are solved, joint by joint: nothing of one joint's samples enters another
one's fit. -/
theorem solve_from_samples_eq {pairs : List (List F × List F)} {w : ℕ} (hne : pairs ≠ [])
    (h : ∀ p ∈ pairs, p.1.length = w ∧ p.2.length = w) (fallback : List ℤ) :
    solve_from_samples pairs fallback =
      .ok ⟨(List.range w).map fun j => (joint_fit pairs fallback j).offset,
        (List.range w).filter fun j => (joint_fit pairs fallback j).negative,
        (List.range w).map fun j => (joint_fit pairs fallback j).rms,
        (List.range w).filter fun j => (joint_fit pairs fallback j).ambiguous,
        pairs.length⟩ := by
  have hleader : width (pairs.map (·.1)) = some w := by
    apply width_eq (by simpa using hne)
    intro row hrow
    obtain ⟨p, hp, rfl⟩ := List.mem_map.1 hrow
    exact (h p hp).1
  have href : width (pairs.map (·.2)) = some w := by
    apply width_eq (by simpa using hne)
    intro row hrow
    obtain ⟨p, hp, rfl⟩ := List.mem_map.1 hrow
    exact (h p hp).2
  unfold solve_from_samples
  rw [if_neg (by simpa using hne), hleader, href]
  show (if w ≠ w then _ else _) = _
  rw [if_neg (by simp), foldl_joint_fits]

end Functions

/-! ## Samples without noise -/

section Real

open AddCommGroup

/-- What the leader's joints really are: some turn against the arm's, and all have an offset. -/
structure Truth where
  flipped : ℕ → Bool
  offset : ℕ → ℝ

/-- Samples of a leader with the convention `truth`, on any turn of its encoders, in poses whose
angles are multiples of a right angle. -/
structure NoiseFree (truth : Truth) (w : ℕ) (pairs : List (List ℝ × List ℝ)) : Prop where
  nonempty : pairs ≠ []
  widths : ∀ p ∈ pairs, p.1.length = w ∧ p.2.length = w
  right_angles : ∀ p ∈ pairs, ∀ j < w, ∃ m : ℤ, entry p.2 j = 90 * m
  exact : ∀ p ∈ pairs, ∀ j < w, entry p.2 j ≡
    (if truth.flipped j then -1 else 1) * (entry p.1 j + truth.offset j) [PMOD (360 : ℝ)]

/-- The references of a joint are not all congruent modulo half a turn. -/
def Mixed (pairs : List (List ℝ × List ℝ)) (j : ℕ) : Prop :=
  ∃ p ∈ pairs, ∃ p' ∈ pairs, ¬ entry p.2 j ≡ entry p'.2 j [PMOD (180 : ℝ)]

open Classical in
/-- The reference is no whole number of half turns. -/
noncomputable def odd (j : ℕ) (p : List ℝ × List ℝ) : Bool :=
  decide (¬ entry p.2 j ≡ 0 [PMOD (180 : ℝ)])

/-- The fewer of the odd and the other samples. -/
noncomputable def minority (pairs : List (List ℝ × List ℝ)) (j : ℕ) : ℕ :=
  min (pairs.countP (odd j)) (pairs.length - pairs.countP (odd j))

/-- What the minority leaves as a residual is within the solver's tie. -/
def Lopsided (pairs : List (List ℝ × List ℝ)) (j : ℕ) : Prop :=
  Mixed pairs j ∧ 180 * √(minority pairs j / pairs.length) ≤ 1 / 1000000

section Samples

variable {truth : Truth} {w : ℕ} {pairs : List (List ℝ × List ℝ)} {j : ℕ}

open Classical in
/-- A sample is odd exactly when its reference is no whole number of half turns. -/
theorem odd_eq_true {p : List ℝ × List ℝ} :
    odd j p = true ↔ ¬ entry p.2 j ≡ 0 [PMOD (180 : ℝ)] := by
  unfold odd
  exact decide_eq_true_iff

/-- And even when it is one. -/
theorem odd_eq_false {p : List ℝ × List ℝ} :
    odd j p = false ↔ entry p.2 j ≡ 0 [PMOD (180 : ℝ)] := by
  rw [← Bool.not_eq_true, odd_eq_true, not_not]

/-- Twice a multiple of a right angle is a whole or a half turn, by the parity that the reference
tells; this is all that a wrong sign can be off by. -/
theorem half_turns (m : ℤ) {p : List ℝ × List ℝ} (h : entry p.2 j = 90 * m) :
    (180 * m : ℝ) ≡ (if odd j p then 180 else 0) [PMOD (360 : ℝ)] ∧
      entry p.2 j ≡ (if odd j p then 90 else 0) [PMOD (180 : ℝ)] := by
  rcases Int.even_or_odd' m with ⟨k, rfl | rfl⟩
  · -- an even multiple of a right angle is a whole number of half turns
    have heven : odd j p = false := by
      rw [odd_eq_false, h, AddCommGroup.modEq_zero_iff_eq_zsmul]
      exact ⟨k, by rw [zsmul_eq_mul]; push_cast; ring⟩
    rw [heven, h]
    constructor
    · rw [modEq_iff_eq_add_zsmul]
      exact ⟨-k, by rw [zsmul_eq_mul]; push_cast; simp; ring⟩
    · rw [modEq_iff_eq_add_zsmul]
      exact ⟨-k, by rw [zsmul_eq_mul]; push_cast; simp; ring⟩
  · have hodd : odd j p = true := by
      rw [odd_eq_true, h, AddCommGroup.modEq_zero_iff_eq_zsmul]
      rintro ⟨z, hz⟩
      rw [zsmul_eq_mul] at hz
      push_cast at hz
      -- 90 (2 k + 1) is no multiple of 180
      have hreal : ((2 * k + 1 : ℤ) : ℝ) = ((2 * z : ℤ) : ℝ) := by
        push_cast
        linarith
      have hint : 2 * k + 1 = 2 * z := by exact_mod_cast hreal
      omega
    rw [hodd, h]
    constructor
    · rw [modEq_iff_eq_add_zsmul]
      exact ⟨-k, by rw [zsmul_eq_mul]; push_cast; simp; ring⟩
    · rw [modEq_iff_eq_add_zsmul]
      exact ⟨-k, by rw [zsmul_eq_mul]; push_cast; simp; ring⟩

/-- A minority is what makes a joint mixed: its references fall into two classes, and neither is
empty. -/
theorem mixed_iff (h : NoiseFree truth w pairs) (hj : j < w) :
    Mixed pairs j ↔ minority pairs j ≠ 0 := by
  constructor
  · rintro ⟨p, hp, p', hp', hne⟩ hzero
    obtain ⟨m, hm⟩ := h.right_angles p hp j hj
    obtain ⟨m', hm'⟩ := h.right_angles p' hp' j hj
    -- with no minority all references have one parity, so one class
    have hparity : odd j p = odd j p' := by
      unfold minority at hzero
      rcases Nat.min_eq_zero_iff.1 hzero with hnone | hall
      · have hfalse := List.countP_eq_zero.1 hnone
        rw [Bool.eq_false_of_not_eq_true (hfalse p hp),
          Bool.eq_false_of_not_eq_true (hfalse p' hp')]
      · have hle := @List.countP_le_length _ (odd j) pairs
        have htrue := List.countP_eq_length.1 (Nat.le_antisymm hle (Nat.sub_eq_zero_iff_le.1 hall))
        rw [htrue p hp, htrue p' hp']
    apply hne
    have hclass := (half_turns m hm).2
    rw [hparity] at hclass
    exact hclass.trans (half_turns m' hm').2.symm
  · intro hpos
    unfold minority at hpos
    -- a minority is not empty, and neither is the rest
    have hone : 0 < pairs.countP (odd j) := by omega
    have hother : pairs.countP (odd j) < pairs.length := by omega
    obtain ⟨p, hp, hodd⟩ := List.countP_pos_iff.1 hone
    obtain ⟨p', hp', heven⟩ : ∃ p' ∈ pairs, ¬ odd j p' = true := by
      by_contra hnone
      push Not at hnone
      exact hother.ne (List.countP_eq_length.2 hnone)
    refine ⟨p, hp, p', hp', fun hsame => odd_eq_true.1 hodd (hsame.trans ?_)⟩
    exact odd_eq_false.1 (Bool.eq_false_of_not_eq_true heven)

/-! ## The two signs -/

/-- The estimates of the right sign agree: each sample gives the true offset, up to full turns. -/
theorem opposite_right (h : NoiseFree truth w pairs) (hj : j < w) :
    Opposite pairs (fun _ => false) (estimate (if truth.flipped j then -1 else 1) j)
      (truth.offset j) := by
  intro p hp
  have hexact := h.exact p hp j hj
  refine (wrap_deg_modEq _).trans ?_
  simp only [Bool.false_eq_true, if_false, add_zero]
  cases hflipped : truth.flipped j
  · simp only [hflipped, Bool.false_eq_true, if_false, one_mul] at hexact ⊢
    rw [sub_modEq_iff_modEq_add, add_comm]
    exact hexact
  · simp only [hflipped, if_true, neg_one_mul] at hexact ⊢
    rw [sub_modEq_iff_modEq_add, add_comm]
    simpa using hexact.neg

/-- Those of the wrong sign lie in two opposite directions, by the parity of the reference. -/
theorem opposite_wrong (h : NoiseFree truth w pairs) (hj : j < w) :
    Opposite pairs (odd j) (estimate (if truth.flipped j then 1 else -1) j)
      (truth.offset j) := by
  intro p hp
  have hexact := h.exact p hp j hj
  obtain ⟨m, hm⟩ := h.right_angles p hp j hj
  have hparity := (half_turns m hm).1
  refine (wrap_deg_modEq _).trans ?_
  -- twice the reference, with either sign
  refine ModEq.trans ?_ (hparity.add_left (truth.offset j))
  cases hflipped : truth.flipped j
  · simp only [hflipped, Bool.false_eq_true, if_false, one_mul, neg_one_mul] at hexact ⊢
    rw [hm] at hexact ⊢
    have hturns : (-(90 * m) - entry p.1 j : ℝ) ≡
        -(90 * m) - entry p.1 j + m • (360 : ℝ) [PMOD (360 : ℝ)] := (add_zsmul_modEq m).symm
    refine hturns.trans ?_
    have hsum := hexact.add_right (180 * m - entry p.1 j)
    rw [zsmul_eq_mul]
    ring_nf at hsum ⊢
    exact hsum
  · simp only [hflipped, if_true, neg_one_mul, one_mul] at hexact ⊢
    rw [hm] at hexact ⊢
    have hsum := hexact.neg.add_right (180 * m - entry p.1 j)
    ring_nf at hsum ⊢
    exact hsum

/-- The right sign fits exactly: its mean is the true offset up to full turns, and its residual is
zero. -/
theorem fit_right (h : NoiseFree truth w pairs) (hj : j < w) :
    (fit_sign (if truth.flipped j then -1 else 1) j pairs).1 ≡ truth.offset j [PMOD (360 : ℝ)] ∧
      (fit_sign (if truth.flipped j then -1 else 1) j pairs).2 = 0 := by
  have hopposite := opposite_right h hj
  -- no sample points the other way
  have hnone : pairs.countP (fun _ => false) = 0 := by simp
  have hmean := circular_mean_of_majority hopposite (by
    rw [hnone]
    exact List.length_pos_iff.2 h.nonempty)
  refine ⟨hmean, ?_⟩
  show rms_deviation _ (circular_mean_deg _) = 0
  rw [rms_of_majority hopposite hmean, hnone]
  simp

/-- The wrong sign leaves what the minority is, or in a tie more. -/
theorem fit_wrong (h : NoiseFree truth w pairs) (hj : j < w) :
    (fit_sign (if truth.flipped j then 1 else -1) j pairs).2 =
        180 * √(minority pairs j / pairs.length) ∨
      (90 ≤ (fit_sign (if truth.flipped j then 1 else -1) j pairs).2 ∧
        90 ≤ 180 * √(minority pairs j / pairs.length)) := by
  have hopposite := opposite_wrong h hj
  have hle := @List.countP_le_length _ (odd j) pairs
  have hother : pairs.countP (fun p => !odd j p) = pairs.length - pairs.countP (odd j) := by
    have hsplit := List.length_eq_countP_add_countP (odd j) (l := pairs)
    simp only [Bool.not_eq_true, Bool.decide_eq_false] at hsplit
    omega
  unfold minority
  -- whichever direction has more samples decides, or none does
  rcases lt_trichotomy (2 * pairs.countP (odd j)) pairs.length with hfew | htie | hmany
  · left
    rw [min_eq_left (by omega)]
    exact rms_of_majority hopposite (circular_mean_of_majority hopposite hfew)
  · right
    refine ⟨rms_of_tie hopposite h.nonempty htie, ?_⟩
    rw [min_eq_left (by omega)]
    have hlength : (pairs.length : ℝ) = 2 * pairs.countP (odd j) := by exact_mod_cast htie.symm
    have hpos : (0 : ℝ) < pairs.length := by exact_mod_cast List.length_pos_iff.2 h.nonempty
    have hhalf : (1 / 2) ^ 2 ≤ (pairs.countP (odd j) : ℝ) / pairs.length := by
      rw [le_div_iff₀ hpos, hlength]
      linarith
    have hroot := Real.le_sqrt_of_sq_le hhalf
    linarith
  · left
    have hswap := hopposite.swap
    have hfew : 2 * pairs.countP (fun p => !odd j p) < pairs.length := by
      rw [hother]
      omega
    rw [min_eq_right (by omega), ← hother]
    exact rms_of_majority hswap (circular_mean_of_majority hswap hfew)

/-- A sign that fits exactly gives an offset that maps every pose. -/
theorem maps_of_estimates {sign off : ℝ} (hsign : sign = 1 ∨ sign = -1) {p : List ℝ × List ℝ}
    (h : estimate sign j p ≡ off [PMOD (360 : ℝ)]) :
    sign * (entry p.1 j + off) ≡ entry p.2 j [PMOD (360 : ℝ)] := by
  have hestimate : sign * entry p.2 j - entry p.1 j ≡ off [PMOD (360 : ℝ)] :=
    (wrap_deg_modEq _).symm.trans h
  have hsum := (hestimate.add_left (entry p.1 j)).symm
  rw [add_sub_cancel] at hsum
  rcases hsign with rfl | rfl
  · simpa using hsum
  · simpa using hsum.neg

/-- The sign that is not the true one fits exactly if the references have one parity. -/
theorem estimates_of_minority_zero (h : NoiseFree truth w pairs) (hj : j < w)
    (hzero : minority pairs j = 0) {p : List ℝ × List ℝ} (hp : p ∈ pairs) :
    estimate (if truth.flipped j then 1 else -1) j p ≡
      (fit_sign (if truth.flipped j then 1 else -1) j pairs).1 [PMOD (360 : ℝ)] := by
  have hopposite := opposite_wrong h hj
  have hle := @List.countP_le_length _ (odd j) pairs
  have hlength := List.length_pos_iff.2 h.nonempty
  unfold minority at hzero
  rcases Nat.min_eq_zero_iff.1 hzero with hnone | hall
  · have hmean := circular_mean_of_majority hopposite (by omega)
    have hfalse := Bool.eq_false_of_not_eq_true (List.countP_eq_zero.1 hnone p hp)
    have hclass := hopposite p hp
    simp only [hfalse, Bool.false_eq_true, if_false, add_zero] at hclass
    exact hclass.trans hmean.symm
  · -- all references are odd: the other direction has all the votes
    have htrue := List.countP_eq_length.1 (Nat.le_antisymm hle (Nat.sub_eq_zero_iff_le.1 hall))
    have hcount : pairs.countP (fun p => !odd j p) = 0 :=
      List.countP_eq_zero.2 fun q hq => by simp [htrue q hq]
    have hmean := circular_mean_of_majority hopposite.swap (by omega)
    have hclass := hopposite.swap p hp
    simp only [htrue p hp, Bool.not_true, Bool.false_eq_true, if_false, add_zero] at hclass
    exact hclass.trans hmean.symm

/-! ## One joint -/

/-- The tie is that of the wrong sign's residual with zero, and this residual is what the minority
leaves of half turns. -/
theorem tie_iff (h : NoiseFree truth w pairs) (hj : j < w) :
    |(fit_sign 1 j pairs).2 - (fit_sign (-1) j pairs).2| ≤ 1 / 1000000 ↔
      180 * √(minority pairs j / pairs.length) ≤ 1 / 1000000 := by
  have hright := (fit_right h hj).2
  have hwrong := fit_wrong h hj
  have hnonneg : 0 ≤ 180 * √(minority pairs j / pairs.length : ℝ) :=
    mul_nonneg (by norm_num) (Real.sqrt_nonneg _)
  -- one of the residuals is zero, by the sign of the truth
  have habs : |(fit_sign 1 j pairs).2 - (fit_sign (-1) j pairs).2| =
      |(fit_sign (if truth.flipped j then 1 else -1) j pairs).2| := by
    cases hflipped : truth.flipped j
    · simp only [hflipped, Bool.false_eq_true, if_false] at hright ⊢
      rw [hright, zero_sub, abs_neg]
    · simp only [hflipped, if_true] at hright ⊢
      rw [hright, sub_zero]
  rw [habs]
  rcases hwrong with heq | ⟨hlarge, hresidual⟩
  · rw [heq, abs_of_nonneg hnonneg]
  · rw [abs_of_nonneg (le_trans (by norm_num) hlarge)]
    constructor
    · intro hle
      linarith
    · intro hle
      linarith

section Joint

variable (fallback : List ℤ)

/-- A fitted joint is marked ambiguous when its samples do not mix both kinds of turns, or mix them
too unevenly. -/
theorem joint_fit_ambiguous (h : NoiseFree truth w pairs) (hj : j < w) :
    (joint_fit pairs fallback j).ambiguous = true ↔ ¬ Mixed pairs j ∨ Lopsided pairs j := by
  have heps : (SIGN_TIE_EPS_DEG : ℝ) = 1 / 1000000 := by
    unfold SIGN_TIE_EPS_DEG
    rw [Scalar.lit_real]
    norm_num
  have htie : (joint_fit pairs fallback j).ambiguous = true ↔
      |(fit_sign 1 j pairs).2 - (fit_sign (-1) j pairs).2| ≤ 1 / 1000000 := by
    rw [← heps]
    exact Scalar.le_real _ _
  rw [htie, tie_iff h hj]
  unfold Lopsided
  by_cases hmixed : Mixed pairs j
  · simp [hmixed]
  · have hzero : minority pairs j = 0 := by
      by_contra hpos
      exact hmixed ((mixed_iff h hj).2 hpos)
    simp [hmixed, hzero]

/-- An ambiguous joint has the sign of the table that was passed for this case. -/
theorem joint_fit_fallback (htie : (joint_fit pairs fallback j).ambiguous = true) :
    (joint_fit pairs fallback j).negative = decide ((j : ℤ) ∈ fallback) :=
  if_pos htie

/-- Without a tie the residuals tell the signs apart, and the smaller one is the right sign's, being
zero. -/
theorem joint_fit_sign (h : NoiseFree truth w pairs) (hj : j < w)
    (htie : (joint_fit pairs fallback j).ambiguous = false) :
    (joint_fit pairs fallback j).negative = truth.flipped j := by
  have hright := (fit_right h hj).2
  have hnegative : (joint_fit pairs fallback j).negative =
      Scalar.lt (fit_sign (-1) j pairs).2 (fit_sign 1 j pairs).2 :=
    if_neg (by rw [Bool.not_eq_true]; exact htie)
  -- the residual of the wrong sign is outside the tie, so positive
  have hresidual : 0 < (fit_sign (if truth.flipped j then 1 else -1) j pairs).2 := by
    have hlarge : ¬ 180 * √(minority pairs j / pairs.length : ℝ) ≤ 1 / 1000000 := by
      intro hle
      have hmixed := (joint_fit_ambiguous fallback h hj).not.1 (by rw [htie]; exact
        Bool.false_ne_true)
      push Not at hmixed
      exact hmixed.2 ⟨hmixed.1, hle⟩
    rcases fit_wrong h hj with heq | ⟨hlarge, _⟩
    · rw [heq]
      linarith [not_le.1 hlarge]
    · linarith
  rw [hnegative]
  cases hflipped : truth.flipped j
  · simp only [hflipped, Bool.false_eq_true, if_false] at hright hresidual
    rw [hright, ← Bool.not_eq_true, Scalar.lt_real]
    exact not_lt.2 hresidual.le
  · simp only [hflipped, if_true] at hright hresidual
    rw [hright, Scalar.lt_real]
    exact hresidual

/-- The offset is the one that was fitted with the sign that was decided on. -/
theorem joint_fit_offset_eq (pairs : List (List ℝ × List ℝ)) (j : ℕ) :
    (joint_fit pairs fallback j).offset =
      (fit_sign (if (joint_fit pairs fallback j).negative then -1 else 1) j pairs).1 := by
  show (if (joint_fit pairs fallback j).negative = true then fit_sign (-1) j pairs
    else fit_sign 1 j pairs).1 = _
  cases (joint_fit pairs fallback j).negative
  · rfl
  · rfl

/-- With the right sign the offset is right up to full turns. -/
theorem joint_fit_offset (h : NoiseFree truth w pairs) (hj : j < w)
    (hsign : (joint_fit pairs fallback j).negative = truth.flipped j) :
    (joint_fit pairs fallback j).offset ≡ truth.offset j [PMOD (360 : ℝ)] := by
  rw [joint_fit_offset_eq, hsign]
  exact (fit_right h hj).1

/-- A joint that is not lopsided is mapped, also by the sign that is not the true one. -/
theorem joint_fit_maps (h : NoiseFree truth w pairs) (hj : j < w)
    (hlopsided : ¬ Lopsided pairs j) {p : List ℝ × List ℝ} (hp : p ∈ pairs) :
    (if (joint_fit pairs fallback j).negative then -1 else 1) *
        (entry p.1 j + (joint_fit pairs fallback j).offset) ≡ entry p.2 j [PMOD (360 : ℝ)] := by
  rw [joint_fit_offset_eq]
  by_cases hsign : (joint_fit pairs fallback j).negative = truth.flipped j
  · rw [hsign]
    refine maps_of_estimates ?_ ?_
    · cases truth.flipped j <;> simp
    · have hclass := opposite_right h hj p hp
      simp only [Bool.false_eq_true, if_false, add_zero] at hclass
      exact hclass.trans (fit_right h hj).1.symm
  · -- the other sign was kept, so there was a tie, and no minority
    have htie : (joint_fit pairs fallback j).ambiguous = true := by
      by_contra hnot
      exact hsign (joint_fit_sign fallback h hj (Bool.eq_false_of_not_eq_true hnot))
    have hzero : minority pairs j = 0 := by
      rcases (joint_fit_ambiguous fallback h hj).1 htie with hmixed | hcon
      · by_contra hpos
        exact hmixed ((mixed_iff h hj).2 hpos)
      · exact absurd hcon hlopsided
    have hother : (joint_fit pairs fallback j).negative = !truth.flipped j := by
      revert hsign
      cases (joint_fit pairs fallback j).negative <;> cases truth.flipped j <;> simp
    have hclass := estimates_of_minority_zero h hj hzero hp
    rw [hother]
    cases hflipped : truth.flipped j
    · simp only [hflipped, Bool.false_eq_true, if_false, Bool.not_false, if_true] at hclass ⊢
      exact maps_of_estimates (Or.inr rfl) hclass
    · simp only [hflipped, Bool.false_eq_true, if_false, Bool.not_true, if_true] at hclass ⊢
      exact maps_of_estimates (Or.inl rfl) hclass

end Joint

end Samples

/-! ## The convention of a fit -/

/-- What a fit has to do for the samples it was solved from. The joints that are `spared` may be
reported as ambiguous too, and need not be right. -/
structure Solves (spared : ℕ → Prop) (truth : Truth) (w : ℕ) (pairs : List (List ℝ × List ℝ))
    (fallback : List ℤ) (fit : PoseFit ℝ) : Prop where
  width : fit.offsets_deg.length = w
  /-- Each captured pose is mapped to its reference, also with the values after those of the arm. -/
  maps : ∀ p ∈ pairs, ∀ trailing : List ℝ, ∃ r,
    convert_factr_to_rizon (p.1.map radians ++ trailing) (fit.convention trailing.length) = .ok r ∧
      r.length = w ∧
      ∀ j < w, ¬ spared j → degrees (entry r j) ≡ entry p.2 j [PMOD (360 : ℝ)]
  true_convention : ∀ j < w, Mixed pairs j → ¬ spared j →
    (j ∈ fit.sign_flip_joints ↔ truth.flipped j = true) ∧
      entry fit.offsets_deg j ≡ truth.offset j [PMOD (360 : ℝ)]
  ambiguous : ∀ j, j ∈ fit.ambiguous_joints ↔ j < w ∧ (¬ Mixed pairs j ∨ spared j)
  fallback_sign : ∀ j ∈ fit.ambiguous_joints, (j ∈ fit.sign_flip_joints ↔ (j : ℤ) ∈ fallback)

/-- The conversion with a convention that has one offset for each joint. -/
theorem convert_captured (fit : PoseFit ℝ) {leader : List ℝ}
    (hwidth : fit.offsets_deg.length = leader.length) (hnodup : fit.sign_flip_joints.Nodup)
    (hrange : ∀ j ∈ fit.sign_flip_joints, j < leader.length) (trailing : List ℝ) :
    convert_factr_to_rizon (leader.map radians ++ trailing) (fit.convention trailing.length) =
      .ok ((leader.map radians).mapIdx (joint (fit.convention trailing.length))) := by
  have harm : arm_values (leader.map radians ++ trailing) (fit.convention trailing.length) =
      leader.map radians := by
    show (if ((trailing.length : ℤ) ≠ 0) then _ else _) = _
    by_cases hnil : trailing.length = 0
    · rw [if_neg (by simpa using hnil), List.eq_nil_of_length_eq_zero hnil, List.append_nil]
    · have hdrop : ((leader.map radians ++ trailing).length : ℤ) - trailing.length =
          (leader.map radians).length := by
        rw [List.length_append]
        push_cast
        ring
      rw [if_pos (by exact_mod_cast hnil)]
      show Convention.slice_to _ (((leader.map radians ++ trailing).length : ℤ) -
        trailing.length) = _
      rw [hdrop]
      unfold Convention.slice_to
      rw [if_pos (Int.natCast_nonneg _), Int.toNat_natCast]
      exact List.take_left
  have hlength : (leader.map radians).length = leader.length := List.length_map _
  have hcount : (fit.convention trailing.length).offsets_deg.length =
      (arm_values (leader.map radians ++ trailing) (fit.convention trailing.length)).length := by
    rw [harm, hlength]
    exact hwidth
  have hin : ∀ j ∈ (fit.convention trailing.length).sign_flip_joints, 0 ≤ j ∧ j <
      (arm_values (leader.map radians ++ trailing) (fit.convention trailing.length)).length := by
    rw [harm, hlength]
    intro i hi
    obtain ⟨j, hj, rfl⟩ := List.mem_map.1 hi
    exact ⟨Int.natCast_nonneg j, by exact_mod_cast hrange j hj⟩
  have hconvert := Convention.convert_factr_to_rizon_of_fits hcount
    (hnodup.map Nat.cast_injective) hin
  rw [harm] at hconvert
  exact hconvert

/-- A joint in degrees, by the sign and the offset of the fit. -/
theorem degrees_joint (fit : PoseFit ℝ) (drop j : ℕ) (x : ℝ) :
    degrees (joint (fit.convention drop) j (radians x)) ≡
      (if j ∈ fit.sign_flip_joints then -1 else 1) * (x + entry fit.offsets_deg j)
        [PMOD (360 : ℝ)] := by
  rw [Convention.joint_real, degrees_radians, degrees_radians]
  refine (wrap_deg_modEq _).trans ?_
  have hmem : (j : ℤ) ∈ (fit.convention drop).sign_flip_joints ↔ j ∈ fit.sign_flip_joints := by
    constructor
    · intro hj
      obtain ⟨i, hi, hij⟩ := List.mem_map.1 hj
      rwa [← Nat.cast_injective hij]
    · intro hj
      exact List.mem_map.2 ⟨j, hj, rfl⟩
  unfold mirrored
  by_cases hj : j ∈ fit.sign_flip_joints
  · rw [if_pos (hmem.2 hj), if_pos hj, neg_one_mul]
    rfl
  · rw [if_neg (fun hcon => hj (hmem.1 hcon)), if_neg hj, one_mul]
    rfl

/-- The solver is right about samples without noise, up to joints whose minority is so small a
part of them that the tie swallows it. -/
theorem solve_noise_free {truth : Truth} {w : ℕ} {pairs : List (List ℝ × List ℝ)}
    (h : NoiseFree truth w pairs) (fallback : List ℤ) :
    ∃ fit, solve_from_samples pairs fallback = .ok fit ∧
      Solves (Lopsided pairs) truth w pairs fallback fit := by
  refine ⟨_, solve_from_samples_eq h.nonempty h.widths fallback, ?_⟩
  set found := joint_fit pairs fallback with hfound
  -- the fit's three lists, joint by joint
  have hflip : ∀ j, j ∈ (List.range w).filter (fun j => (found j).negative) ↔
      j < w ∧ (found j).negative = true := by
    intro j
    rw [List.mem_filter, List.mem_range]
  have hambiguous : ∀ j, j ∈ (List.range w).filter (fun j => (found j).ambiguous) ↔
      j < w ∧ (found j).ambiguous = true := by
    intro j
    rw [List.mem_filter, List.mem_range]
  have hoffset : ∀ j < w, entry ((List.range w).map fun j => (found j).offset) j =
      (found j).offset := by
    intro j hj
    rw [entry, List.getD_eq_getElem?_getD, List.getElem?_map, List.getElem?_range hj]
    rfl
  refine ⟨by rw [List.length_map, List.length_range], ?_, ?_, ?_, ?_⟩
  · -- every captured pose is mapped to its reference
    intro p hp trailing
    have hwidth := (h.widths p hp).1
    refine ⟨_, convert_captured _ ?_ ?_ ?_ trailing, ?_, ?_⟩
    · rw [List.length_map, List.length_range, hwidth]
    · exact List.nodup_range.filter _
    · intro j hj
      rw [hwidth]
      exact ((hflip j).1 hj).1
    · rw [List.length_mapIdx, List.length_map, hwidth]
    · intro j hj hspared
      have hin : j < p.1.length := hwidth ▸ hj
      rw [entry, List.getD_eq_getElem?_getD, List.getElem?_mapIdx, List.getElem?_map,
        List.getElem?_eq_getElem hin]
      refine (degrees_joint _ trailing.length j p.1[j]).trans ?_
      have hmaps := joint_fit_maps fallback h hj hspared hp
      have hentry : entry p.1 j = p.1[j] := by
        rw [entry, List.getD_eq_getElem?_getD, List.getElem?_eq_getElem hin]
        rfl
      rw [hentry] at hmaps
      rw [hoffset j hj]
      simp only [hflip, hj, true_and]
      exact hmaps
  · intro j hj hmixed hspared
    -- mixed poses leave no tie, so sign and offset are the true ones
    have htie : (found j).ambiguous = false := by
      apply Bool.eq_false_of_not_eq_true
      intro hcon
      rcases (joint_fit_ambiguous fallback h hj).1 hcon with hnot | hlopsided
      · exact hnot hmixed
      · exact hspared hlopsided
    have hsign := joint_fit_sign fallback h hj htie
    rw [hoffset j hj]
    refine ⟨?_, joint_fit_offset fallback h hj hsign⟩
    rw [hflip, ← hsign]
    exact ⟨fun hin => hin.2, fun hin => ⟨hj, hin⟩⟩
  · intro j
    rw [hambiguous]
    exact ⟨fun hin => ⟨hin.1, (joint_fit_ambiguous fallback h hin.1).1 hin.2⟩,
      fun hin => ⟨hin.1, (joint_fit_ambiguous fallback h hin.1).2 hin.2⟩⟩
  · intro j hin
    obtain ⟨hj, htie⟩ := (hambiguous j).1 hin
    rw [hflip, hfound, joint_fit_fallback fallback htie, decide_eq_true_iff]
    exact ⟨fun hin => hin.2, fun hin => ⟨hj, hin⟩⟩

/-- Poses of one joint at zero, and the last one at a right angle. -/
def sleepy (n : ℕ) : List (List ℝ × List ℝ) := List.replicate n ([0], [0]) ++ [([90], [90])]

/-- A leader that moves as its arm does. -/
def identical : Truth := ⟨fun _ => false, fun _ => 0⟩

/-- The samples of the example are exact ones of a leader that moves as its arm does. -/
theorem noise_free_sleepy (n : ℕ) : NoiseFree identical 1 (sleepy n) := by
  have hcases : ∀ p ∈ sleepy n, p = ([0], [0]) ∨ p = ([90], [90]) := by
    intro p hp
    rcases List.mem_append.1 hp with hzero | hlast
    · exact Or.inl (List.eq_of_mem_replicate hzero)
    · exact Or.inr (List.mem_singleton.1 hlast)
  refine ⟨by simp [sleepy], ?_, ?_, ?_⟩
  · intro p hp
    rcases hcases p hp with rfl | rfl
    · exact ⟨rfl, rfl⟩
    · exact ⟨rfl, rfl⟩
  · intro p hp j hj
    obtain rfl : j = 0 := by omega
    rcases hcases p hp with rfl | rfl
    · exact ⟨0, by simp [entry]⟩
    · exact ⟨1, by simp [entry]⟩
  · intro p hp j hj
    obtain rfl : j = 0 := by omega
    rcases hcases p hp with rfl | rfl
    · simp [entry, identical]
    · simp [entry, identical]

/-- The general result at one sleepy sample: what is fitted solves it, with the joint that is too
uneven named. -/
theorem solve_noise_free_two : ∃ fit, solve_from_samples (sleepy 1) [0] = .ok fit ∧
    Solves (Lopsided (sleepy 1)) identical 1 (sleepy 1) [0] fit :=
  solve_noise_free (noise_free_sleepy 1) [0]

/-- A quarter turn is no half turn. -/
theorem not_right_angle_modEq : ¬ (90 : ℝ) ≡ 0 [PMOD (180 : ℝ)] := by
  rw [AddCommGroup.modEq_zero_iff_eq_zsmul]
  rintro ⟨z, hz⟩
  rw [zsmul_eq_mul] at hz
  have hreal : ((1 : ℤ) : ℝ) = ((2 * z : ℤ) : ℝ) := by
    push_cast
    linarith
  have hint : 1 = 2 * z := by exact_mod_cast hreal
  omega

/-- With a pose at zero in it the example mixes both kinds of references. -/
theorem mixed_sleepy {n : ℕ} (hn : 0 < n) : Mixed (sleepy n) 0 :=
  ⟨([90], [90]), List.mem_append_right _ List.mem_cons_self, ([0], [0]),
    List.mem_append_left _ (List.mem_replicate.2 ⟨hn.ne', rfl⟩), not_right_angle_modEq⟩

/-- However many other samples there are, at most one of the example is in the minority. -/
theorem minority_sleepy_le (n : ℕ) : minority (sleepy n) 0 ≤ 1 := by
  have hnone : (List.replicate n (([0], [0]) : List ℝ × List ℝ)).countP (odd 0) = 0 := by
    rw [List.countP_eq_zero]
    intro p hp
    rw [List.eq_of_mem_replicate hp, Bool.not_eq_true, odd_eq_false]
    exact modEq_refl _
  refine (min_le_left _ _).trans ?_
  rw [sleepy, List.countP_append, hnone, zero_add]
  exact List.countP_le_length

/-- One pose among more than `180 ^ 2 * 10 ^ 12` is swallowed by the tie: the joint is mixed, and
reported as ambiguous. -/
theorem tie_swallows_minority : ¬ ∀ (truth : Truth) (w : ℕ) (pairs : List (List ℝ × List ℝ))
    (fallback : List ℤ), NoiseFree truth w pairs → ∃ fit,
      solve_from_samples pairs fallback = .ok fit ∧
        Solves (fun _ => False) truth w pairs fallback fit := by
  intro hclaim
  have hmixed : Mixed (sleepy (180 ^ 2 * 10 ^ 12)) 0 := mixed_sleepy (by norm_num)
  obtain ⟨fit, hfit, hsolves⟩ := hclaim identical 1 (sleepy (180 ^ 2 * 10 ^ 12)) [0]
    (noise_free_sleepy _)
  have hlopsided : Lopsided (sleepy (180 ^ 2 * 10 ^ 12)) 0 := by
    refine ⟨hmixed, ?_⟩
    have hlength : ((sleepy (180 ^ 2 * 10 ^ 12)).length : ℝ) = 180 ^ 2 * 10 ^ 12 + 1 := by
      rw [sleepy, List.length_append, List.length_replicate, List.length_singleton]
      push_cast
      ring
    have hminority : (minority (sleepy (180 ^ 2 * 10 ^ 12)) 0 : ℝ) ≤ 1 := by
      exact_mod_cast minority_sleepy_le _
    have hroot : √(minority (sleepy (180 ^ 2 * 10 ^ 12)) 0 / (sleepy (180 ^ 2 * 10 ^ 12)).length) ≤
        (1 / 180000000 : ℝ) := by
      rw [Real.sqrt_le_left (by norm_num), hlength, div_le_iff₀ (by norm_num)]
      refine hminority.trans ?_
      norm_num
    linarith
  have hambiguous := (joint_fit_ambiguous [0] (noise_free_sleepy (180 ^ 2 * 10 ^ 12))
    zero_lt_one).2 (Or.inr hlopsided)
  rw [solve_from_samples_eq (noise_free_sleepy _).nonempty (noise_free_sleepy _).widths [0],
    Except.ok.injEq] at hfit
  have hin : 0 ∈ fit.ambiguous_joints := by
    rw [← hfit]
    exact List.mem_filter.2 ⟨List.mem_range.2 zero_lt_one, hambiguous⟩
  rcases ((hsolves.ambiguous 0).1 hin).2 with hnot | hfalse
  · exact hnot hmixed
  · exact hfalse

end Real

end DualFlexivControl.Calibration
