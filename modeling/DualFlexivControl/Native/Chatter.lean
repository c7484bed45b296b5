/-
The trajectory law in its own units, and where it settles.

One joint against a constant desired position: `x` is the distance left, counted in what one
tick of acceleration moves in one tick, and `u` the velocity, counted in what one tick of
acceleration changes. The velocity limit `V` and the snapping distance `s` are in the same
units, and a tick is then free of every other constant.

The profile brakes along `u² = 2 x`, which is exact in continuous time and too late on a clock,
so the joint overshoots, turns and comes back. With a velocity limit of a tick of acceleration
or more, a turn more than `1/2` away is followed by a nearer one ([`turn_leads`]), and a turn
`1/2` away by its mirror image: everything depends on whether the snapping window reaches beyond
`1/2`. Below that limit the thresholds are others ([`Window`]).
-/
import DualFlexivControl.Lib.LeadsTo
import Mathlib.Analysis.Real.Sqrt
import Mathlib.Tactic.FieldSimp
import Mathlib.Tactic.Positivity
import Mathlib.Tactic.Ring

set_option autoImplicit false

namespace DualFlexivControl.Native

open LeadsTo

/-! ## A tick -/

/-- The distance left and the velocity of one joint. -/
@[ext] structure Offset where
  x : ℝ
  u : ℝ

/-- The velocity the joint is steered to: that of the profile `u² = 2 x`, within the limit. -/
noncomputable def pull (V x : ℝ) : ℝ :=
  if x < 0 then -min V √(|x| + |x|) else min V √(|x| + |x|)

/-- It is reached by at most one tick of acceleration. -/
noncomputable def velocity (V : ℝ) (p : Offset) : ℝ := max (p.u - 1) (min (pull V p.x) (p.u + 1))

/-- The joint is where it is snapped to the desired position. -/
def Caught (s : ℝ) (p : Offset) : Prop := |p.x| < s ∧ |p.u| ≤ 1

open Classical in
/-- One tick. -/
noncomputable def unit_tick (V s : ℝ) (p : Offset) : Offset :=
  if Caught s p then ⟨0, 0⟩ else ⟨p.x - velocity V p, velocity V p⟩

/-- The other side of the desired position. -/
def Offset.flip (p : Offset) : Offset := ⟨-p.x, -p.u⟩

/-- Mirroring twice gives the state back, so each fact about one side can be read on the other. -/
@[simp] theorem Offset.flip_flip (p : Offset) : p.flip.flip = p := by
  simp [Offset.flip]

section Tick

variable {V s x : ℝ} {p : Offset}

/-- Within the window the joint is set onto the desired position and rests there. -/
theorem tick_caught (h : Caught s p) : unit_tick V s p = ⟨0, 0⟩ := if_pos h

/-- Out of the window the joint moves by its new velocity, which shortens the distance that is left.
-/
theorem tick_free (h : ¬ Caught s p) :
    unit_tick V s p = ⟨p.x - velocity V p, velocity V p⟩ := if_neg h

/-- On the side where the distance is positive the profile has its textbook form, with the two
halves added up. -/
theorem pull_of_nonneg (hx : 0 ≤ x) : pull V x = min V √(2 * x) := by
  rw [pull, if_neg (not_lt.2 hx), abs_of_nonneg hx, ← two_mul]

/-- The profile is odd, as the code takes the root of the absolute distance and gives it the sign of
the distance. -/
theorem pull_neg (hV : 0 ≤ V) (x : ℝ) : pull V (-x) = -pull V x := by
  unfold pull
  rw [abs_neg]
  rcases lt_trichotomy x 0 with hx | rfl | hx
  · rw [if_pos hx, if_neg (by linarith), neg_neg]
  · simp [hV]
  · rw [if_pos (neg_lt_zero.2 hx), if_neg (not_lt.2 hx.le)]

/-- With any distance left the profile leads towards the desired position, by however little. -/
theorem pull_pos (hV : 0 < V) (hx : 0 < x) : 0 < pull V x := by
  rw [pull_of_nonneg hx.le]
  exact lt_min hV (Real.sqrt_pos.2 (by linarith))

/-- Past the desired position the profile does not lead further away from it. -/
theorem pull_nonpos (hV : 0 ≤ V) (hx : x ≤ 0) : pull V x ≤ 0 := by
  have hneg := pull_neg hV (-x)
  rw [neg_neg, pull_of_nonneg (by linarith : (0 : ℝ) ≤ -x)] at hneg
  rw [hneg, neg_nonpos]
  exact le_min hV (Real.sqrt_nonneg _)

/-- The profile never asks for more than the limit on velocity. -/
theorem pull_le (hx : 0 ≤ x) : pull V x ≤ V := by
  rw [pull_of_nonneg hx]
  exact min_le_left _ _

/-- The profile: braking from it takes the distance there is. -/
theorem sq_le_of_le_pull {w : ℝ} (hx : 0 ≤ x) (hw : 0 ≤ w) (h : w ≤ pull V x) : w ^ 2 ≤ 2 * x := by
  rw [pull_of_nonneg hx] at h
  exact (Real.le_sqrt hw (by linarith)).1 (h.trans (min_le_right _ _))

/-- A speed is within the profile if it is within the limit and the distance is enough to brake from
it. -/
theorem le_pull {w : ℝ} (hx : 0 ≤ x) (hV : w ≤ V) (hsq : w ^ 2 ≤ 2 * x) : w ≤ pull V x := by
  rw [pull_of_nonneg hx]
  exact le_min hV (Real.le_sqrt_of_sq_le hsq)

/-- The steered velocity of the mirror image is the opposite one, because the limits on it are
symmetric. -/
theorem velocity_flip (hV : 0 ≤ V) (p : Offset) : velocity V p.flip = -velocity V p := by
  have hle : p.u - 1 ≤ p.u + 1 := by linarith
  have hlow : -(p.u + 1) = -p.u - 1 := by ring
  have hhigh : -(p.u - 1) = -p.u + 1 := by ring
  -- from below or from above first is the same, and a flip takes one for the other
  have hswap : velocity V p = min (max (p.u - 1) (pull V p.x)) (p.u + 1) := by
    rw [velocity, max_min_distrib_left, max_eq_right hle]
  rw [hswap, ← max_neg_neg, ← min_neg_neg, ← pull_neg hV, hlow, hhigh, max_comm, min_comm]
  rfl

/-- The window and the bound on velocity are symmetric, so the mirror image is caught together with
the state. -/
theorem caught_flip : Caught s p.flip ↔ Caught s p := by
  unfold Caught Offset.flip
  rw [abs_neg, abs_neg]

/-- The law does not know left from right. -/
theorem tick_flip (hV : 0 ≤ V) (p : Offset) : unit_tick V s p.flip = (unit_tick V s p).flip := by
  by_cases h : Caught s p
  · rw [tick_caught h, tick_caught (caught_flip.2 h)]
    simp [Offset.flip]
  · rw [tick_free h, tick_free (mt caught_flip.1 h), velocity_flip hV]
    ext
    · show -p.x - -velocity V p = -(p.x - velocity V p)
      ring
    · rfl

/-- A whole run mirrors with its start; this halves the cases of every argument about turns below.
-/
theorem iterate_flip (hV : 0 ≤ V) (n : ℕ) (p : Offset) :
    (unit_tick V s)^[n] p.flip = ((unit_tick V s)^[n] p).flip := by
  induction n generalizing p with
  | zero => rfl
  | succ n ih => rw [Function.iterate_succ_apply, Function.iterate_succ_apply, tick_flip hV, ih]

/-- Once caught, the joint stays. -/
theorem stays_caught (hs : 0 < s) (h : Caught s p) (n : ℕ) :
    (unit_tick V s)^[n + 1] p = ⟨0, 0⟩ := by
  have hzero : Caught s ⟨0, 0⟩ := by
    unfold Caught
    rw [abs_zero]
    exact ⟨hs, zero_le_one⟩
  induction n with
  | zero => exact tick_caught h
  | succ n ih => rw [Function.iterate_succ_apply', ih, tick_caught hzero]

/-- Where the joint is not caught though it is slow, the distance is out of the window. -/
theorem le_abs_of_free (h : ¬ Caught s p) (hu : |p.u| ≤ 1) : s ≤ |p.x| := by
  by_contra hlt
  exact h ⟨not_le.1 hlt, hu⟩

/-- Where the profile does not ask for more braking than a tick has, only speeding up is limited. -/
theorem velocity_eq_min (h : p.u - 1 ≤ pull V p.x) : velocity V p = min (pull V p.x) (p.u + 1) :=
  max_eq_right (le_min h (by linarith))

/-- Further away the profile allows at least the speed that it allows nearby. -/
theorem pull_mono {y : ℝ} (hx : 0 ≤ x) (hxy : x ≤ y) : pull V x ≤ pull V y := by
  rw [pull_of_nonneg hx, pull_of_nonneg (hx.trans hxy)]
  exact min_le_min_left _ (Real.sqrt_le_sqrt (by linarith))

/-- A potential that does not tell the sides apart may be counted on one side only. -/
theorem leads_of_descent_flip (hV : 0 ≤ V) {P : Offset → Prop} (Φ : Offset → ℝ)
    (hflip : ∀ p, Φ p.flip = Φ p) {δ : ℝ} (hδ : 0 < δ) (hpos : ∀ p, P p → 0 ≤ Φ p)
    (hround : ∀ p, P p → ∃ n, Caught s ((unit_tick V s)^[n] p) ∨
      (P ((unit_tick V s)^[n] p) ∨ P ((unit_tick V s)^[n] p).flip) ∧
        Φ ((unit_tick V s)^[n] p) ≤ Φ p - δ) :
    Leads (unit_tick V s) (fun p => P p ∨ P p.flip) (Caught s) := by
  refine leads_of_descent Φ hδ ?_ ?_
  · rintro p (hp | hp)
    · exact hpos p hp
    · rw [← hflip p]
      exact hpos _ hp
  · rintro p (hp | hp)
    · exact hround p hp
    · obtain ⟨n, hn⟩ := hround p.flip hp
      rw [iterate_flip hV, caught_flip, Offset.flip_flip, hflip, hflip, or_comm (a := P _)] at hn
      exact ⟨n, hn⟩

end Tick

/-! ## A slow joint: one tick of acceleration is enough for the limit -/

section Slow

variable {V s : ℝ} {p : Offset}

/-- Coming from outside of the window, at any speed. -/
structure Creep (V s : ℝ) (p : Offset) : Prop where
  outside : s ≤ p.x
  forward : 0 ≤ p.u
  limit : p.u ≤ V

/-- A tick moves by no more than the limit, so it cannot jump across the window. -/
theorem creep_tick (hV : 0 < V) (hV1 : V ≤ 1) (hs : V / 2 < s) (h : Creep V s p) :
    Caught s (unit_tick V s p) ∨
      Creep V s (unit_tick V s p) ∧ (unit_tick V s p).x ≤ p.x - min V √(2 * s) := by
  have hout := h.outside
  have hx : 0 < p.x := by linarith
  have hfree : ¬ Caught s p := fun hc => absurd ((le_abs_self _).trans_lt hc.1) (not_lt.2 hout)
  have hpull : min V √(2 * s) ≤ pull V p.x := by
    rw [← pull_of_nonneg (by linarith : (0 : ℝ) ≤ s)]
    exact pull_mono (by linarith) hout
  have hpos : 0 ≤ min V √(2 * s) := le_min hV.le (Real.sqrt_nonneg _)
  have hw : velocity V p = min (pull V p.x) (p.u + 1) :=
    velocity_eq_min (by linarith [pull_pos hV hx, h.limit])
  have hlow : min V √(2 * s) ≤ velocity V p := by
    rw [hw]
    exact le_min hpull (by linarith [min_le_left V √(2 * s), h.forward])
  have hhigh : velocity V p ≤ V := hw ▸ (min_le_left _ _).trans (pull_le hx.le)
  rw [tick_free hfree]
  by_cases hnext : s ≤ p.x - velocity V p
  · exact Or.inr ⟨⟨hnext, hpos.trans hlow, hhigh⟩, by dsimp only; linarith⟩
  · refine Or.inl ⟨abs_lt.2 ⟨?_, not_le.1 hnext⟩, abs_le.2 ⟨?_, ?_⟩⟩ <;> dsimp only <;> linarith

/-- Below a limit of one tick of acceleration the joint creeps in at most at its limit, and a window
wider than half of it cannot be missed. -/
theorem creep_leads (hV : 0 < V) (hV1 : V ≤ 1) (hs : V / 2 < s) :
    Leads (unit_tick V s) (fun p => Creep V s p ∨ Creep V s p.flip) (Caught s) := by
  have hs0 : 0 < s := by linarith
  refine leads_of_descent_flip hV.le (fun p => |p.x|) (fun p => abs_neg p.x)
    (lt_min hV (Real.sqrt_pos.2 (by linarith : (0 : ℝ) < 2 * s))) (fun p _ => abs_nonneg p.x) ?_
  intro p hp
  refine ⟨1, (creep_tick hV hV1 hs hp).imp id ?_⟩
  rintro ⟨hnext, hle⟩
  refine ⟨Or.inl hnext, ?_⟩
  show |(unit_tick V s p).x| ≤ |p.x| - _
  rwa [abs_of_nonneg (hs0.le.trans hnext.outside), abs_of_nonneg (hs0.le.trans hp.outside)]

end Slow

/-! ## A fast joint: every overshoot is smaller than the one before -/

section Fast

variable {V s δ B C : ℝ} {p : Offset}

/-- A window beyond half a tick of acceleration reaches to where the profile is faster than one
tick. -/
theorem one_lt_sqrt (hs : 1 / 2 < s) : 1 < √(2 * s) :=
  (Real.lt_sqrt zero_le_one).2 (by linarith)

/-- By how much an overshoot shrinks, whatever it was. -/
structure Shrinks (s δ : ℝ) : Prop where
  pos : 0 < δ
  half : δ ≤ (√(2 * s) - 1) / 2
  square : δ ≤ (√(2 * s) - 1) ^ 2
  const : δ ≤ 1 / 2

/-- There is an amount by which every overshoot shrinks: the window leaves room between its edge and
the critical half. -/
theorem exists_shrinks (hs : 1 / 2 < s) : ∃ δ, Shrinks s δ := by
  have h1 := one_lt_sqrt hs
  have hpos : 0 < √(2 * s) - 1 := by linarith
  refine ⟨min ((√(2 * s) - 1) / 2) (min ((√(2 * s) - 1) ^ 2) (1 / 2)), ?_, ?_, ?_, ?_⟩
  · exact lt_min (by linarith) (lt_min (by positivity) (by norm_num))
  · exact min_le_left _ _
  · exact (min_le_right _ _).trans (min_le_left _ _)
  · exact (min_le_right _ _).trans (min_le_right _ _)

/-- Braking from the profile at a distance of at most `B`: `j` ticks of it, the first at full
speed, go too far by less than `B`. -/
theorem overshoot_le {w x : ℝ} {j : ℕ} (hs : 1 / 2 < s) (hδ : Shrinks s δ) (hsB : s ≤ B)
    (hj : 1 ≤ j) (hsq : w ^ 2 ≤ 2 * x) (hxB : x ≤ B) :
    j * w - j * (j - 1) / 2 - x ≤ B - δ := by
  obtain ⟨r, hr⟩ : ∃ r, r = √(2 * B) := ⟨_, rfl⟩
  have hB : r ^ 2 = 2 * B := by rw [hr, Real.sq_sqrt (by linarith)]
  have hr1 : √(2 * s) ≤ r := hr ▸ Real.sqrt_le_sqrt (by linarith)
  have h1 := one_lt_sqrt hs
  have hwr : w ≤ r := hr ▸ Real.le_sqrt_of_sq_le (by linarith)
  obtain ⟨-, hhalf, hsquare, hconst⟩ := hδ
  by_cases hjr : (j : ℝ) ≤ r
  · -- the best the profile allows is `j / 2`
    have hbest : j * w - j * (j - 1) / 2 - x ≤ j / 2 := by linarith [sq_nonneg (w - j)]
    have hroom : (r - 1) * 1 ≤ (r - 1) * r :=
      mul_le_mul_of_nonneg_left (by linarith) (by linarith)
    linarith
  · rw [not_le] at hjr
    -- past its peak the overshoot grows with the speed, up to the profile's at `B`
    have hpeak : j * w - j * (j - 1) / 2 - x ≤ j * r - j * (j - 1) / 2 - B := by
      have hprod : 0 ≤ (r - w) * (j - (r + w) / 2) := mul_nonneg (by linarith) (by linarith)
      linarith
    have hj2 : j ≠ 1 := by
      rintro rfl
      rw [Nat.cast_one] at hjr
      linarith
    by_cases hj3 : j = 2
    · subst hj3
      push_cast at hpeak ⊢
      have hroom : (√(2 * s) - 1) ^ 2 ≤ (r - 1) ^ 2 :=
        pow_le_pow_left₀ (by linarith) (by linarith) 2
      linarith
    · have hj3' : (3 : ℝ) ≤ j := by
        have : 3 ≤ j := by omega
        exact_mod_cast this
      have hroom : (3 : ℝ) * 1 ≤ j * (j - 2) :=
        mul_le_mul hj3' (by linarith) zero_le_one (by linarith)
      linarith [sq_nonneg (r - j / 2)]

/-- At a turn: not yet moving towards the desired position, and no faster than a tick of
acceleration. -/
structure Turn (p : Offset) : Prop where
  ahead : 0 < p.x
  slow : -1 ≤ p.u
  away : p.u ≤ 0

/-- Moving on, from no further away than `B`; braking now, for however many ticks, would go too
far by at most `C`. -/
structure Approach (B C : ℝ) (p : Offset) : Prop where
  forward : 0 ≤ p.u
  near : p.x ≤ B
  overshoot : ∀ k : ℕ, k * p.u - k * (k + 1) / 2 - p.x ≤ C

/-- A tick of braking is the first of those ticks. -/
theorem approach_brake (h : Approach B C p) (hu : 1 ≤ p.u) :
    Approach B C ⟨p.x - (p.u - 1), p.u - 1⟩ where
  forward := by dsimp only; linarith
  near := by dsimp only; linarith [h.near]
  overshoot k := by
    have hk := h.overshoot (k + 1)
    push_cast at hk
    dsimp only
    linarith

/-- A tick on the profile. -/
theorem approach_track {w : ℝ} (hs : 1 / 2 < s) (hδ : Shrinks s δ) (hsB : s ≤ B)
    (hx : 0 ≤ p.x) (hxB : p.x ≤ B) (hw : 0 ≤ w) (hpull : w ≤ pull V p.x) :
    Approach B (B - δ) ⟨p.x - w, w⟩ where
  forward := hw
  near := by dsimp only; linarith
  overshoot k := by
    have hk := overshoot_le hs hδ hsB (Nat.succ_le_succ (Nat.zero_le k))
      (sq_le_of_le_pull hx hw hpull) hxB
    push_cast at hk
    dsimp only
    linarith

/-- A tick of an approach keeps the bound on the overshoot, whether it brakes or follows the
profile. -/
theorem approach_tick (hV : 1 ≤ V) (hs : 1 / 2 < s) (hδ : Shrinks s δ) (hsB : s ≤ B)
    (h : Approach B (B - δ) p) (hx : 0 < p.x) :
    Approach B (B - δ) ⟨p.x - velocity V p, velocity V p⟩ := by
  have hpos := pull_pos (zero_lt_one.trans_le hV) hx
  by_cases hbrake : pull V p.x ≤ p.u - 1
  · rw [velocity, max_eq_left ((min_le_left _ _).trans hbrake)]
    exact approach_brake h (by linarith)
  · rw [velocity_eq_min (not_le.1 hbrake).le]
    exact approach_track hs hδ hsB hx.le h.near (le_min hpos.le (by linarith [h.forward]))
      (min_le_left _ _)

/-- Moving on, a tick takes off a tick of acceleration, or the distance left. -/
theorem le_velocity (hV : 1 ≤ V) (hx : 0 < p.x) (hu : 0 ≤ p.u) : min p.x 1 ≤ velocity V p := by
  have hpull : min p.x 1 ≤ pull V p.x := by
    refine le_pull hx.le ((min_le_right _ _).trans hV) ?_
    nlinarith [min_le_left p.x 1, min_le_right p.x 1, lt_min hx zero_lt_one]
  exact (le_min hpull ((min_le_right _ _).trans (by linarith))).trans (le_max_right _ _)

/-- Past the desired position the joint brakes, down to the next turn. -/
theorem past_leads (hV : 0 < V) (hs : 0 < s) :
    Leads (unit_tick V s) (fun p => Approach B C p ∧ p.x ≤ 0)
      (fun p => Caught s p ∨ Turn p.flip ∧ |p.x| ≤ C) := by
  refine leads_of_descent (fun p => p.u) zero_lt_one (fun p hp => hp.1.forward) ?_
  rintro p ⟨hp, hx⟩
  have hstart : -p.x ≤ C := by
    have h0 := hp.overshoot 0
    push_cast at h0
    linarith
  by_cases hu : p.u ≤ 1
  · refine ⟨0, Or.inl ?_⟩
    rcases hx.lt_or_eq with hlt | hzero
    · refine Or.inr ⟨⟨?_, ?_, ?_⟩, ?_⟩
      · show 0 < -p.x
        linarith
      · show -1 ≤ -p.u
        linarith
      · show -p.u ≤ 0
        linarith [hp.forward]
      · show |p.x| ≤ C
        rwa [abs_of_neg hlt]
    · refine Or.inl ⟨?_, ?_⟩
      · show |p.x| < s
        rwa [hzero, abs_zero]
      · show |p.u| ≤ 1
        exact abs_le.2 ⟨by linarith [hp.forward], hu⟩
  · rw [not_le] at hu
    have hfree : ¬ Caught s p := fun hc => absurd ((le_abs_self _).trans hc.2) (not_le.2 hu)
    have hw : velocity V p = p.u - 1 :=
      max_eq_left ((min_le_left _ _).trans (by linarith [pull_nonpos hV.le hx]))
    refine ⟨1, Or.inr ?_⟩
    show (Approach B C (unit_tick V s p) ∧ (unit_tick V s p).x ≤ 0) ∧ (unit_tick V s p).u ≤ p.u - 1
    rw [tick_free hfree, hw]
    exact ⟨⟨approach_brake hp hu.le, by dsimp only; linarith⟩, le_rfl⟩

/-- Every approach ends: the distance falls tick by tick to the desired position, and past it comes
the window or a nearer turn. -/
theorem approach_leads (hV : 1 ≤ V) (hs : 1 / 2 < s) (hδ : Shrinks s δ) (hsB : s ≤ B) :
    Leads (unit_tick V s) (Approach B (B - δ))
      (fun p => Caught s p ∨ Turn p.flip ∧ |p.x| ≤ B - δ) := by
  have hfirst : Leads (unit_tick V s) (fun p => Approach B (B - δ) p ∧ 0 < p.x)
      (fun p => Caught s p ∨ Approach B (B - δ) p ∧ p.x ≤ 0) := by
    refine leads_of_descent (fun p => p.x) zero_lt_one (fun p hp => hp.2.le) ?_
    rintro p ⟨hp, hx⟩
    by_cases hfree : Caught s p
    · exact ⟨0, Or.inl (Or.inl hfree)⟩
    · have hnext := approach_tick hV hs hδ hsB hp hx
      have hle := le_velocity hV hx hp.forward
      refine ⟨1, ?_⟩
      rw [Function.iterate_one, tick_free hfree]
      by_cases hover : p.x - velocity V p ≤ 0
      · exact Or.inl (Or.inr ⟨hnext, hover⟩)
      · rw [not_le] at hover
        refine Or.inr ⟨⟨hnext, hover⟩, ?_⟩
        have hone : 1 ≤ velocity V p := by
          rcases min_le_iff.1 hle with h | h
          · exact absurd h (by linarith)
          · exact h
        dsimp only
        linarith
  have hrest : Leads (unit_tick V s) (fun p => Caught s p ∨ Approach B (B - δ) p ∧ p.x ≤ 0)
      (fun p => Caught s p ∨ Turn p.flip ∧ |p.x| ≤ B - δ) :=
    (leads_of_imp fun p hp => Or.inl hp).or (past_leads (by linarith) (by linarith))
  refine ((hfirst.trans hrest).or hrest).imp (fun p hp => ?_) fun p hp => hp
  by_cases hx : 0 < p.x
  · exact Or.inl ⟨hp, hx⟩
  · exact Or.inr (Or.inr ⟨hp, not_lt.1 hx⟩)

/-- **From turn to turn.** -/
theorem turn_leads (hV : 1 ≤ V) (hs : 1 / 2 < s) :
    Leads (unit_tick V s) (fun p => Turn p ∨ Turn p.flip) (Caught s) := by
  obtain ⟨δ, hδ⟩ := exists_shrinks hs
  refine leads_of_descent_flip (by linarith) (fun p => |p.x|) (fun p => abs_neg p.x)
    hδ.pos (fun p _ => abs_nonneg p.x) ?_
  intro p hp
  have hx := hp.ahead
  by_cases hfree : Caught s p
  · exact ⟨0, Or.inl hfree⟩
  · have hsx : s ≤ p.x := by
      have h := le_abs_of_free hfree (abs_le.2 ⟨hp.slow, by linarith [hp.away]⟩)
      rwa [abs_of_pos hx] at h
    have hpos := pull_pos (zero_lt_one.trans_le hV) hx
    have hnext : Approach p.x (p.x - δ) (unit_tick V s p) := by
      rw [tick_free hfree, velocity_eq_min (by linarith [hp.away])]
      exact approach_track hs hδ hsx hx.le le_rfl (le_min hpos.le (by linarith [hp.slow]))
        (min_le_left _ _)
    obtain ⟨n, hn⟩ := approach_leads hV hs hδ hsx _ hnext
    refine ⟨n + 1, ?_⟩
    rw [Function.iterate_succ_apply]
    refine hn.imp id ?_
    rintro ⟨hturn, hle⟩
    exact ⟨Or.inr hturn, by rwa [abs_of_pos hx]⟩

end Fast

/-! ## In between: half a tick of acceleration is within the limit, a whole one is not -/

section Between

variable {V s : ℝ} {p : Offset}

/-- Outside of the window, and fast enough after one tick to move by the least speed there. -/
structure Engaged (V s : ℝ) (p : Offset) : Prop where
  outside : s ≤ p.x
  slow : min V √(2 * s) - 1 ≤ p.u
  limit : p.u ≤ V

/-- The next tick goes past the desired position. -/
structure Crossing (V s : ℝ) (p : Offset) : Prop extends Engaged V s p where
  past : p.x ≤ velocity V p

/-- At these limits the least speed outside of the window is more than half a tick of acceleration.
-/
theorem half_lt_min (hV : 1 / 2 < V) (hs : 1 / 8 < s) : 1 / 2 < min V √(2 * s) :=
  lt_min hV ((Real.lt_sqrt (by norm_num)).2 (by linarith))

/-- An engaged joint is within its limit, so a tick is enough to brake to the profile, and only
speeding up is limited. -/
theorem engaged_velocity (hV : 1 / 2 < V) (hV1 : V < 1) (hs : 1 / 8 < s) (h : Engaged V s p) :
    velocity V p = min (pull V p.x) (p.u + 1) := by
  have hx : 0 < p.x := by linarith [h.outside]
  exact velocity_eq_min (by linarith [pull_pos (by linarith : 0 < V) hx, h.limit])

/-- The least speed with which an engaged joint moves on, which bounds the number of ticks until it
crosses. -/
theorem engaged_le_velocity (hV : 1 / 2 < V) (hV1 : V < 1) (hs : 1 / 8 < s) (h : Engaged V s p) :
    min V √(2 * s) ≤ velocity V p := by
  rw [engaged_velocity hV hV1 hs h]
  refine le_min ?_ (by linarith [h.slow])
  rw [← pull_of_nonneg (by linarith : (0 : ℝ) ≤ s)]
  exact pull_mono (by linarith) h.outside

/-- An engaged joint does not outrun the profile. -/
theorem engaged_velocity_le (hV : 1 / 2 < V) (hV1 : V < 1) (hs : 1 / 8 < s) (h : Engaged V s p) :
    velocity V p ≤ pull V p.x := by
  rw [engaged_velocity hV hV1 hs h]
  exact min_le_left _ _

/-- An engaged joint is outside of the window and is not snapped by this tick. -/
theorem engaged_free (h : Engaged V s p) : ¬ Caught s p := fun hc =>
  absurd ((le_abs_self _).trans_lt hc.1) (not_lt.2 h.outside)

/-- A joint that moves by the least speed or more comes to the window, or to where the next tick
goes past the desired position. -/
theorem engaged_leads (hV : 1 / 2 < V) (hV1 : V < 1) (hs : 1 / 8 < s) :
    Leads (unit_tick V s) (Engaged V s) (fun p => Caught s p ∨ Crossing V s p) := by
  have hhalf := half_lt_min hV hs
  refine leads_of_descent (fun p => p.x) one_half_pos
    (fun p hp => by linarith [hp.outside]) ?_
  intro p hp
  by_cases hpast : p.x ≤ velocity V p
  · exact ⟨0, Or.inl (Or.inr ⟨hp, hpast⟩)⟩
  · rw [not_le] at hpast
    have hlow := engaged_le_velocity hV hV1 hs hp
    have hhigh := (engaged_velocity_le hV hV1 hs hp).trans (pull_le (by linarith [hp.outside]))
    refine ⟨1, ?_⟩
    rw [Function.iterate_one, tick_free (engaged_free hp)]
    by_cases hnext : s ≤ p.x - velocity V p
    · refine Or.inr ⟨⟨hnext, ?_, hhigh⟩, ?_⟩ <;> dsimp only <;> linarith
    · refine Or.inl (Or.inl ⟨abs_lt.2 ⟨?_, not_le.1 hnext⟩, abs_le.2 ⟨?_, ?_⟩⟩) <;> dsimp only <;>
        linarith

/-- Past the desired position a tick is not enough to turn, so the second one reaches what is left
of a tick of acceleration. -/
theorem crossing_two_ticks (hV : 1 / 2 < V) (hV1 : V < 1) (hs : 1 / 8 < s) (h : Crossing V s p)
    (hout : s ≤ velocity V p - p.x) :
    unit_tick V s (unit_tick V s p) = ⟨p.x - (2 * velocity V p - 1), velocity V p - 1⟩ := by
  obtain ⟨c, hc⟩ : ∃ c, c = velocity V p := ⟨_, rfl⟩
  have hlow := engaged_le_velocity hV hV1 hs h.toEngaged
  have hhalf := half_lt_min hV hs
  rw [← hc] at hlow hout ⊢
  have hfree : ¬ Caught s ⟨c - p.x, -c⟩ := fun hcon =>
    absurd ((le_abs_self _).trans_lt hcon.1) (not_lt.2 hout)
  have hpull : 1 - c ≤ pull V (c - p.x) := by
    refine le_pull (by linarith) (by linarith) ?_
    nlinarith [engaged_velocity_le hV hV1 hs h.toEngaged, h.outside,
      pull_le (V := V) (by linarith [h.outside] : 0 ≤ p.x)]
  have hw : velocity V ⟨c - p.x, -c⟩ = 1 - c := by
    rw [velocity_eq_min (by dsimp only; linarith), min_eq_right (by dsimp only; linarith)]
    ring
  have hflip : (⟨p.x - c, c⟩ : Offset) = Offset.flip ⟨c - p.x, -c⟩ := by
    simp [Offset.flip]
  rw [tick_free (engaged_free h.toEngaged), ← hc, hflip, tick_flip (by linarith),
    tick_free hfree, hw]
  ext
  · show -(c - p.x - (1 - c)) = p.x - (2 * c - 1)
    ring
  · show -(1 - c) = c - 1
    ring

/-- The speed of the next tick and the distance, neither told from its other side. -/
noncomputable def sway (V : ℝ) (p : Offset) : ℝ := (velocity V p / (1 - V)) ^ 2 + |p.x|

/-- The potential is the same for the mirror image, so that a crossing and the one back compare. -/
theorem sway_flip (hV : 0 ≤ V) (p : Offset) : sway V p.flip = sway V p := by
  unfold sway
  rw [velocity_flip hV, neg_div, neg_sq]
  show _ + |-p.x| = _
  rw [abs_neg]

/-- Near the desired position and not moving away from it fast, the next tick goes past it. -/
theorem crossing_of_near {x u : ℝ} (hV : 1 / 2 < V) (hV1 : V < 1) (hs : 1 / 8 < s) (hout : s ≤ x)
    (hslow : min V √(2 * s) - 1 ≤ u) (hlimit : u ≤ V) (hxV : x ≤ V) (hxu : x ≤ u + 1) :
    Crossing V s ⟨x, u⟩ := by
  have hengaged : Engaged V s ⟨x, u⟩ := ⟨hout, hslow, hlimit⟩
  refine ⟨hengaged, ?_⟩
  rw [engaged_velocity hV hV1 hs hengaged]
  exact le_min (le_pull (by linarith) hxV (by nlinarith)) hxu

/-- **Two ticks around the desired position.** Either the joint is back on its side, nearer, or it
turned on the other side, slower. -/
theorem crossing_round (hV : 1 / 2 < V) (hV1 : V < 1) (hs : 1 / 8 < s) (h : Crossing V s p) :
    ∃ n, Caught s ((unit_tick V s)^[n] p) ∨
      (Crossing V s ((unit_tick V s)^[n] p) ∨ Crossing V s ((unit_tick V s)^[n] p).flip) ∧
        sway V ((unit_tick V s)^[n] p) ≤ sway V p - min (2 * min V √(2 * s) - 1) 1 := by
  have hx : 0 < p.x := by linarith [h.outside]
  have hhalf := half_lt_min hV hs
  have hlow := engaged_le_velocity hV hV1 hs h.toEngaged
  have hpull := engaged_velocity_le hV hV1 hs h.toEngaged
  have hhigh := hpull.trans (pull_le hx.le)
  have hsq := sq_le_of_le_pull hx.le (by linarith) hpull
  have hpast := h.past
  by_cases hout : s ≤ velocity V p - p.x
  · have htwo := crossing_two_ticks hV hV1 hs h hout
    obtain ⟨c, hc⟩ : ∃ c, c = velocity V p := ⟨_, rfl⟩
    have hsway : sway V p = (c / (1 - V)) ^ 2 + p.x := by rw [sway, ← hc, abs_of_pos hx]
    rw [← hc] at hlow hhigh hsq hpast hout htwo
    refine ⟨2, ?_⟩
    show Caught s (unit_tick V s (unit_tick V s p)) ∨
      (Crossing V s (unit_tick V s (unit_tick V s p)) ∨
        Crossing V s (unit_tick V s (unit_tick V s p)).flip) ∧
      sway V (unit_tick V s (unit_tick V s p)) ≤ _
    rw [htwo, hsway]
    by_cases hback : s ≤ p.x - (2 * c - 1)
    · have hcross := crossing_of_near hV hV1 hs hback (by linarith : min V √(2 * s) - 1 ≤ c - 1)
        (by linarith) (by linarith) (by linarith)
      have hspeed : velocity V ⟨p.x - (2 * c - 1), c - 1⟩ ≤ c := by
        rw [engaged_velocity hV hV1 hs hcross.toEngaged]
        exact (min_le_right _ _).trans (by dsimp only; linarith)
      have hspeed0 : 0 ≤ velocity V ⟨p.x - (2 * c - 1), c - 1⟩ := by
        linarith [engaged_le_velocity hV hV1 hs hcross.toEngaged]
      refine Or.inr ⟨Or.inl hcross, ?_⟩
      rw [sway, abs_of_nonneg (by dsimp only; linarith)]
      have hle : (velocity V ⟨p.x - (2 * c - 1), c - 1⟩ / (1 - V)) ^ 2 ≤ (c / (1 - V)) ^ 2 := by
        have h1V : 0 < 1 - V := by linarith
        gcongr
      dsimp only at hle ⊢
      linarith [min_le_left (2 * min V √(2 * s) - 1) 1]
    · by_cases hother : s ≤ 2 * c - 1 - p.x
      · have hcross := crossing_of_near hV hV1 hs hother
          (by linarith : min V √(2 * s) - 1 ≤ 1 - c) (by linarith) (by nlinarith) (by nlinarith)
        have hflip : (⟨p.x - (2 * c - 1), c - 1⟩ : Offset).flip = ⟨2 * c - 1 - p.x, 1 - c⟩ := by
          simp [Offset.flip]
        refine Or.inr ⟨Or.inr (hflip ▸ hcross), ?_⟩
        rw [← sway_flip (by linarith), hflip, sway, abs_of_nonneg (by dsimp only; linarith)]
        have hspeed := sq_le_of_le_pull (by linarith)
          (by linarith [engaged_le_velocity hV hV1 hs hcross.toEngaged])
          (engaged_velocity_le hV hV1 hs hcross.toEngaged)
        obtain ⟨c', hc'⟩ : ∃ c', c' = velocity V ⟨2 * c - 1 - p.x, 1 - c⟩ := ⟨_, rfl⟩
        rw [← hc'] at hspeed ⊢
        dsimp only at hspeed ⊢
        -- the profile at the new distance is slower by what the overshoot cost
        have hdrop : c' ^ 2 ≤ c ^ 2 - 2 * (1 - V) ^ 2 := by
          have hroom : (1 - V) ^ 2 ≤ (1 - c) ^ 2 :=
            pow_le_pow_left₀ (by linarith) (by linarith) 2
          linarith
        have h1V : 0 < (1 - V) ^ 2 := by
          have : 0 < 1 - V := by linarith
          positivity
        have hscaled : (c' / (1 - V)) ^ 2 ≤ (c / (1 - V)) ^ 2 - 2 := by
          rw [div_pow, div_pow, div_le_iff₀ h1V, sub_mul, div_mul_cancel₀ _ h1V.ne']
          exact hdrop
        linarith [min_le_right (2 * min V √(2 * s) - 1) 1]
      · refine Or.inl ⟨abs_lt.2 ⟨?_, not_le.1 hback⟩, abs_le.2 ⟨?_, ?_⟩⟩ <;> dsimp only <;> linarith
  · refine ⟨1, Or.inl ?_⟩
    rw [Function.iterate_one, tick_free (engaged_free h.toEngaged)]
    refine ⟨abs_lt.2 ⟨?_, ?_⟩, abs_le.2 ⟨?_, ?_⟩⟩ <;> dsimp only <;> linarith

/-- Each round lowers the potential by a fixed amount, so crossing back and forth ends in the
window. -/
theorem crossing_leads (hV : 1 / 2 < V) (hV1 : V < 1) (hs : 1 / 8 < s) :
    Leads (unit_tick V s) (fun p => Crossing V s p ∨ Crossing V s p.flip) (Caught s) := by
  have hhalf := half_lt_min hV hs
  refine leads_of_descent_flip (by linarith) (sway V) (sway_flip (by linarith))
    (lt_min (by linarith) one_pos) (fun p _ => ?_) fun p hp => crossing_round hV hV1 hs hp
  exact add_nonneg (sq_nonneg _) (abs_nonneg _)

end Between

/-! ## Where a joint settles from everywhere -/

section Window

variable {V s : ℝ} {p q : Offset}

/-- The snapping windows that are wide enough. -/
inductive Window (V s : ℝ) : Prop
  | fast (hV : 1 ≤ V) (hs : 1 / 2 < s)
  | between (hV : 1 / 2 < V) (hV1 : V < 1) (hs : 1 / 8 < s)
  | slow (hV : V ≤ 1 / 2) (hs : V / 2 < s)

/-- The window of a joint that chatters is within half a tick of acceleration, and within its
limit. -/
theorem le_min_of_not_window (hV : 0 < V) (h : ¬ Window V s) : s ≤ min V (1 / 2) := by
  have hfast : 1 ≤ V → s ≤ 1 / 2 := fun hV1 => not_lt.1 fun hs => h (.fast hV1 hs)
  have hbetween : 1 / 2 < V → V < 1 → s ≤ 1 / 8 :=
    fun hV2 hV1 => not_lt.1 fun hs => h (.between hV2 hV1 hs)
  have hslow : V ≤ 1 / 2 → s ≤ V / 2 := fun hV2 => not_lt.1 fun hs => h (.slow hV2 hs)
  refine le_min ?_ ?_ <;> by_cases hV1 : 1 ≤ V
  · linarith [hfast hV1]
  · by_cases hV2 : V ≤ 1 / 2
    · linarith [hslow hV2]
    · linarith [hbetween (not_le.1 hV2) (not_le.1 hV1)]
  · exact hfast hV1
  · by_cases hV2 : V ≤ 1 / 2
    · linarith [hslow hV2]
    · linarith [hbetween (not_le.1 hV2) (not_le.1 hV1)]

/-- **Every wide enough window catches the joint**, from rest at any distance; the kinds of windows
are the cases. -/
theorem window_settles (hV : 0 < V) (h : Window V s) (x : ℝ) :
    ∃ n, Caught s ((unit_tick V s)^[n] ⟨x, 0⟩) := by
  by_cases hcaught : Caught s ⟨x, 0⟩
  · exact ⟨0, hcaught⟩
  · have hout : s ≤ |x| := le_abs_of_free hcaught (by simp)
    have hflip : (⟨x, 0⟩ : Offset).flip = ⟨-x, 0⟩ := by simp [Offset.flip]
    obtain ⟨hV1, hs⟩ | ⟨hV2, hV1, hs⟩ | ⟨hV2, hs⟩ := h
    · refine turn_leads hV1 hs _ ?_
      show Turn ⟨x, 0⟩ ∨ Turn (Offset.flip ⟨x, 0⟩)
      rw [hflip]
      exact (le_abs.1 hout).imp (fun h => ⟨by dsimp only; linarith, by norm_num, le_rfl⟩)
        fun h => ⟨by dsimp only; linarith, by norm_num, le_rfl⟩
    · have hlow : min V √(2 * s) - 1 ≤ 0 := by linarith [min_le_left V √(2 * s)]
      have hleads := ((engaged_leads hV2 hV1 hs).imp (fun p hp => hp) fun p hp =>
        hp.imp_right Or.inl).trans ((leads_of_imp fun p hp => hp).or (crossing_leads hV2 hV1 hs))
      rcases le_abs.1 hout with hx | hx
      · exact hleads _ ⟨hx, hlow, hV.le⟩
      · obtain ⟨n, hn⟩ := hleads ⟨-x, 0⟩ ⟨hx, hlow, hV.le⟩
        rw [← hflip, iterate_flip hV.le, caught_flip] at hn
        exact ⟨n, hn⟩
    · refine creep_leads hV (by linarith) hs _ ?_
      show Creep V s ⟨x, 0⟩ ∨ Creep V s (Offset.flip ⟨x, 0⟩)
      rw [hflip]
      exact (le_abs.1 hout).imp (fun h => ⟨h, le_rfl, hV.le⟩) fun h => ⟨h, le_rfl, hV.le⟩

/-- A state that two ticks bring back to itself, or to the other side, is chatter: at every odd
tick the joint has the speed of the first. -/
theorem odd_ticks (hV : 0 ≤ V) (hfirst : unit_tick V s p = q)
    (hround : unit_tick V s (unit_tick V s q) = q ∨ unit_tick V s (unit_tick V s q) = q.flip)
    (n : ℕ) : |((unit_tick V s)^[2 * n + 1] p).u| = |q.u| := by
  have hall : (unit_tick V s)^[2 * n] q = q ∨ (unit_tick V s)^[2 * n] q = q.flip := by
    induction n with
    | zero => exact Or.inl rfl
    | succ n ih =>
      rw [show 2 * (n + 1) = 2 + 2 * n by ring, Function.iterate_add_apply]
      rcases ih with ih | ih
      · rw [ih]
        exact hround
      · rw [ih, iterate_flip hV]
        rcases hround with h | h
        · exact Or.inr (congrArg Offset.flip h)
        · refine Or.inl ((congrArg Offset.flip h).trans ?_)
          exact q.flip_flip
  rw [Function.iterate_succ_apply, hfirst]
  rcases hall with h | h
  · rw [h]
  · rw [h]
    exact abs_neg q.u

/-- A tick outside of the window, towards a pull that is within reach. -/
theorem tick_to_pull {x u w : ℝ} (hout : s ≤ |x|) (hpull : pull V x = w) (hlow : u - 1 ≤ w)
    (hhigh : w ≤ u + 1) : unit_tick V s ⟨x, u⟩ = ⟨x - w, w⟩ := by
  have hfree : ¬ Caught s ⟨x, u⟩ := fun h => absurd h.1 (not_lt.2 hout)
  have hw : velocity V ⟨x, u⟩ = w := by
    rw [velocity_eq_min (by rwa [hpull]), hpull, min_eq_left hhigh]
  rw [tick_free hfree, hw]

/-- Half a tick of acceleration away, a fast joint steps across. -/
theorem chatter_fast (hV : 1 ≤ V) (hs : s ≤ 1 / 2) (n : ℕ) :
    |((unit_tick V s)^[2 * n + 1] ⟨1 / 2, 0⟩).u| = 1 := by
  have hpull : pull V (1 / 2) = 1 := by
    rw [pull_of_nonneg (by norm_num), show (2 : ℝ) * (1 / 2) = 1 by norm_num, Real.sqrt_one,
      min_eq_right hV]
  have hfirst : unit_tick V s ⟨1 / 2, 0⟩ = ⟨-(1 / 2), 1⟩ := by
    rw [tick_to_pull (by rw [abs_of_pos] <;> linarith) hpull (by norm_num) (by norm_num)]
    norm_num
  have hneg : pull V (-(1 / 2)) = -1 := by rw [pull_neg (by linarith), hpull]
  -- one tick of acceleration stops the joint and leaves it where it is
  have hstop : unit_tick V s ⟨-(1 / 2), 1⟩ = Offset.flip ⟨1 / 2, 0⟩ := by
    have hfree : ¬ Caught s ⟨-(1 / 2), 1⟩ := fun h =>
      absurd (abs_lt.1 h.1).1 (by dsimp only; linarith)
    rw [tick_free hfree, velocity, hneg]
    norm_num [Offset.flip]
  have hround : unit_tick V s (unit_tick V s ⟨-(1 / 2), 1⟩) = Offset.flip ⟨-(1 / 2), 1⟩ := by
    rw [hstop, tick_flip (by linarith), hfirst]
  rw [odd_ticks (by linarith) hfirst (Or.inr hround)]
  exact abs_one

/-- An eighth away, a joint whose limit is half a tick of acceleration or more goes to and fro
between this eighth and three on the other side. -/
theorem chatter_between (hV : 1 / 2 ≤ V) (hs : s ≤ 1 / 8) (n : ℕ) :
    |((unit_tick V s)^[2 * n + 1] ⟨1 / 8, 0⟩).u| = 1 / 2 := by
  have hhalf : √(2 * (1 / 8)) = 1 / 2 := by
    rw [show (2 : ℝ) * (1 / 8) = (1 / 2) ^ 2 by norm_num, Real.sqrt_sq (by norm_num)]
  have hpull : pull V (1 / 8) = 1 / 2 := by
    rw [pull_of_nonneg (by norm_num), hhalf, min_eq_right hV]
  have hin : s ≤ |(1 / 8 : ℝ)| := by rwa [abs_of_pos (by norm_num)]
  have hfirst : unit_tick V s ⟨1 / 8, 0⟩ = ⟨-(3 / 8), 1 / 2⟩ := by
    rw [tick_to_pull hin hpull (by norm_num) (by norm_num)]
    norm_num
  have hback : unit_tick V s ⟨-(3 / 8), 1 / 2⟩ = ⟨1 / 8, -(1 / 2)⟩ := by
    have hfree : ¬ Caught s ⟨-(3 / 8), 1 / 2⟩ := fun h =>
      absurd (abs_lt.1 h.1).1 (by dsimp only; linarith)
    have hfar : 1 / 2 ≤ pull V (3 / 8) := le_pull (by norm_num) hV (by norm_num)
    rw [tick_free hfree, velocity, pull_neg (by linarith), max_eq_left]
    · norm_num
    · refine (min_le_left _ _).trans ?_
      linarith
  have hround : unit_tick V s (unit_tick V s ⟨-(3 / 8), 1 / 2⟩) = ⟨-(3 / 8), 1 / 2⟩ := by
    rw [hback, tick_to_pull hin hpull (by norm_num) (by norm_num)]
    norm_num
  rw [odd_ticks (by linarith) hfirst (Or.inl hround)]
  exact abs_of_pos one_half_pos

/-- Half its limit away, a slow joint steps across at its limit, again and again. -/
theorem chatter_slow (hV : 0 < V) (hV2 : V ≤ 1 / 2) (hs : s ≤ V / 2) (n : ℕ) :
    |((unit_tick V s)^[2 * n + 1] ⟨V / 2, 0⟩).u| = V := by
  have hpull : pull V (V / 2) = V :=
    le_antisymm (pull_le (by linarith)) (le_pull (by linarith) le_rfl (by nlinarith))
  have hfirst : unit_tick V s ⟨V / 2, 0⟩ = ⟨-(V / 2), V⟩ := by
    rw [tick_to_pull (by rwa [abs_of_pos (by linarith)]) hpull (by linarith) (by linarith)]
    ext
    · show V / 2 - V = -(V / 2)
      ring
    · rfl
  have hback : unit_tick V s ⟨-(V / 2), V⟩ = Offset.flip ⟨-(V / 2), V⟩ := by
    rw [tick_to_pull (w := -V) (by rwa [abs_neg, abs_of_pos (by linarith)])
      (by rw [pull_neg hV.le, hpull]) (by linarith) (by linarith)]
    ext
    · show -(V / 2) - -V = - -(V / 2)
      ring
    · rfl
  have hround : unit_tick V s (unit_tick V s ⟨-(V / 2), V⟩) = ⟨-(V / 2), V⟩ := by
    rw [hback, tick_flip hV.le, hback, Offset.flip_flip]
  rw [odd_ticks hV.le hfirst (Or.inl hround)]
  exact abs_of_pos hV

/-- **Too narrow a window.** From rest at some distance the joint never stops. -/
theorem chatters (hV : 0 < V) (h : ¬ Window V s) :
    ∃ x, ∀ n, min V (1 / 2) ≤ |((unit_tick V s)^[2 * n + 1] ⟨x, 0⟩).u| := by
  by_cases hV1 : 1 ≤ V
  · refine ⟨1 / 2, fun n => ?_⟩
    rw [chatter_fast hV1 (not_lt.1 fun hs => h (.fast hV1 hs))]
    exact (min_le_right _ _).trans (by norm_num)
  · by_cases hV2 : V ≤ 1 / 2
    · refine ⟨V / 2, fun n => ?_⟩
      rw [chatter_slow hV hV2 (not_lt.1 fun hs => h (.slow hV2 hs))]
      exact min_le_left _ _
    · rw [not_le] at hV1 hV2
      refine ⟨1 / 8, fun n => ?_⟩
      rw [chatter_between hV2.le (not_lt.1 fun hs => h (.between hV2 hV1 hs))]
      exact min_le_right _ _

end Window

end DualFlexivControl.Native
