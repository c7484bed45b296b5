/-
The safety gate of the native loop, and of both controllers together.

The native loop shapes a trajectory towards `desired_q` and gates the shaped target,
with `std::max` instead of `np.max`. `std::max(worst, nan)` is `worst`, so a joint
whose error is a NaN is not looked at. A component that is not finite does not make
the target a NaN, but it does move it: `std::min(max_joint_vel, nan)` is the velocity
limit, and the joint is driven at full speed until the gate trips.

[`NativeRun.safe`] is the run theorem: as long as the setpoints it copies are finite
and no measured joint is a NaN, every tick is safe. The invariant is that the
trajectory state stays finite ([`FiniteLoop`]).
-/
import DualFlexivControl.Native.Run
import DualFlexivControl.Flexiv.SendControl

set_option autoImplicit false

namespace DualFlexivControl.Native

open DualFlexivControl.Flexiv
open Ieee (fin)
open Scalar (lit)

variable {dof : ℕ}

/-! ## A native run from outside -/

/-- What a tick gets to see. -/
structure TickInput (dof : ℕ) where
  now : ℤ
  measured : Fin dof → Ieee
  read : Read Ieee

/-- The first `dof` values of a row. -/
def FiniteFront (dof : ℕ) (out : List Ieee) : Prop :=
  ∀ (j : Fin dof) (x : Ieee), out[(j : ℕ)]? = some x → x.isFinite = true

theorem copy_n_isFinite {out : List Ieee} {desired_q : Fin dof → Ieee}
    (hout : FiniteFront dof out) (hd : ∀ j, (desired_q j).isFinite = true) (j : Fin dof) :
    (copy_n out desired_q j).isFinite = true := by
  unfold copy_n
  rw [List.getD_eq_getElem?_getD]
  cases h : out[(j : ℕ)]? with
  | none => exact hd j
  | some x => exact hout j x h

section Root

variable [RatSqrt]

/-- The ticks of the loop, from its variables and the targets streamed so far. -/
def native_ticks (args : RunArgs Ieee) : Loop Ieee dof → (Fin dof → Option Ieee) →
    List (TickInput dof) → List (GateTick dof)
  | _, _, [] => []
  | st, commanded, i :: rest =>
    let t := tick args i.now i.measured i.read st
    let target : Fin dof → Ieee := fun j => (t.state.target j).q
    match t.halt with
    | none =>
      ⟨fun j => [t.state.desired_q j], i.measured, commanded, some target, false, none, none⟩ ::
        native_ticks args t.state (fun j => some (target j)) rest
    | some why =>
      [⟨fun j => [t.state.desired_q j], i.measured, commanded, none,
        decide (why = .safety_halt), none, none⟩]

/-- A run of the controller with the gate on, from its bootstrap. -/
structure NativeRun (dof : ℕ) where
  soft_deadman_ns : ℤ
  hard_deadman_ns : ℤ
  tolerance : ℚ
  max_joint_vel : ℚ
  max_joint_acc : ℚ
  measured : Fin dof → Ieee
  first : Read Ieee
  inputs : List (TickInput dof)

def NativeRun.args (run : NativeRun dof) : RunArgs Ieee :=
  ⟨run.soft_deadman_ns, run.hard_deadman_ns, true, fin run.tolerance,
    ⟨fin run.max_joint_vel, fin run.max_joint_acc⟩⟩

/-- No tick at all if the bootstrap throws. The bootstrap moves the robot to the first
setpoint. -/
def NativeRun.gateTicks (run : NativeRun dof) : List (GateTick dof) :=
  match bootstrap run.args run.measured run.first with
  | none => []
  | some st => native_ticks run.args st (fun j => some (st.desired_q j)) run.inputs

/-- Inputs the loop can handle from the given variables on: no measured joint is a NaN
and what it copies is finite. -/
def Handles (args : RunArgs Ieee) : Loop Ieee dof → List (TickInput dof) → Prop
  | _, [] => True
  | st, i :: rest =>
    (∀ j, (i.measured j).isNaN = false) ∧
    ((!stale args i.now i.read st && takes args i.now i.read st) = true →
      FiniteFront dof i.read.out) ∧
    Handles args (tick args i.now i.measured i.read st).state rest

def NativeRun.Admissible (run : NativeRun dof) : Prop :=
  FiniteFront dof run.first.out ∧ ∀ st, bootstrap run.args run.measured run.first = some st →
    Handles run.args st run.inputs

/-! ## The trajectory stays finite -/

/-- Everything the next tick computes with is finite. -/
structure FiniteLoop (st : Loop Ieee dof) : Prop where
  desired_q : ∀ j, (st.desired_q j).isFinite = true
  q : ∀ j, (st.target j).q.isFinite = true
  dq : ∀ j, (st.target j).dq.isFinite = true

theorem advance_joint_isFinite {vel acc : ℚ} (hacc : 0 < acc) {d : Ieee} {j : Joint Ieee}
    (hd : d.isFinite = true) (hq : j.q.isFinite = true) (hdq : j.dq.isFinite = true) :
    (advance_joint ⟨fin vel, fin acc⟩ d j).q.isFinite = true ∧
      (advance_joint ⟨fin vel, fin acc⟩ d j).dq.isFinite = true := by
  obtain ⟨d, rfl⟩ := Ieee.exists_fin hd
  obtain ⟨q, dq, ddq⟩ := j
  obtain ⟨q, rfl⟩ := Ieee.exists_fin hq
  obtain ⟨dq, rfl⟩ := Ieee.exists_fin hdq
  unfold advance_joint
  dsimp only
  split
  · exact ⟨rfl, rfl⟩
  · -- every intermediate value is a finite combination of finite ones
    have hbraking : (Scalar.sqrt (lit 2 * fin acc * Scalar.abs (fin d - fin q))).isFinite = true :=
      Ieee.isFinite_sqrt (mul_nonneg (mul_nonneg (by norm_num) hacc.le) (abs_nonneg (d + -q)))
    have hspeed := Ieee.isFinite_copysign
      (Ieee.isFinite_min (Ieee.isFinite_fin vel) hbraking) (fin d - fin q)
    have hlimit : (fin acc * dt).isFinite = true := rfl
    have hdelta := Ieee.isFinite_clamp (Ieee.isFinite_sub hspeed (Ieee.isFinite_fin dq))
      (show (-fin acc * dt).isFinite = true from rfl) hlimit
    have hvel := Ieee.isFinite_add (Ieee.isFinite_fin dq) hdelta
    exact ⟨Ieee.isFinite_add rfl (Ieee.isFinite_mul hvel rfl), hvel⟩

/-- One tick keeps the loop finite, unless it copies something that is not. -/
theorem FiniteLoop.tick {args : RunArgs Ieee} {vel acc : ℚ} (hacc : 0 < acc)
    (hlim : args.limits = ⟨fin vel, fin acc⟩) {st : Loop Ieee dof} (h : FiniteLoop st)
    (i : TickInput dof) (hcopy : (!stale args i.now i.read st && takes args i.now i.read st) =
      true → FiniteFront dof i.read.out) :
    FiniteLoop (Native.tick args i.now i.measured i.read st).state := by
  have hdesired : ∀ j, ((Native.tick args i.now i.measured i.read st).state.desired_q
      j).isFinite = true := by
    intro j
    rw [tick_desired_q]
    split
    · rename_i hc
      exact copy_n_isFinite (hcopy hc) h.desired_q j
    · exact h.desired_q j
  unfold Native.tick at hdesired ⊢
  by_cases hstale : stale args i.now i.read st = true
  · rw [if_pos hstale] at hdesired ⊢
    exact ⟨hdesired, h.q, h.dq⟩
  · rw [if_neg hstale] at hdesired ⊢
    rw [gate_state] at hdesired ⊢
    have hadvance := fun j =>
      @advance_joint_isFinite _ vel acc hacc _ _ (hdesired j) (h.q j) (h.dq j)
    rw [hlim]
    exact ⟨hdesired, fun j => (hadvance j).1, fun j => (hadvance j).2⟩

/-! ## The gate -/

/-- A tick that goes on has passed the gate: all targets are close to what was
measured. -/
theorem tick_within {args : RunArgs Ieee} {tolerance : ℚ} (hcheck : args.safety_check = true)
    (htol : args.tolerance = fin tolerance) {st : Loop Ieee dof} {i : TickInput dof}
    (hgo : (Native.tick args i.now i.measured i.read st).halt = none)
    (hfin : FiniteLoop (Native.tick args i.now i.measured i.read st).state)
    (hmeasured : ∀ j, (i.measured j).isNaN = false) (j : Fin dof) :
    ∃ a m, ((Native.tick args i.now i.measured i.read st).state.target j).q = fin a ∧
      i.measured j = fin m ∧ |a - m| ≤ tolerance := by
  have hpass := tick_go hcheck hgo
  generalize Native.tick args i.now i.measured i.read st = t at hpass hfin ⊢
  have hnan : ∀ j, ((t.state.target j).q - i.measured j).isNaN = false := fun j =>
    Ieee.isNaN_sub_of_isFinite (hfin.q j) (hmeasured j)
  -- away from NaNs `std::max` is an upper bound, so the gate has seen every joint
  obtain ⟨hworst, -, hall⟩ := Ieee.upperBound_max.foldl
    (List.ofFn fun j => Scalar.abs ((t.state.target j).q - i.measured j))
    (show (lit 0 : Ieee).isNaN = false from rfl) fun x hx => by
      obtain ⟨j, rfl⟩ := List.mem_ofFn.mp hx
      exact (Ieee.isNaN_abs _).trans (hnan j)
  rw [htol] at hpass
  exact close_of_abs_place_le (hnan j) ((hall _ (List.mem_ofFn.mpr ⟨j, rfl⟩)).trans
    ((Ieee.not_lt_iff_place rfl hworst).mp hpass))

/-- The run, from any point of it: whatever is measured and streamed, each tick that is sent has
passed the gate with finite values. -/
theorem native_ticks_safe {args : RunArgs Ieee} {tolerance vel acc : ℚ} (hacc : 0 < acc)
    (hlim : args.limits = ⟨fin vel, fin acc⟩) (hcheck : args.safety_check = true)
    (htol : args.tolerance = fin tolerance) {inputs : List (TickInput dof)}
    {st : Loop Ieee dof} (hfin : FiniteLoop st) (hin : Handles args st inputs)
    (commanded : Fin dof → Option Ieee) :
    ∀ t ∈ native_ticks args st commanded inputs, t.Safe tolerance := by
  induction inputs generalizing st commanded with
  | nil => exact fun t ht => absurd ht List.not_mem_nil
  | cons i rest ih =>
    obtain ⟨hmeasured, hcopy, hrest⟩ := hin
    have hfin' := hfin.tick hacc hlim i hcopy
    intro t ht
    unfold native_ticks at ht
    dsimp only at ht
    -- a tick that halts has sent nothing, and it is the run's last
    cases hhalt : (Native.tick args i.now i.measured i.read st).halt with
    | none =>
      rw [hhalt] at ht
      rcases List.mem_cons.mp ht with rfl | ht
      · refine ⟨?_, fun htrip => (by cases htrip), ?_⟩
        · intro q hq j
          cases hq
          exact tick_within hcheck htol hhalt hfin' hmeasured j
        · rintro j ⟨x, hx, hbad⟩ q -
          rw [show x = _ from List.mem_singleton.mp hx, hfin'.desired_q j] at hbad
          cases hbad
      · exact ih hfin' hrest _ t ht
    | some why =>
      rw [hhalt] at ht
      rw [List.mem_singleton.mp ht]
      exact ⟨fun p hp => (by cases hp), fun _ => ⟨rfl, rfl⟩, fun j _ p hp => (by cases hp)⟩

/-- Every tick of an admissible native run is safe: its targets are finite and within the tolerance
of the measured joints. -/
theorem NativeRun.safe (run : NativeRun dof) (h : run.Admissible) :
    ∀ t ∈ run.gateTicks, t.Safe run.tolerance := by
  intro t ht
  unfold NativeRun.gateTicks at ht
  cases hboot : bootstrap run.args run.measured run.first with
  | none =>
    rw [hboot] at ht
    cases ht
  | some st =>
    rw [hboot] at ht
    obtain ⟨-, hdesired, htarget, -, hacc⟩ := bootstrap_spec hboot
    have hfinite : ∀ j, (st.desired_q j).isFinite = true := by
      intro j
      rw [hdesired]
      exact copy_n_isFinite h.1 (fun _ => Ieee.isFinite_fin 0) j
    have hpos : 0 < run.max_joint_acc := by
      have hle : decide (run.max_joint_acc ≤ 0) = false := hacc
      simpa using hle
    have hloop : FiniteLoop st := by
      refine ⟨hfinite, fun j => ?_, fun j => ?_⟩
      · rw [htarget]
        exact hfinite j
      · rw [htarget]
        rfl
    exact native_ticks_safe hpos rfl rfl rfl hloop (h.2 st hboot) _ t ht

/-- **The safety gate over whole runs**, of either controller. What is sent is finite
and within tolerance of the measured position, a tripped gate is inert, and a joint
with a component that is not finite keeps its target, in every run whose setpoints
and measurements the gate can judge. -/
theorem safety_gate_over_runs :
    (∀ (dof : ℕ) (kind : JointKind) (run : PythonRun dof kind), run.Admissible →
      ∀ t ∈ run.gateTicks, t.Safe run.tolerance) ∧
    ∀ (dof : ℕ) (run : NativeRun dof), run.Admissible →
      ∀ t ∈ run.gateTicks, t.Safe run.tolerance :=
  ⟨fun _ _ run h => run.safe h, fun _ run h => run.safe h⟩

end Root

/-! ## On concrete runs -/

/-- One joint at the origin, half a radian of tolerance, 100 Hz: a qpos run of one tick
with the given target. -/
def one_joint_qpos (q_d : Ieee) : PythonRun 1 .qpos :=
  ⟨⟨fin 2, fin 3⟩, 1 / 100, by norm_num, 1 / 2, .qpos (fun _ => fin 0) none, fun _ => fin 0,
    [(.qpos (fun _ => q_d) none, fun _ => fin 0)]⟩

/-- The same joint under the native loop: bootstrapped at the origin, then one fresh
setpoint. -/
def one_joint_native (q_d : Ieee) : NativeRun 1 :=
  ⟨100000000, 500000000, 1 / 2, 2, 3, fun _ => fin 0, ⟨true, [fin 0], 0⟩,
    [⟨1, fun _ => fin 0, ⟨true, [q_d], 1⟩⟩]⟩

/-- The root of a fraction, rounded down to a multiple of its denominator's inverse. -/
@[reducible] def floor_sqrt : RatSqrt := ⟨fun q => Nat.sqrt (q.num.toNat * q.den) / q.den⟩

/-- A reachable target of one joint, under both controllers: neither stops, and both send what the
gate let pass. -/
theorem safety_gate_over_runs_one_joint :
    (∀ t ∈ (one_joint_qpos (fin (1 / 4))).gateTicks, t.Safe (1 / 2)) ∧
      ∀ t ∈ @NativeRun.gateTicks _ floor_sqrt (one_joint_native (fin (1 / 4))), t.Safe (1 / 2) := by
  have hpython : (one_joint_qpos (fin (1 / 4))).Admissible := by
    refine ⟨fun h => (by cases h), fun t ht => ?_⟩
    rw [show t = _ from List.mem_singleton.mp ht]
    exact fun _ => ⟨rfl, fun v hv => (by cases hv)⟩
  have hnative : @NativeRun.Admissible _ floor_sqrt (one_joint_native (fin (1 / 4))) := by
    have hfront : ∀ q, FiniteFront 1 [fin q] := by
      intro q j x hx
      obtain rfl : j = 0 := Subsingleton.elim _ _
      cases hx
      rfl
    exact ⟨hfront 0, fun st _ => ⟨fun _ => rfl, fun _ => hfront _, trivial⟩⟩
  exact ⟨(@safety_gate_over_runs floor_sqrt).1 _ _ _ hpython,
    (@safety_gate_over_runs floor_sqrt).2 _ _ hnative⟩

/-- A NaN passes the Python gate and is sent; under the native loop it moves the joint. -/
theorem nan_passes_the_gate :
    (¬ ∀ t ∈ (one_joint_qpos (.nan false)).gateTicks, t.Safe (1 / 2)) ∧
      ¬ ∀ t ∈ @NativeRun.gateTicks _ floor_sqrt (one_joint_native (.nan false)),
        t.Safe (1 / 2) := by
  constructor
  · intro h
    have hsafe := h _ (List.mem_singleton.mpr rfl)
    obtain ⟨a, m, ha, -⟩ := hsafe.within _ rfl 0
    cases ha
  · intro h
    -- one millisecond of full acceleration: `3e-6` rad, far inside the tolerance
    have hticks : (@NativeRun.gateTicks _ floor_sqrt (one_joint_native (.nan false))).map
        (fun t => (t.components 0, t.commanded 0, t.sent.map (· 0))) =
        [([.nan false], some (fin 0), some (fin (3 / 1000000)))] := by decide +kernel
    obtain ⟨t, ht, hobs⟩ : ∃ t ∈ @NativeRun.gateTicks _ floor_sqrt (one_joint_native (.nan false)),
        (t.components 0, t.commanded 0, t.sent.map (· 0)) =
          ([.nan false], some (fin 0), some (fin (3 / 1000000))) := by
      rw [← List.mem_map, hticks]
      exact List.mem_singleton.mpr rfl
    obtain ⟨hcomp, hobs⟩ := Prod.mk.inj hobs
    obtain ⟨hcommanded, hsent⟩ := Prod.mk.inj hobs
    obtain ⟨q, hq, hq0⟩ := Option.map_eq_some_iff.mp hsent
    have hkept := (h t ht).unmoved 0 ⟨.nan false, by rw [hcomp]; exact List.mem_singleton.mpr rfl,
      rfl⟩ q hq
    rw [hcommanded, hq0] at hkept
    exact absurd hkept (by decide +kernel)

end DualFlexivControl.Native
