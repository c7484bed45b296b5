/-
`FlexivSource.send_control` for the joint kinds, and what its L-inf gate promises.

The gate compares `np.max(np.abs(q_d - q))` with the tolerance, before the qvel
integrator is committed and before anything is sent. `np.max` passes a NaN on, and
`nan > tolerance` is false, so the gate lets a NaN through; an infinity it stops.
Components are [`Ieee`] values, so both happen here as they do in the source.

[`GateTick`] is what one tick of a control run looks like from outside, whichever of
the two controllers ran it, and [`GateTick.Safe`] is the promise. A whole Python run
keeps it as long as no component and no measured joint is such that their difference
is a NaN, and the streamed velocities are finite ([`Admissible`]).
-/
import DualFlexivControl.Lib.Ieee

set_option autoImplicit false

namespace DualFlexivControl.Flexiv

open Ieee (fin)

variable {dof : ℕ}

/-! ## The promise -/

/-- One tick of a control run. `components` are the setpoint's values for each joint,
`commanded` the target each joint had been sent before, `sent` the targets of this
tick if it sent any, `tripped` whether the gate refused them. The integrator, before
and after, is the Python controller's; the native one has none. -/
structure GateTick (dof : ℕ) where
  components : Fin dof → List Ieee
  measured : Fin dof → Ieee
  commanded : Fin dof → Option Ieee
  sent : Option (Fin dof → Ieee)
  tripped : Bool
  integrator : Option (Fin dof → Ieee)
  integrator' : Option (Fin dof → Ieee)

/-- What is sent is finite and within tolerance of the measured position; a tripped
gate sends nothing and leaves the integrator alone; a joint with a component that is
not finite keeps the target it had. -/
structure GateTick.Safe (tolerance : ℚ) (t : GateTick dof) : Prop where
  within : ∀ q, t.sent = some q → ∀ j, ∃ a m, q j = fin a ∧ t.measured j = fin m ∧
    |a - m| ≤ tolerance
  inert : t.tripped = true → t.sent = none ∧ t.integrator' = t.integrator
  unmoved : ∀ j, (∃ x ∈ t.components j, x.isFinite = false) →
    ∀ q, t.sent = some q → t.commanded j = some (q j)

/-! ## `send_control` -/

/-- The joint control kinds. -/
inductive JointKind where
  | qpos
  | qvel

/-- The named fields of a joint setpoint; `dq_d` is optional for `qpos`. -/
inductive Fields (dof : ℕ) : JointKind → Type where
  | qpos (q_d : Fin dof → Ieee) (dq_d : Option (Fin dof → Ieee)) : Fields dof .qpos
  | qvel (dq_d : Fin dof → Ieee) : Fields dof .qvel

/-- The velocity limits that ride on every `SendJointPosition`. -/
structure Coeffs where
  max_joint_vel : Ieee
  max_joint_acc : Ieee

/-- The arguments of `SendJointPosition`. -/
structure JointCommand (dof : ℕ) where
  q_d : Fin dof → Ieee
  dq_d : Fin dof → Ieee
  dq_max : Fin dof → Ieee
  ddq_max : Fin dof → Ieee

/-- What `send_control` raises on the joint path. -/
inductive SendError where
  /-- `SafetyHalt`, with the error it reports. -/
  | safety_halt (err : Ieee)
  /-- `np.max` of an empty array. -/
  | value_error

/-- `np.max`. -/
def np_max : List Ieee → Option Ieee
  | [] => none
  | x :: xs => some (xs.foldl Ieee.maximum x)

/-- The arguments of `send_control` that do not change during a session. -/
structure SendCfg where
  coeffs : Coeffs
  dt : Ieee
  safety_check : Bool
  tolerance : Ieee

variable {kind : JointKind}

/-- The effective target: `q_d`, or the candidate of the integrator. -/
def effective (cfg : SendCfg) (control_target : Fin dof → Ieee) :
    Fields dof kind → Fin dof → Ieee
  | .qpos q_d _ => q_d
  | .qvel dq_d => fun j => control_target j + dq_d j * cfg.dt

/-- The velocity that goes with it. -/
def feedforward : Fields dof kind → Fin dof → Ieee
  | .qpos _ dq_d => dq_d.getD fun _ => fin 0
  | .qvel dq_d => dq_d

/-- The integrator once the gate has passed. -/
def commit (control_target q_d : Fin dof → Ieee) : Fields dof kind → Fin dof → Ieee
  | .qpos _ _ => control_target
  | .qvel _ => q_d

/-- The L-inf gate. -/
def l_inf_gate (cfg : SendCfg) (q_d q : Fin dof → Ieee) : Except SendError Unit :=
  if cfg.safety_check then
    match np_max (List.ofFn fun j => (q_d j - q j).abs) with
    | none => .error .value_error
    | some err => if Ieee.lt cfg.tolerance err then .error (.safety_halt err) else .ok ()
  else .ok ()

/-- `FlexivSource.send_control`, joint kinds: the command sent and the integrator. -/
def send_control (cfg : SendCfg) (control_target : Fin dof → Ieee) (fields : Fields dof kind)
    (q : Fin dof → Ieee) : Except SendError (JointCommand dof × (Fin dof → Ieee)) := do
  let q_d := effective cfg control_target fields
  -- the gate comes before the commit, so a refused candidate leaves no trace
  l_inf_gate cfg q_d q
  return ({ q_d := q_d, dq_d := feedforward fields,
            dq_max := fun _ => cfg.coeffs.max_joint_vel,
            ddq_max := fun _ => cfg.coeffs.max_joint_acc },
    commit control_target q_d fields)

/-! ## A control run -/

/-- The setpoint's values for a joint. -/
def Fields.components : Fields dof kind → Fin dof → List Ieee
  | .qpos q_d dq_d, j => q_d j :: (dq_d.map fun v => v j).toList
  | .qvel dq_d, j => [dq_d j]

/-- The ticks of a run, from the integrator and the targets commanded so far. An
exception ends the run. -/
def python_ticks (cfg : SendCfg) : (Fin dof → Ieee) → (Fin dof → Option Ieee) →
    List (Fields dof kind × (Fin dof → Ieee)) → List (GateTick dof)
  | _, _, [] => []
  | control_target, commanded, (fields, q) :: rest =>
    match send_control cfg control_target fields q with
    | .ok (cmd, control_target') =>
      ⟨fields.components, q, commanded, some cmd.q_d, false, some control_target,
        some control_target'⟩ ::
        python_ticks cfg control_target' (fun j => some (cmd.q_d j)) rest
    | .error (.safety_halt _) =>
      [⟨fields.components, q, commanded, none, true, some control_target,
        some control_target⟩]
    | .error .value_error => []

/-- A control run of a joint kind with the gate on: the session's parameters, the
setpoint it was bootstrapped with, the position it was measured at then, and the
setpoints and positions of its ticks. -/
structure PythonRun (dof : ℕ) (kind : JointKind) where
  coeffs : Coeffs
  period : ℚ
  period_pos : 0 < period
  tolerance : ℚ
  first : Fields dof kind
  start : Fin dof → Ieee
  ticks : List (Fields dof kind × (Fin dof → Ieee))

def PythonRun.cfg (run : PythonRun dof kind) : SendCfg :=
  ⟨run.coeffs, fin run.period, true, fin run.tolerance⟩

/-- `start_control`: a qpos run begins with a move to its first target, a qvel run with
none. -/
def start_target : Fields dof kind → Fin dof → Option Ieee
  | .qpos q_d _, j => some (q_d j)
  | .qvel _, _ => none

/-- The run from outside. `start_control` starts the integrator at the measured
position. -/
def PythonRun.gateTicks (run : PythonRun dof kind) : List (GateTick dof) :=
  python_ticks run.cfg run.start (start_target run.first) run.ticks

/-- A tick whose numbers the gate can judge: no component and measured joint whose
difference is a NaN, and finite velocities to go with a position. -/
def Admissible (fields : Fields dof kind) (q : Fin dof → Ieee) : Prop :=
  match fields with
  | .qpos q_d dq_d => ∀ j, (q_d j - q j).isNaN = false ∧
      ∀ v, dq_d = some v → (v j).isFinite = true
  | .qvel dq_d => ∀ j, (dq_d j - q j).isNaN = false

/-- The integrator of a qvel run is finite; a qpos run has none. -/
def Integrating (kind : JointKind) (control_target : Fin dof → Ieee) : Prop :=
  kind = .qvel → ∀ j, (control_target j).isFinite = true

/-- The ticks can be judged, and so can the position integration starts from. -/
def PythonRun.Admissible (run : PythonRun dof kind) : Prop :=
  Integrating kind run.start ∧ ∀ t ∈ run.ticks, Flexiv.Admissible t.1 t.2

/-! ## What passing the gate means -/

theorem np_max_spec {xs : List Ieee} {r : Ieee} (h : np_max xs = some r)
    (hxs : ∀ x ∈ xs, x.isNaN = false) :
    r.isNaN = false ∧ ∀ x ∈ xs, x.place ≤ r.place := by
  cases xs with
  | nil => cases h
  | cons y ys =>
    cases h
    obtain ⟨hr, hy, hys⟩ := Ieee.upperBound_maximum.foldl ys (hxs y List.mem_cons_self)
      fun x hx => hxs x (List.mem_cons_of_mem _ hx)
    refine ⟨hr, fun x hx => ?_⟩
    rcases List.mem_cons.mp hx with rfl | hx
    · exact hy
    · exact hys x hx

/-- An error of magnitude at most `b` is between two finite numbers. -/
theorem close_of_abs_place_le {x y : Ieee} {b : ℚ} (hnan : (x - y).isNaN = false)
    (h : (x - y).abs.place ≤ (fin b).place) : ∃ a m, x = fin a ∧ y = fin m ∧ |a - m| ≤ b := by
  obtain ⟨d, hd, hle⟩ := Ieee.abs_place_le hnan h
  obtain ⟨hx, hy⟩ := Ieee.isFinite_of_sub (x := x) (y := y) (by rw [hd]; rfl)
  obtain ⟨a, rfl⟩ := Ieee.exists_fin hx
  obtain ⟨m, rfl⟩ := Ieee.exists_fin hy
  rw [Ieee.fin_sub] at hd
  cases hd
  exact ⟨a, m, rfl, rfl, hle⟩

theorem l_inf_gate_spec {cfg : SendCfg} {tolerance : ℚ} (hcheck : cfg.safety_check = true)
    (htol : cfg.tolerance = fin tolerance) {q_d q : Fin dof → Ieee}
    (h : l_inf_gate cfg q_d q = .ok ()) (hnan : ∀ j, (q_d j - q j).isNaN = false) (j : Fin dof) :
    ∃ a m, q_d j = fin a ∧ q j = fin m ∧ |a - m| ≤ tolerance := by
  unfold l_inf_gate at h
  rw [if_pos hcheck, htol] at h
  cases herr : np_max (List.ofFn fun j => (q_d j - q j).abs) with
  | none =>
    rw [herr] at h
    cases h
  | some err =>
    rw [herr] at h
    by_cases hlt : Ieee.lt (fin tolerance) err = true
    · dsimp only at h
      rw [if_pos hlt] at h
      cases h
    · obtain ⟨hrnan, hall⟩ := np_max_spec herr fun x hx => by
        obtain ⟨i, rfl⟩ := List.mem_ofFn.mp hx
        rw [Ieee.isNaN_abs]
        exact hnan i
      have hbound := (Ieee.not_lt_iff_place rfl hrnan).mp (Bool.eq_false_iff.mpr hlt)
      exact close_of_abs_place_le (hnan j)
        ((hall _ (List.mem_ofFn.mpr ⟨j, rfl⟩)).trans hbound)

theorem send_control_spec {cfg : SendCfg} {control_target control_target' : Fin dof → Ieee}
    {fields : Fields dof kind} {q : Fin dof → Ieee} {cmd : JointCommand dof}
    (h : send_control cfg control_target fields q = .ok (cmd, control_target')) :
    l_inf_gate cfg (effective cfg control_target fields) q = .ok () ∧
      cmd.q_d = effective cfg control_target fields ∧
      control_target' = commit control_target (effective cfg control_target fields) fields := by
  unfold send_control at h
  cases hgate : l_inf_gate cfg (effective cfg control_target fields) q with
  | error e =>
    simp only [hgate, bind, Except.bind] at h
    cases h
  | ok u =>
    simp only [hgate, bind, Except.bind, pure, Except.pure] at h
    cases h
    exact ⟨rfl, rfl, rfl⟩

/-! ## The run -/

/-- Adding an infinite step to a finite number is that infinity, so a NaN in the difference can only
come from the step itself. -/
theorem step_isNaN {t dq q : Ieee} {dt : ℚ} (hdt : 0 < dt) (ht : t.isFinite = true)
    (h : (dq - q).isNaN = false) : (t + dq * fin dt - q).isNaN = false := by
  obtain ⟨a, rfl⟩ := Ieee.exists_fin ht
  cases dq with
  | nan s => cases h
  | fin b =>
    refine Ieee.isNaN_sub_of_isFinite rfl ?_
    cases q with
    | nan s => cases h
    | fin m => rfl
    | inf s => rfl
  -- an infinite step: the sum is that infinity, and `h` already speaks of it
  | inf s =>
    have hstep : fin a + Ieee.inf s * fin dt = Ieee.inf s := by
      show Ieee.add (fin a) (if dt = 0 then Ieee.invalid else .inf (xor s (decide (dt < 0)))) = _
      rw [if_neg hdt.ne', decide_eq_false (not_lt.mpr hdt.le), Bool.xor_false]
      rfl
    rw [hstep]
    exact h

theorem isFinite_of_step {t dq : Ieee} {dt : ℚ} (hdt : 0 < dt)
    (h : (t + dq * fin dt).isFinite = true) : dq.isFinite = true := by
  cases dq with
  | fin b => rfl
  | nan s => cases t <;> cases h
  | inf s =>
    have hmul : Ieee.inf s * fin dt = Ieee.inf s := by
      show (if dt = 0 then Ieee.invalid else .inf (xor s (decide (dt < 0)))) = _
      rw [if_neg hdt.ne', decide_eq_false (not_lt.mpr hdt.le), Bool.xor_false]
    rw [hmul] at h
    cases t with
    | fin a => cases h
    | nan u => cases h
    -- infinities of one sign stay infinite, of two signs give a NaN
    | inf u => cases s <;> cases u <;> cases h

/-- The gate judges the effective target of an admissible tick: it is no NaN where the measured
joints are finite and the fields admissible. -/
theorem effective_isNaN {cfg : SendCfg} {dt : ℚ} (hdt : 0 < dt) (hcfg : cfg.dt = fin dt)
    {control_target : Fin dof → Ieee} {fields : Fields dof kind} {q : Fin dof → Ieee}
    (hint : Integrating kind control_target) (hadm : Admissible fields q) (j : Fin dof) :
    (effective cfg control_target fields j - q j).isNaN = false := by
  cases fields with
  | qpos q_d dq_d => exact (hadm j).1
  | qvel dq_d =>
    show (control_target j + dq_d j * cfg.dt - q j).isNaN = false
    rw [hcfg]
    exact step_isNaN hdt (hint rfl j) (hadm j)

/-- A joint whose effective target is finite has finite components, position and velocity both,
before they are added. -/
theorem components_isFinite {cfg : SendCfg} {dt : ℚ} (hdt : 0 < dt) (hcfg : cfg.dt = fin dt)
    {control_target : Fin dof → Ieee} {fields : Fields dof kind} {q : Fin dof → Ieee}
    (hadm : Admissible fields q) {j : Fin dof}
    (hfin : (effective cfg control_target fields j).isFinite = true) :
    ∀ x ∈ fields.components j, x.isFinite = true := by
  cases fields with
  | qpos q_d dq_d =>
    intro x hx
    rcases List.mem_cons.mp hx with rfl | hx
    · exact hfin
    · rw [Option.mem_toList, Option.map_eq_some_iff] at hx
      obtain ⟨v, hv, rfl⟩ := hx
      exact (hadm j).2 v hv
  | qvel dq_d =>
    intro x hx
    rw [show x = dq_d j from List.mem_singleton.mp hx]
    refine @isFinite_of_step (control_target j) _ dt hdt ?_
    rw [← hcfg]
    exact hfin

/-- The step: an admissible tick that sends keeps the promise and the integrator. -/
theorem send_safe {cfg : SendCfg} {dt tolerance : ℚ} (hdt : 0 < dt) (hcfg : cfg.dt = fin dt)
    (hcheck : cfg.safety_check = true) (htol : cfg.tolerance = fin tolerance)
    {control_target control_target' : Fin dof → Ieee} {fields : Fields dof kind}
    {q : Fin dof → Ieee} {cmd : JointCommand dof} (hint : Integrating kind control_target)
    (hadm : Admissible fields q)
    (h : send_control cfg control_target fields q = .ok (cmd, control_target'))
    (commanded : Fin dof → Option Ieee) :
    GateTick.Safe tolerance ⟨fields.components, q, commanded, some cmd.q_d, false,
      some control_target, some control_target'⟩ ∧ Integrating kind control_target' := by
  obtain ⟨hgate, hq_d, htarget⟩ := send_control_spec h
  have hclose := l_inf_gate_spec hcheck htol hgate (effective_isNaN hdt hcfg hint hadm)
  have hfinite : ∀ j, (effective cfg control_target fields j).isFinite = true := by
    intro j
    obtain ⟨a, m, ha, -⟩ := hclose j
    rw [ha]
    rfl
  -- a tick that sends has not tripped; a component that is not finite would have made
  -- the gate trip; and the integrator commits what the gate has just judged
  refine ⟨⟨?_, fun htrip => (by cases htrip), ?_⟩, ?_⟩
  · intro p hp j
    cases hp
    rw [hq_d]
    exact hclose j
  · rintro j ⟨x, hx, hbad⟩ p -
    rw [components_isFinite hdt hcfg hadm (hfinite j) x hx] at hbad
    cases hbad
  · rintro rfl j
    rw [htarget]
    -- only a qvel run integrates
    cases fields with
    | qvel dq_d => exact hfinite j

/-- The run, from any point of it: each tick sends what passed the gate, and the first one that does
not ends the run. -/
theorem python_ticks_safe {cfg : SendCfg} {dt tolerance : ℚ} (hdt : 0 < dt)
    (hcfg : cfg.dt = fin dt) (hcheck : cfg.safety_check = true)
    (htol : cfg.tolerance = fin tolerance)
    {ticks : List (Fields dof kind × (Fin dof → Ieee))}
    (hadm : ∀ t ∈ ticks, Admissible t.1 t.2) {control_target : Fin dof → Ieee}
    (hint : Integrating kind control_target) (commanded : Fin dof → Option Ieee) :
    ∀ t ∈ python_ticks cfg control_target commanded ticks, t.Safe tolerance := by
  induction ticks generalizing control_target commanded with
  | nil => exact fun t ht => absurd ht List.not_mem_nil
  | cons tick rest ih =>
    obtain ⟨fields, q⟩ := tick
    intro t ht
    unfold python_ticks at ht
    cases hsend : send_control cfg control_target fields q with
    | ok r =>
      obtain ⟨cmd, control_target'⟩ := r
      rw [hsend] at ht
      obtain ⟨hsafe, hint'⟩ := send_safe hdt hcfg hcheck htol hint
        (hadm _ List.mem_cons_self) hsend commanded
      rcases List.mem_cons.mp ht with rfl | ht
      · exact hsafe
      · exact ih (fun t' ht' => hadm t' (List.mem_cons_of_mem _ ht')) hint' _ t ht
    | error e =>
      rw [hsend] at ht
      cases e with
      | safety_halt err =>
        rw [List.mem_singleton.mp ht]
        exact ⟨fun p hp => (by cases hp), fun _ => ⟨rfl, rfl⟩, fun j _ p hp => (by cases hp)⟩
      | value_error => exact absurd ht List.not_mem_nil

/-- Every tick of an admissible Python run is safe. -/
theorem PythonRun.safe (run : PythonRun dof kind) (h : run.Admissible) :
    ∀ t ∈ run.gateTicks, t.Safe run.tolerance :=
  python_ticks_safe run.period_pos rfl rfl rfl h.2 h.1 _

end DualFlexivControl.Flexiv
