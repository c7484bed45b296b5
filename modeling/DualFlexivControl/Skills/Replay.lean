/-
Replaying a skill: `SkillLoop` of `skills.py` and the destination that `SkillNode` publishes.

The loop holds the first target until every driven arm is there, then steps through the frames on
the wall clock. A [`Tick`] is one iteration of either `while`: what the stop event, the measured
joints and the clock show it. The measured joints are any history and the clock is any that does
not run backwards; floating-point results are rounded by any [`Ieee.Rounding`].

Where it goes wrong: a NaN compares false, so an arm whose distance is not a number counts as
being there; the number of frames is that of the shortest side, driven or not, while the published
destination is each side's own last row; and nothing asks for a hold time that is not negative.
-/
import DualFlexivControl.Brain.Writers
import DualFlexivControl.Lib.Ieee
import DualFlexivControl.Lib.Runs
import DualFlexivControl.Skills.Episode

set_option autoImplicit false

namespace DualFlexivControl.Skills

open Results Control Brain
open Ieee (Rounding)

/-! ## The loop -/

/-- What `SkillNode` writes to a side's horizon stream: the end of its trajectory. -/
def Skill.destination {F : Type} (skill : Skill F) (side : String) : Option (List F) :=
  (skill.q.lookup side).bind fun traj => traj.rows.getLast?

/-- `SkillCfg`, as far as the loop reads it. -/
structure SkillCfg where
  frequency_hz : Option Ieee
  start_tolerance : Ieee
  start_timeout_s : Ieee
  settle_s : Ieee

/-- `frequency_hz or skill.fps` -/
def SkillCfg.rate (cfg : SkillCfg) (skill : Skill Ieee) : Ieee :=
  match cfg.frequency_hz with
  | none => skill.fps
  | some hz => if hz = .fin 0 then skill.fps else hz

/-- What the loop raises. -/
inductive ReplayError
  | no_driveable_arm
  | rate_not_positive
  | no_setpoint (side : String)
  | write (raised : WriteError)
  | joint_shape (side : String)
  | not_reached (far : List String)
  | no_integer
  deriving DecidableEq, Repr

/-- The loop's fixed attributes. The skill was accepted when it was loaded, and every driven side
has a trajectory. -/
structure SkillLoop where
  skill : Skill Ieee
  control_arms : List (String × ControlCfg)
  writers : Writers
  fps : Ieee
  start_tolerance : Ieee
  start_timeout_s : Ieee
  settle_s : Ieee
  accepted : skill.validate = .ok ()
  distinct : (control_arms.map Prod.fst).Nodup
  driven : ∀ e ∈ control_arms, (skill.q.lookup e.1).isSome = true
  positive : ¬ fps ≤ .fin 0

/-- `SkillLoop.__init__` -/
def SkillLoop.init (writers : Writers) (skill : Skill Ieee) (arms : List (String × ControlCfg))
    (cfg : SkillCfg) (accepted : skill.validate = .ok ()) (distinct : (arms.map Prod.fst).Nodup) :
    Except ReplayError SkillLoop :=
  if (arms.filter fun e => (skill.q.lookup e.1).isSome).isEmpty = true then
    .error .no_driveable_arm
  else if positive : cfg.rate skill ≤ .fin 0 then .error .rate_not_positive
  else .ok
    { skill := skill
      control_arms := arms.filter fun e => (skill.q.lookup e.1).isSome
      writers := writers
      fps := cfg.rate skill
      start_tolerance := cfg.start_tolerance
      start_timeout_s := cfg.start_timeout_s
      settle_s := cfg.settle_s
      accepted := accepted
      distinct := distinct.sublist (List.filter_sublist.map Prod.fst)
      driven := fun _ he => (List.mem_filter.1 he).2
      positive := positive }

/-- One iteration: the stop event at the head of the loop, the newest sample of every stream of
measured joints, the stop event once more when the start pose is reached, and the clock. -/
structure Tick where
  stop_is_set : Bool
  latest : String → Option (List Ieee)
  stop_at_start : Bool
  now : ℚ

/-- Where `run` stands. -/
inductive Phase
  | converge
  | replay (t0 : ℚ) (last_index : ℤ)
  | returned (finished : Bool)
  | raised (error : ReplayError)
  deriving DecidableEq

/-- A setpoint that was sent, and the frame it was made of. -/
structure Sent where
  index : ℕ
  side : String
  setpoint : List Ieee
  deriving DecidableEq

/-- The variables of `run`, its last clock reading and the setpoints sent so far. -/
structure ReplayState where
  phase : Phase
  deadline : Ieee
  frames_posted : ℤ
  clock : ℚ
  posts : List Sent

namespace SkillLoop

variable (loop : SkillLoop)

/-- One side of `_post`. -/
def setpoint_of (index : ℕ) (side : String) (control : ControlCfg) :
    Except ReplayError (List Ieee) :=
  match frame_setpoint loop.skill index side control with
  | none => .error (.no_setpoint side)
  | some setpoint =>
    match loop.writers.command side setpoint with
    | .error e => .error (.write e)
    | .ok _ => .ok setpoint

/-- `_post`: what is sent, and what stops it. -/
def post (index : ℕ) : List (String × ControlCfg) → List Sent × Option ReplayError
  | [] => ([], none)
  | (side, control) :: rest =>
    match loop.setpoint_of index side control with
    | .error e => ([], some e)
    | .ok setpoint => (⟨index, side, setpoint⟩ :: (post index rest).1, (post index rest).2)

section Rounded

variable (r : Rounding)

/-- `abs(measured - target)` of one joint. -/
def joint_error (measured target : Ieee) : Ieee := (r.fl (measured - target)).abs

/-- `np.abs(measured[:target.shape[0]] - target)`: a single measured joint is held against every
target. -/
def joint_errors (measured target : List Ieee) : Option (List Ieee) :=
  match measured.take target.length with
  | [m] => some (target.map (joint_error r m))
  | ms =>
    if ms.length = target.length then some (List.zipWith (joint_error r) ms target) else none

/-- `np.max`: a NaN is passed on, and an empty array raises. -/
def max_error : List Ieee → Option Ieee
  | [] => none
  | x :: xs => some (xs.foldl Ieee.maximum x)

/-- `self.skill.q[side][index]` -/
def frame (index : ℕ) (side : String) : Option (List Ieee) :=
  (loop.skill.q.lookup side).bind fun traj => traj.rows[index]?

/-- One side of `_far_sides`, against its first frame. -/
def is_far (latest : String → Option (List Ieee)) (side : String) : Except ReplayError Bool :=
  match loop.frame 0 side with
  | none => .error (.joint_shape side)
  | some target =>
    match latest side with
    | none => .ok true
    | some measured =>
      match (joint_errors r measured target).bind max_error with
      | none => .error (.joint_shape side)
      | some worst => .ok (loop.start_tolerance.lt worst)

/-- `_far_sides(0)` -/
def far_sides (latest : String → Option (List Ieee)) :
    List (String × ControlCfg) → Except ReplayError (List String)
  | [] => .ok []
  | (side, _) :: rest => do
    let far ← loop.is_far r latest side
    let others ← far_sides latest rest
    pure (if far then side :: others else others)

/-- `elapsed` -/
def elapsed (t0 now : ℚ) : Ieee := r.fl (.fin now - .fin t0)

/-- `end_t` -/
def end_t : Ieee :=
  r.fl (r.fl (r.fl (.fin ((loop.skill.frames : ℚ) - 1)) / loop.fps) + loop.settle_s)

/-- `min(int(elapsed * self.fps), n - 1)`, where the clock has not run backwards. -/
def index_at (t0 now : ℚ) : Option ℕ :=
  (r.fl (elapsed r t0 now * loop.fps)).trunc.map fun i => min i.toNat (loop.skill.frames - 1)

/-- The state in which the first `while` starts. -/
def start (begin : ℚ) : ReplayState :=
  ⟨.converge, r.fl (.fin begin + loop.start_timeout_s), 0, begin, []⟩

/-- An iteration of the first `while`, and what follows it when the start pose is reached. -/
def converge (s : ReplayState) (tick : Tick) : ReplayState :=
  if tick.stop_is_set then { s with phase := .returned false, clock := tick.now }
  else
    let s' := { s with
      posts := s.posts ++ (loop.post 0 loop.control_arms).1
      clock := tick.now }
    match (loop.post 0 loop.control_arms).2 with
    | some e => { s' with phase := .raised e }
    | none =>
      match loop.far_sides r tick.latest loop.control_arms with
      | .error e => { s' with phase := .raised e }
      | .ok [] =>
        if tick.stop_at_start then { s' with phase := .returned false }
        else { s' with phase := .replay tick.now (-1) }
      | .ok far =>
        if s.deadline.lt (.fin tick.now) then { s' with phase := .raised (.not_reached far) }
        else s'

/-- An iteration of the second `while`. -/
def replay (s : ReplayState) (tick : Tick) (t0 : ℚ) (last_index : ℤ) : ReplayState :=
  if tick.stop_is_set then { s with phase := .returned false, clock := tick.now }
  else
    match loop.index_at r t0 tick.now with
    | none => { s with phase := .raised .no_integer, clock := tick.now }
    | some index =>
      let s' := { s with
        posts := s.posts ++ (loop.post index loop.control_arms).1
        clock := tick.now }
      match (loop.post index loop.control_arms).2 with
      | some e => { s' with phase := .raised e }
      | none =>
        let frames_posted :=
          if (index : ℤ) ≠ last_index then s.frames_posted + (index - last_index)
          else s.frames_posted
        if loop.end_t r ≤ elapsed r t0 tick.now then
          { s' with phase := .returned true, frames_posted := frames_posted }
        else { s' with phase := .replay t0 index, frames_posted := frames_posted }

/-- `run`, one iteration after the other. -/
def step (s : ReplayState) (tick : Tick) : ReplayState :=
  match s.phase with
  | .converge => loop.converge r s tick
  | .replay t0 last_index => loop.replay r s tick t0 last_index
  | .returned _ => s
  | .raised _ => s

end Rounded

end SkillLoop

/-- The clock does not run backwards. -/
def clock_ok (s : ReplayState) (tick : Tick) : Prop := s.clock ≤ tick.now

/-! ## Where a replay starts and ends -/

/-- The last setpoint sent to a side. -/
def last_sent (posts : List Sent) (side : String) : Option Sent :=
  (posts.filter fun p => p.side == side).getLast?

namespace SkillLoop

variable (loop : SkillLoop) (r : Rounding)

/-- The replay starts at this iteration. -/
def Starts (s : ReplayState) (tick : Tick) : Prop :=
  s.phase = .converge ∧ ∃ t0 last_index, (loop.step r s tick).phase = .replay t0 last_index

/-- Every joint of a side is measured within the tolerance of its first frame. -/
def Within (latest : String → Option (List Ieee)) (side : String) : Prop :=
  ∃ target measured : List Ieee, loop.frame 0 side = some target ∧
    latest side = some measured ∧ ∀ (j : ℕ) (t : Ieee), target[j]? = some t →
      ∃ m : Ieee, measured[j]? = some m ∧ joint_error r m t ≤ loop.start_tolerance

/-- Every joint of a side is measured, and its distance to the first frame and the tolerance are
numbers. -/
def Comparable (latest : String → Option (List Ieee)) (side : String) : Prop :=
  loop.start_tolerance.isNaN = false ∧
  ∃ target measured : List Ieee, loop.frame 0 side = some target ∧
    latest side = some measured ∧ ∀ (j : ℕ) (t : Ieee), target[j]? = some t →
      ∃ m : Ieee, measured[j]? = some m ∧ (m - t).isNaN = false

/-- No time at which the run may end has an index before the last frame's. -/
def Settles : Prop :=
  ∀ elapsed : Ieee, .fin 0 ≤ elapsed → loop.end_t r ≤ elapsed →
    ¬ (r.fl (elapsed * loop.fps)).lt (.fin ((loop.skill.frames - 1 : ℕ) : ℚ)) = true

/-- The last frame of the skill is where each driven side's own trajectory ends. -/
def EndsTogether : Prop :=
  ∀ e ∈ loop.control_arms, loop.frame (loop.skill.frames - 1) e.1 = loop.skill.destination e.1

/-- The replay starts with every driven side at its first frame, the frames it posts go forward
and exist, and when it returns `True` every driven side was last sent its destination. -/
structure Endpoints (begin : ℚ) (ticks : List Tick) : Prop where
  starts : Runs.Each (loop.step r) id (loop.start r begin) ticks fun s tick =>
    loop.Starts r s tick → ∀ e ∈ loop.control_arms, loop.Within r tick.latest e.1
  forward : (Runs.run (loop.step r) (loop.start r begin) ticks).posts.Pairwise
    fun p p' => p.index ≤ p'.index
  bounded : ∀ p ∈ (Runs.run (loop.step r) (loop.start r begin) ticks).posts,
    p.index < loop.skill.frames
  ends : (Runs.run (loop.step r) (loop.start r begin) ticks).phase = .returned true →
    (Runs.run (loop.step r) (loop.start r begin) ticks).frames_posted = loop.skill.frames ∧
    ∀ e ∈ loop.control_arms, ∃ row setpoint, loop.skill.destination e.1 = some row ∧
      e.2.pack_action row (fun _ => none) = .ok setpoint ∧
      (last_sent (Runs.run (loop.step r) (loop.start r begin) ticks).posts e.1).map
        Sent.setpoint = some setpoint

/-! ## The start gate -/

section Gate

variable {loop : SkillLoop} {r : Rounding} {latest : String → Option (List Ieee)} {side : String}

/-- An error is a NaN exactly when the difference is, so rounding hides none. -/
theorem isNaN_joint_error (measured target : Ieee) :
    (joint_error r measured target).isNaN = (measured - target).isNaN := by
  unfold joint_error
  rw [Ieee.isNaN_abs]
  cases measured - target with
  | fin q => exact r.isNaN_round q
  | inf s => rfl
  | nan s => rfl

/-- Where every joint is measured, the errors are those of the joints. -/
theorem joint_errors_of_length {measured target : List Ieee}
    (hlength : target.length ≤ measured.length) :
    joint_errors r measured target =
      some (List.zipWith (joint_error r) (measured.take target.length) target) := by
  have htake : (measured.take target.length).length = target.length :=
    List.length_take_of_le hlength
  unfold joint_errors
  split
  next m heq =>
    rw [heq] at htake ⊢
    obtain ⟨t, ht⟩ := List.length_eq_one_iff.1 htake.symm
    rw [ht]
    rfl
  next => rw [if_pos htake]

/-- A maximum that is a number bounds what it is the maximum of. -/
theorem le_max_error {errors : List Ieee} {worst : Ieee} (hmax : max_error errors = some worst)
    (hnumbers : ∀ x ∈ errors, x.isNaN = false) :
    worst.isNaN = false ∧ ∀ x ∈ errors, x.place ≤ worst.place := by
  cases errors with
  | nil => exact absurd hmax (by simp [max_error])
  | cons x xs =>
    have hfold := Ieee.upperBound_maximum.foldl xs (hnumbers x List.mem_cons_self)
      fun y hy => hnumbers y (List.mem_cons_of_mem _ hy)
    rw [← Option.some.inj hmax]
    refine ⟨hfold.1, ?_⟩
    intro y hy
    rcases List.mem_cons.1 hy with rfl | hy
    · exact hfold.2.1
    · exact hfold.2.2 y hy

/-- What `_far_sides` compared for a side that it does not list: a measured sample and a target
whose largest error did not compare beyond the tolerance. -/
theorem is_far_false (h : loop.is_far r latest side = .ok false) :
    ∃ target measured errors worst, loop.frame 0 side = some target ∧
      latest side = some measured ∧ joint_errors r measured target = some errors ∧
      max_error errors = some worst ∧ loop.start_tolerance.lt worst = false := by
  unfold is_far at h
  cases hframe : loop.frame 0 side with
  | none =>
    rw [hframe] at h
    exact nomatch h
  | some target =>
    rw [hframe] at h
    dsimp only at h
    cases hlatest : latest side with
    | none =>
      rw [hlatest] at h
      exact nomatch h
    | some measured =>
      rw [hlatest] at h
      dsimp only at h
      cases hworst : (joint_errors r measured target).bind max_error with
      | none =>
        rw [hworst] at h
        exact nomatch h
      | some worst =>
        rw [hworst] at h
        obtain ⟨errors, herrors, hmax⟩ := Option.bind_eq_some_iff.1 hworst
        exact ⟨target, measured, errors, worst, rfl, rfl, herrors, hmax, Except.ok.inj h⟩

/-- A side that passes the gate is within the tolerance exactly when its distances are numbers. -/
theorem within_iff_comparable (h : loop.is_far r latest side = .ok false) :
    loop.Within r latest side ↔ loop.Comparable latest side := by
  obtain ⟨target, measured, errors, worst, hframe, hlatest, herrors, hmax, hnear⟩ :=
    is_far_false h
  constructor
  · -- what is within the tolerance has been compared, so nothing in it is a NaN
    rintro ⟨target', measured', hframe', hlatest', hwithin⟩
    rw [hframe] at hframe'
    rw [hlatest] at hlatest'
    obtain rfl := Option.some.inj hframe'
    obtain rfl := Option.some.inj hlatest'
    refine ⟨?_, target, measured, hframe, hlatest, ?_⟩
    · -- there is a joint, since a maximum was found
      have hjoint : ∃ t, target[0]? = some t := by
        cases target with
        | nil =>
          have hnone : (joint_errors r measured []).bind max_error = none := rfl
          rw [herrors] at hnone
          exact absurd (hmax.symm.trans hnone) (by simp)
        | cons t ts => exact ⟨t, rfl⟩
      obtain ⟨t, ht⟩ := hjoint
      obtain ⟨m, _, hle⟩ := hwithin 0 t ht
      exact (Ieee.isNaN_of_le hle).2
    · intro j t ht
      obtain ⟨m, hm, hle⟩ := hwithin j t ht
      refine ⟨m, hm, ?_⟩
      rw [← isNaN_joint_error (r := r)]
      exact (Ieee.isNaN_of_le hle).1
  · rintro ⟨htolerance, target', measured', hframe', hlatest', hnumbers⟩
    rw [hframe] at hframe'
    rw [hlatest] at hlatest'
    obtain rfl := Option.some.inj hframe'
    obtain rfl := Option.some.inj hlatest'
    -- every joint has a measured value, so the vectors match and no error is lost
    have hlength : target.length ≤ measured.length := by
      by_contra hshort
      have hlt : measured.length < target.length := by omega
      obtain ⟨m, hm, _⟩ := hnumbers measured.length _ (List.getElem?_eq_getElem hlt)
      rw [List.getElem?_eq_none (Nat.le_refl _)] at hm
      exact absurd hm (by simp)
    rw [joint_errors_of_length hlength] at herrors
    obtain rfl := Option.some.inj herrors
    -- without a NaN the maximum bounds every error, and it was not over the tolerance
    have hentry : ∀ (j : ℕ) (t m : Ieee), target[j]? = some t → measured[j]? = some m →
        (List.zipWith (joint_error r) (measured.take target.length) target)[j]? =
          some (joint_error r m t) := by
      intro j t m ht hm
      have hj : j < target.length := (List.getElem?_eq_some_iff.1 ht).1
      rw [List.getElem?_zipWith, List.getElem?_take_of_lt hj, hm, ht]
    have herrors : ∀ x ∈ List.zipWith (joint_error r) (measured.take target.length) target,
        x.isNaN = false := by
      intro x hx
      obtain ⟨j, hj⟩ := List.mem_iff_getElem?.1 hx
      have hlt : j < target.length := by
        have := (List.getElem?_eq_some_iff.1 hj).1
        rw [List.length_zipWith] at this
        omega
      obtain ⟨m, hm, hnan⟩ := hnumbers j _ (List.getElem?_eq_getElem hlt)
      rw [hentry j _ m (List.getElem?_eq_getElem hlt) hm] at hj
      rw [← Option.some.inj hj, isNaN_joint_error]
      exact hnan
    obtain ⟨hworst, hbound⟩ := le_max_error hmax herrors
    refine ⟨target, measured, hframe, hlatest, ?_⟩
    intro j t ht
    obtain ⟨m, hm, hnan⟩ := hnumbers j t ht
    refine ⟨m, hm, ?_⟩
    have hplace := hbound _ (List.mem_of_getElem? (hentry j t m ht hm))
    apply (Ieee.le_iff_place (by rw [isNaN_joint_error]; exact hnan) htolerance).2
    exact hplace.trans ((Ieee.not_lt_iff_place htolerance hworst).1 hnear)

/-- No side is listed as far exactly when none is, by induction on the arms, where the first
exception would have ended the test. -/
theorem far_sides_nil {arms : List (String × ControlCfg)} :
    loop.far_sides r latest arms = .ok [] ↔ ∀ e ∈ arms, loop.is_far r latest e.1 = .ok false := by
  induction arms with
  | nil => exact ⟨fun _ e he => absurd he List.not_mem_nil, fun _ => rfl⟩
  | cons e rest ih =>
    obtain ⟨side, control⟩ := e
    rw [List.forall_mem_cons, ← ih, far_sides, bind_ok]
    constructor
    · rintro ⟨far, hfar, hrest⟩
      obtain ⟨others, hothers, hpure⟩ := bind_ok.1 hrest
      have hnil := pure_ok.1 hpure
      by_cases hf : far = true
      · rw [if_pos hf] at hnil
        exact absurd hnil (by simp)
      · rw [if_neg hf] at hnil
        rw [hnil] at hothers
        rw [hfar]
        exact ⟨congrArg Except.ok (Bool.not_eq_true far ▸ hf), hothers⟩
    · rintro ⟨hfar, hothers⟩
      refine ⟨false, hfar, ?_⟩
      rw [hothers]
      rfl

end Gate

/-! ## What one iteration does -/

section Post

variable {loop : SkillLoop} {r : Rounding} {index : ℕ}

/-- What a post sends is of its frame and of one of the arms that it was given. -/
theorem mem_post_sent {arms : List (String × ControlCfg)} {p : Sent}
    (hp : p ∈ (loop.post index arms).1) : p.index = index ∧ p.side ∈ arms.map Prod.fst := by
  induction arms with
  | nil => exact absurd hp List.not_mem_nil
  | cons e rest ih =>
    obtain ⟨side, control⟩ := e
    rw [List.map_cons, List.mem_cons]
    unfold post at hp
    cases hset : loop.setpoint_of index side control with
    | error raised =>
      rw [hset] at hp
      exact absurd hp List.not_mem_nil
    | ok setpoint =>
      rw [hset] at hp
      rcases List.mem_cons.1 hp with rfl | hrest
      · exact ⟨rfl, Or.inl rfl⟩
      · exact ⟨(ih hrest).1, Or.inr (ih hrest).2⟩

/-- A post that is not stopped sends each side its frame, once: the sides are distinct, and each
arm's setpoint is made of its own row. -/
theorem post_complete {arms : List (String × ControlCfg)} (hdistinct : (arms.map Prod.fst).Nodup)
    (hnone : (loop.post index arms).2 = none) :
    ∀ e ∈ arms, ∃ setpoint, frame_setpoint loop.skill index e.1 e.2 = some setpoint ∧
      ((loop.post index arms).1.filter fun p => p.side == e.1) = [⟨index, e.1, setpoint⟩] := by
  induction arms with
  | nil =>
    intro e he
    exact absurd he List.not_mem_nil
  | cons e' rest ih =>
    obtain ⟨side, control⟩ := e'
    rw [List.map_cons, List.nodup_cons] at hdistinct
    unfold post at hnone ⊢
    cases hset : loop.setpoint_of index side control with
    | error raised =>
      rw [hset] at hnone
      exact absurd hnone (by simp)
    | ok setpoint =>
      rw [hset] at hnone
      dsimp only at hnone ⊢
      -- the setpoint that was posted is the frame's
      have hframe : frame_setpoint loop.skill index side control = some setpoint := by
        unfold setpoint_of at hset
        split at hset
        next => exact nomatch hset
        next sp hsp =>
          split at hset
          next => exact nomatch hset
          next => rw [hsp, Except.ok.inj hset]
      -- sides are distinct, so nobody else posts for this one
      have hothers : ∀ p ∈ (loop.post index rest).1, p.side ≠ side := by
        intro p hp hside
        apply hdistinct.1
        rw [← hside]
        exact (mem_post_sent hp).2
      intro e he
      rcases List.mem_cons.1 he with rfl | hrest
      · refine ⟨setpoint, hframe, ?_⟩
        rw [List.filter_cons_of_pos (by simp), List.filter_eq_nil_iff.2]
        intro p hp
        simpa using hothers p hp
      · obtain ⟨setpoint', hframe', hfilter⟩ := ih hdistinct.2 hnone e hrest
        have hne : side ≠ e.1 := by
          intro hside
          apply hdistinct.1
          rw [hside]
          exact List.mem_map.2 ⟨e, hrest, rfl⟩
        refine ⟨setpoint', hframe', ?_⟩
        rw [List.filter_cons_of_neg (by simpa using hne)]
        exact hfilter

/-- The setpoints sent are commands of `_post`, up to the first write that raises. -/
theorem post_prefix (arms : List (String × ControlCfg)) :
    (loop.post index arms).1.map (fun p => (p.side, p.setpoint)) <+:
      Skills.post loop.skill index arms := by
  induction arms with
  | nil => exact List.nil_prefix
  | cons e rest ih =>
    obtain ⟨side, control⟩ := e
    unfold post Skills.post setpoint_of
    cases frame_setpoint loop.skill index side control with
    | none => exact List.nil_prefix
    | some setpoint =>
      dsimp only
      cases loop.writers.command side setpoint with
      | error raised => exact List.nil_prefix
      | ok _ => exact (List.cons_prefix_cons).2 ⟨rfl, ih⟩

end Post

section Frames

variable {loop : SkillLoop} {r : Rounding}

/-- No side is shorter than the skill, whose number of frames is the shortest side's; this is why an
index of the skill is one of each side. -/
theorem frames_le {side : String} {traj : Array2 Ieee}
    (htraj : loop.skill.q.lookup side = some traj) : loop.skill.frames ≤ traj.rows.length := by
  have hmem : traj.rows.length ∈ loop.skill.q.map fun e => e.2.rows.length := by
    obtain ⟨before, after, hq, _⟩ := List.lookup_eq_some_iff.1 htraj
    rw [hq, List.map_append, List.map_cons]
    exact List.mem_append_right _ List.mem_cons_self
  unfold Skill.frames
  cases hmin : (loop.skill.q.map fun e => e.2.rows.length).min? with
  | none => exact Nat.zero_le _
  | some n => exact (List.min?_eq_some_iff.1 hmin).2 _ hmem

/-- An accepted skill has a frame: it has a side, and validation refuses a side without rows. -/
theorem frames_pos (loop : SkillLoop) : 0 < loop.skill.frames := by
  have haccepted := loop.accepted
  unfold Skill.validate at haccepted
  rw [guard_ok, guard_ok, guard_ok] at haccepted
  obtain ⟨_, hsides, _, hchecked⟩ := haccepted
  obtain ⟨_, hcollect, _⟩ := bind_ok.1 hchecked
  unfold Skill.frames
  cases hmin : (loop.skill.q.map fun e => e.2.rows.length).min? with
  | none =>
    rw [List.min?_eq_none_iff, List.map_eq_nil_iff] at hmin
    rw [hmin] at hsides
    exact absurd rfl hsides
  | some n =>
    obtain ⟨e, he, hlength⟩ := List.mem_map.1 (List.min?_eq_some_iff.1 hmin).1
    obtain ⟨_, _, hcheck⟩ := entry_of_collect hcollect e he
    unfold check_side at hcheck
    rw [guard_ok] at hcheck
    show 0 < n
    omega

/-- The elapsed time is not negative while the clock does not run backwards. -/
theorem elapsed_nonneg {t0 now : ℚ} (h : t0 ≤ now) : .fin 0 ≤ elapsed r t0 now := by
  have hdiff : (.fin 0 : Ieee) ≤ .fin now - .fin t0 := by
    rw [Ieee.fin_sub]
    exact decide_eq_true (sub_nonneg.2 h)
  have hmono := r.fl_mono hdiff
  have hzero : r.fl (.fin 0) = .fin 0 := r.zero
  rw [hzero] at hmono
  exact hmono

/-- A later reading of the clock gives no shorter elapsed time, whatever the rounding. -/
theorem elapsed_mono (t0 : ℚ) {now now' : ℚ} (h : now ≤ now') :
    elapsed r t0 now ≤ elapsed r t0 now' := by
  apply r.fl_mono
  rw [Ieee.fin_sub, Ieee.fin_sub]
  exact decide_eq_true (sub_le_sub_right h t0)

/-- The rate is a positive number where an index is found: validation refuses the others, and with
an infinite rate nothing is truncated. -/
theorem rate_of_trunc {x : Ieee} {i : ℤ} (hi : (r.fl (x * loop.fps)).trunc = some i) :
    ∃ f, 0 < f ∧ loop.fps = .fin f := by
  have hpositive := loop.positive
  cases hfps : loop.fps with
  | fin f =>
    refine ⟨f, ?_, rfl⟩
    rw [hfps] at hpositive
    by_contra hf
    exact hpositive (decide_eq_true (not_lt.1 hf))
  | inf s =>
    rw [hfps] at hi
    have hproduct : ∀ y : Ieee, (r.fl (y * .inf s)).trunc = none := by
      intro y
      cases y with
      | fin q =>
        show (r.fl (if q = 0 then Ieee.invalid else _)).trunc = none
        by_cases hq : q = 0
        · rw [if_pos hq]
          rfl
        · rw [if_neg hq]
          rfl
      | inf t => rfl
      | nan t => rfl
    rw [hproduct] at hi
    exact absurd hi (by simp)
  | nan s =>
    rw [hfps] at hi
    have hproduct : (r.fl (x * .nan s)).trunc = none := by
      cases x with
      | fin q => rfl
      | inf t => rfl
      | nan t => rfl
    rw [hproduct] at hi
    exact absurd hi (by simp)

/-- A later tick finds no earlier frame: rounding and truncation are monotone, whichever rounding
the arithmetic has. -/
theorem index_at_mono {t0 now now' : ℚ} {i j : ℕ} (ht : t0 ≤ now) (hnow : now ≤ now')
    (hi : loop.index_at r t0 now = some i) (hj : loop.index_at r t0 now' = some j) : i ≤ j := by
  obtain ⟨a, ha, rfl⟩ := Option.map_eq_some_iff.1 hi
  obtain ⟨b, hb, rfl⟩ := Option.map_eq_some_iff.1 hj
  obtain ⟨f, hf, hfps⟩ := rate_of_trunc ha
  rw [hfps] at ha hb
  have hzero : (.fin 0 : Ieee) ≤ r.fl (elapsed r t0 now * .fin f) := by
    have hscaled := r.fl_mono (Ieee.mul_le_mul_fin hf (elapsed_nonneg (r := r) ht))
    rw [Ieee.fin_mul, zero_mul] at hscaled
    have hround : r.fl (.fin 0) = .fin 0 := r.zero
    rw [hround] at hscaled
    exact hscaled
  have hle := r.fl_mono (Ieee.mul_le_mul_fin hf (elapsed_mono (r := r) t0 hnow))
  have hab : a ≤ b := Ieee.trunc_mono hzero hle ha hb
  omega

/-- An index that is found is a frame of the skill, as it is cut off at the last one. -/
theorem index_at_lt {t0 now : ℚ} {i : ℕ} (hi : loop.index_at r t0 now = some i) :
    i < loop.skill.frames := by
  obtain ⟨a, _, rfl⟩ := Option.map_eq_some_iff.1 hi
  have hpos := frames_pos loop
  omega

/-- A tick at which the run may end posts the last frame, where the hold time settles. -/
theorem index_at_end (hsettles : loop.Settles r) {t0 now : ℚ} {i : ℕ} (ht : t0 ≤ now)
    (hend : loop.end_t r ≤ elapsed r t0 now) (hi : loop.index_at r t0 now = some i) :
    i = loop.skill.frames - 1 := by
  obtain ⟨a, ha, rfl⟩ := Option.map_eq_some_iff.1 hi
  have hle := Ieee.le_trunc (hsettles _ (elapsed_nonneg ht) hend) ha
  omega

/-- In exact arithmetic a hold time that is not negative settles: whenever the run may end, the
elapsed time has passed the last frame's. -/
theorem settles_of_nonneg {f settle_s : ℚ} (hfps : loop.fps = .fin f)
    (hsettle : loop.settle_s = .fin settle_s) (hnonneg : 0 ≤ settle_s) :
    loop.Settles Rounding.exact := by
  intro elapsed _ hend
  have hf : 0 < f := by
    have hpositive := loop.positive
    rw [hfps] at hpositive
    by_contra hf
    exact hpositive (decide_eq_true (not_lt.1 hf))
  -- in exact arithmetic the end is the last frame's time and the settling
  have hend_t : loop.end_t Rounding.exact =
      .fin (((loop.skill.frames : ℚ) - 1) / f + settle_s) := by
    have hdiv : (.fin ((loop.skill.frames : ℚ) - 1) : Ieee) / .fin f =
        .fin (((loop.skill.frames : ℚ) - 1) / f) := if_neg (ne_of_gt hf)
    unfold end_t
    rw [hfps, hsettle]
    show Rounding.exact.fl (Rounding.exact.fl (.fin _ / .fin f) + .fin settle_s) = _
    rw [hdiv]
    rfl
  rw [hend_t] at hend
  rw [hfps]
  cases elapsed with
  | fin e =>
    have he : ((loop.skill.frames : ℚ) - 1) / f + settle_s ≤ e := of_decide_eq_true hend
    have hcast : ((loop.skill.frames - 1 : ℕ) : ℚ) = (loop.skill.frames : ℚ) - 1 := by
      rw [Nat.cast_sub (frames_pos loop), Nat.cast_one]
    have hreach : (loop.skill.frames : ℚ) - 1 ≤ e * f := by
      rw [← div_le_iff₀ hf]
      linarith
    intro hlt
    have hbelow : e * f < ((loop.skill.frames - 1 : ℕ) : ℚ) := of_decide_eq_true hlt
    rw [hcast] at hbelow
    linarith
  | inf s =>
    have hs : s = false := by
      cases s with
      | true => exact absurd hend Bool.false_ne_true
      | false => rfl
    rw [hs, Ieee.inf_mul_fin hf]
    exact Bool.false_ne_true
  | nan s => exact absurd hend Bool.false_ne_true

end Frames

section Step

variable (loop : SkillLoop) (r : Rounding) {s : ReplayState} (tick : Tick)

/-- The run is over, and not because the replay ended. -/
def Stopped (s : ReplayState) : Prop :=
  s.phase = .returned false ∨ ∃ e, s.phase = .raised e

/-- What an iteration of the first `while` does: it posts the first frame or nothing, and goes on,
stops, or starts the replay at the clock's time. -/
theorem converge_cases (hphase : s.phase = .converge) :
    (loop.converge r s tick).frames_posted = s.frames_posted ∧
    (loop.converge r s tick).clock = tick.now ∧
    ((loop.converge r s tick).posts = s.posts ∨
      (loop.converge r s tick).posts = s.posts ++ (loop.post 0 loop.control_arms).1) ∧
    (Stopped (loop.converge r s tick) ∨ (loop.converge r s tick).phase = .converge ∨
      (loop.converge r s tick).phase = .replay tick.now (-1) ∧
        loop.far_sides r tick.latest loop.control_arms = .ok []) := by
  unfold converge
  by_cases hstop : tick.stop_is_set = true
  · rw [if_pos hstop]
    exact ⟨rfl, rfl, Or.inl rfl, Or.inl (Or.inl rfl)⟩
  rw [if_neg hstop]
  cases (loop.post 0 loop.control_arms).2 with
  | some e => exact ⟨rfl, rfl, Or.inr rfl, Or.inl (Or.inr ⟨e, rfl⟩)⟩
  | none =>
    dsimp only
    rcases hfar : loop.far_sides r tick.latest loop.control_arms with e | _ | ⟨side, sides⟩
    · exact ⟨rfl, rfl, Or.inr rfl, Or.inl (Or.inr ⟨e, rfl⟩)⟩
    · dsimp only
      by_cases hagain : tick.stop_at_start = true
      · rw [if_pos hagain]
        exact ⟨rfl, rfl, Or.inr rfl, Or.inl (Or.inl rfl)⟩
      · rw [if_neg hagain]
        exact ⟨rfl, rfl, Or.inr rfl, Or.inr (Or.inr ⟨rfl, rfl⟩)⟩
    · dsimp only
      by_cases hlate : s.deadline.lt (.fin tick.now) = true
      · rw [if_pos hlate]
        exact ⟨rfl, rfl, Or.inr rfl, Or.inl (Or.inr ⟨_, rfl⟩)⟩
      · rw [if_neg hlate]
        exact ⟨rfl, rfl, Or.inr rfl, Or.inr (Or.inl hphase)⟩

/-- What an iteration of the second `while` does: it stops without a post, or posts the frame of the
clock's index and goes on or ends. -/
theorem replay_cases (t0 : ℚ) (last_index : ℤ) :
    (loop.replay r s tick t0 last_index).clock = tick.now ∧
    ((loop.replay r s tick t0 last_index).posts = s.posts ∧
        Stopped (loop.replay r s tick t0 last_index) ∨
      ∃ index, loop.index_at r t0 tick.now = some index ∧
        (loop.replay r s tick t0 last_index).posts =
          s.posts ++ (loop.post index loop.control_arms).1 ∧
        (Stopped (loop.replay r s tick t0 last_index) ∨
          (loop.post index loop.control_arms).2 = none ∧
          (loop.replay r s tick t0 last_index).frames_posted =
            s.frames_posted + (index - last_index) ∧
          ((loop.replay r s tick t0 last_index).phase = .replay t0 index ∨
            (loop.replay r s tick t0 last_index).phase = .returned true ∧
              loop.end_t r ≤ elapsed r t0 tick.now))) := by
  unfold replay
  -- the branches of the loop's body, in its order
  by_cases hstop : tick.stop_is_set = true
  · rw [if_pos hstop]
    exact ⟨rfl, Or.inl ⟨rfl, Or.inl rfl⟩⟩
  rw [if_neg hstop]
  cases hindex : loop.index_at r t0 tick.now with
  | none => exact ⟨rfl, Or.inl ⟨rfl, Or.inr ⟨_, rfl⟩⟩⟩
  | some index =>
    dsimp only
    cases hpost : (loop.post index loop.control_arms).2 with
    | some e => exact ⟨rfl, Or.inr ⟨index, rfl, rfl, Or.inl (Or.inr ⟨e, rfl⟩)⟩⟩
    | none =>
      dsimp only
      -- counting where the index stays adds nothing
      have hcount : (if (index : ℤ) ≠ last_index then s.frames_posted + (index - last_index)
          else s.frames_posted) = s.frames_posted + (index - last_index) := by
        by_cases hmoved : (index : ℤ) = last_index
        · rw [if_neg (not_not.2 hmoved)]
          omega
        · rw [if_pos hmoved]
      rw [hcount]
      by_cases hend : loop.end_t r ≤ elapsed r t0 tick.now
      · rw [if_pos hend]
        exact ⟨rfl, Or.inr ⟨index, rfl, rfl, Or.inr ⟨hpost, rfl, Or.inr ⟨rfl, hend⟩⟩⟩⟩
      · rw [if_neg hend]
        exact ⟨rfl, Or.inr ⟨index, rfl, rfl, Or.inr ⟨hpost, rfl, Or.inl rfl⟩⟩⟩

/-- A replay starts where no side is far, and not before every driven side had a sample that could
be compared. -/
theorem far_sides_of_starts {loop : SkillLoop} {r : Rounding} {tick : Tick}
    (h : loop.Starts r s tick) :
    loop.far_sides r tick.latest loop.control_arms = .ok [] := by
  obtain ⟨hphase, t0, last_index, hnext⟩ := h
  unfold step at hnext
  rw [hphase] at hnext
  dsimp only at hnext
  rcases (converge_cases loop r tick hphase).2.2.2 with
    hstopped | hstay | ⟨_, hfar⟩
  · rcases hstopped with hreturned | ⟨e, hraised⟩
    · rw [hreturned] at hnext
      exact nomatch hnext
    · rw [hraised] at hnext
      exact nomatch hnext
  · rw [hstay] at hnext
    exact nomatch hnext
  · exact hfar

end Step

/-! ## Over a run -/

/-- The frames sent go forward, up to one of them. -/
structure Forward (posts : List Sent) (upto : ℕ) : Prop where
  sorted : posts.Pairwise fun p p' => p.index ≤ p'.index
  below : ∀ p ∈ posts, p.index ≤ upto

/-- What has been sent and counted in each phase. -/
structure Progress (s : ReplayState) : Prop where
  forward : ∃ upto, upto < loop.skill.frames ∧ Forward s.posts upto
  at_converge : s.phase = .converge → Forward s.posts 0 ∧ s.frames_posted = 0
  at_replay : ∀ t0 last_index, s.phase = .replay t0 last_index →
    t0 ≤ s.clock ∧ s.frames_posted = last_index + 1 ∧ Forward s.posts last_index.toNat ∧
    (last_index = -1 ∨ ∃ (now : ℚ) (i : ℕ), last_index = i ∧ t0 ≤ now ∧ now ≤ s.clock ∧
      loop.index_at r t0 now = some i)
  at_end : s.phase = .returned true → loop.Settles r →
    s.frames_posted = loop.skill.frames ∧ ∀ e ∈ loop.control_arms, ∃ setpoint,
      frame_setpoint loop.skill (loop.skill.frames - 1) e.1 e.2 = some setpoint ∧
      last_sent s.posts e.1 = some ⟨loop.skill.frames - 1, e.1, setpoint⟩

section Run

variable {loop : SkillLoop} {r : Rounding} {s : ReplayState} {tick : Tick}

/-- A post of a frame that is no earlier than those sent keeps the frames going forward. -/
theorem Forward.append {posts : List Sent} {upto index : ℕ} (h : Forward posts upto)
    (hle : upto ≤ index) (arms : List (String × ControlCfg)) :
    Forward (posts ++ (loop.post index arms).1) index := by
  refine ⟨List.pairwise_append.2 ⟨h.sorted, ?_, ?_⟩, ?_⟩
  · apply List.pairwise_of_forall_mem_list
    intro p hp p' hp'
    rw [(mem_post_sent hp).1, (mem_post_sent hp').1]
  · intro p hp p' hp'
    rw [(mem_post_sent hp').1]
    exact (h.below p hp).trans hle
  · intro p hp
    rcases List.mem_append.1 hp with hold | hnew
    · exact (h.below p hold).trans hle
    · exact Nat.le_of_eq (mem_post_sent hnew).1

/-- A run that stopped has only to have gone forward, as nothing is promised of where it has got to.
-/
theorem Progress.of_stopped (hforward : ∃ upto, upto < loop.skill.frames ∧ Forward s.posts upto)
    (hstopped : Stopped s) : loop.Progress r s := by
  refine ⟨hforward, ?_, ?_, ?_⟩
  · intro hphase
    rcases hstopped with h | ⟨e, h⟩
    · exact nomatch hphase.symm.trans h
    · exact nomatch hphase.symm.trans h
  · intro t0 last_index hphase
    rcases hstopped with h | ⟨e, h⟩
    · exact nomatch hphase.symm.trans h
    · exact nomatch hphase.symm.trans h
  · intro hphase
    rcases hstopped with h | ⟨e, h⟩
    · exact nomatch hphase.symm.trans h
    · exact nomatch hphase.symm.trans h

/-- While the loop waits for the arms only the first frame is sent. -/
theorem Progress.converge (h : loop.Progress r s) (hphase : s.phase = .converge) :
    loop.Progress r (loop.converge r s tick) := by
  obtain ⟨hforward, hcount⟩ := h.at_converge hphase
  obtain ⟨hframes, hclock, hposts, hnext⟩ :=
    converge_cases loop r tick hphase
  have hsent : Forward (loop.converge r s tick).posts 0 := by
    rcases hposts with hsame | hpost
    · rw [hsame]
      exact hforward
    · rw [hpost]
      exact hforward.append (Nat.le_refl 0) _
  have hupto : ∃ upto, upto < loop.skill.frames ∧ Forward (loop.converge r s tick).posts upto :=
    ⟨0, frames_pos loop, hsent⟩
  rcases hnext with hstopped | hstay | ⟨hreplay, _⟩
  · exact .of_stopped hupto hstopped
  · refine ⟨hupto, fun _ => ⟨hsent, hframes.trans hcount⟩, ?_, ?_⟩
    · intro t0 last_index hp
      exact nomatch hstay.symm.trans hp
    · intro hp
      exact nomatch hstay.symm.trans hp
  · refine ⟨hupto, ?_, ?_, ?_⟩
    · intro hp
      exact nomatch hreplay.symm.trans hp
    · intro t0 last_index hp
      obtain ⟨rfl, rfl⟩ := Phase.replay.inj (hreplay.symm.trans hp)
      refine ⟨le_of_eq hclock.symm, ?_, hsent, Or.inl rfl⟩
      rw [hframes, hcount]
      rfl
    · intro hp
      exact nomatch hreplay.symm.trans hp

/-- While it replays the index follows the clock, so no earlier frame is sent than the last one. -/
theorem Progress.replay (h : loop.Progress r s) {t0 : ℚ} {last_index : ℤ}
    (hphase : s.phase = .replay t0 last_index) (hclock : clock_ok s tick) :
    loop.Progress r (loop.replay r s tick t0 last_index) := by
  obtain ⟨ht0, hcount, hforward, hlast⟩ := h.at_replay t0 last_index hphase
  have hstart : t0 ≤ tick.now := ht0.trans hclock
  obtain ⟨hnow, ⟨hsame, hstopped⟩ | ⟨index, hindex, hposts, hnext⟩⟩ :=
    replay_cases (s := s) loop r tick t0 last_index
  · refine .of_stopped ?_ hstopped
    rw [hsame]
    exact h.forward
  -- the clock does not go back, so neither does the index
  have hle : last_index.toNat ≤ index := by
    rcases hlast with hminus | ⟨now, i, hi, hbegun, hpast, hat⟩
    · omega
    · have hmono := index_at_mono hbegun (hpast.trans hclock) hat hindex
      omega
  have hsent : Forward (loop.replay r s tick t0 last_index).posts index := by
    rw [hposts]
    exact hforward.append hle _
  have hupto : ∃ upto, upto < loop.skill.frames ∧
      Forward (loop.replay r s tick t0 last_index).posts upto :=
    ⟨index, index_at_lt hindex, hsent⟩
  rcases hnext with hstopped | ⟨hpost, hframes, hgoes⟩
  · exact .of_stopped hupto hstopped
  have hcounted : (loop.replay r s tick t0 last_index).frames_posted = index + 1 := by omega
  rcases hgoes with hreplay | ⟨hreturned, hend⟩
  · refine ⟨hupto, ?_, ?_, ?_⟩
    · intro hp
      exact nomatch hreplay.symm.trans hp
    · intro t1 last_index' hp
      obtain ⟨rfl, rfl⟩ := Phase.replay.inj (hreplay.symm.trans hp)
      refine ⟨hstart.trans (le_of_eq hnow.symm), hcounted, hsent, Or.inr ?_⟩
      exact ⟨tick.now, index, rfl, hstart, le_of_eq hnow.symm, hindex⟩
    · intro hp
      exact nomatch hreplay.symm.trans hp
  · refine ⟨hupto, ?_, ?_, ?_⟩
    · intro hp
      exact nomatch hreturned.symm.trans hp
    · intro t1 last_index' hp
      exact nomatch hreturned.symm.trans hp
    · -- the end is reached at the last frame, and what was posted last is that frame
      intro _ hsettles
      have hfinal := index_at_end hsettles hstart hend hindex
      have hpos := frames_pos loop
      refine ⟨by omega, ?_⟩
      intro e he
      obtain ⟨setpoint, hframe, hfilter⟩ := post_complete loop.distinct hpost e he
      rw [← hfinal]
      refine ⟨setpoint, hframe, ?_⟩
      unfold last_sent
      rw [hposts, List.filter_append, hfilter]
      exact List.getLast?_concat

/-- One iteration keeps the account in whichever phase it is. -/
theorem Progress.step (hclock : clock_ok s tick) (h : loop.Progress r s) :
    loop.Progress r (loop.step r s tick) := by
  unfold SkillLoop.step
  cases hphase : s.phase with
  | converge => exact h.converge hphase
  | replay t0 last_index => exact h.replay hphase hclock
  | returned finished => exact h
  | raised e => exact h

/-- At the beginning nothing has been sent. -/
theorem progress_start (begin : ℚ) : loop.Progress r (loop.start r begin) := by
  have hnone : Forward [] 0 := ⟨List.Pairwise.nil, fun p hp => absurd hp List.not_mem_nil⟩
  refine ⟨⟨0, frames_pos loop, hnone⟩, fun _ => ⟨hnone, rfl⟩, ?_, ?_⟩
  · intro t0 last_index hp
    exact nomatch hp
  · intro hp
    exact nomatch hp

/-- A setpoint is made of a row of a side's own trajectory, packed by the side's own controller with
nothing held. -/
theorem frame_of_setpoint {index : ℕ} {side : String} {control : ControlCfg}
    {setpoint : List Ieee} (hindex : index < loop.skill.frames)
    (h : frame_setpoint loop.skill index side control = some setpoint) :
    ∃ row, loop.frame index side = some row ∧
      control.pack_action row (fun _ => none) = .ok setpoint := by
  obtain ⟨traj, row, htraj, hrow, hpack⟩ := frame_setpoint_eq_some h
  have hlength := frames_le htraj
  rw [min_eq_left (by omega)] at hrow
  refine ⟨row, ?_, hpack⟩
  unfold frame
  rw [htraj]
  exact hrow

end Run

/-- Where the hold time settles and the driven sides end together, a run whose clock does not run
backwards has its end points exactly when every distance that the start gate let pass is a
number. -/
theorem replay_endpoints {loop : SkillLoop} {r : Rounding} (hsettles : loop.Settles r)
    (htogether : loop.EndsTogether) {begin : ℚ} {ticks : List Tick}
    (hclock : Runs.Valid (loop.step r) clock_ok (loop.start r begin) ticks) :
    loop.Endpoints r begin ticks ↔
      Runs.Each (loop.step r) id (loop.start r begin) ticks fun s tick =>
        loop.Starts r s tick → ∀ e ∈ loop.control_arms, loop.Comparable tick.latest e.1 := by
  have hprogress := Runs.run_induct (fun s tick => Progress.step) ticks _
    (progress_start begin) hclock
  have hstarts : ∀ s tick, (loop.Starts r s tick →
        ∀ e ∈ loop.control_arms, loop.Within r tick.latest e.1) ↔
      (loop.Starts r s tick → ∀ e ∈ loop.control_arms, loop.Comparable tick.latest e.1) := by
    intro s tick
    refine forall_congr' fun hstart => forall₂_congr fun e he => ?_
    exact within_iff_comparable (far_sides_nil.1 (far_sides_of_starts hstart) e he)
  have heach : Runs.Each (loop.step r) id (loop.start r begin) ticks (fun s tick =>
      loop.Starts r s tick → ∀ e ∈ loop.control_arms, loop.Within r tick.latest e.1) ↔
      Runs.Each (loop.step r) id (loop.start r begin) ticks fun s tick =>
        loop.Starts r s tick → ∀ e ∈ loop.control_arms, loop.Comparable tick.latest e.1 :=
    forall₃_congr fun before tick after => forall_congr' fun _ => hstarts _ tick
  rw [← heach]
  obtain ⟨upto, hupto, hforward⟩ := hprogress.forward
  constructor
  · intro h
    exact h.starts
  · intro hwithin
    refine ⟨hwithin, hforward.sorted, fun p hp => (hforward.below p hp).trans_lt hupto, ?_⟩
    intro hreturned
    obtain ⟨hframes, hlast⟩ := hprogress.at_end hreturned hsettles
    refine ⟨hframes, ?_⟩
    intro e he
    obtain ⟨setpoint, hframe, hsent⟩ := hlast e he
    have hpos := frames_pos loop
    obtain ⟨row, hrow, hpack⟩ := frame_of_setpoint (by omega) hframe
    refine ⟨row, setpoint, ?_, hpack, ?_⟩
    · rw [← htogether e he]
      exact hrow
    · rw [hsent]
      rfl

/-! ## Two arms -/

/-- One joint at each frame. -/
def joint_rows (rows : List Ieee) : Array2 Ieee where
  rows := rows.map fun q => [q]
  width := 1
  rect := by
    intro row hrow
    obtain ⟨q, _, rfl⟩ := List.mem_map.1 hrow
    rfl

/-- A skill of two sides, the second of them with a frame more or not. -/
def wave_skill (longer : Bool) : Skill Ieee where
  name := "wave"
  fps := .fin 1
  q := [("left", joint_rows [.fin 0, .fin 1]),
    ("right", joint_rows (if longer then [.fin 0, .fin 1, .fin 2] else [.fin 0, .fin 1]))]
  gripper := []
  source := ⟨"", 0, ""⟩
  created := ""

def wave_loop (longer : Bool) : SkillLoop where
  skill := wave_skill longer
  control_arms := [("left", ⟨.qpos, [("q_d", 1)], ["q_d"]⟩),
    ("right", ⟨.qpos, [("q_d", 1)], ["q_d"]⟩)]
  writers := ⟨fun _ => some 1, []⟩
  fps := .fin 1
  start_tolerance := .fin (1 / 10)
  start_timeout_s := .fin 60
  settle_s := .fin 0
  accepted := by cases longer <;> decide +kernel
  distinct := by decide
  driven := by cases longer <;> decide
  positive := by decide +kernel

/-- The start pose at once, and a second tick ten seconds later. -/
def wave_ticks (measured : Ieee) : List Tick :=
  [⟨false, fun _ => some [measured], false, 0⟩, ⟨false, fun _ => some [measured], false, 10⟩]

/-- The clock of the example does not run backwards. -/
theorem wave_clock (longer : Bool) (measured : Ieee) :
    Runs.Valid ((wave_loop longer).step .exact) clock_ok ((wave_loop longer).start .exact 0)
      (wave_ticks measured) := by
  refine ⟨le_refl (0 : ℚ), ?_, trivial⟩
  show ((wave_loop longer).converge .exact _ _).clock ≤ 10
  rw [(converge_cases _ _ _ rfl).2.1]
  norm_num

/-- The replay of the example starts and ends where its skill does. -/
theorem replay_endpoints_wave :
    (wave_loop false).Endpoints .exact 0 (wave_ticks (.fin 0)) := by
  have hsettles : (wave_loop false).Settles .exact := settles_of_nonneg rfl rfl (le_refl 0)
  have htogether : (wave_loop false).EndsTogether := by
    unfold EndsTogether
    decide +kernel
  refine (replay_endpoints hsettles htogether (wave_clock false _)).2 ?_
  intro before tick after hticks _ e he
  have hmem : tick ∈ wave_ticks (.fin 0) := by
    rw [hticks]
    exact List.mem_append_right _ List.mem_cons_self
  have hlatest : tick.latest e.1 = some [.fin 0] := by
    rcases List.mem_cons.1 hmem with rfl | hlast
    · rfl
    · rw [List.mem_singleton.1 hlast]
  have hframe : (wave_loop false).frame 0 e.1 = some [.fin 0] := by
    rcases List.mem_cons.1 he with rfl | hright
    · rfl
    · rw [List.mem_singleton.1 hright]
      rfl
  refine ⟨rfl, [.fin 0], [.fin 0], hframe, hlatest, ?_⟩
  intro j t ht
  refine ⟨t, ht, ?_⟩
  have hzero : t = .fin 0 := List.mem_singleton.1 (List.mem_of_getElem? ht)
  rw [hzero]
  rfl

/-- A NaN among the measured joints passes the start gate, and a side with more frames than the
skill never gets to its destination, although the run returns `True`. -/
theorem nan_starts_and_longer_side_stops_short :
    Runs.Valid ((wave_loop true).step .exact) clock_ok ((wave_loop true).start .exact 0)
      (wave_ticks (.nan false)) ∧
    (¬ Runs.Each ((wave_loop true).step .exact) id ((wave_loop true).start .exact 0)
      (wave_ticks (.nan false)) fun s tick => (wave_loop true).Starts .exact s tick →
        ∀ e ∈ (wave_loop true).control_arms, (wave_loop true).Within .exact tick.latest e.1) ∧
    (Runs.run ((wave_loop true).step .exact) ((wave_loop true).start .exact 0)
      (wave_ticks (.nan false))).phase = .returned true ∧
    (wave_loop true).skill.destination "right" = some [.fin 2] ∧
    last_sent (Runs.run ((wave_loop true).step .exact) ((wave_loop true).start .exact 0)
      (wave_ticks (.nan false))).posts "right" = some ⟨1, "right", [.fin 1]⟩ := by
  refine ⟨wave_clock true _, ?_, by decide +kernel, by decide +kernel, by decide +kernel⟩
  intro h
  have hstarts : (wave_loop true).Starts .exact ((wave_loop true).start .exact 0)
      ⟨false, fun _ => some [.nan false], false, 0⟩ :=
    ⟨rfl, 0, -1, by decide +kernel⟩
  obtain ⟨target, measured, hframe, hlatest, hwithin⟩ :=
    h [] _ _ rfl hstarts ("left", ⟨.qpos, [("q_d", 1)], ["q_d"]⟩) List.mem_cons_self
  have htarget : target = [.fin 0] := Option.some.inj (hframe.symm.trans rfl)
  have hmeasured : measured = [.nan false] := Option.some.inj (hlatest.symm.trans rfl)
  rw [htarget, hmeasured] at hwithin
  obtain ⟨m, hm, hle⟩ := hwithin 0 (.fin 0) rfl
  have hnan : m = .nan false := (Option.some.inj hm).symm
  rw [hnan] at hle
  exact absurd hle Bool.false_ne_true

end SkillLoop

end DualFlexivControl.Skills
