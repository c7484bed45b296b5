/-
`Run` of the native controller: the bootstrap setpoint and the 1 kHz loop.

A tick is a read of the setpoint ring followed by a pure step of the loop's
variables: the deadman, the copy into `desired_q`, one step of the trajectory and
the safety gate, in the source's order. What happens before the read (a robot fault,
a STOP command, a signal) only ever ends the loop.

The copy is guarded by `newest` not being empty, not by `Latest` having succeeded,
and its age is judged by the timestamp of the last read that did succeed. So a read
that lost its race leaves a half-copied row that is taken for fresh. The run theorem
below therefore asks that no tick is lapped in each of its four passes
([`Unlapped`]); its counterpart shows one-slot rings where `desired_q` is nobody's
setpoint.
-/
import DualFlexivControl.Native.Setpoints
import DualFlexivControl.Native.Trajectory
import DualFlexivControl.Lib.Ieee

set_option autoImplicit false

open Interleave Relation DualFlexivControl.Ring

namespace DualFlexivControl.Native

open Scalar (lit lt le foldMax)

/-! ## The loop -/

/-- The arguments the loop reads. -/
structure RunArgs (F : Type) where
  soft_deadman_ns : ℤ
  hard_deadman_ns : ℤ
  safety_check : Bool
  tolerance : F
  limits : Limits F

/-- The variables the loop carries from tick to tick. -/
structure Loop (F : Type) (dof : ℕ) where
  desired_q : Fin dof → F
  target : Fin dof → Joint F
  last_setpoint_time : ℤ

/-- Why a tick ended the loop. -/
inductive Halt where
  | hard_deadman
  | safety_halt
  deriving DecidableEq

/-- The loop's variables after a tick, and whether it goes on. A tick that goes on has
streamed `state.target` to the robot. -/
structure Tick (F : Type) (dof : ℕ) where
  state : Loop F dof
  halt : Option Halt

variable {F : Type} {dof : ℕ}

/-- `std::copy_n(newest.begin(), dof, desired_q.begin())`. -/
def copy_n (newest : List F) (desired_q : Fin dof → F) : Fin dof → F :=
  fun i => newest.getD i (desired_q i)

/-- The timestamp the deadman looks at. -/
def judged_time (r : Read F) (st : Loop F dof) : ℤ :=
  if r.ok then r.timestamp else st.last_setpoint_time

/-- The guard of the copy. -/
def takes (args : RunArgs F) (now : ℤ) (r : Read F) (st : Loop F dof) : Bool :=
  !r.out.isEmpty && decide (now - judged_time r st ≤ args.soft_deadman_ns) &&
    decide (dof ≤ r.out.length)

/-- The hard deadman. -/
def stale (args : RunArgs F) (now : ℤ) (r : Read F) (st : Loop F dof) : Bool :=
  decide (args.hard_deadman_ns < now - judged_time r st)

/-- Which setpoint a tick tracks. -/
def intake (args : RunArgs F) (now : ℤ) (r : Read F) (st : Loop F dof) : Loop F dof :=
  { st with
    last_setpoint_time := judged_time r st
    desired_q := if takes args now r st then copy_n r.out st.desired_q else st.desired_q }

section Arithmetic

variable [Sub F] [Scalar F]

/-- `worst`: the largest joint error, as both safety checks of `Run` compute it. -/
def worst (q measured : Fin dof → F) : F :=
  foldMax (List.ofFn fun i => Scalar.abs (q i - measured i))

/-- The safety check, then the stream. -/
def gate (args : RunArgs F) (measured : Fin dof → F) (st : Loop F dof) : Tick F dof :=
  if args.safety_check && lt args.tolerance (worst (fun i => (st.target i).q) measured) then
    ⟨st, some .safety_halt⟩
  else
    ⟨st, none⟩

/-- `Run` up to its loop, from what the first `Latest` returned: it throws without a
setpoint, when the safety check refuses it, or when a motion limit is not positive. -/
def bootstrap (args : RunArgs F) (measured : Fin dof → F) (r : Read F) :
    Option (Loop F dof) :=
  if r.ok then
    let setpoint : Fin dof → F := fun i => r.out.getD i (lit 0)
    -- a ring wider than the robot is cut off here (`setpoint.resize(dof)`)
    if args.safety_check && lt args.tolerance (worst setpoint measured) then none
    else if le args.limits.max_joint_vel (lit 0) || le args.limits.max_joint_acc (lit 0) then none
    else some ⟨setpoint, at_rest setpoint, r.timestamp⟩
  else none

@[simp] theorem gate_state (args : RunArgs F) (measured : Fin dof → F) (st : Loop F dof) :
    (gate args measured st).state = st := by
  unfold gate
  split
  · rfl
  · rfl

/-- A loop that goes on has passed the check. -/
theorem gate_go {args : RunArgs F} {measured : Fin dof → F} {st : Loop F dof}
    (hcheck : args.safety_check = true) (h : (gate args measured st).halt = none) :
    lt args.tolerance (worst (fun i => (st.target i).q) measured) = false := by
  unfold gate at h
  rw [hcheck, Bool.true_and] at h
  by_contra hlt
  rw [if_pos ((Bool.not_eq_false _).mp hlt)] at h
  cases h

theorem bootstrap_spec {args : RunArgs F} {measured : Fin dof → F} {r : Read F}
    {st : Loop F dof} (h : bootstrap args measured r = some st) :
    r.ok = true ∧ st.desired_q = (fun i : Fin dof => r.out.getD i (lit 0)) ∧
      st.target = at_rest st.desired_q ∧ le args.limits.max_joint_vel (lit 0) = false ∧
      le args.limits.max_joint_acc (lit 0) = false := by
  unfold bootstrap at h
  by_cases hok : r.ok = true
  · rw [if_pos hok] at h
    dsimp only at h
    split at h
    · cases h
    · split at h
      · cases h
      · rename_i hlim
        cases h
        exact ⟨hok, rfl, rfl, Bool.or_eq_false_iff.mp (Bool.eq_false_iff.mpr hlim)⟩
  · rw [if_neg hok] at h
    cases h

variable [Add F] [Mul F] [Div F] [Neg F]

/-- A tick, from what `Latest` left in `newest` on. -/
def tick (args : RunArgs F) (now : ℤ) (measured : Fin dof → F) (r : Read F)
    (st : Loop F dof) : Tick F dof :=
  if stale args now r st then
    ⟨{ st with last_setpoint_time := judged_time r st }, some .hard_deadman⟩
  else
    let st := intake args now r st
    gate args measured
      { st with target := advance_trajectory args.limits st.desired_q st.target }

/-- What a tick leaves in `desired_q`: the row it has read, if it is fresh and is taken, and
otherwise what was there. -/
theorem tick_desired_q (args : RunArgs F) (now : ℤ) (measured : Fin dof → F) (r : Read F)
    (st : Loop F dof) : (tick args now measured r st).state.desired_q =
      if !stale args now r st && takes args now r st then copy_n r.out st.desired_q
      else st.desired_q := by
  unfold tick
  by_cases hstale : stale args now r st = true
  · rw [if_pos hstale, hstale]
    rfl
  · rw [if_neg hstale, gate_state, Bool.eq_false_iff.mpr hstale]
    rfl

theorem tick_go {args : RunArgs F} {now : ℤ} {measured : Fin dof → F} {r : Read F}
    {st : Loop F dof} (hcheck : args.safety_check = true)
    (h : (tick args now measured r st).halt = none) :
    lt args.tolerance (worst (fun i => ((tick args now measured r st).state.target i).q)
      measured) = false := by
  unfold tick at h ⊢
  by_cases hstale : stale args now r st = true
  · rw [if_pos hstale] at h
    cases h
  · rw [if_neg hstale] at h ⊢
    rw [gate_state]
    exact gate_go hcheck h

end Arithmetic

/-! ## Runs against a writing brain -/

/-- A tick's read that was not lapped in each of its passes. -/
def Unlapped (R : RingSpec) (q p' : Producer F) : Prop :=
  begun R p' ≤ published q + 4 * (R.capacity - 1)

/-- `desired_q` is the front of one completely appended setpoint, fresh by its own
timestamp at the tick that copied it. -/
def TracksPublished (R : RingSpec) (args : RunArgs F) (p : Producer F) (st : Loop F dof)
    (copied : Option ℤ) : Prop :=
  ∃ out timestamp, Appended R p out timestamp ∧
    (∀ i : Fin dof, out[(i : ℕ)]? = some (st.desired_q i)) ∧
    ∀ now, copied = some now → now - timestamp ≤ args.soft_deadman_ns

theorem TracksPublished.mono {R : RingSpec} {args : RunArgs F} {p p' : Producer F}
    {st : Loop F dof} {copied : Option ℤ} (h : TracksPublished R args p st copied)
    (hgrow : Grows R p p') : TracksPublished R args p' st copied := by
  obtain ⟨out, ts, happ, hrest⟩ := h
  exact ⟨out, ts, happ.mono hgrow, hrest⟩

/-- The front of a row that is long enough, read index by index. -/
theorem getD_front {out : List F} (h : dof ≤ out.length) (d : F) (i : Fin dof) :
    out[(i : ℕ)]? = some (out.getD i d) := by
  have hi : (i : ℕ) < out.length := i.isLt.trans_le h
  rw [List.getD_eq_getElem?_getD, List.getElem?_eq_getElem hi, Option.getD_some]

section Runs

variable [Add F] [Sub F] [Mul F] [Div F] [Neg F] [Scalar F]

/-- The step: a tick whose read succeeded keeps tracking published setpoints, whether it takes the
row or not. -/
theorem tracksPublished_tick {R : RingSpec} {args : RunArgs F} {p p' : Producer F}
    {st : Loop F dof} {copied : Option ℤ} {r : Read F} (now : ℤ) (measured : Fin dof → F)
    (h : TracksPublished R args p st copied) (hgrow : Grows R p p') (hok : r.ok = true)
    (happ : Appended R p' r.out r.timestamp) :
    TracksPublished R args p' (tick args now measured r st).state
      (if !stale args now r st && takes args now r st then some now else copied) := by
  unfold TracksPublished
  rw [tick_desired_q]
  by_cases hcopy : (!stale args now r st && takes args now r st) = true
  · rw [if_pos hcopy, if_pos hcopy]
    -- the one place where the read's success matters: the age is the row's own
    have hjudged : judged_time r st = r.timestamp := if_pos hok
    have hguard := (Bool.and_eq_true_iff.mp hcopy).2
    simp only [takes, hjudged, Bool.and_eq_true, decide_eq_true_eq] at hguard
    refine ⟨r.out, r.timestamp, happ, fun i => getD_front hguard.2 _ i, fun now' hnow => ?_⟩
    cases hnow
    exact hguard.1.2
  · rw [if_neg hcopy, if_neg hcopy]
    exact h.mono hgrow

variable [Zero F]

/-- The states of the loop with the ring it reads. `copied` is the time of the tick
that last copied a setpoint, if one has; `running` is whether the loop goes on.
`allow` says which reads are considered, by the ring at their start and end. -/
inductive Runs (R : RingSpec) (args : RunArgs F) (allow : Producer F → Producer F → Prop) :
    Producer F → Loop F dof → Option ℤ → Bool → Prop where
  /-- `Run` throws on a ring narrower than the robot. -/
  | bootstrapped {p p' : Producer F} {r : Read F} {measured : Fin dof → F} {st : Loop F dof}
      (hdim : dof ≤ R.dim) (hp : Reachable R p)
      (hread : Exec (Step R) view p (latest R [] 0) p' r)
      (hst : bootstrap args measured r = some st) : Runs R args allow p' st none true
  /-- A fault, a STOP command or a signal ends the loop before the read. -/
  | interrupted {p : Producer F} {st : Loop F dof} {copied : Option ℤ}
      (hs : Runs R args allow p st copied true) : Runs R args allow p st copied false
  | ticked {p q p' : Producer F} {st : Loop F dof} {copied : Option ℤ} {r : Read F}
      (now : ℤ) (measured : Fin dof → F) (hs : Runs R args allow p st copied true)
      (hwait : ReflTransGen (Step R) p q)
      (hread : Exec (Step R) view q (latest R [] 0) p' r) (hok : allow q p') :
      Runs R args allow p' (tick args now measured r st).state
        (if !stale args now r st && takes args now r st then some now else copied)
        (tick args now measured r st).halt.isNone

/-- What the loop promises over every run. -/
def TracksOnlyPublished (R : RingSpec) (args : RunArgs F) (dof : ℕ) : Prop :=
  ∀ (p : Producer F) (st : Loop F dof) (copied : Option ℤ) (running : Bool),
    Runs R args (fun _ _ => True) p st copied running → TracksPublished R args p st copied

/-- The run: the ring stays on its own states, has something to read, and every tick
that was not lapped keeps tracking published setpoints. -/
theorem tracksPublished_of_runs {R : RingSpec} {args : RunArgs F} {p : Producer F}
    {st : Loop F dof} {copied : Option ℤ} {running : Bool}
    (h : Runs R args (Unlapped R) p st copied running) :
    Inv R p ∧ 0 < published p ∧ TracksPublished R args p st copied := by
  induction h with
  | @bootstrapped p p' r measured st hdim hp hread hst =>
    have hinv := inv_of_reachable hp
    obtain ⟨hok, hsp, -⟩ := bootstrap_spec hst
    -- `Run` throws on a failed first read, so this one is a whole setpoint
    rcases latest_spec hinv hread with ⟨-, hnewest⟩ | ⟨hfail, -⟩
    · have happ := hnewest.appended hinv
      have ⟨hlen, g, hg, _⟩ := happ
      refine ⟨(inv_reach hinv hread.reach).1, by omega, r.out, r.timestamp, happ, fun i => ?_,
        fun now hnow => by cases hnow⟩
      rw [hsp]
      exact getD_front (by rw [hlen]; exact hdim) _ i
    · rw [hok] at hfail
      cases hfail
  | interrupted _ ih => exact ih
  | ticked now measured _ hwait hread hunlapped ih =>
    obtain ⟨hinv, hpos, htracks⟩ := ih
    obtain ⟨hinvq, hgrowq⟩ := inv_reach hinv hwait
    obtain ⟨hinv', hgrow'⟩ := inv_reach hinvq hread.reach
    -- a read fails on an empty ring, which this one has not been since the bootstrap,
    -- or when it is lapped, which the run excludes
    have hpub := hgrowq.published_le
    have hpub' := hgrow'.published_le
    rcases latest_spec hinvq hread with ⟨hok, hnewest⟩ | ⟨-, hzero | hlap⟩
    · exact ⟨hinv', by omega, tracksPublished_tick now measured htracks (hgrowq.trans hgrow') hok
        (hnewest.appended hinvq)⟩
    · omega
    · exact absurd hunlapped (by unfold Unlapped; omega)

/-- **Only published, fresh setpoints are tracked**, in every run none of whose reads
is lapped in each of its four passes. -/
theorem native_tracks_published_setpoints {R : RingSpec} {args : RunArgs F} {p : Producer F}
    {st : Loop F dof} {copied : Option ℤ} {running : Bool}
    (h : Runs R args (Unlapped R) p st copied running) : TracksPublished R args p st copied :=
  (tracksPublished_of_runs h).2.2

end Runs

/-! ## On concrete rings -/

/-- The default deadmen in nanoseconds, one radian of tolerance, the safety check off. -/
noncomputable def demo_args : RunArgs ℝ := ⟨100000000, 500000000, false, 1, ⟨2, 3⟩⟩

/-- Rings of joint pairs. -/
def pair_ring (capacity : ℕ) (h : 0 < capacity) : RingSpec := ⟨capacity, 2, h⟩

/-- One append of a pair, up to and including its first `stores` stores. -/
def pair_append (a b : ℝ) (t : ℤ) (stores : ℕ) : List (Act ℝ) :=
  .append [a, b] t :: List.replicate stores .store

/-- The loop's variables after a bootstrap at the origin. -/
noncomputable def at_origin : Loop ℝ 2 :=
  ⟨fun i => [0, 0].getD i (lit 0), at_rest fun i => [0, 0].getD i (lit 0), 0⟩

theorem bootstrap_at_origin :
    bootstrap demo_args (fun _ => 0) ⟨true, [0, 0], 0⟩ = some at_origin := by
  have hvel : le demo_args.limits.max_joint_vel (lit 0) = false :=
    decide_eq_false (by show ¬ (2 : ℝ) ≤ ((0 : ℚ) : ℝ); norm_num)
  have hacc : le demo_args.limits.max_joint_acc (lit 0) = false :=
    decide_eq_false (by show ¬ (3 : ℝ) ≤ ((0 : ℚ) : ℝ); norm_num)
  unfold bootstrap
  rw [hvel, hacc]
  rfl

/-- A ring that holds the origin. -/
noncomputable def origin_posted (R : RingSpec) : Producer ℝ :=
  (runActs (Producer.step R) (pair_append 0 0 0 6) .create).getD .create

/-- Two slots, a setpoint that arrives while the tick reads: the tick tracks one of the two that
were published. -/
theorem native_tracks_published_setpoints_two_slots :
    ∃ (p' : Producer ℝ) (st : Loop ℝ 2),
      Runs (pair_ring 2 Nat.two_pos) demo_args (Unlapped (pair_ring 2 Nat.two_pos)) p' st
        (some 1) true ∧
      TracksPublished (pair_ring 2 Nat.two_pos) demo_args p' st (some 1) := by
  have hboot : Exec (Step (pair_ring 2 Nat.two_pos)) view (Producer.create : Producer ℝ)
      (latest (pair_ring 2 Nat.two_pos) [] 0) (origin_posted (pair_ring 2 Nat.two_pos))
      ⟨true, [0, 0], 0⟩ :=
    exec_schedule (show (latest (pair_ring 2 Nat.two_pos) [] 0).schedule
      (Producer.step (pair_ring 2 Nat.two_pos)) view [pair_append 0 0 0 6] .create = _ from rfl)
  have hrun : ((latest (pair_ring 2 Nat.two_pos) [] 0).schedule
      (Producer.step (pair_ring 2 Nat.two_pos)) view [[], pair_append 7 7 5 6]
      (origin_posted (pair_ring 2 Nat.two_pos))).map
        (fun x => (begun (pair_ring 2 Nat.two_pos) x.1, x.2)) =
      some (2, ⟨true, [0, 0], 0⟩) := rfl
  obtain ⟨p', hread, hbegun⟩ := exec_schedule_observe (begun (pair_ring 2 Nat.two_pos)) hrun
  have hok : Unlapped (pair_ring 2 Nat.two_pos) (origin_posted (pair_ring 2 Nat.two_pos)) p' := by
    unfold Unlapped
    rw [hbegun]
    decide
  have hruns := Runs.ticked 1 (fun _ => 0) (.bootstrapped le_rfl .refl hboot
    bootstrap_at_origin) .refl hread hok
  exact ⟨p', _, hruns, native_tracks_published_setpoints hruns⟩

/-- One slot: the tick's read straddles an append. Its second look at the stamp fails,
so do the three passes after it, the row half copied meanwhile is `[0, 7]`, and the
loop tracks it as if it were as fresh as the setpoint before. -/
theorem half_copied_setpoint_one_slot :
    ¬ TracksOnlyPublished (pair_ring 1 Nat.one_pos) demo_args 2 := by
  intro htracks
  -- the bootstrap reads the origin from a ring nobody is writing to
  have hboot : Exec (Step (pair_ring 1 Nat.one_pos)) view (Producer.create : Producer ℝ)
      (latest (pair_ring 1 Nat.one_pos) [] 0) (origin_posted (pair_ring 1 Nat.one_pos))
      ⟨true, [0, 0], 0⟩ :=
    exec_schedule (show (latest (pair_ring 1 Nat.one_pos) [] 0).schedule
      (Producer.step (pair_ring 1 Nat.one_pos)) view [pair_append 0 0 0 6] .create = _ from rfl)
  -- three loads see the origin, the fourth comes after three stores of the next append
  have hrun : ((latest (pair_ring 1 Nat.one_pos) [] 0).schedule
      (Producer.step (pair_ring 1 Nat.one_pos)) view [[], [], [], pair_append 7 7 5 3]
      (origin_posted (pair_ring 1 Nat.one_pos))).map (fun x => ((published x.1, x.1.log), x.2)) =
      some ((1, [([0, 0], 0), ([7, 7], 5)]), ⟨false, [0, 7], 0⟩) := rfl
  obtain ⟨p', hread, hobs⟩ :=
    exec_schedule_observe (fun p : Producer ℝ => (published p, p.log)) hrun
  obtain ⟨hpub, hlog⟩ := Prod.mk.inj hobs
  obtain ⟨out, ts, ⟨-, g, hg, hsample⟩, hfront, -⟩ := htracks _ _ _ _
    (.ticked 1 (fun _ => 0) (.bootstrapped le_rfl .refl hboot bootstrap_at_origin) .refl
      hread trivial)
  -- the only setpoint published is the origin
  obtain rfl : g = 0 := by omega
  rw [hlog] at hsample
  obtain ⟨rfl, rfl⟩ := Prod.mk.inj (Option.some.inj hsample)
  have hseven : (0 : ℝ) = 7 := Option.some.inj (hfront 1)
  norm_num at hseven

end DualFlexivControl.Native
