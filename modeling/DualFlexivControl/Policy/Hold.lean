/-
The policy that stands still: `HoldPolicy` of `policy/client.py`, executed by `EvalLoop`.

Standing still means another vector for each control kind. A rate and a wrench stand still at
zero, a joint position at the measured one, and a field that is held because the policy does not
set it at the value the loop latched. The policy writes the measured joints where the field is
`q_d` and leaves zeros everywhere else, `pose_d` included: there the zeros are a target, the
origin of the robot's base.

The policy sees the measured values as the observation holds them, so at float32 precision
(`f64 (f32 x)`), and what it returns is split, packed and posted by the loop.
-/
import Mathlib.Algebra.Ring.Int.Defs
import DualFlexivControl.Collection.Features
import DualFlexivControl.Control.Codec
import DualFlexivControl.Layout.Columns
import DualFlexivControl.Policy.EvalLoop

set_option autoImplicit false

namespace DualFlexivControl.Policy

open Results Tiling Control Collection Brain Effect DFCStateActionLayout

/-! ## The policy -/

/-- What building and asking the policy raises: a controlled side without measured joints in the
observation, and an assignment of a vector that does not fit. -/
inductive HoldError
  | no_q (side : String)
  | shape (side : String)
  deriving DecidableEq, Repr

/-- `HoldPolicy` -/
structure HoldPolicy where
  layout : DFCStateActionLayout
  q_slices : String → Option (ℕ × ℕ)
  horizon_arg : ℤ

/-- `self._horizon = max(1, int(horizon))` -/
def HoldPolicy.horizon (policy : HoldPolicy) : ℕ := (max 1 policy.horizon_arg).toNat

/-- `build_policy` of the kind `hold`, with the default horizon. -/
def build_hold (layout : DFCStateActionLayout) (observer : FrameBuilder) :
    Except HoldError HoldPolicy :=
  match layout.sides.find? fun side => (observer.layout.state_slice (side, "q")).isNone with
  | some side => .error (.no_q side)
  | none => .ok ⟨layout, fun side => observer.layout.state_slice (side, "q"), 10⟩

section Infer

variable {F : Type}

/-- What `a[start:stop] = value` writes, for a slice of some width: numpy repeats a single
value. -/
def broadcast (width : ℕ) (value : List F) : Option (List F) :=
  if value.length = width then some value
  else
    match value with
    | [x] => some (List.replicate width x)
    | _ => none

variable [Zero F]

/-- What `infer` leaves in a side's block of the action, which was made of zeros. -/
def HoldPolicy.block_value (policy : HoldPolicy) (state : List F) (b : Block ActionPart) :
    Except HoldError (List F) :=
  if b.label.field = "q_d" then
    match policy.q_slices b.label.side with
    | none => .error (.no_q b.label.side)
    | some r =>
      match broadcast b.label.dim ((state.drop r.1).take (r.2 - r.1)) with
      | none => .error (.shape b.label.side)
      | some value => .ok (value ++ [0])
  else .ok (List.replicate (b.label.dim + 1) 0)

/-- `HoldPolicy.infer`: the rows of the chunk, from `observation.state`. -/
def HoldPolicy.infer (policy : HoldPolicy) (state : List F) : Except HoldError (List (List F)) := do
  let action ← fill (policy.block_value state) policy.layout.action_blocks
    (List.replicate policy.layout.action_dim 0)
  pure (List.replicate policy.horizon action)

end Infer

/-- The pieces of an eval run with the hold policy are built from one rig. -/
structure HoldRun (arms : Arms) (state_signals action_sides : List String)
    (cameras : List (String × CameraCfg)) (instruction : String) (video : Bool)
    (observer : FrameBuilder) (policy : HoldPolicy) (loop : EvalLoop) : Prop where
  loop_layout : from_arms arms state_signals action_sides = .ok loop.layout
  observes : FrameBuilder.init arms [] cameras instruction state_signals video = .ok observer
  builds : build_hold loop.layout observer = .ok policy
  loop_arms : ∀ e ∈ loop.control_arms, ∃ arm, arms.get_arm e.1 = .ok arm ∧ e.2 = arm.control

/-! ## Standing still -/

section Rest

variable {F F32 U8 : Type} [Zero F] (f32 : F → F32) (f64 : F32 → F) (u8 : F → U8)

/-- An iteration with a complete observation, to which the policy returns its rows. -/
structure Asked (observer : FrameBuilder) (policy : HoldPolicy) (step : Step F)
    (rows : List (List F)) : Prop where
  complete : step.complete = true
  returned : ∃ frame, observer.build f32 u8 step.snapshot ⟨fun _ => none, fun _ => none⟩ =
    .ok (some frame) ∧ policy.infer (frame.state.map f64) = .ok rows
  outcome : ∃ width uniform, step.outcome = .chunk (.matrix width rows uniform)

/-- The newest sample of the stream that measures an absolute field. -/
def measured_field (snapshot : Observation F) (side f : String) : Option (List F) :=
  (HOLD_SIGNAL f).bind fun signal => snapshot s!"{side}/{signal}"

/-- What a streamed field is filled with when it asks for no motion. An absolute field has the
measured value: at the observation's precision where the policy sets it, and the newest one the
loop has seen where it is held. Every other field is zero. -/
def AtRest (snapshot : Observation F) (held : String → String → Option (List F)) (side : String)
    (control : ControlCfg) (primary f : String) (part : List F) : Prop :=
  if f ∈ ABSOLUTE_FIELDS then
    if f = primary then
      ∃ value, measured_field snapshot side f = some value ∧ part = value.map fun x => f64 (f32 x)
    else (measured_field snapshot side f).or (held side f) = some part
  else ∃ dim, control.command.lookup f = some dim ∧ part = List.replicate dim 0

/-- A setpoint all of whose fields ask for no motion. -/
def NoMotion (snapshot : Observation F) (held : String → String → Option (List F))
    (side : String) (control : ControlCfg) (setpoint : List F) : Prop :=
  ∃ primary parts, ACTION_PRIMARY control.kind = some primary ∧
    List.Forall₂ (AtRest f32 f64 snapshot held side control primary) control.streamed parts ∧
    setpoint = parts.flatten

/-- The arm's joint command is as wide as its measured joints, and its pose command is only
streamed where the measured pose is zero. -/
structure RestsAtZero (snapshot : Observation F) (side : String) (control : ControlCfg) :
    Prop where
  joints : control.kind = .qpos → "q_d" ∈ control.streamed → ∃ value,
    measured_field snapshot side "q_d" = some value ∧
      control.command.lookup "q_d" = some value.length
  pose : control.kind = .end_effector → "pose_d" ∈ control.streamed → ∃ value dim,
    measured_field snapshot side "pose_d" = some value ∧
      control.command.lookup "pose_d" = some dim ∧
      (value.map fun x => f64 (f32 x)) = List.replicate dim 0

end Rest

/-! ## What the policy returns -/

section Returned

variable {F : Type} {policy : HoldPolicy} {state : List F}

theorem broadcast_length {width : ℕ} {value w : List F} (h : broadcast width value = some w) :
    w.length = width := by
  unfold broadcast at h
  split at h
  · rename_i hlen
    rw [← Option.some.inj h]
    exact hlen
  · split at h
    · rw [← Option.some.inj h, List.length_replicate]
    · exact nomatch h

/-- A vector is written as it is exactly when it has the width. -/
theorem broadcast_eq_self {width : ℕ} {value w : List F} (h : broadcast width value = some w) :
    w = value ↔ value.length = width := by
  have hlength := broadcast_length h
  constructor
  · intro hw
    rw [← hw]
    exact hlength
  · intro hlen
    unfold broadcast at h
    rw [if_pos hlen] at h
    exact (Option.some.inj h).symm

variable [Zero F]

/-- The value a side's block holds before its gripper: the measured joints where the field is a
joint position, and zeros elsewhere. -/
theorem block_value_ok {b : Block ActionPart} {w : List F}
    (h : policy.block_value state b = .ok w) : ∃ value, w = value ++ [0] ∧
      value.length = b.label.dim ∧
      (b.label.field = "q_d" → ∃ r, policy.q_slices b.label.side = some r ∧
        broadcast b.label.dim ((state.drop r.1).take (r.2 - r.1)) = some value) ∧
      (b.label.field ≠ "q_d" → value = List.replicate b.label.dim 0) := by
  unfold HoldPolicy.block_value at h
  by_cases hfield : b.label.field = "q_d"
  · rw [if_pos hfield] at h
    cases hslice : policy.q_slices b.label.side with
    | none =>
      rw [hslice] at h
      exact nomatch h
    | some r =>
      rw [hslice] at h
      dsimp only at h
      cases hvalue : broadcast b.label.dim ((state.drop r.1).take (r.2 - r.1)) with
      | none =>
        rw [hvalue] at h
        exact nomatch h
      | some value =>
        rw [hvalue] at h
        exact ⟨value, (Except.ok.inj h).symm, broadcast_length hvalue,
          fun _ => ⟨r, rfl, hvalue⟩, fun hne => absurd hfield hne⟩
  · rw [if_neg hfield] at h
    refine ⟨List.replicate b.label.dim 0, ?_, List.length_replicate,
      fun habs => absurd habs hfield, fun _ => rfl⟩
    rw [← Except.ok.inj h, List.replicate_succ']

/-- Every row of the chunk has the action's width, and splits into the blocks' values. -/
theorem infer_row {rows : List (List F)} (hrows : policy.infer state = .ok rows) {row : List F}
    (hrow : row ∈ rows) : ∃ targets, policy.layout.split row = .ok targets ∧
      ∀ target ∈ targets, ∃ part ∈ policy.layout.action_parts, target.side = part.side ∧
        (part.field = "q_d" → ∃ r, policy.q_slices part.side = some r ∧
          broadcast part.dim ((state.drop r.1).take (r.2 - r.1)) = some target.primary) ∧
        (part.field ≠ "q_d" → target.primary = List.replicate part.dim 0) := by
  unfold HoldPolicy.infer at hrows
  obtain ⟨action, hfill, hpure⟩ := bind_ok.1 hrows
  have heq := pure_ok.1 hpure
  rw [← heq] at hrow
  obtain rfl := List.eq_of_mem_replicate hrow
  have hwidth : ∀ b ∈ policy.layout.action_blocks, ∀ w,
      policy.block_value state b = .ok w → w.length = b.width := by
    intro b hb w hw
    obtain ⟨value, rfl, hlen, _⟩ := block_value_ok hw
    rw [width_action_block hb, List.length_append, hlen]
    rfl
  obtain ⟨hlength, -, hslices⟩ := fill_spec hwidth
    (by rw [List.length_replicate, Nat.zero_add]; rfl) hfill
  have hsize : row.length = policy.layout.action_dim := hlength.trans List.length_replicate
  refine ⟨policy.layout.action_blocks.map (split_block row), ?_, ?_⟩
  · unfold split
    rw [if_neg (not_not.2 hsize)]
  · intro target htarget
    obtain ⟨b, hb, rfl⟩ := List.mem_map.1 htarget
    obtain ⟨value, hvalue, hlen, hjoints, hzeros⟩ := block_value_ok (hslices b hb)
    rw [split_block_of_slice (width_action_block hb) hlen hvalue]
    exact ⟨b.label, label_mem hb, rfl, hjoints, hzeros⟩

end Returned

/-! ## What the loop makes of it -/

section Posted

variable {F F32 U8 : Type} [Zero F] {f32 : F → F32} {f64 : F32 → F} {u8 : F → U8}
  {snapshot : Observation F} {held : String → String → Option (List F)} {side : String}
  {control : ControlCfg} {primary f : String}

/-- There is one way to fill a field that asks for no motion. -/
theorem AtRest.unique {part part' : List F}
    (h : AtRest f32 f64 snapshot held side control primary f part)
    (h' : AtRest f32 f64 snapshot held side control primary f part') : part = part' := by
  unfold AtRest at h h'
  by_cases habs : f ∈ ABSOLUTE_FIELDS
  · rw [if_pos habs] at h h'
    by_cases hprimary : f = primary
    · rw [if_pos hprimary] at h h'
      obtain ⟨value, hvalue, rfl⟩ := h
      obtain ⟨value', hvalue', rfl⟩ := h'
      rw [Option.some.inj (hvalue.symm.trans hvalue')]
    · rw [if_neg hprimary] at h h'
      exact Option.some.inj (h.symm.trans h')
  · rw [if_neg habs] at h h'
    obtain ⟨dim, hdim, rfl⟩ := h
    obtain ⟨dim', hdim', rfl⟩ := h'
    rw [Option.some.inj (hdim.symm.trans hdim')]

omit [Zero F] in
/-- What the loop holds for a field that the policy does not set. -/
theorem capture_holds_field {loop : EvalLoop} (harm : (side, control) ∈ loop.control_arms)
    (hsame : ∀ control', (side, control') ∈ loop.control_arms → control' = control)
    (hprimary : ACTION_PRIMARY control.kind = some primary) (hf : f ∈ control.streamed)
    (hne : f ≠ primary) (habs : f ∈ ABSOLUTE_FIELDS) :
    capture_holds loop snapshot held side f =
      (measured_field snapshot side f).or (held side f) := by
  -- the dict of the loop gives the side the control it has in the list
  have hlookup : loop.control_arms.lookup side = some control := by
    cases hfound : loop.control_arms.lookup side with
    | none =>
      have hnone := List.lookup_eq_none_iff.1 hfound _ harm
      exact absurd hnone (by simp)
    | some control' =>
      obtain ⟨front, back, hsplit, _⟩ := List.lookup_eq_some_iff.1 hfound
      have hmem : (side, control') ∈ loop.control_arms := by
        rw [hsplit]
        exact List.mem_append_right _ List.mem_cons_self
      rw [hsame control' hmem]
  obtain ⟨fields, hfields⟩ := loop.mapped _ harm
  have hhold : loop.hold side = fields := by
    unfold EvalLoop.hold
    rw [hlookup]
    dsimp only at hfields ⊢
    rw [hfields]
  -- the field is among those the loop remembers for the side
  have hcontains : (loop.hold side).contains f = true := by
    rw [hhold, List.contains_iff_mem]
    exact (mem_hold hprimary hfields).2 ⟨hf, hne, habs⟩
  unfold capture_holds
  rw [if_pos hcontains]
  rfl

/-- Everything but the primary field is filled with what asks for no motion. -/
theorem rest_of_value {loop : EvalLoop} (harm : (side, control) ∈ loop.control_arms)
    (hsame : ∀ control', (side, control') ∈ loop.control_arms → control' = control)
    (hprimary : ACTION_PRIMARY control.kind = some primary) (hf : f ∈ control.streamed)
    (hne : f ≠ primary) {value part : List F}
    (hpart : control.action_value primary value (capture_holds loop snapshot held side) f =
      .ok part) : AtRest f32 f64 snapshot held side control primary f part := by
  unfold AtRest
  by_cases habs : f ∈ ABSOLUTE_FIELDS
  · rw [if_pos habs, if_neg hne, ← capture_holds_field harm hsame hprimary hf hne habs]
    -- an absolute field is sent as held, any other as zeros
    exact (action_value_held hne habs).1 hpart
  · rw [if_neg habs]
    obtain ⟨dim, hdim, hzeros⟩ := (action_value_zeros hne habs).1 hpart
    exact ⟨dim, hdim, hzeros.symm⟩

/-- A posted setpoint asks for no motion exactly when its primary field does. -/
theorem no_motion_iff {loop : EvalLoop} (harm : (side, control) ∈ loop.control_arms)
    (hsame : ∀ control', (side, control') ∈ loop.control_arms → control' = control)
    (hprimary : ACTION_PRIMARY control.kind = some primary) {value setpoint : List F}
    (hpack : control.pack_action value (capture_holds loop snapshot held side) = .ok setpoint) :
    NoMotion f32 f64 snapshot held side control setpoint ↔
      (primary ∈ control.streamed →
        AtRest f32 f64 snapshot held side control primary primary value) := by
  obtain ⟨primary', parts, hprimary', hparts, hflatten⟩ := pack_action_ok.1 hpack
  obtain rfl := Option.some.inj (hprimary.symm.trans hprimary')
  have hvalues := List.forall₂_iff_get.1 hparts
  constructor
  · -- the two ways to read the setpoint agree field by field but for the primary field:
    -- there one part stands for all, since they have one length
    rintro ⟨primary', rests, hprimary', hrests, hsetpoint⟩ hstreamed
    obtain rfl := Option.some.inj (hprimary.symm.trans hprimary')
    have hat := List.forall₂_iff_get.1 hrests
    -- the place of the primary field, and the two values there
    obtain ⟨i, hi, hfield⟩ := List.getElem_of_mem hstreamed
    have hi' : i < parts.length := by
      rw [← hparts.length_eq]
      exact hi
    have hi'' : i < rests.length := by
      rw [← hrests.length_eq]
      exact hi
    have hvalue : parts[i] = value := by
      have h := hvalues.2 i hi hi'
      simp only [List.get_eq_getElem] at h
      rw [hfield, action_value_primary] at h
      exact (Except.ok.inj h).symm
    have hrest : AtRest f32 f64 snapshot held side control primary primary rests[i] := by
      have h := hat.2 i hi hi''
      simp only [List.get_eq_getElem] at h
      rwa [hfield] at h
    have hdiffer : List.Forall₂ (fun a b => a = b ∨ a = value ∧ b = rests[i]) parts rests := by
      apply List.forall₂_iff_get.2
      refine ⟨hparts.length_eq.symm.trans hrests.length_eq, fun j hj hj' => ?_⟩
      have hj'' : j < control.streamed.length := by
        rw [hparts.length_eq]
        exact hj
      have hpart := hvalues.2 j hj'' hj
      have hrest' := hat.2 j hj'' hj'
      simp only [List.get_eq_getElem] at hpart hrest' ⊢
      by_cases hne : control.streamed[j] = primary
      · rw [hne] at hpart hrest'
        rw [action_value_primary] at hpart
        exact Or.inr ⟨(Except.ok.inj hpart).symm, hrest'.unique hrest⟩
      · left
        have hstill : AtRest f32 f64 snapshot held side control primary control.streamed[j]
            parts[j] := rest_of_value harm hsame hprimary (List.getElem_mem hj'') hne hpart
        exact hstill.unique hrest'
    have hpair : (value, rests[i]) ∈ parts.zip rests := by
      apply List.mem_iff_getElem?.2
      refine ⟨i, List.getElem?_zip_eq_some.2 ⟨?_, List.getElem?_eq_getElem hi''⟩⟩
      rw [List.getElem?_eq_getElem hi', hvalue]
    rw [eq_of_flatten_eq hdiffer hpair (hflatten.trans hsetpoint)]
    exact hrest
  · -- the parts of the setpoint themselves are at rest
    intro hstill
    refine ⟨primary, parts, hprimary, ?_, hflatten.symm⟩
    apply List.forall₂_iff_get.2
    refine ⟨hparts.length_eq, fun i hi hi' => ?_⟩
    have hpart := hvalues.2 i hi hi'
    simp only [List.get_eq_getElem] at hpart ⊢
    by_cases hne : control.streamed[i] = primary
    · rw [hne] at hpart ⊢
      rw [action_value_primary] at hpart
      rw [← Except.ok.inj hpart]
      apply hstill
      rw [← hne]
      exact List.getElem_mem hi
    · exact rest_of_value harm hsame hprimary (List.getElem_mem hi) hne hpart

variable (f64) in
/-- The measured joints of a side, as the policy reads them out of the observation. -/
theorem observed_joints {observer : FrameBuilder} {targets : Targets F} {frame : Frame F32 U8}
    (hbuild : observer.build f32 u8 snapshot targets = .ok (some frame)) {r : ℕ × ℕ}
    (hr : observer.layout.state_slice (side, "q") = some r) :
    ∃ value, measured_field snapshot side "q_d" = some value ∧
      ((frame.state.map f64).drop r.1).take (r.2 - r.1) = value.map fun x => f64 (f32 x) := by
  -- a built frame got past the packing of its state
  have hstate : (observer.layout.pack_state f32 fun key => snapshot s!"{key.1}/{key.2}") =
      .ok frame.state := by
    unfold FrameBuilder.build at hbuild
    cases hnewest : newest_of snapshot observer.layout.state_stream_names with
    | none =>
      rw [hnewest] at hbuild
      exact nomatch hbuild
    | some _ =>
      rw [hnewest] at hbuild
      obtain ⟨state, hpack, hbuild⟩ := bind_ok.1 hbuild
      rw [mapError_ok] at hpack
      split at hbuild
      · exact nomatch hbuild
      · obtain ⟨action, _, hbuild⟩ := bind_ok.1 hbuild
        split at hbuild
        · obtain ⟨images, _, hbuild⟩ := bind_ok.1 hbuild
          obtain ⟨_, _, hframe⟩ := Option.map_eq_some_iff.1 (pure_ok.1 hbuild)
          rw [← hframe]
          exact hpack
        · exact nomatch hbuild
  obtain ⟨value, hvalue, hslice⟩ := (pack_state_spec hstate).2 (side, "q") r hr
  refine ⟨value, hvalue, ?_⟩
  rw [← List.map_drop, ← List.map_take, hslice, List.map_map]
  rfl

/-- The primary field asks for no motion exactly when zero does, or the measured joints fit. -/
theorem primary_rests_iff {value : List F} {dim : ℕ}
    (hprimary : ACTION_PRIMARY control.kind = some primary)
    (hdim : control.command.lookup primary = some dim)
    (hjoints : primary = "q_d" → ∃ q, measured_field snapshot side "q_d" = some q ∧
      broadcast dim (q.map fun x => f64 (f32 x)) = some value)
    (hzeros : primary ≠ "q_d" → value = List.replicate dim 0) :
    (primary ∈ control.streamed →
        AtRest f32 f64 snapshot held side control primary primary value) ↔
      RestsAtZero f32 f64 snapshot side control := by
  -- a rate or a wrench stands still at zero
  have hrate : primary ∉ ABSOLUTE_FIELDS →
      AtRest f32 f64 snapshot held side control primary primary value := by
    intro habs
    unfold AtRest
    rw [if_neg habs]
    refine ⟨dim, hdim, hzeros ?_⟩
    rintro rfl
    exact habs (by decide)
  have hfree : control.kind ≠ .qpos → control.kind ≠ .end_effector →
      RestsAtZero f32 f64 snapshot side control :=
    fun hqpos heef => ⟨fun hkind => absurd hkind hqpos, fun hkind => absurd hkind heef⟩
  -- only the two absolute primary fields can ask for motion
  cases hkind : control.kind with
  | qpos =>
    rw [hkind] at hprimary
    obtain rfl := Option.some.inj hprimary
    obtain ⟨q, hq, hvalue⟩ := hjoints rfl
    have hrest : AtRest f32 f64 snapshot held side control "q_d" "q_d" value ↔ dim = q.length := by
      -- repeating a number of joints gives the joints back only at their own length
      have hself := broadcast_eq_self hvalue
      rw [List.length_map] at hself
      unfold AtRest
      rw [if_pos (by decide), if_pos rfl]
      constructor
      · rintro ⟨q', hq', hsame⟩
        have heq : q' = q := Option.some.inj (hq'.symm.trans hq)
        rw [heq] at hsame
        exact (hself.1 hsame).symm
      · intro hlen
        exact ⟨q, hq, hself.2 hlen.symm⟩
    constructor
    · intro h
      refine ⟨fun _ hstreamed => ⟨q, hq, ?_⟩, fun habs => nomatch hkind.symm.trans habs⟩
      rw [hdim, hrest.1 (h hstreamed)]
    · intro h hstreamed
      obtain ⟨q', hq', hlen⟩ := h.joints hkind hstreamed
      have heq : q' = q := Option.some.inj (hq'.symm.trans hq)
      rw [heq, hdim] at hlen
      exact hrest.2 (Option.some.inj hlen)
  | end_effector =>
    rw [hkind] at hprimary
    obtain rfl := Option.some.inj hprimary
    have hvalue := hzeros (by decide)
    have hrest : AtRest f32 f64 snapshot held side control "pose_d" "pose_d" value ↔
        ∃ eef, measured_field snapshot side "pose_d" = some eef ∧
          (eef.map fun x => f64 (f32 x)) = List.replicate dim 0 := by
      unfold AtRest
      rw [if_pos (by decide), if_pos rfl, hvalue]
      exact exists_congr fun eef => and_congr_right fun _ => eq_comm
    constructor
    · intro h
      refine ⟨fun habs => absurd (hkind.symm.trans habs) Kind.noConfusion, fun _ hstreamed => ?_⟩
      obtain ⟨eef, heef, hzero⟩ := hrest.1 (h hstreamed)
      exact ⟨eef, dim, heef, hdim, hzero⟩
    · intro h hstreamed
      obtain ⟨eef, dim', heef, hdim', hzero⟩ := h.pose hkind hstreamed
      rw [← Option.some.inj (hdim.symm.trans hdim')] at hzero
      exact hrest.2 ⟨eef, heef, hzero⟩
  | qvel | eef_vel | force =>
    -- rates and wrenches: both sides hold
    rw [hkind] at hprimary
    obtain rfl := Option.some.inj hprimary
    refine ⟨fun _ => hfree ?_ ?_, fun _ _ => hrate (by decide)⟩
    · rw [hkind]
      exact Kind.noConfusion
    · rw [hkind]
      exact Kind.noConfusion
  | other name =>
    rw [hkind] at hprimary
    exact nomatch hprimary

end Posted

/-! ## The hold policy at the robot -/

section Run

variable {arms : Arms} {state_signals action_sides : List String}
  {cameras : List (String × CameraCfg)} {instruction : String} {video : Bool}
  {observer : FrameBuilder} {policy : HoldPolicy} {loop : EvalLoop}
  {F F32 U8 : Type} [Zero F] {f32 : F → F32} {f64 : F32 → F} {u8 : F → U8}

theorem build_hold_ok {layout : DFCStateActionLayout}
    (h : build_hold layout observer = .ok policy) : policy.layout = layout ∧
      ∀ side, policy.q_slices side = observer.layout.state_slice (side, "q") := by
  unfold build_hold at h
  split at h
  · exact nomatch h
  · rw [← Except.ok.inj h]
    exact ⟨rfl, fun _ => rfl⟩

/-- The action part of a controlled side is its control kind's primary field. -/
theorem HoldRun.part_of_arm
    (hrun : HoldRun arms state_signals action_sides cameras instruction video observer policy loop)
    {part : ActionPart} (hpart : part ∈ loop.layout.action_parts) {control : ControlCfg}
    (harm : (part.side, control) ∈ loop.control_arms) :
    ACTION_PRIMARY control.kind = some part.field ∧
      control.command.lookup part.field = some part.dim := by
  obtain ⟨arm, hget, hcontrol⟩ := hrun.loop_arms _ harm
  dsimp only at hget hcontrol
  obtain ⟨side, _, hbuilt⟩ := element_of_collect (from_arms_ok hrun.loop_layout).2.2 part hpart
  -- the part was built from the arm that the loop drives
  obtain ⟨arm', hget', hfield, hdim, hside⟩ := action_part_ok.1 hbuilt
  rw [← hside, hget] at hget'
  obtain rfl := Except.ok.inj hget'
  rw [hcontrol]
  have hprimary := action_field_ok.1 hfield
  exact ⟨hprimary, (action_dim_ok hprimary).1 hdim⟩

/-- One setpoint packed from a row of the hold policy's chunk rests exactly when each of its fields
asks for what the arm has. -/
theorem packed_rests_iff
    (hrun : HoldRun arms state_signals action_sides cameras instruction video observer policy loop)
    {step : Step F} {rows : List (List F)} (hasked : Asked f32 f64 u8 observer policy step rows)
    {held : String → String → Option (List F)} {post : String × List F}
    (hpost : PackedFrom loop rows (capture_holds loop step.snapshot held) post) :
    ∃ control, (post.1, control) ∈ loop.control_arms ∧
      (NoMotion f32 f64 step.snapshot held post.1 control post.2 ↔
        RestsAtZero f32 f64 step.snapshot post.1 control) := by
  obtain ⟨frame, hbuild, hinfer⟩ := hasked.returned
  obtain ⟨hlayout, hslices⟩ := build_hold_ok hrun.builds
  obtain ⟨row, hrow, targets, hsplit, target, htarget, hside, control, harm, hpack⟩ := hpost
  -- the loop splits the row by the layout that the policy filled it by
  obtain ⟨targets', hsplit', hvalues⟩ := infer_row hinfer hrow
  rw [hlayout, hsplit] at hsplit'
  obtain rfl := Except.ok.inj hsplit'
  obtain ⟨part, hpart, hpart_side, hjoints, hzeros⟩ := hvalues target htarget
  rw [hlayout] at hpart
  have hsides : post.1 = part.side := hside.symm.trans hpart_side
  rw [hsides] at harm hpack ⊢
  obtain ⟨hprimary, hdim⟩ := hrun.part_of_arm hpart harm
  have hsame : ∀ control', (part.side, control') ∈ loop.control_arms → control' = control := by
    intro control' harm'
    obtain ⟨arm, hget, hcontrol⟩ := hrun.loop_arms _ harm
    obtain ⟨arm', hget', hcontrol'⟩ := hrun.loop_arms _ harm'
    have heq : arm' = arm := Except.ok.inj (hget'.symm.trans hget)
    rw [heq] at hcontrol'
    exact hcontrol'.trans hcontrol.symm
  refine ⟨control, harm, ?_⟩
  rw [no_motion_iff harm hsame hprimary hpack]
  apply primary_rests_iff hprimary hdim
  · intro hfield
    obtain ⟨r, hr, hbroadcast⟩ := hjoints hfield
    rw [hslices] at hr
    -- the observed joints are those of the snapshot, through the two roundings
    obtain ⟨q, hq, hslice⟩ := observed_joints f64 hbuild hr
    rw [hslice] at hbroadcast
    exact ⟨q, hq, hbroadcast⟩
  · exact hzeros

/-- Every setpoint that the loop posts while it executes a chunk of the hold policy asks its arm
for no motion exactly when that arm rests at what the policy sends: at its measured joints, and
where it streams a pose, at the pose that is all zeros. -/
theorem hold_policy_stands_still
    (hrun : HoldRun arms state_signals action_sides cameras instruction video observer policy loop)
    {s : EvalState F} (hpending : s.pending = []) {step : Step F} {rows : List (List F)}
    (hasked : Asked f32 f64 u8 observer policy step rows) {rest : List (Step F)}
    (hrest : rest.length < (loop.chunk_prefix rows).length) :
    ∃ new, (exec (run loop (step :: rest)) s).2.posts = s.posts ++ new ∧
      ∀ post ∈ new, ∃ control, (post.1, control) ∈ loop.control_arms ∧
        (NoMotion f32 f64 step.snapshot s.held post.1 control post.2 ↔
          RestsAtZero f32 f64 step.snapshot post.1 control) := by
  obtain ⟨width, uniform, houtcome⟩ := hasked.outcome
  -- the chunk passes the check: it has rows, and they are as wide as the layout
  have hvalid : validate_chunk loop.layout (.matrix width rows uniform) = .ok rows := by
    have hne : rows ≠ [] := by
      intro hnil
      rw [hnil] at hrest
      unfold EvalLoop.chunk_prefix at hrest
      rw [List.take_nil, ite_self] at hrest
      exact absurd hrest (Nat.not_lt_zero _)
    obtain ⟨row, hrow⟩ := List.exists_mem_of_ne_nil rows hne
    obtain ⟨frame, _, hinfer⟩ := hasked.returned
    obtain ⟨targets, hsplit, _⟩ := infer_row hinfer hrow
    rw [(build_hold_ok hrun.builds).1] at hsplit
    have hwidth := not_not.1 (guard_ok.1 hsplit).1
    rw [uniform row hrow] at hwidth
    unfold validate_chunk
    dsimp only
    rw [if_neg]
    rintro (hnil | hwrong)
    · exact hne hnil
    · exact hwrong hwidth
  obtain ⟨new, hposts, hpacked⟩ := chunk_posts hpending hasked.complete houtcome hvalid hrest
  exact ⟨new, hposts, fun post hpost => packed_rests_iff hrun hasked (hpacked post hpost)⟩

end Run

/-! ## A wrench arm beside a pose arm -/

def force_control : ControlCfg :=
  ⟨.force, [("pose_d", 7), ("twist_d", 6), ("wrench_d", 6)], ["wrench_d", "pose_d"]⟩

def pose_control : ControlCfg :=
  ⟨.end_effector, [("pose_d", 7), ("twist_d", 6), ("wrench_d", 6)], ["pose_d", "twist_d"]⟩

/-- A rig with a force-controlled arm and a pose-controlled one. -/
def mixed_rig : Arms where
  entries := [("left", ⟨7, [("q", 7), ("eef", 7)], force_control⟩),
    ("right", ⟨7, [("q", 7), ("eef", 7)], pose_control⟩)]
  nodup := by decide

/-- Its layout, with the given action parts. -/
def mixed_layout (action_parts : List ActionPart)
    (nodup : (action_parts.map ActionPart.side).Nodup) : DFCStateActionLayout :=
  ⟨["q"], ["left", "right"], [(("left", "q"), 7), (("right", "q"), 7)], action_parts, nodup⟩

def mixed_observer : FrameBuilder :=
  ⟨mixed_rig, "hold", ["q"], false, mixed_layout [] List.nodup_nil, []⟩

def mixed_loop : EvalLoop where
  layout := mixed_layout [⟨"left", "wrench_d", 6⟩, ⟨"right", "pose_d", 7⟩] (by decide)
  control_arms := [("left", force_control), ("right", pose_control)]
  writers := ⟨fun _ => some 13, []⟩
  num_timesteps_arg := 50
  replan_steps := 0
  max_consecutive_errors_arg := 3
  mapped := by
    intro arm harm
    rcases List.mem_cons.1 harm with rfl | harm
    · exact ⟨_, rfl⟩
    · rw [List.mem_singleton.1 harm]
      exact ⟨_, rfl⟩

def mixed_policy : HoldPolicy :=
  ⟨mixed_loop.layout, fun side => mixed_observer.layout.state_slice (side, "q"), 10⟩

theorem mixed_hold_run : HoldRun mixed_rig ["q"] ["left", "right"] [] "hold" false mixed_observer
    mixed_policy mixed_loop where
  loop_layout := from_arms_iff.2 ⟨by decide, rfl, by decide, rfl, rfl⟩
  observes := by
    unfold FrameBuilder.init
    rw [show from_arms mixed_rig ["q"] [] = .ok (mixed_layout [] List.nodup_nil) from
      from_arms_iff.2 ⟨by decide, rfl, by decide, rfl, rfl⟩]
    rfl
  builds := by
    rfl
  loop_arms := by
    intro e he
    rcases List.mem_cons.1 he with rfl | he
    · exact ⟨_, rfl, rfl⟩
    · rw [List.mem_singleton.1 he]
      exact ⟨_, rfl, rfl⟩

/-- Both arms rest with their joints at zero and their tool at `[5, 0, 0, 1, 0, 0, 0]`. -/
def mixed_snapshot : Observation ℤ
  | "left/q" => some [0, 0, 0, 0, 0, 0, 0]
  | "left/eef" => some [5, 0, 0, 1, 0, 0, 0]
  | "right/q" => some [0, 0, 0, 0, 0, 0, 0]
  | "right/eef" => some [5, 0, 0, 1, 0, 0, 0]
  | _ => none

def mixed_rows : List (List ℤ) := List.replicate 10 (List.replicate 15 0)

def mixed_step : Step ℤ where
  stop_is_set := false
  snapshot := mixed_snapshot
  complete := true
  outcome := .chunk (.matrix 15 mixed_rows (by decide))

theorem mixed_asked : Asked id id (id : ℤ → ℤ) mixed_observer mixed_policy mixed_step
    mixed_rows where
  complete := rfl
  returned := ⟨⟨List.replicate 14 0, [], "hold", [], [], []⟩, by decide +kernel, by decide +kernel⟩
  outcome := ⟨15, _, rfl⟩

theorem mixed_posts : (exec (run mixed_loop [mixed_step]) EvalState.init).2.posts =
    [("left", [0, 0, 0, 0, 0, 0, 5, 0, 0, 1, 0, 0, 0]), ("right", List.replicate 13 0)] := by
  decide +kernel

/-- The force-controlled arm is held: no wrench, and the pose it has. -/
theorem hold_policy_stands_still_under_force : NoMotion id id mixed_snapshot (fun _ _ => none)
    "left" force_control [0, 0, 0, 0, 0, 0, 5, 0, 0, 1, 0, 0, 0] := by
  have hrest : ([] : List (Step ℤ)).length < (mixed_loop.chunk_prefix mixed_rows).length := by
    decide
  obtain ⟨new, hposts, hstill⟩ :=
    hold_policy_stands_still mixed_hold_run (s := EvalState.init) rfl mixed_asked hrest
  rw [mixed_posts] at hposts
  have hleft : ("left", ([0, 0, 0, 0, 0, 0, 5, 0, 0, 1, 0, 0, 0] : List ℤ)) ∈ new := by
    rw [← List.nil_append new]
    change _ ∈ (EvalState.init : EvalState ℤ).posts ++ new
    rw [← hposts]
    exact List.mem_cons_self
  obtain ⟨control, harm, hiff⟩ := hstill _ hleft
  have hcontrol : control = force_control := by
    rcases List.mem_cons.1 harm with heq | hright
    · exact (Prod.mk.inj heq).2
    · exact absurd (Prod.mk.inj (List.mem_singleton.1 hright)).1 (by decide)
  rw [hcontrol] at hiff
  exact hiff.2 ⟨(nomatch ·), (nomatch ·)⟩

/-- The pose-controlled arm beside it is sent to the origin of its base. -/
theorem zero_pose_is_a_target : ¬ ∀ (arms : Arms) (state_signals action_sides : List String)
    (cameras : List (String × CameraCfg)) (instruction : String) (video : Bool)
    (observer : FrameBuilder) (policy : HoldPolicy) (loop : EvalLoop) (s : EvalState ℤ)
    (step : Step ℤ) (rows : List (List ℤ)) (rest : List (Step ℤ)),
    HoldRun arms state_signals action_sides cameras instruction video observer policy loop →
    s.pending = [] → Asked id id (id : ℤ → ℤ) observer policy step rows →
    rest.length < (loop.chunk_prefix rows).length →
    ∃ new, (exec (run loop (step :: rest)) s).2.posts = s.posts ++ new ∧
      ∀ post ∈ new, ∃ control, (post.1, control) ∈ loop.control_arms ∧
        NoMotion id id step.snapshot s.held post.1 control post.2 := by
  intro h
  obtain ⟨new, hposts, hstill⟩ := h _ _ _ _ _ _ _ _ _ EvalState.init _ _ [] mixed_hold_run rfl
    mixed_asked (by decide)
  rw [mixed_posts] at hposts
  have hright : ("right", (List.replicate 13 0 : List ℤ)) ∈ new := by
    rw [← List.nil_append new]
    change _ ∈ (EvalState.init : EvalState ℤ).posts ++ new
    rw [← hposts]
    exact List.mem_cons_of_mem _ List.mem_cons_self
  obtain ⟨control, harm, primary, parts, hprimary, hparts, hflatten⟩ := hstill _ hright
  have hcontrol : control = pose_control := by
    rcases List.mem_cons.1 harm with heq | hright
    · exact absurd (Prod.mk.inj heq).1 (by decide)
    · exact (Prod.mk.inj (List.mem_singleton.1 hright)).2
  rw [hcontrol] at hprimary hparts
  obtain rfl := Option.some.inj hprimary
  obtain ⟨pose, twists, hpose, _, rfl⟩ := List.forall₂_cons_left_iff.1 hparts
  unfold AtRest at hpose
  rw [if_pos (by decide), if_pos rfl] at hpose
  obtain ⟨value, hvalue, rfl⟩ := hpose
  -- the measured pose starts with 5, the setpoint with 0
  have hmeasured : value = [5, 0, 0, 1, 0, 0, 0] := by
    have h' : measured_field mixed_snapshot "right" "pose_d" = some [5, 0, 0, 1, 0, 0, 0] := by
      decide +kernel
    exact Option.some.inj (hvalue.symm.trans h')
  rw [hmeasured] at hflatten
  exact absurd (List.head_eq_of_cons_eq hflatten) (by decide)

end DualFlexivControl.Policy
