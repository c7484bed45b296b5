/-
The delta-action transform `OpenPIActionDeltas`, over `state_to_action_joint_slices`.

State and action columns do not align, since the grippers are interleaved: the layout pairs each
recorded side's measured joints with its commanded ones, and the transform adds or subtracts the
one from the other in place, on a copy of the actions. A sample holds references to arrays on a
heap, so that what is written in place and what is copied are told apart.
-/
import Mathlib.Algebra.Ring.Int.Defs
import DualFlexivControl.Layout.Columns
import DualFlexivControl.Lib.Effects
import DualFlexivControl.Lib.NdArray

set_option autoImplicit false

namespace DualFlexivControl

open Results Tiling NdArray Effect

namespace DFCStateActionLayout

/-- One side's pair: its measured `q` and its commanded `q_d`. -/
def joint_slices (layout : DFCStateActionLayout) (side : String) : Option ((ℕ × ℕ) × (ℕ × ℕ)) :=
  match layout.state_slice (side, "q"), layout.primary_slice side with
  | some s, some p => if layout.field side = some "q_d" then some (s, p) else none
  | _, _ => none

/-- `state_to_action_joint_slices` -/
def state_to_action_joint_slices (layout : DFCStateActionLayout) :
    List ((ℕ × ℕ) × (ℕ × ℕ)) :=
  layout.sides.filterMap layout.joint_slices

/-- `bimanual_qpos`: the deployed two-Rizon qpos contract. -/
def bimanual_qpos : DFCStateActionLayout where
  state_signals := ["q"]
  state_sides := ["left", "right"]
  state_parts := [(("left", "q"), 7), (("right", "q"), 7)]
  action_parts := [⟨"left", "q_d", 7⟩, ⟨"right", "q_d", 7⟩]
  nodup := by decide

/-- A side whose field is `q_d` and whose `q` is in the state, with the slices of both. -/
structure Paired (layout : DFCStateActionLayout) (side : String) (s p : ℕ × ℕ) : Prop where
  field : layout.field side = some "q_d"
  measured : layout.state_slice (side, "q") = some s
  commanded : layout.primary_slice side = some p

variable {layout : DFCStateActionLayout} {side : String} {s p : ℕ × ℕ}

theorem joint_slices_eq_some : layout.joint_slices side = some (s, p) ↔ layout.Paired side s p := by
  unfold joint_slices
  constructor
  · intro h
    split at h
    · split at h
      · obtain ⟨rfl, rfl⟩ := Prod.mk.inj (Option.some.inj h)
        exact ⟨‹_›, ‹_›, ‹_›⟩
      · exact absurd h (by simp)
    · exact absurd h (by simp)
  · intro h
    rw [h.measured, h.commanded]
    exact if_pos h.field

theorem mem_joint_slices :
    (s, p) ∈ layout.state_to_action_joint_slices ↔ ∃ side, layout.Paired side s p := by
  unfold state_to_action_joint_slices
  rw [List.mem_filterMap]
  refine exists_congr fun side => ?_
  rw [joint_slices_eq_some, and_iff_right_iff_imp]
  intro h
  obtain ⟨b, hb, hside, -⟩ := primary_slice_eq_some.1 h.commanded
  exact exists_action_block.1 ⟨b, hb, hside⟩

theorem state_slice_bounds {key : String × String} (h : layout.state_slice key = some s) :
    s.1 ≤ s.2 ∧ s.2 ≤ layout.state_dim := by
  obtain ⟨b, hb, rfl⟩ := Option.map_eq_some_iff.1 h
  have hbounds := place_bounds ((last_per_key_sublist _).subset (mem_of_block_at hb).1)
  rw [Nat.zero_add] at hbounds
  exact hbounds.2

theorem primary_slice_bounds (h : layout.primary_slice side = some p) :
    p.1 ≤ p.2 ∧ p.2 ≤ layout.action_dim :=
  action_partition.bounds (.primary side) p h

/-- The slices that are written share no column, so no column is made relative twice. -/
theorem joint_slices_disjoint : layout.state_to_action_joint_slices.Pairwise fun a b =>
    ∀ k, a.2.1 ≤ k → k < a.2.2 → ¬ (b.2.1 ≤ k ∧ k < b.2.2) := by
  unfold state_to_action_joint_slices
  rw [List.pairwise_filterMap]
  refine layout.nodup.imp ?_
  rintro side side' hne ⟨s, p⟩ hpair ⟨s', p'⟩ hpair' k hle hlt ⟨hle', hlt'⟩
  have h := action_partition.disjoint (.primary side) (.primary side') p p' k
    (joint_slices_eq_some.1 hpair).commanded (joint_slices_eq_some.1 hpair').commanded
    hle hlt hle' hlt'
  exact hne (ActionKey.primary.inj h)

end DFCStateActionLayout

namespace Deltas

open DFCStateActionLayout

/-! ## The transform -/

/-- What the transform raises. -/
inductive DeltaError
  | no_state
  | no_axis
  | state_joints (expected : ℕ) (shape : List ℕ)
  | action_values (expected : ℕ) (shape : List ℕ)
  | not_broadcast
  | dangling
  deriving DecidableEq, Repr

/-- The arrays there are, each under its index. -/
abbrev Heap (R : Type) := List (NdArray R)

/-- A sample's dict: the arrays under `"state"` and `"actions"`, and what it holds beside them. -/
structure Sample (V : Type) where
  state : Option ℕ
  actions : Option ℕ
  rest : V
  deriving DecidableEq, Repr

section Transform

variable {R V : Type}

/-- The array behind a reference. -/
def load (ref : ℕ) : Effect DeltaError (Heap R) (NdArray R) := do
  match (← get)[ref]? with
  | some a => pure a
  | none => throw .dangling

/-- `a.copy()` -/
def copy (a : NdArray R) : Effect DeltaError (Heap R) ℕ := do
  let heap ← get
  update (· ++ [a])
  pure heap.length

/-- `if a.shape[-1] < expected: raise`; an array without axes has no last one. -/
def check_width (expected : ℕ) (raises : ℕ → List ℕ → DeltaError) (a : NdArray R) :
    Effect DeltaError (Heap R) Unit :=
  match a.axes with
  | [] => throw .no_axis
  | n :: _ => if n < expected then throw (raises expected a.shape) else pure ()

variable [Ring R]

/-- `actions[..., action_slice] += sign * state[..., None, state_slice]` -/
def add_pair (sign : R) (state actions : ℕ) (pair : (ℕ × ℕ) × (ℕ × ℕ)) :
    Effect DeltaError (Heap R) Unit := do
  let measured ← load state
  let commanded ← load actions
  match take_rows pair.1 measured with
  | none => throw .no_axis
  | some rows =>
    match iadd_columns pair.2 (rows.scale sign) commanded with
    | none => throw .not_broadcast
    | some out => update fun heap => heap.set actions out

/-- The loop over the pairs. -/
def add_pairs (sign : R) (state actions : ℕ) :
    List ((ℕ × ℕ) × (ℕ × ℕ)) → Effect DeltaError (Heap R) Unit
  | [] => pure ()
  | pair :: rest => do
    add_pair sign state actions pair
    add_pairs sign state actions rest

/-- `sign` -/
def sign (inverse : Bool) : R := if inverse then 1 else -1

/-- `OpenPIActionDeltas.__call__` -/
def OpenPIActionDeltas (inverse : Bool) (layout : DFCStateActionLayout) (data : Sample V) :
    Effect DeltaError (Heap R) (Sample V) :=
  match data.actions, data.state with
  | none, _ => pure data
  | some _, none => throw .no_state
  | some given, some state => do
    let measured ← load state
    let commanded ← load given
    let actions ← copy commanded
    check_width layout.state_dim .state_joints measured
    check_width layout.action_dim .action_values commanded
    add_pairs (sign inverse) state actions layout.state_to_action_joint_slices
    pure { data with actions := some actions }

end Transform

/-! ## What a run does -/

section Runs

variable {R V : Type} {heap : Heap R} {state actions : ℕ}

theorem returns_load {a : NdArray R} (h : heap[state]? = some a) :
    Returns (load state) heap (.ok a) := by
  have hexec : exec (load state) heap = exec (match heap[state]? with
      | some a => (pure a : Effect DeltaError (Heap R) (NdArray R))
      | none => throw .dangling) heap := rfl
  unfold Returns
  rw [hexec, h]
  rfl

theorem ensures_copy_bind {α : Type} {f : ℕ → Effect DeltaError (Heap R) α} {a : NdArray R}
    {Q : Except DeltaError α → Heap R → Prop} :
    Ensures (copy a >>= f) heap Q ↔ Ensures (f heap.length) (heap ++ [a]) Q := Iff.rfl

/-- There is a last axis, and it has `n` places. -/
def Wide (n : ℕ) : List ℕ → Prop
  | [] => False
  | m :: _ => n ≤ m

/-- The check passes wide arrays and raises for others, without a look at their values and without a
change. -/
theorem returns_check_width {n : ℕ} {raises : ℕ → List ℕ → DeltaError} {a : NdArray R} :
    (Wide n a.axes ∧ Returns (check_width n raises a) heap (.ok ())) ∨
      (¬ Wide n a.axes ∧ ∃ e, Returns (check_width n raises a) heap (.error e)) := by
  obtain ⟨_ | ⟨m, lead⟩, x⟩ := a
  · exact Or.inr ⟨id, .no_axis, rfl⟩
  · by_cases hm : m < n
    · refine Or.inr ⟨Nat.not_le_of_lt hm, raises n (NdArray.shape ⟨m :: lead, x⟩), ?_⟩
      unfold check_width
      dsimp only
      rw [if_pos hm]
      rfl
    · refine Or.inl ⟨Nat.le_of_not_lt hm, ?_⟩
      unfold check_width
      dsimp only
      rw [if_neg hm]
      rfl

variable [Ring R] {d w : ℕ} {slead lead : List ℕ} {x : Index (d :: slead) → R}
  {y : Index (w :: lead) → R} {c : R}

/-- A pair's slices fit two arrays of these axes. -/
def PairFits (slead lead : List ℕ) (pair : (ℕ × ℕ) × (ℕ × ℕ)) : Prop :=
  WidthsFit pair.1 pair.2 ∧ Reaches (1 :: slead) lead

/-- Both slices of a pair lie in their axes. -/
def PairInside (d w : ℕ) (pair : (ℕ × ℕ) × (ℕ × ℕ)) : Prop :=
  (pair.1.1 ≤ pair.1.2 ∧ pair.1.2 ≤ d) ∧ (pair.2.1 ≤ pair.2.2 ∧ pair.2.2 ≤ w)

/-- One pair: where it fits, the actions move by its addends and nothing else changes. -/
theorem ensures_add_pair {pair : (ℕ × ℕ) × (ℕ × ℕ)} (hinside : PairInside d w pair)
    (hstate : heap[state]? = some ⟨d :: slead, x⟩)
    (hactions : heap[actions]? = some ⟨w :: lead, y⟩) :
    Ensures (add_pair c state actions pair) heap fun r heap' =>
      (PairFits slead lead pair ∧ r = .ok () ∧ heap' = heap.set actions ⟨w :: lead, fun i =>
        y i + c * addend pair.1 pair.2 ⟨d :: slead, x⟩ i.1.val i.2⟩) ∨
      (¬ PairFits slead lead pair ∧ r = .error .not_broadcast ∧ heap' = heap) := by
  obtain ⟨rows, htake, hadd⟩ :=
    iadd_take_rows (x := x) (y := y) c hinside.1 hinside.2
  unfold add_pair
  rw [ensures_bind, (returns_load hstate).ensures_iff]
  dsimp only
  rw [ensures_bind, (returns_load hactions).ensures_iff]
  dsimp only
  rw [htake]
  dsimp only
  cases hout : iadd_columns pair.2 (rows.scale c) ⟨w :: lead, y⟩ with
  | none =>
    rw [ensures_throw]
    refine Or.inr ⟨fun hfits => ?_, rfl, rfl⟩
    rw [(hadd _).2 ⟨hfits, rfl⟩] at hout
    exact absurd hout (by simp)
  | some out =>
    obtain ⟨hfits, rfl⟩ := (hadd out).1 hout
    rw [ensures_update]
    exact Or.inl ⟨hfits, rfl, rfl⟩

/-- The whole loop: the actions move by the sum of the addends, and no other array changes. -/
theorem ensures_add_pairs {pairs : List ((ℕ × ℕ) × (ℕ × ℕ))} :
    ∀ {heap : Heap R} {y : Index (w :: lead) → R}, (∀ pair ∈ pairs, PairInside d w pair) →
      state ≠ actions → heap[state]? = some ⟨d :: slead, x⟩ →
      heap[actions]? = some ⟨w :: lead, y⟩ →
      Ensures (add_pairs c state actions pairs) heap fun r heap' =>
        (∀ ref, ref ≠ actions → heap'[ref]? = heap[ref]?) ∧
        (((∀ pair ∈ pairs, PairFits slead lead pair) ∧ r = .ok () ∧
          heap'[actions]? = some ⟨w :: lead, fun i => y i + c *
            (pairs.map fun pair => addend pair.1 pair.2 ⟨d :: slead, x⟩ i.1.val i.2).sum⟩) ∨
        ((¬ ∀ pair ∈ pairs, PairFits slead lead pair) ∧ r = .error .not_broadcast)) := by
  -- over the pairs, with the actions as the earlier ones left them
  induction pairs with
  | nil =>
    intro heap y _ _ _ hactions
    refine ⟨fun _ _ => rfl, Or.inl ⟨fun _ h => absurd h List.not_mem_nil, rfl, ?_⟩⟩
    simp only [List.map_nil, List.sum_nil, mul_zero, add_zero]
    exact hactions
  | cons pair rest ih =>
    intro heap y hinside hne hstate hactions
    have hlt : actions < heap.length := (List.getElem?_eq_some_iff.1 hactions).1
    refine (ensures_add_pair (hinside pair List.mem_cons_self) hstate hactions).bind ?_ ?_
    · rintro _ heap' (⟨hfits, -, rfl⟩ | ⟨-, h, -⟩)
      · refine (ih (fun pair' h => hinside pair' (List.mem_cons_of_mem _ h)) hne
          ((List.getElem?_set_ne hne.symm).trans hstate) (List.getElem?_set_self hlt)).imp ?_
        rintro r heap' ⟨hframe, hrun⟩
        refine ⟨fun ref href => (hframe ref href).trans (List.getElem?_set_ne href.symm), ?_⟩
        rw [List.forall_mem_cons]
        rcases hrun with ⟨hall, rfl, hout⟩ | ⟨hall, rfl⟩
        · refine Or.inl ⟨⟨hfits, hall⟩, rfl, ?_⟩
          simp only [List.map_cons, List.sum_cons, mul_add, ← add_assoc]
          exact hout
        · exact Or.inr ⟨fun h => hall h.2, rfl⟩
      · exact absurd h (by simp)
    · rintro e heap' (⟨-, h, -⟩ | ⟨hfits, h, rfl⟩)
      · exact absurd h (by simp)
      · refine ⟨fun _ _ => rfl, Or.inr ⟨fun hall => ?_, h⟩⟩
        exact hfits (hall pair List.mem_cons_self)

end Runs

/-! ## The whole call -/

/-- The shapes fit the layout: both arrays are wide enough, and for every pair the widths fit and
the state's rows reach into the actions' rows, behind the axis that is put before its last. -/
structure Fits (layout : DFCStateActionLayout) (state actions : List ℕ) : Prop where
  joints : Wide layout.state_dim state
  values : Wide layout.action_dim actions
  pairs : ∀ side s p, layout.Paired side s p →
    WidthsFit s p ∧ Reaches (1 :: state.tail) actions.tail

section Call

variable {R V : Type} [Ring R] {layout : DFCStateActionLayout} {inverse : Bool} {c : R}
  {measured commanded : NdArray R}

/-- The actions, with every entry moved by the sum of its addends. -/
def moved (layout : DFCStateActionLayout) (c : R) (state : NdArray R) : NdArray R → NdArray R
  | ⟨[], y⟩ => ⟨[], y⟩
  | ⟨w :: lead, y⟩ => ⟨w :: lead, fun i => y i + c *
      (layout.state_to_action_joint_slices.map fun pair =>
        addend pair.1 pair.2 state i.1.val i.2).sum⟩

theorem moved_axes : (moved layout c measured commanded).axes = commanded.axes := by
  obtain ⟨_ | ⟨w, lead⟩, y⟩ := commanded <;> rfl

/-- The addends do not depend on what they are added to, so the opposite move undoes one. -/
theorem moved_neg_moved : moved layout (-c) measured (moved layout c measured commanded) =
    commanded := by
  obtain ⟨_ | ⟨w, lead⟩, y⟩ := commanded
  · rfl
  · refine congrArg (NdArray.mk (w :: lead)) (funext fun i => ?_)
    rw [neg_mul, add_neg_cancel_right]

theorem sign_not : (sign (!inverse) : R) = -sign inverse := by
  cases inverse
  · exact (neg_neg 1).symm
  · rfl

/-- A pair of the layout lies inside arrays that are wide enough. -/
theorem pair_inside {d w : ℕ} (hd : layout.state_dim ≤ d) (hw : layout.action_dim ≤ w) :
    ∀ pair ∈ layout.state_to_action_joint_slices, PairInside d w pair := by
  rintro ⟨s, p⟩ hpair
  obtain ⟨side, h⟩ := mem_joint_slices.1 hpair
  have hs := state_slice_bounds h.measured
  have hp := primary_slice_bounds h.commanded
  exact ⟨⟨hs.1, hs.2.trans hd⟩, ⟨hp.1, hp.2.trans hw⟩⟩

/-- A call on two arrays returns exactly where their shapes fit, the copy holds the moved actions,
and the arrays that were there are as they were in any case. -/
theorem ensures_call_deltas {heap : Heap R} {data : Sample V} {state given : ℕ}
    (hstate : data.state = some state) (hmeasured : heap[state]? = some measured)
    (hgiven : data.actions = some given) (hcommanded : heap[given]? = some commanded) :
    Ensures (OpenPIActionDeltas inverse layout data) heap fun r heap' =>
      (∀ ref, ref < heap.length → heap'[ref]? = heap[ref]?) ∧
      ((Fits layout measured.axes commanded.axes ∧
        r = .ok { data with actions := some heap.length } ∧
        heap'[heap.length]? = some (moved layout (sign inverse) measured commanded)) ∨
      (¬ Fits layout measured.axes commanded.axes ∧ ∃ e, r = .error e)) := by
  have hlt : state < heap.length := (List.getElem?_eq_some_iff.1 hmeasured).1
  have hframe : ∀ ref, ref < heap.length → (heap ++ [commanded])[ref]? = heap[ref]? :=
    fun ref href => List.getElem?_append_left href
  unfold OpenPIActionDeltas
  rw [hgiven, hstate]
  dsimp only
  rw [ensures_bind, (returns_load hmeasured).ensures_iff]
  dsimp only
  rw [ensures_bind, (returns_load hcommanded).ensures_iff]
  dsimp only
  rw [ensures_copy_bind]
  -- both widths are checked before anything is added
  rcases returns_check_width with ⟨hjoints, hcheck⟩ | ⟨hjoints, e, hcheck⟩
  · rw [ensures_bind, hcheck.ensures_iff]
    dsimp only
    -- the copy is the last array of the heap, so the loop touches no other
    rcases returns_check_width with ⟨hvalues, hcheck⟩ | ⟨hvalues, e, hcheck⟩
    · rw [ensures_bind, hcheck.ensures_iff]
      dsimp only
      obtain ⟨_ | ⟨d, slead⟩, x⟩ := measured
      · exact hjoints.elim
      obtain ⟨_ | ⟨w, lead⟩, y⟩ := commanded
      · exact hvalues.elim
      refine (ensures_add_pairs (x := x) (y := y) (pair_inside hjoints hvalues) (Nat.ne_of_lt hlt)
        ((hframe state hlt).trans hmeasured) (List.getElem?_concat_length ..)).bind ?_ ?_
      · rintro _ heap' ⟨hothers, ⟨hpairs, -, hmoved⟩ | ⟨-, h⟩⟩
        · refine ⟨fun ref href => (hothers ref (Nat.ne_of_lt href)).trans (hframe ref href),
            Or.inl ⟨⟨hjoints, hvalues, ?_⟩, rfl, hmoved⟩⟩
          intro side s p hpair
          exact hpairs (s, p) (mem_joint_slices.2 ⟨side, hpair⟩)
        · exact absurd h (by simp)
      · rintro e heap' ⟨hothers, ⟨-, h, -⟩ | ⟨hpairs, -⟩⟩
        · exact absurd h (by simp)
        · refine ⟨fun ref href => (hothers ref (Nat.ne_of_lt href)).trans (hframe ref href),
            Or.inr ⟨fun h => hpairs ?_, e, rfl⟩⟩
          rintro ⟨s, p⟩ hpair
          obtain ⟨side, hpair⟩ := mem_joint_slices.1 hpair
          exact h.pairs side s p hpair
    · rw [ensures_bind, hcheck.ensures_iff]
      exact ⟨hframe, Or.inr ⟨fun h => hvalues h.values, e, rfl⟩⟩
  · rw [ensures_bind, hcheck.ensures_iff]
    exact ⟨hframe, Or.inr ⟨fun h => hjoints h.joints, e, rfl⟩⟩

/-! ## Which entries move -/

/-- What a call does to column `k` of a row `l`: the joints of a paired side move by that side's own
measured joint, and every other column is as it was. -/
structure Shift (layout : DFCStateActionLayout) (c : R) (state : NdArray R) {lead : List ℕ} (k : ℕ)
    (l : Index lead) (old new : R) : Prop where
  joints : ∀ side s p, layout.Paired side s p → p.1 ≤ k → k < p.2 →
    ∃ q, state.read (column s p k) l = some q ∧ new = old + c * q
  gripper : ∀ side, layout.gripper_index side = some k → new = old
  other : ∀ side p, layout.primary_slice side = some p → (∀ s, ¬ layout.Paired side s p) →
    p.1 ≤ k → k < p.2 → new = old
  padding : layout.action_dim ≤ k → new = old

/-- Two action arrays of one shape, the second shifted from the first entry by entry. -/
def Shifted (layout : DFCStateActionLayout) (c : R) (state actions out : NdArray R) : Prop :=
  ∃ w lead y y', actions = ⟨w :: lead, y⟩ ∧ out = ⟨w :: lead, y'⟩ ∧
    ∀ i : Index (w :: lead), Shift layout c state i.1.val i.2 (y i) (y' i)

/-- A column that no pair writes is as it was. -/
theorem sum_addends_unpaired {lead : List ℕ} {k : ℕ} {l : Index lead}
    (h : ∀ side s p, layout.Paired side s p → p.1 ≤ k → ¬ k < p.2) :
    (layout.state_to_action_joint_slices.map fun pair =>
      addend pair.1 pair.2 measured k l).sum = 0 := by
  refine sum_addends_eq_zero ?_
  rintro ⟨s, p⟩ hpair ⟨hle, hlt⟩
  obtain ⟨side, hpair⟩ := mem_joint_slices.1 hpair
  exact h side s p hpair hle hlt

theorem moved_shifted (hfits : Fits layout measured.axes commanded.axes) :
    Shifted layout c measured commanded (moved layout c measured commanded) := by
  obtain ⟨hjoints, hvalues, hpairs⟩ := hfits
  obtain ⟨_ | ⟨d, slead⟩, x⟩ := measured
  · exact hjoints.elim
  obtain ⟨_ | ⟨w, lead⟩, y⟩ := commanded
  · exact hvalues.elim
  refine ⟨w, lead, y, _, rfl, rfl, fun i => ?_⟩
  have hstays : (∀ side s p, layout.Paired side s p → p.1 ≤ i.1.val → ¬ i.1.val < p.2) →
      y i + c * (layout.state_to_action_joint_slices.map fun pair =>
        addend pair.1 pair.2 ⟨d :: slead, x⟩ i.1.val i.2).sum = y i := by
    intro h
    rw [sum_addends_unpaired h, mul_zero, add_zero]
  constructor
  case joints =>
    intro side s p hpair hle hlt
    have hs := state_slice_bounds hpair.measured
    have hfit := hpairs side s p hpair
    have hcolumn := column_bounds hfit.1 hs.1 hle hlt
    have hread := read_eq (x := x) hfit.2
      (Nat.lt_of_lt_of_le hcolumn.2 (hs.2.trans hjoints)) i.2
    have hsum := sum_addends_eq (a := ⟨d :: slead, x⟩) (l := i.2) joint_slices_disjoint
      (mem_joint_slices.2 ⟨side, hpair⟩) hle hlt
    exact ⟨_, hread, congrArg (y i + c * ·) (hsum.trans (addend_of_read ⟨hle, hlt⟩ hread))⟩
  case gripper =>
    intro side hgripper
    refine hstays fun side' s p hpair hle hlt => ?_
    -- the gripper's own entry would lie in a primary slice too
    have hrange : layout.action_range (.gripper side) = some (i.1.val, i.1.val + 1) := by
      show (layout.gripper_index side).map _ = _
      rw [hgripper]
      rfl
    exact nomatch action_partition.disjoint (.primary side') (.gripper side) p _ i.1.val
      hpair.commanded hrange hle hlt (Nat.le_refl _) (Nat.lt_succ_self _)
  case other =>
    intro side p hprimary hunpaired hle hlt
    refine hstays fun side' s p' hpair hle' hlt' => ?_
    have hsame := action_partition.disjoint (.primary side) (.primary side') p p' i.1.val
      hprimary hpair.commanded hle hlt hle' hlt'
    obtain rfl := ActionKey.primary.inj hsame
    obtain rfl := Option.some.inj (hpair.commanded.symm.trans hprimary)
    exact hunpaired s hpair
  case padding =>
    intro hpadding
    refine hstays fun side s p hpair hle hlt => ?_
    have hp := primary_slice_bounds hpair.commanded
    omega

end Call

/-! ## There and back -/

/-- A call on two arrays returns exactly where their shapes fit, and leaves every array as it was.
Its result differs in the actions alone: they are a new array, whose joints of each paired side are
moved by that side's own measured joints, and the opposite call gives the old actions back. -/
theorem deltas_invertible_and_local {R V : Type} [Ring R] (layout : DFCStateActionLayout)
    (inverse : Bool) (heap : Heap R) (data : Sample V) {state given : ℕ}
    {measured commanded : NdArray R} (hstate : data.state = some state)
    (hmeasured : heap[state]? = some measured) (hgiven : data.actions = some given)
    (hcommanded : heap[given]? = some commanded) :
    ((∃ result, (exec (OpenPIActionDeltas inverse layout data) heap).1 = .ok result) ↔
      Fits layout measured.axes commanded.axes) ∧
    (∀ ref, ref < heap.length →
      (exec (OpenPIActionDeltas inverse layout data) heap).2[ref]? = heap[ref]?) ∧
    ∀ result heap', exec (OpenPIActionDeltas inverse layout data) heap = (.ok result, heap') →
      ∃ ref out, result = { data with actions := some ref } ∧ heap.length ≤ ref ∧
        heap'[ref]? = some out ∧ Shifted layout (sign inverse) measured commanded out ∧
        ∃ ref' heap'', exec (OpenPIActionDeltas (!inverse) layout result) heap' =
          (.ok { data with actions := some ref' }, heap'') ∧ heap''[ref']? = some commanded := by
  have hlt : state < heap.length := (List.getElem?_eq_some_iff.1 hmeasured).1
  obtain ⟨hframe, hrun⟩ : Ensures (OpenPIActionDeltas inverse layout data) heap _ :=
    ensures_call_deltas hstate hmeasured hgiven hcommanded
  refine ⟨?_, hframe, ?_⟩
  · rcases hrun with ⟨hfits, hr, -⟩ | ⟨hfits, e, hr⟩
    · rw [hr]
      exact ⟨fun _ => hfits, fun _ => ⟨_, rfl⟩⟩
    · rw [hr]
      exact ⟨fun ⟨result, h⟩ => absurd h (by simp), fun h => absurd h hfits⟩
  · intro result heap' hexec
    rw [hexec] at hframe hrun
    rcases hrun with ⟨hfits, hr, hout⟩ | ⟨-, e, hr⟩
    · obtain rfl := Except.ok.inj hr
      obtain ⟨-, hback⟩ : Ensures (OpenPIActionDeltas (!inverse) layout
          { data with actions := some heap.length }) heap' _ :=
        ensures_call_deltas hstate ((hframe state hlt).trans hmeasured) rfl hout
      refine ⟨heap.length, _, rfl, Nat.le_refl _, hout, moved_shifted hfits, ?_⟩
      rcases hback with ⟨-, hr', hout'⟩ | ⟨hunfit, -⟩
      · rw [sign_not, moved_neg_moved] at hout'
        exact ⟨heap'.length, _, Prod.ext hr' rfl, hout'⟩
      · rw [moved_axes] at hunfit
        exact absurd hfits hunfit
    · exact absurd hr (by simp)

/-- The array whose entries are the numbers of their columns. -/
def columns (n : ℕ) (lead : List ℕ) : NdArray ℤ := ⟨n :: lead, fun i => i.1.val⟩

/-- A state of the two arms, and actions of them in rows of this shape. -/
def two_arm_arrays (lead : List ℕ) : Heap ℤ := [columns 14 [], columns 16 lead]

theorem bimanual_joint_slices : bimanual_qpos.state_to_action_joint_slices =
    [((0, 7), (0, 7)), ((7, 14), (8, 15))] := by decide

/-- Rows of joints and grippers over a horizon, whatever batch they come in. -/
theorem deltas_invertible_and_local_batches : ∃ ref out heap',
    exec (OpenPIActionDeltas false bimanual_qpos ⟨some 0, some 1, ()⟩) (two_arm_arrays [4, 2]) =
      (.ok ⟨some 0, some ref, ()⟩, heap') ∧ heap'[ref]? = some out ∧
    Shifted bimanual_qpos (-1) (columns 14 []) (columns 16 [4, 2]) out := by
  have hfits : Fits bimanual_qpos [14] [16, 4, 2] := by
    refine ⟨Nat.le_refl _, Nat.le_refl _, fun side s p hpair => ?_⟩
    have hmem := mem_joint_slices.2 ⟨side, hpair⟩
    rw [bimanual_joint_slices, List.mem_cons, List.mem_singleton] at hmem
    refine ⟨?_, by decide⟩
    rcases hmem with h | h
    · obtain ⟨rfl, rfl⟩ := Prod.mk.inj h
      exact Or.inr rfl
    · obtain ⟨rfl, rfl⟩ := Prod.mk.inj h
      exact Or.inr rfl
  obtain ⟨hreturns, -, hresult⟩ := deltas_invertible_and_local bimanual_qpos false
    (two_arm_arrays [4, 2]) (⟨some 0, some 1, ()⟩ : Sample Unit) rfl rfl rfl rfl
  obtain ⟨result, hok⟩ := hreturns.2 hfits
  obtain ⟨ref, out, rfl, -, hout, hshift, -⟩ := hresult result _ (Prod.ext hok rfl)
  exact ⟨ref, out, _, Prod.ext hok rfl, hout, hshift⟩

/-- Actions without a horizon axis have no place for the axis that the state is given. -/
theorem lone_row_raises : ¬ ∀ (layout : DFCStateActionLayout) (heap : Heap ℤ) (data : Sample Unit)
    (state given d w : ℕ) (slead lead : List ℕ) (x : Index (d :: slead) → ℤ)
    (y : Index (w :: lead) → ℤ), data.state = some state → heap[state]? = some ⟨d :: slead, x⟩ →
    data.actions = some given → heap[given]? = some ⟨w :: lead, y⟩ → layout.state_dim ≤ d →
    layout.action_dim ≤ w →
    ∃ result, (exec (OpenPIActionDeltas false layout data) heap).1 = .ok result := by
  intro h
  obtain ⟨result, hresult⟩ := h bimanual_qpos (two_arm_arrays []) ⟨some 0, some 1, ()⟩ 0 1 14 16
    [] [] _ _ rfl rfl rfl rfl (by decide) (by decide)
  have hleft : bimanual_qpos.Paired "left" (0, 7) (0, 7) := ⟨by decide, by decide, by decide⟩
  obtain ⟨-, hrun⟩ : Ensures (OpenPIActionDeltas false bimanual_qpos
      (⟨some 0, some 1, ()⟩ : Sample Unit)) (two_arm_arrays []) _ :=
    ensures_call_deltas rfl rfl rfl rfl
  rcases hrun with ⟨hfits, -⟩ | ⟨-, e, hr⟩
  · exact (hfits.pairs "left" (0, 7) (0, 7) hleft).2
  · rw [hr] at hresult
    exact absurd hresult (by simp)

end Deltas

end DualFlexivControl
