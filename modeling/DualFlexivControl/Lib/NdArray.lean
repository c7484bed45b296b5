/-
Arrays of any shape, their positions, and broadcasting between them.

Axes are listed from the last one to the first, which is the order that broadcasting aligns them
in: the shape of an array as it is printed is `axes.reverse`. An array reaches into a shape when
each of its axes has that shape's length or length one, and `source` is the position that is read
for a position of the larger shape.

The two operations on the last axis are a slice under a new axis, and a slice that is added to in
place; slices are cut off at the length of the axis. `iadd_take_rows` says when the one can be added
to the other, and which entries move by what.
-/
import Mathlib.Algebra.BigOperators.Group.List.Basic
import Mathlib.Algebra.Ring.Defs
import Mathlib.Tactic.Common

set_option autoImplicit false

/-- The positions of an array, along its last axis first. -/
def NdArray.Index : List ℕ → Type
  | [] => Unit
  | n :: lead => Fin n × NdArray.Index lead

/-- An array: the lengths of its axes, the last one first, and its entries. -/
structure NdArray (R : Type) where
  axes : List ℕ
  entry : NdArray.Index axes → R

namespace NdArray

variable {R : Type}

/-- `a.shape` -/
def shape (a : NdArray R) : List ℕ := a.axes.reverse

/-! ## Broadcasting -/

/-- Every axis has the length of the axis it is aligned with, or length one. -/
def Reaches : List ℕ → List ℕ → Prop
  | [], _ => True
  | _ :: _, [] => False
  | m :: axes, n :: out => (m = 1 ∨ m = n) ∧ Reaches axes out

instance Reaches.decidable : ∀ axes out, Decidable (Reaches axes out)
  | [], _ => isTrue trivial
  | _ :: _, [] => isFalse id
  | _ :: axes, _ :: out => @instDecidableAnd _ _ _ (Reaches.decidable axes out)

/-- The position that is read for a position of the larger shape. -/
def source : ∀ {axes out : List ℕ}, Reaches axes out → Index out → Index axes
  | [], _, _, _ => ()
  | _ :: _, [], h, _ => h.elim
  | m :: _, _ :: _, h, i =>
    (if hm : m = 1 then ⟨0, by omega⟩
      else ⟨i.1.val, (h.1.resolve_left hm).symm ▸ i.1.isLt⟩, source h.2 i.2)

/-- An axis of length one is read at its only place. -/
theorem source_val {m n : ℕ} {axes out : List ℕ} (h : Reaches (m :: axes) (n :: out))
    (i : Index (n :: out)) : (source h i).1.val = if m = 1 then 0 else i.1.val := by
  show (if hm : m = 1 then (⟨0, _⟩ : Fin m) else ⟨i.1.val, _⟩).val = _
  by_cases hm : m = 1
  · rw [dif_pos hm, if_pos hm]
  · rw [dif_neg hm, if_neg hm]

/-! ## The last axis -/

/-- `c * a` -/
def scale [Mul R] (c : R) (a : NdArray R) : NdArray R := ⟨a.axes, fun i => c * a.entry i⟩

/-- `a[..., None, start:stop]`, which only an array with an axis has. -/
def take_rows (s : ℕ × ℕ) : NdArray R → Option (NdArray R)
  | ⟨[], _⟩ => none
  | ⟨d :: lead, x⟩ => some ⟨(min s.2 d - min s.1 d) :: 1 :: lead,
      fun i => x (⟨min s.1 d + i.1.val, by have := i.1.isLt; omega⟩, i.2.2)⟩

/-- `out[..., start:stop] += a`, where `a` reaches into that slice. -/
def iadd_columns [Add R] (s : ℕ × ℕ) (a : NdArray R) : NdArray R → Option (NdArray R)
  | ⟨[], _⟩ => none
  | ⟨w :: lead, y⟩ =>
    if h : Reaches a.axes ((min s.2 w - min s.1 w) :: lead) then
      some ⟨w :: lead, fun i =>
        if hi : min s.1 w ≤ i.1.val ∧ i.1.val < min s.2 w then
          y i + a.entry (source h (⟨i.1.val - min s.1 w, by omega⟩, i.2))
        else y i⟩
    else none

/-! ## What an addition to a slice reads -/

/-- The row that a row of `lead` reads, of an array that is given a new axis before its last. -/
def row_of {slead lead : List ℕ} (l : Index lead) : Option (Index slead) :=
  if h : Reaches (1 :: slead) lead then some (source h l).2 else none

/-- The column that column `k` of the slice `p` reads: a slice of one column serves every `k`. -/
def column (s p : ℕ × ℕ) (k : ℕ) : ℕ := if s.2 - s.1 = 1 then s.1 else s.1 + (k - p.1)

/-- The entry in column `j` of the row that is read for the row `l`. -/
def read {lead : List ℕ} (j : ℕ) (l : Index lead) : NdArray R → Option R
  | ⟨[], _⟩ => none
  | ⟨d :: _, x⟩ => if h : j < d then (row_of l).map fun row => x (⟨j, h⟩, row) else none

/-- What column `k` of a row is moved by: nothing, outside the slice. -/
def addend [Zero R] {lead : List ℕ} (s p : ℕ × ℕ) (a : NdArray R) (k : ℕ) (l : Index lead) : R :=
  if p.1 ≤ k ∧ k < p.2 then (a.read (column s p k) l).getD 0 else 0

/-- The widths of two slices fit: they are equal, or the one that is read has one column. -/
def WidthsFit (s p : ℕ × ℕ) : Prop := s.2 - s.1 = 1 ∨ s.2 - s.1 = p.2 - p.1

section Spec

variable {s p : ℕ × ℕ} {d w : ℕ} {slead lead : List ℕ} {x : Index (d :: slead) → R}

/-- In a slice whose width fits, every column reads a column of the other slice. -/
theorem column_bounds (hwidths : WidthsFit s p) (hs : s.1 ≤ s.2) {k : ℕ} (hk : p.1 ≤ k)
    (hk' : k < p.2) : s.1 ≤ column s p k ∧ column s p k < s.2 := by
  unfold column
  unfold WidthsFit at hwidths
  split <;> omega

theorem read_eq (hrows : Reaches (1 :: slead) lead) {j : ℕ} (hj : j < d) (l : Index lead) :
    read j l ⟨d :: slead, x⟩ = some (x (⟨j, hj⟩, (source hrows l).2)) := by
  unfold read row_of
  dsimp only
  rw [dif_pos hj, dif_pos hrows]
  rfl

/-- The slice's entries, by the column of the array they come from. -/
theorem take_rows_eq : ∃ z, take_rows s ⟨d :: slead, x⟩ =
    some ⟨(min s.2 d - min s.1 d) :: 1 :: slead, z⟩ ∧
      ∀ i (j : Fin d), j.val = min s.1 d + i.1.val → z i = x (j, i.2.2) := by
  refine ⟨_, rfl, fun i j hj => ?_⟩
  congr 2
  exact Fin.ext hj.symm

theorem iadd_columns_eq_none [Add R] {a : NdArray R} {y : Index (w :: lead) → R}
    (h : ¬ Reaches a.axes ((min p.2 w - min p.1 w) :: lead)) :
    iadd_columns p a ⟨w :: lead, y⟩ = none := dif_neg h

theorem iadd_columns_eq_some [Add R] {a : NdArray R} {y : Index (w :: lead) → R}
    (h : Reaches a.axes ((min p.2 w - min p.1 w) :: lead)) :
    ∃ y', iadd_columns p a ⟨w :: lead, y⟩ = some ⟨w :: lead, y'⟩ ∧
      ∀ i, (∀ hi : min p.1 w ≤ i.1.val ∧ i.1.val < min p.2 w,
          y' i = y i + a.entry (source h (⟨i.1.val - min p.1 w, by omega⟩, i.2))) ∧
        (¬ (min p.1 w ≤ i.1.val ∧ i.1.val < min p.2 w) → y' i = y i) :=
  ⟨_, dif_pos h, fun _ => ⟨fun hi => dif_pos hi, fun hi => dif_neg hi⟩⟩

/-- A slice under a new axis can be added to a slice exactly when the widths fit and the rows
reach; then every entry moves by its addend. -/
theorem iadd_take_rows [Ring R] {y : Index (w :: lead) → R} (c : R) (hs : s.1 ≤ s.2 ∧ s.2 ≤ d)
    (hp : p.1 ≤ p.2 ∧ p.2 ≤ w) : ∃ rows, take_rows s ⟨d :: slead, x⟩ = some rows ∧
      ∀ out, iadd_columns p (rows.scale c) ⟨w :: lead, y⟩ = some out ↔
        (WidthsFit s p ∧ Reaches (1 :: slead) lead) ∧
          out = ⟨w :: lead, fun i => y i + c * addend s p ⟨d :: slead, x⟩ i.1.val i.2⟩ := by
  obtain ⟨z, htake, hz⟩ := take_rows_eq (s := s) (x := x)
  refine ⟨_, htake, fun out => ?_⟩
  have hfits : Reaches ((min s.2 d - min s.1 d) :: 1 :: slead) ((min p.2 w - min p.1 w) :: lead) ↔
      WidthsFit s p ∧ Reaches (1 :: slead) lead := by
    refine and_congr_left fun _ => ?_
    unfold WidthsFit
    omega
  by_cases hreach : Reaches ((min s.2 d - min s.1 d) :: 1 :: slead)
      ((min p.2 w - min p.1 w) :: lead)
  · obtain ⟨y', hadd, hentry⟩ := iadd_columns_eq_some (y := y) (a := scale c ⟨_, z⟩) hreach
    rw [hadd, Option.some.injEq, eq_comm, and_iff_right (hfits.1 hreach)]
    suffices hy' : y' = fun i => y i + c * addend s p ⟨d :: slead, x⟩ i.1.val i.2 by rw [hy']
    funext i
    unfold addend
    by_cases hi : p.1 ≤ i.1.val ∧ i.1.val < p.2
    · have hcolumn := column_bounds (hfits.1 hreach).1 hs.1 hi.1 hi.2
      have hd : column s p i.1.val < d := by omega
      rw [if_pos hi, read_eq hreach.2 hd, Option.getD_some, (hentry i).1 (by omega)]
      -- the entry of the slice that is added, traced back to the array it was cut from
      refine congrArg (y i + c * ·) (hz _ ⟨column s p i.1.val, hd⟩ ?_)
      refine Eq.trans ?_ (congrArg (min s.1 d + ·) (source_val hreach _).symm)
      have hwidths := hreach.1
      dsimp only [column]
      split <;> split <;> omega
    · rw [if_neg hi, mul_zero, add_zero, (hentry i).2 (by omega)]
  · rw [iadd_columns_eq_none (y := y) (a := scale c ⟨_, z⟩) hreach]
    constructor
    · intro h
      exact absurd h (by simp)
    · rintro ⟨h, -⟩
      exact absurd (hfits.2 h) hreach

end Spec

/-! ## Slices that share no column -/

section Disjoint

variable [Zero R] {lead : List ℕ} {a : NdArray R} {k : ℕ} {l : Index lead}

theorem addend_of_not_mem {s p : ℕ × ℕ} (hk : ¬ (p.1 ≤ k ∧ k < p.2)) : addend s p a k l = 0 :=
  if_neg hk

/-- What a column of the slice moves by is an entry of the array. -/
theorem addend_of_read {s p : ℕ × ℕ} {q : R} (hk : p.1 ≤ k ∧ k < p.2)
    (hread : a.read (column s p k) l = some q) : addend s p a k l = q := by
  unfold addend
  rw [if_pos hk, hread]
  rfl

end Disjoint

section Sums

variable [AddMonoid R] {lead : List ℕ} {a : NdArray R} {k : ℕ} {l : Index lead}

/-- A column outside every slice is moved by nothing. -/
theorem sum_addends_eq_zero {pairs : List ((ℕ × ℕ) × (ℕ × ℕ))}
    (hout : ∀ pair ∈ pairs, ¬ (pair.2.1 ≤ k ∧ k < pair.2.2)) :
    (pairs.map fun pair => addend pair.1 pair.2 a k l).sum = 0 := by
  induction pairs with
  | nil => rfl
  | cons pair rest ih =>
    rw [List.map_cons, List.sum_cons, addend_of_not_mem (hout pair List.mem_cons_self), zero_add]
    exact ih fun pair' h => hout pair' (List.mem_cons_of_mem _ h)

/-- A column of one slice is moved by that slice's addend alone. -/
theorem sum_addends_eq {pairs : List ((ℕ × ℕ) × (ℕ × ℕ))} {pair : (ℕ × ℕ) × (ℕ × ℕ)}
    (hdisjoint : pairs.Pairwise fun a b => ∀ k, a.2.1 ≤ k → k < a.2.2 → ¬ (b.2.1 ≤ k ∧ k < b.2.2))
    (hpair : pair ∈ pairs) (hle : pair.2.1 ≤ k) (hlt : k < pair.2.2) :
    (pairs.map fun pair => addend pair.1 pair.2 a k l).sum = addend pair.1 pair.2 a k l := by
  induction pairs with
  | nil => exact absurd hpair List.not_mem_nil
  | cons first rest ih =>
    rw [List.pairwise_cons] at hdisjoint
    rw [List.map_cons, List.sum_cons]
    rcases List.mem_cons.1 hpair with rfl | hrest
    · rw [sum_addends_eq_zero fun pair' h => hdisjoint.1 pair' h k hle hlt, add_zero]
    · have hfirst : ¬ (first.2.1 ≤ k ∧ k < first.2.2) := fun h =>
        hdisjoint.1 pair hrest k h.1 h.2 ⟨hle, hlt⟩
      rw [addend_of_not_mem hfirst, zero_add, ih hdisjoint.2 hrest]

end Sums

end NdArray
