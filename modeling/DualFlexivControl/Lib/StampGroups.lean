/-
Rows written in groups under one stamp each, and read back through a window.

If the stamps of successive groups grow, the rows of a window that bear its last stamp are rows of
one group, in order and without a gap: of the group the window ends in, from where the window
begins in it.
-/
import Mathlib.Data.List.Basic
import Mathlib.Order.Basic
import Mathlib.Tactic.Common

set_option autoImplicit false

namespace StampGroups

variable {α τ : Type}

/-- Rows with one stamp. -/
structure Group (α τ : Type) where
  rows : List α
  stamp : τ

/-- The stamped rows of some groups. -/
def flat (groups : List (Group α τ)) : List (α × τ) :=
  groups.flatMap fun g => g.rows.map fun row => (row, g.stamp)

/-- The rows with the stamp of the last one. -/
def newest [DecidableEq τ] (window : List (α × τ)) : List α :=
  match window.getLast? with
  | none => []
  | some last => (window.filter fun entry => entry.2 = last.2).map Prod.fst

theorem flat_append (groups groups' : List (Group α τ)) :
    flat (groups ++ groups') = flat groups ++ flat groups' := List.flatMap_append

theorem flat_cons (g : Group α τ) (groups : List (Group α τ)) :
    flat (g :: groups) = (g.rows.map fun row => (row, g.stamp)) ++ flat groups :=
  List.flatMap_cons

/-- Every row lies in a group. -/
theorem exists_group {groups : List (Group α τ)} : ∀ {i : ℕ}, i < (flat groups).length →
    ∃ before g after, groups = before ++ g :: after ∧ (flat before).length ≤ i ∧
      i < (flat before).length + g.rows.length := by
  induction groups with
  | nil =>
    intro i hi
    exact absurd hi (Nat.not_lt_zero i)
  | cons g rest ih =>
    intro i hi
    rw [flat_cons, List.length_append, List.length_map] at hi
    by_cases hg : i < g.rows.length
    · exact ⟨[], g, rest, rfl, Nat.zero_le i, by simpa [flat] using hg⟩
    · obtain ⟨before, g', after, hrest, hle, hlt⟩ := ih (i := i - g.rows.length) (by omega)
      refine ⟨g :: before, g', after, by rw [hrest]; rfl, ?_, ?_⟩
      · rw [flat_cons, List.length_append, List.length_map]
        omega
      · rw [flat_cons, List.length_append, List.length_map]
        omega

theorem stamp_of_mem {groups : List (Group α τ)} {entry : α × τ} (h : entry ∈ flat groups) :
    ∃ g ∈ groups, entry.2 = g.stamp := by
  obtain ⟨g, hg, hentry⟩ := List.mem_flatMap.1 h
  obtain ⟨row, -, rfl⟩ := List.mem_map.1 hentry
  exact ⟨g, hg, rfl⟩

/-- The newest rows of a window: the part of one group that the window ends in. -/
theorem newest_window [Preorder τ] [DecidableEq τ] {groups : List (Group α τ)}
    (hstamps : groups.Pairwise fun g g' => g.stamp < g'.stamp) {lo w : ℕ} (hlo : lo < w)
    (hw : w ≤ (flat groups).length) :
    ∃ before g after, groups = before ++ g :: after ∧ (flat before).length < w ∧
      w ≤ (flat before).length + g.rows.length ∧
      newest (((flat groups).take w).drop lo) =
        (g.rows.take (w - (flat before).length)).drop (lo - (flat before).length) := by
  have hi : w - 1 < (flat groups).length := by omega
  obtain ⟨before, g, after, rfl, hle, hlt⟩ := exists_group hi
  have hbefore : (flat before).length < w := by omega
  have hgroup : w ≤ (flat before).length + g.rows.length := by omega
  refine ⟨before, g, after, rfl, hbefore, hgroup, ?_⟩
  have htake : (flat (before ++ g :: after)).take w = flat before ++
      (g.rows.take (w - (flat before).length)).map fun row => (row, g.stamp) := by
    rw [flat_append, flat_cons, List.take_append, List.take_of_length_le (by omega),
      List.take_append_of_le_length (by rw [List.length_map]; omega), List.map_take]
  have hdrop : ((flat (before ++ g :: after)).take w).drop lo = (flat before).drop lo ++
      ((g.rows.take (w - (flat before).length)).drop (lo - (flat before).length)).map
        fun row => (row, g.stamp) := by
    rw [htake, List.drop_append, List.map_drop]
  have hnonempty : (g.rows.take (w - (flat before).length)).drop
      (lo - (flat before).length) ≠ [] := by
    rw [← List.length_pos_iff, List.length_drop, List.length_take]
    omega
  obtain ⟨front, row, hfront⟩ := (List.eq_nil_or_concat _).resolve_left hnonempty
  have hlast : (((flat (before ++ g :: after)).take w).drop lo).getLast? = some (row, g.stamp) := by
    rw [hdrop, hfront, List.concat_eq_append, List.map_append, ← List.append_assoc]
    exact List.getLast?_concat
  unfold newest
  rw [hlast]
  dsimp only
  rw [hdrop, List.filter_append, List.filter_eq_nil_iff.2, List.filter_eq_self.2, List.nil_append,
    List.map_map]
  · exact List.map_id' _
  · intro entry hentry
    obtain ⟨row, -, rfl⟩ := List.mem_map.1 hentry
    exact decide_eq_true rfl
  · intro entry hentry
    -- what came before the group has an older stamp
    obtain ⟨g', hg', heq⟩ := stamp_of_mem (List.mem_of_mem_drop hentry)
    have hlt := (List.pairwise_append.1 hstamps).2.2 g' hg' g List.mem_cons_self
    rw [decide_eq_true_eq, heq]
    exact hlt.ne

end StampGroups
