/-
Streaks: how often one value stands at the end of a history.

A retry budget counts the failures since the last success. `trailing a l` is that count read
off the whole history, so a counter that is kept step by step can be compared with it, and
"`n` of them in a row" is `replicate n a` inside the history.
-/
import Mathlib.Data.List.Basic
import Mathlib.Data.List.Infix

set_option autoImplicit false

namespace Streak

variable {α : Type} [DecidableEq α] {a b : α} {l : List α} {n : ℕ}

/-- How many `a` stand at the end of the history. -/
def trailing (a : α) (l : List α) : ℕ := (l.reverse.takeWhile fun x => x = a).length

@[simp] theorem trailing_nil : trailing a [] = 0 := rfl

@[simp] theorem trailing_concat_self : trailing a (l ++ [a]) = trailing a l + 1 := by
  unfold trailing
  rw [List.reverse_concat, List.takeWhile_cons, if_pos (decide_eq_true rfl)]
  rfl

theorem trailing_concat_ne (h : b ≠ a) : trailing a (l ++ [b]) = 0 := by
  unfold trailing
  rw [List.reverse_concat, List.takeWhile_cons, if_neg (by simpa using h)]
  rfl

/-- A streak at the end is as long as the count says. -/
theorem replicate_suffix_iff : List.replicate n a <:+ l ↔ n ≤ trailing a l := by
  induction l using List.reverseRecOn generalizing n with
  | nil =>
    rw [List.suffix_nil, List.replicate_eq_nil_iff, trailing_nil]
    exact Nat.le_zero.symm
  | append_singleton l b ih =>
    cases n with
    | zero => exact ⟨fun _ => Nat.zero_le _, fun _ => List.nil_suffix⟩
    | succ n =>
      rw [List.replicate_succ', List.suffix_concat_iff]
      by_cases hb : b = a
      · rw [hb, trailing_concat_self, Nat.add_le_add_iff_right, ← ih]
        constructor
        · rintro (hnil | ⟨t, ht, hsuffix⟩)
          · exact absurd hnil (by simp)
          · rw [List.append_cancel_right ht]
            exact hsuffix
        · intro h
          exact .inr ⟨_, rfl, h⟩
      · rw [trailing_concat_ne hb]
        constructor
        · rintro (hnil | ⟨t, ht, _⟩)
          · exact absurd hnil (by simp)
          · have hlast := List.append_inj_right' ht rfl
            exact absurd (List.singleton_inj.1 hlast).symm hb
        · intro h
          exact absurd h (Nat.not_succ_le_zero n)

/-- One more entry makes a streak of `n` only at the end. -/
theorem not_infix_concat (h : ¬ List.replicate n a <:+: l) (hlt : trailing a (l ++ [b]) < n) :
    ¬ List.replicate n a <:+: l ++ [b] := by
  rw [List.infix_concat_iff]
  rintro (hsuffix | hinfix)
  · exact absurd (replicate_suffix_iff.1 hsuffix) (Nat.not_le.2 hlt)
  · exact h hinfix

end Streak
