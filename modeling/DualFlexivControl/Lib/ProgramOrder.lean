/-
What comes before what in a straight-line program.

A program that is stopped somewhere has done a beginning of its list of operations. What such
a beginning can be relied on to contain follows from the order of the list: `a` precedes `b`
if every beginning that ends right before a `b` contains an `a`. A list may hold an operation
several times, so this is about every occurrence of `b`.

The rules follow the ways such lists are put together, by appending and by mapping over a
collection. A log is such a list too, and what an entry needs may be more than one other entry:
[`Backed`] is the same for any relation between an entry and what comes before it.
-/
import Mathlib.Data.List.Basic
import Mathlib.Tactic.Common

set_option autoImplicit false

namespace ProgramOrder

variable {α β : Type} {a b : α} {xs ys : List α}

/-- Wherever `b` comes in a program, `a` has come before. -/
def Precedes (a b : α) (ops : List α) : Prop :=
  ∀ before after, ops = before ++ b :: after → a ∈ before

theorem precedes_of_notMem (h : b ∉ xs) : Precedes a b xs := by
  intro before after hsplit
  exact absurd (hsplit ▸ List.mem_append_right _ List.mem_cons_self) h

/-- A split of two lists at an element is a split of one of them. -/
theorem split_append {before after : List α} (h : xs ++ ys = before ++ b :: after) :
    (∃ rest, before = xs ++ rest ∧ ys = rest ++ b :: after) ∨
      ∃ rest, xs = before ++ b :: rest := by
  obtain ⟨rest, hbefore, hrest⟩ | ⟨rest, hxs, hrest⟩ := List.append_eq_append_iff.1 h
  · exact .inl ⟨rest, hbefore, hrest⟩
  · cases rest with
    | nil =>
      rw [List.append_nil] at hxs
      exact .inl ⟨[], by rw [hxs, List.append_nil], hrest.symm⟩
    | cons op rest =>
      rw [List.cons_append, List.cons.injEq] at hrest
      exact .inr ⟨rest, by rw [hxs, hrest.1]⟩

theorem Precedes.append (hx : Precedes a b xs) (hy : Precedes a b ys) :
    Precedes a b (xs ++ ys) := by
  intro before after hsplit
  obtain ⟨rest, hbefore, hrest⟩ | ⟨rest, hxs⟩ := split_append hsplit
  · rw [hbefore]
    exact List.mem_append_right _ (hy rest after hrest)
  · exact hx before rest hxs

theorem Precedes.flatMap {f : β → List α} {l : List β} (h : ∀ x ∈ l, Precedes a b (f x)) :
    Precedes a b (l.flatMap f) := by
  induction l with
  | nil => exact precedes_of_notMem (by simp)
  | cons x l ih =>
    rw [List.flatMap_cons]
    exact (h x List.mem_cons_self).append (ih fun y hy => h y (List.mem_cons_of_mem _ hy))

/-- What comes in the first part comes before everything of the second. -/
theorem precedes_of_mem (ha : a ∈ xs) (hb : b ∉ xs) : Precedes a b (xs ++ ys) := by
  intro before after hsplit
  obtain ⟨rest, hbefore, -⟩ | ⟨rest, hxs⟩ := split_append hsplit
  · rw [hbefore]
    exact List.mem_append_left _ ha
  · exact absurd (hxs ▸ List.mem_append_right _ List.mem_cons_self) hb

/-- A beginning of the program that holds `b` holds `a`. -/
theorem Precedes.mem (h : Precedes a b (xs ++ ys)) (hb : b ∈ xs) : a ∈ xs := by
  obtain ⟨before, after, rfl⟩ := List.append_of_mem hb
  refine List.mem_append_left _ (h before (after ++ ys) ?_)
  rw [List.append_assoc, List.cons_append]

/-! ## Logs -/

section Logs

variable {R R' : List α → α → Prop}

/-- Every entry of a log has in front of it what it needs. -/
def Backed (R : List α → α → Prop) (log : List α) : Prop :=
  ∀ before x after, log = before ++ x :: after → R before x

theorem backed_nil : Backed R [] :=
  fun _ _ _ hsplit => absurd hsplit (by simp)

/-- A log goes on with entries that have what they need in the log so far. -/
theorem Backed.append (hx : Backed R xs) (hy : ∀ before, ∀ x ∈ ys, R (xs ++ before) x) :
    Backed R (xs ++ ys) := by
  intro before x after hsplit
  obtain ⟨rest, hbefore, hrest⟩ | ⟨rest, hxs⟩ := split_append hsplit
  · rw [hbefore]
    exact hy rest x (hrest ▸ List.mem_append_right _ List.mem_cons_self)
  · exact hx before x rest hxs

theorem Backed.imp (h : Backed R xs) (himp : ∀ before x, R before x → R' before x) :
    Backed R' xs :=
  fun before x after hsplit => himp before x (h before x after hsplit)

end Logs

end ProgramOrder
