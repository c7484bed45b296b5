/-
Readers that catch up with a growing log through a bounded window.

The entries of a log are numbered from one, and only the newest are kept. A reader remembers the
number of the last entry it was given. A read answers with the newest few of the kept entries
after that number; the reader appends them to a window of its own. However its reads and the log's
growth interleave, it holds entries of the log in order, each once, and the newest one it knows of;
and it holds an unbroken piece of the log as long as no read finds more entries than it answers
with.
-/
import Mathlib.Data.List.DropRight
import Mathlib.Data.List.Infix
import Mathlib.Tactic.Common

set_option autoImplicit false

namespace CatchUp

variable {α : Type}

/-! ## The last entries of a list -/

theorem rtake_suffix (n : ℕ) (l : List α) : l.rtake n <:+ l := List.drop_suffix _ _

theorem length_rtake (n : ℕ) (l : List α) : (l.rtake n).length = min n l.length := by
  unfold List.rtake
  rw [List.length_drop]
  omega

theorem rtake_of_length_le {n : ℕ} {l : List α} (h : l.length ≤ n) : l.rtake n = l := by
  unfold List.rtake
  rw [Nat.sub_eq_zero_of_le h, List.drop_zero]

theorem map_rtake {β : Type} (f : α → β) (n : ℕ) (l : List α) :
    (l.rtake n).map f = (l.map f).rtake n := by
  unfold List.rtake
  rw [List.map_drop, List.length_map]

/-- The last entry is among the last ones. -/
theorem getLast?_rtake {n : ℕ} (hn : 0 < n) (l : List α) :
    (l.rtake n).getLast? = l.getLast? := by
  unfold List.rtake
  rw [List.getLast?_drop]
  split
  · have hnil : l.length = 0 := by omega
    rw [List.length_eq_zero_iff.1 hnil]
    rfl
  · rfl

/-! ## The log -/

/-- The entries from a number on. -/
def numbered : ℕ → List α → List (ℕ × α)
  | _, [] => []
  | n, a :: rest => (n, a) :: numbered (n + 1) rest

theorem length_numbered (n : ℕ) (log : List α) : (numbered n log).length = log.length := by
  induction log generalizing n with
  | nil => rfl
  | cons a rest ih =>
    unfold numbered
    rw [List.length_cons, List.length_cons, ih]

theorem map_snd_numbered (n : ℕ) (log : List α) : (numbered n log).map Prod.snd = log := by
  induction log generalizing n with
  | nil => rfl
  | cons a rest ih =>
    unfold numbered
    rw [List.map_cons, ih]

theorem numbered_append (n : ℕ) (log log' : List α) :
    numbered n (log ++ log') = numbered n log ++ numbered (n + log.length) log' := by
  induction log generalizing n with
  | nil => rfl
  | cons a rest ih =>
    simp only [List.cons_append, numbered, ih, List.length_cons]
    rw [Nat.add_right_comm, Nat.add_assoc n]

theorem drop_numbered (k n : ℕ) (log : List α) :
    (numbered n log).drop k = numbered (n + k) (log.drop k) := by
  induction k generalizing n log with
  | zero => rfl
  | succ k ih =>
    cases log with
    | nil => rfl
    | cons a rest =>
      rw [numbered, List.drop_succ_cons, List.drop_succ_cons, ih, Nat.add_assoc, Nat.add_comm 1]

/-- What is kept of a log. -/
def kept (size : ℕ) (log : List α) : List (ℕ × α) := (numbered 1 log).rtake size

theorem kept_nil (size : ℕ) : kept size ([] : List α) = [] := by
  unfold kept numbered List.rtake
  rw [List.drop_nil]

/-- The oldest entry goes when a full window takes in a new one. -/
theorem kept_concat {size : ℕ} (hsize : 0 < size) (log : List α) (a : α) :
    (kept size log ++ [(log.length + 1, a)]).rtake size = kept size (log ++ [a]) := by
  have hlast : numbered 1 (log ++ [a]) = numbered 1 log ++ [(log.length + 1, a)] := by
    rw [numbered_append, Nat.add_comm 1]
    rfl
  unfold kept
  rw [hlast]
  obtain ⟨size, rfl⟩ := Nat.exists_eq_succ_of_ne_zero hsize.ne'
  rw [List.rtake_concat_succ, List.rtake_concat_succ]
  congr 1
  unfold List.rtake
  rw [List.drop_drop, List.length_drop, length_numbered]
  congr 1
  omega

/-- The entries after a number are those behind as many, as the entries are numbered without gaps.
-/
theorem filter_numbered (n cursor : ℕ) (log : List α) :
    (numbered n log).filter (fun entry => decide (cursor < entry.1)) =
      (numbered n log).drop (cursor + 1 - n) := by
  induction log generalizing n with
  | nil => rw [numbered, List.filter_nil, List.drop_nil]
  | cons a rest ih =>
    unfold numbered
    by_cases hn : cursor < n
    · rw [List.filter_cons, if_pos (decide_eq_true hn), ih, Nat.sub_eq_zero_of_le (by omega),
        Nat.sub_eq_zero_of_le (by omega), List.drop_zero, List.drop_zero]
    · rw [List.filter_cons, if_neg (by simpa using hn), ih,
        show cursor + 1 - n = cursor + 1 - (n + 1) + 1 by omega, List.drop_succ_cons]

/-- What a read from a cursor answers: the newest of the kept entries after it. -/
def fresh (size few cursor : ℕ) (log : List α) : List (ℕ × α) :=
  ((kept size log).filter fun entry => decide (cursor < entry.1)).rtake few

/-- The window never shows in a read: no entry a read wants is gone. -/
theorem fresh_eq {size few : ℕ} (hfew : few ≤ size) (cursor : ℕ) (log : List α) :
    fresh size few cursor log = ((numbered 1 log).drop cursor).rtake few := by
  have hfilter : (kept size log).filter (fun entry => decide (cursor < entry.1)) =
      (numbered 1 log).drop (max cursor (log.length - size)) := by
    unfold kept List.rtake
    rw [length_numbered, drop_numbered, filter_numbered, ← drop_numbered, List.drop_drop]
    congr 1
    omega
  unfold fresh
  rw [hfilter]
  unfold List.rtake
  rw [List.drop_drop, List.drop_drop, List.length_drop, List.length_drop, length_numbered]
  congr 1
  omega

theorem map_snd_fresh {size few : ℕ} (hfew : few ≤ size) (cursor : ℕ) (log : List α) :
    (fresh size few cursor log).map Prod.snd = (log.drop cursor).rtake few := by
  rw [fresh_eq hfew, map_rtake, List.map_drop, map_snd_numbered]

/-- A read answers with nothing iff the cursor is at the end of the log. -/
theorem fresh_eq_nil_iff {size few cursor : ℕ} (hfew : few ≤ size) (hpos : 0 < few)
    {log : List α} : fresh size few cursor log = [] ↔ log.length ≤ cursor := by
  rw [← List.length_eq_zero_iff, fresh_eq hfew, length_rtake, List.length_drop, length_numbered]
  omega

/-- The last entry of an answer has the number of the newest one. -/
theorem getLast?_fresh {size few cursor : ℕ} (hfew : few ≤ size) (hpos : 0 < few)
    {log : List α} (hcursor : cursor < log.length) :
    (fresh size few cursor log).getLast?.map Prod.fst = some log.length := by
  rw [fresh_eq hfew, getLast?_rtake hpos, List.getLast?_drop,
    if_neg (by rw [length_numbered]; omega)]
  obtain ⟨front, a, rfl⟩ := (List.eq_nil_or_concat log).resolve_left
    (List.ne_nil_of_length_pos (Nat.zero_lt_of_lt hcursor))
  rw [List.concat_eq_append, numbered_append]
  simp [numbered, Nat.add_comm]

/-! ## The reader -/

/-- A reader takes in an answer. -/
def extend (window few cursor : ℕ) (log held : List α) : List α :=
  (held ++ (log.drop cursor).rtake few).rtake window

variable {window few cursor : ℕ} {log held : List α}

/-- What a reader holds comes from the log in order, and every entry at most once. -/
theorem extend_sublist (h : held.Sublist (log.take cursor)) :
    (extend window few cursor log held).Sublist log := by
  refine (rtake_suffix _ _).sublist.trans ?_
  have hsublist := h.append (rtake_suffix few (log.drop cursor)).sublist
  rwa [List.take_append_drop] at hsublist

/-- A reader that missed nothing holds an unbroken piece of the log. -/
theorem extend_suffix (h : held <:+ log.take cursor)
    (hkeeps : log.length ≤ cursor + few ∨ held = []) :
    extend window few cursor log held <:+ log := by
  refine (rtake_suffix _ _).trans ?_
  rcases hkeeps with hle | rfl
  · rw [rtake_of_length_le (by rw [List.length_drop]; omega)]
    conv_rhs => rw [← List.take_append_drop cursor log]
    obtain ⟨front, hfront⟩ := h
    exact ⟨front, by rw [← hfront, List.append_assoc]⟩
  · exact (rtake_suffix _ _).trans (List.drop_suffix _ _)

/-- The newest entry is there, however much of the middle has been left out. -/
theorem getLast?_extend (hwindow : 0 < window) (hfew : 0 < few) (hcursor : cursor < log.length) :
    (extend window few cursor log held).getLast? = log.getLast? := by
  unfold extend
  rw [getLast?_rtake hwindow, List.getLast?_append, getLast?_rtake hfew, List.getLast?_drop,
    if_neg (by omega)]
  cases h : log.getLast? with
  | none =>
    rw [List.getLast?_eq_none_iff] at h
    rw [h] at hcursor
    exact absurd hcursor (Nat.not_lt_zero _)
  | some a => rfl

theorem length_extend_le : (extend window few cursor log held).length ≤ window := by
  unfold extend
  rw [length_rtake]
  exact Nat.min_le_left _ _

end CatchUp
