/-
Parsed YAML documents: trees of scalars, lists and dicts, under Python's rules.

A dict keeps its entries in insertion order and looks keys up by equality. Keys that are no strings
are a type `K` with an equality of its own, and values that are no null, bool, number or string
(dates, bytes, sets) a type `S`; neither equality needs to be reflexive, as a NaN is not equal to
itself. Strings are equal exactly when they are the same, so what is stored, looked up and removed
under a string key obeys the usual laws.

Numbers compare by value across their types, lists entry by entry, and dicts whatever their order.
-/
import DualFlexivControl.Lib.Ieee

set_option autoImplicit false

namespace YamlTree

/-- A key of a dict. -/
inductive Key (K : Type) where
  | str (s : String)
  | other (k : K)

/-- A parsed document without aliases. A value of another type says whether it is true. -/
inductive Yaml (K S : Type) where
  | null
  | bool (b : Bool)
  | int (i : ℤ)
  | float (x : Ieee)
  | str (s : String)
  | other (truthy : Bool) (s : S)
  | list (xs : List (Yaml K S))
  | dict (entries : List (Key K × Yaml K S))

/-- The entries of a dict, in insertion order. -/
abbrev Entries (K S : Type) := List (Key K × Yaml K S)

variable {K S : Type}

/-! ## Keys -/

def Key.beq [BEq K] : Key K → Key K → Bool
  | .str s, .str t => s == t
  | .other k, .other l => k == l
  | _, _ => false

instance [BEq K] : BEq (Key K) := ⟨Key.beq⟩

section Keys

variable [BEq K] {s : String} {k : Key K}

@[simp] theorem str_beq_str {t : String} : (Key.str s == (Key.str t : Key K)) = (s == t) := rfl

/-- Only a string is equal to a string. -/
theorem str_beq : (Key.str s == k) = true ↔ k = .str s := by
  cases k with
  | str t =>
    show (s == t) = true ↔ _
    rw [beq_iff_eq, Key.str.injEq, eq_comm]
  | other l =>
    show (false = true) ↔ _
    simp

theorem beq_str : (k == Key.str s) = true ↔ k = .str s := by
  cases k with
  | str t =>
    show (t == s) = true ↔ _
    rw [beq_iff_eq, Key.str.injEq]
  | other l =>
    show (false = true) ↔ _
    simp

end Keys

/-! ## Dicts -/

section Dicts

variable [BEq K]

/-- `d[key] = v`: in the key's place, or at the end. -/
def set (entries : Entries K S) (key : String) (v : Yaml K S) : Entries K S :=
  match entries with
  | [] => [(.str key, v)]
  | (k, w) :: rest => if Key.str key == k then (k, v) :: rest else (k, w) :: set rest key v

/-- `d.pop(key, None)`, for what it does to the dict. -/
def pop (entries : Entries K S) (key : String) : Entries K S :=
  entries.filter fun entry => !(Key.str key == entry.1)

/-- `d.setdefault(key, v)`, for what it does to the dict. -/
def setdefault (entries : Entries K S) (key : String) (v : Yaml K S) : Entries K S :=
  if (entries.lookup (.str key)).isSome then entries else set entries key v

variable {entries : Entries K S} {key : String} {v : Yaml K S}

@[simp] theorem lookup_set_self : (set entries key v).lookup (.str key) = some v := by
  induction entries with
  | nil =>
    unfold set
    rw [List.lookup_cons, str_beq.2 rfl]
  | cons entry rest ih =>
    unfold set
    by_cases h : (Key.str key == entry.1) = true
    · rw [if_pos h, List.lookup_cons, h]
    · rw [if_neg h, List.lookup_cons, Bool.eq_false_of_not_eq_true h]
      exact ih

theorem lookup_set_ne {k : Key K} (hk : k ≠ .str key) :
    (set entries key v).lookup k = entries.lookup k := by
  have hkey : (k == Key.str key) = false := Bool.eq_false_of_not_eq_true fun h => hk (beq_str.1 h)
  induction entries with
  | nil =>
    unfold set
    rw [List.lookup_cons, hkey]
  | cons entry rest ih =>
    unfold set
    by_cases h : (Key.str key == entry.1) = true
    · rw [if_pos h, List.lookup_cons, List.lookup_cons, str_beq.1 h, hkey]
    · rw [if_neg h, List.lookup_cons, List.lookup_cons, ih]

theorem lookup_pop_ne {k : Key K} (hk : k ≠ .str key) :
    (pop entries key).lookup k = entries.lookup k := by
  have hkey : (k == Key.str key) = false := Bool.eq_false_of_not_eq_true fun h => hk (beq_str.1 h)
  unfold pop
  induction entries with
  | nil => rfl
  | cons entry rest ih =>
    by_cases h : (Key.str key == entry.1) = true
    · rw [List.filter_cons_of_neg (by simp [h]), ih, List.lookup_cons, str_beq.1 h, hkey]
    · rw [List.filter_cons_of_pos (by simpa using h), List.lookup_cons, List.lookup_cons, ih]

theorem lookup_setdefault_self :
    (setdefault entries key v).lookup (.str key) = some ((entries.lookup (.str key)).getD v) := by
  unfold setdefault
  cases h : entries.lookup (.str key) with
  | some w => exact h
  | none => exact lookup_set_self

theorem lookup_setdefault_ne {k : Key K} (hk : k ≠ .str key) :
    (setdefault entries key v).lookup k = entries.lookup k := by
  unfold setdefault
  split
  · rfl
  · exact lookup_set_ne hk

end Dicts

/-! ## Truth and equality -/

/-- `bool(v)` -/
def Yaml.truthy : Yaml K S → Bool
  | .null => false
  | .bool b => b
  | .int i => i != 0
  | .float x => x != .fin 0
  | .str s => s != ""
  | .other truthy _ => truthy
  | .list xs => !xs.isEmpty
  | .dict entries => !entries.isEmpty

/-- `a == w`, for a number `a`: a number of its value is equal to it, and nothing is to a NaN. -/
def equals_number (a : Ieee) : Yaml K S → Bool
  | .bool b => !a.isNaN && a == .fin (if b then 1 else 0)
  | .int i => !a.isNaN && a == .fin i
  | .float x => !a.isNaN && a == x
  | _ => false

section Equality

variable [BEq K] [BEq S]

mutual

/-- `a == b` -/
def Yaml.eq : Yaml K S → Yaml K S → Bool
  | .null, .null => true
  | .str s, .str t => s == t
  | .other _ s, .other _ t => s == t
  | .list xs, .list ys => eq_list xs ys
  | .dict entries, .dict entries' =>
    entries.length == entries'.length && eq_entries entries entries'
  | .bool b, w => equals_number (.fin (if b then 1 else 0)) w
  | .int i, w => equals_number (.fin i) w
  | .float x, w => equals_number x w
  | _, _ => false

/-- Lists are equal entry by entry. -/
def eq_list : List (Yaml K S) → List (Yaml K S) → Bool
  | [], [] => true
  | x :: xs, y :: ys => x.eq y && eq_list xs ys
  | _, _ => false

/-- Every entry has an equal one under its key. -/
def eq_entries : Entries K S → Entries K S → Bool
  | [], _ => true
  | (k, v) :: rest, entries =>
    (match entries.lookup k with
      | some w => v.eq w
      | none => false) && eq_entries rest entries

end

end Equality

end YamlTree
