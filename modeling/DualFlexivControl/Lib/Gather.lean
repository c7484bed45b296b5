/-
Dicts filled in one pass over a list.

`upsert` is `d.setdefault(key, init)` followed by an update of the entry, and `gather` does so for
each item that `read` has a key for. What a key ends up with is the fold of the updates of its own
items, and nothing where it has none. Where the items are the entries of an array, the updates of
a key that owns one range of indices are those of the range, in order.
-/
import Mathlib.Data.List.Nodup
import Mathlib.Tactic.Common

set_option autoImplicit false

namespace Gather

variable {κ β ι : Type} [DecidableEq κ]

/-- `d.setdefault(key, init)`, then `f` on the entry. -/
def upsert (key : κ) (init : β) (f : β → β) : List (κ × β) → List (κ × β)
  | [] => [(key, f init)]
  | (k, b) :: rest => if k = key then (k, f b) :: rest else (k, b) :: upsert key init f rest

/-- The dict after one item. -/
def gather_item (read : ι → Option (κ × (β → β))) (init : β) (d : List (κ × β)) (a : ι) :
    List (κ × β) :=
  match read a with
  | none => d
  | some (key, f) => upsert key init f d

/-- The dict after all items. -/
def gather (read : ι → Option (κ × (β → β))) (init : β) (items : List ι) : List (κ × β) :=
  items.foldl (gather_item read init) []

/-- What an item does to one key's entry. -/
def update_of (read : ι → Option (κ × (β → β))) (k : κ) (a : ι) : Option (β → β) :=
  match read a with
  | none => none
  | some (key, f) => if key = k then some f else none

/-- One update after another. -/
def apply_all (fs : List (β → β)) (b : β) : β := fs.foldl (fun b f => f b) b

@[simp] theorem apply_all_nil (b : β) : apply_all [] b = b := rfl

@[simp] theorem apply_all_cons (f : β → β) (fs : List (β → β)) (b : β) :
    apply_all (f :: fs) b = apply_all fs (f b) := rfl

theorem apply_all_append (fs gs : List (β → β)) (b : β) :
    apply_all (fs ++ gs) b = apply_all gs (apply_all fs b) := List.foldl_append

/-! ## The entry of a key -/

theorem lookup_cons_if (k k' : κ) (b : β) (d : List (κ × β)) :
    ((k', b) :: d).lookup k = if k = k' then some b else d.lookup k := by
  by_cases hk : k = k'
  · rw [if_pos hk, hk, List.lookup_cons_self]
  · rw [if_neg hk, List.lookup_cons, beq_false_of_ne hk]

theorem lookup_upsert {key k : κ} {init : β} {f : β → β} (d : List (κ × β)) :
    (upsert key init f d).lookup k =
      if key = k then some (f ((d.lookup k).getD init)) else d.lookup k := by
  induction d with
  | nil =>
    unfold upsert
    rw [lookup_cons_if]
    by_cases hk : key = k
    · rw [if_pos hk, if_pos hk.symm]
      rfl
    · rw [if_neg hk, if_neg (Ne.symm hk)]
  | cons e rest ih =>
    obtain ⟨k', b⟩ := e
    unfold upsert
    by_cases hkey : k' = key
    · subst hkey
      rw [if_pos rfl, lookup_cons_if, lookup_cons_if]
      by_cases hk : k' = k
      · rw [if_pos hk, if_pos hk.symm, if_pos hk.symm]
        rfl
      · rw [if_neg hk, if_neg (Ne.symm hk), if_neg (Ne.symm hk)]
    · rw [if_neg hkey, lookup_cons_if, lookup_cons_if, ih]
      by_cases hk : k = k'
      · -- another key's entry
        have hne : ¬ key = k := by
          rw [hk]
          exact Ne.symm hkey
        rw [if_pos hk, if_neg hne, if_pos hk]
      · rw [if_neg hk, if_neg hk]

variable {read : ι → Option (κ × (β → β))} {init : β}

theorem lookup_gather_item {k : κ} (d : List (κ × β)) (a : ι) :
    (gather_item read init d a).lookup k =
      match update_of read k a with
      | none => d.lookup k
      | some f => some (f ((d.lookup k).getD init)) := by
  unfold gather_item update_of
  cases read a with
  | none => rfl
  | some e =>
    dsimp only
    rw [lookup_upsert]
    by_cases hk : e.1 = k
    · rw [if_pos hk, if_pos hk]
    · rw [if_neg hk, if_neg hk]

theorem lookup_foldl {k : κ} {items : List ι} :
    ∀ d : List (κ × β), (items.foldl (gather_item read init) d).lookup k =
      if items.filterMap (update_of read k) = [] then d.lookup k
      else some (apply_all (items.filterMap (update_of read k)) ((d.lookup k).getD init)) := by
  induction items with
  | nil =>
    intro d
    rfl
  | cons a rest ih =>
    intro d
    rw [List.foldl_cons, ih, lookup_gather_item]
    cases hf : update_of read k a with
    | none => rw [List.filterMap_cons_none hf]
    | some f =>
      rw [List.filterMap_cons_some hf, if_neg (List.cons_ne_nil _ _), apply_all_cons]
      by_cases hrest : rest.filterMap (update_of read k) = []
      · rw [if_pos hrest, hrest]
        rfl
      · rw [if_neg hrest]
        rfl

/-- A key's entry is made of the updates of its own items. -/
theorem lookup_gather {k : κ} (items : List ι) : (gather read init items).lookup k =
    if items.filterMap (update_of read k) = [] then none
    else some (apply_all (items.filterMap (update_of read k)) init) := lookup_foldl []

/-! ## Dicts as lists -/

theorem keys_upsert {key : κ} {init : β} {f : β → β} (d : List (κ × β)) :
    (upsert key init f d).map Prod.fst =
      if key ∈ d.map Prod.fst then d.map Prod.fst else d.map Prod.fst ++ [key] := by
  induction d with
  | nil => rfl
  | cons e rest ih =>
    obtain ⟨k, b⟩ := e
    unfold upsert
    by_cases hk : k = key
    · rw [if_pos hk, List.map_cons, List.map_cons, hk, if_pos List.mem_cons_self]
    · rw [if_neg hk, List.map_cons, List.map_cons, ih]
      by_cases hmem : key ∈ rest.map Prod.fst
      · rw [if_pos hmem, if_pos (List.mem_cons_of_mem _ hmem)]
      · have hnot : ¬ key ∈ k :: rest.map Prod.fst := by
          rw [List.mem_cons]
          rintro (rfl | h)
          · exact hk rfl
          · exact hmem h
        rw [if_neg hmem, if_neg hnot, List.cons_append]

/-- A key has one entry, however often it was gathered: later reads update the entry there is. -/
theorem nodup_gather (items : List ι) : ((gather read init items).map Prod.fst).Nodup := by
  have hstep : ∀ (items : List ι) (d : List (κ × β)), (d.map Prod.fst).Nodup →
      ((items.foldl (gather_item read init) d).map Prod.fst).Nodup := by
    intro items
    induction items with
    | nil =>
      intro d hd
      exact hd
    | cons a rest ih =>
      intro d hd
      rw [List.foldl_cons]
      refine ih _ ?_
      unfold gather_item
      cases read a with
      | none => exact hd
      | some e =>
        dsimp only
        rw [keys_upsert]
        by_cases hmem : e.1 ∈ d.map Prod.fst
        · rw [if_pos hmem]
          exact hd
        · rw [if_neg hmem]
          exact List.nodup_append_comm.1 (List.nodup_cons.2 ⟨hmem, hd⟩)
  exact hstep items [] List.nodup_nil

/-- Looking up what is left of a dict: the entry under the key, if it was not filtered out. -/
theorem lookup_filter {p : κ × β → Bool} {k : κ} {d : List (κ × β)}
    (hd : (d.map Prod.fst).Nodup) :
    (d.filter p).lookup k = (d.lookup k).filter fun b => p (k, b) := by
  induction d with
  | nil => rfl
  | cons e rest ih =>
    obtain ⟨k', b⟩ := e
    rw [List.map_cons, List.nodup_cons] at hd
    rw [List.filter_cons, lookup_cons_if]
    by_cases hk : k = k'
    · rw [if_pos hk, Option.filter_some, hk]
      by_cases hp : p (k', b) = true
      · rw [if_pos hp, if_pos hp, List.lookup_cons_self]
      · rw [if_neg hp, if_neg hp, List.lookup_eq_none_iff]
        intro e he
        rw [bne_iff_ne]
        intro hkey
        have hmem : e.1 ∈ rest.map Prod.fst := List.mem_map_of_mem (List.mem_filter.1 he).1
        rw [← hkey] at hmem
        exact hd.1 hmem
    · rw [if_neg hk, ← ih hd.2]
      by_cases hp : p (k', b) = true
      · rw [if_pos hp, lookup_cons_if, if_neg hk]
      · rw [if_neg hp]

/-- Looking up a dict of other values is looking up first and changing the value then. -/
theorem lookup_map {γ : Type} {g : κ × β → γ} {k : κ} (d : List (κ × β)) :
    (d.map fun e => (e.1, g e)).lookup k = (d.lookup k).map fun b => g (k, b) := by
  induction d with
  | nil => rfl
  | cons e rest ih =>
    rw [List.map_cons, lookup_cons_if, lookup_cons_if, ih]
    by_cases hk : k = e.1
    · rw [if_pos hk, if_pos hk, hk]
      rfl
    · rw [if_neg hk, if_neg hk]

/-! ## Ranges of an array -/

/-- What a function finds in `[0, n)` when it finds something in `[a, b)` only. -/
theorem filterMap_range {γ : Type} {g : ℕ → Option γ} {u : ℕ → γ} {a b n : ℕ} (hab : a ≤ b)
    (hbn : b ≤ n) (hin : ∀ k, a ≤ k → k < b → g k = some (u k))
    (hout : ∀ k, k < n → k < a ∨ b ≤ k → g k = none) :
    (List.range' 0 n).filterMap g = (List.range' a (b - a)).map u := by
  have hsplit : List.range' 0 n = List.range' 0 a ++ (List.range' a (b - a) ++
      List.range' b (n - b)) := by
    have hmid : List.range' a (b - a) ++ List.range' b (n - b) = List.range' a (n - a) := by
      have h := List.range'_append_1 (s := a) (m := b - a) (n := n - b)
      rw [Nat.add_sub_cancel' hab] at h
      rw [h]
      congr 1
      omega
    have hall := List.range'_append_1 (s := 0) (m := a) (n := n - a)
    rw [Nat.zero_add, Nat.add_sub_cancel' (Nat.le_trans hab hbn)] at hall
    rw [hmid, hall]
  have hnone : ∀ ks : List ℕ, (∀ k ∈ ks, k < n ∧ (k < a ∨ b ≤ k)) → ks.filterMap g = [] := by
    intro ks hks
    rw [List.filterMap_eq_nil_iff]
    intro k hk
    exact hout k (hks k hk).1 (hks k hk).2
  have hsome : (List.range' a (b - a)).filterMap g = (List.range' a (b - a)).map u := by
    rw [← List.filterMap_eq_map]
    refine List.filterMap_congr ?_
    intro k hk
    rw [List.mem_range'_1] at hk
    exact hin k hk.1 (by omega)
  rw [hsplit, List.filterMap_append, List.filterMap_append, hsome, hnone, hnone, List.nil_append,
    List.append_nil]
  · intro k hk
    rw [List.mem_range'_1] at hk
    omega
  · intro k hk
    rw [List.mem_range'_1] at hk
    omega

/-- The same over an array and its indices: what is selected at the places of a range is what stands
there, in order. -/
theorem filterMap_zipIdx {α γ : Type} {g : α × ℕ → Option γ} {u : ℕ → γ} {items : List α}
    {a b : ℕ} (hab : a ≤ b) (hb : b ≤ items.length)
    (hin : ∀ k x, items[k]? = some x → a ≤ k → k < b → g (x, k) = some (u k))
    (hout : ∀ k x, items[k]? = some x → k < a ∨ b ≤ k → g (x, k) = none) :
    items.zipIdx.filterMap g = (List.range' a (b - a)).map u := by
  have hindex : items.zipIdx.filterMap g = items.zipIdx.filterMap fun e =>
      if a ≤ e.2 ∧ e.2 < b then some (u e.2) else none := by
    refine List.filterMap_congr ?_
    rintro ⟨x, k⟩ he
    have hx : items[k]? = some x := List.mem_zipIdx_iff_getElem?.1 he
    by_cases hk : a ≤ k ∧ k < b
    · rw [if_pos hk]
      exact hin k x hx hk.1 hk.2
    · rw [if_neg hk]
      exact hout k x hx (by omega)
  have hsnd : (items.zipIdx.filterMap fun e =>
      if a ≤ e.2 ∧ e.2 < b then some (u e.2) else none) =
      (items.zipIdx.map Prod.snd).filterMap fun k =>
        if a ≤ k ∧ k < b then some (u k) else none := by
    rw [List.filterMap_map]
    rfl
  rw [hindex, hsnd, List.zipIdx_map_snd]
  refine filterMap_range hab hb ?_ ?_
  · intro k hle hlt
    exact if_pos ⟨hle, hlt⟩
  · intro k _ hk
    exact if_neg (by omega)

end Gather
