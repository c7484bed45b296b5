/-
Indexed writes into a vector, and the claims that guard them.

`scatter` performs a list of writes in order. Where no index is written twice, every written
index ends with its own value and every other entry stays as it was; where the written indices
are all indices, no entry of the old vector is left.

`claim_all` is the usual guard: each item names the indices it is about to write, an item that
names one already claimed is refused, and the claims accumulate. It succeeds exactly when every
item is valid and no index is named twice, and then the vector has been through every item.
-/
import Mathlib.Data.List.Basic
import Mathlib.Data.List.Nodup
import DualFlexivControl.Lib.Results

set_option autoImplicit false

namespace Scatter

open Results

variable {α : Type}

/-! ## Writes -/

/-- Perform the writes in order. -/
def scatter (v : List α) (writes : List (ℕ × α)) : List α :=
  writes.foldl (fun v w => v.set w.1 w.2) v

/-- Exactly the indices below `n`, each once. -/
structure Partition (n : ℕ) (targets : List ℕ) : Prop where
  nodup : targets.Nodup
  covers : ∀ i, i ∈ targets ↔ i < n

@[simp] theorem scatter_nil (v : List α) : scatter v [] = v := rfl

theorem scatter_cons (v : List α) (w : ℕ × α) (writes : List (ℕ × α)) :
    scatter v (w :: writes) = scatter (v.set w.1 w.2) writes := rfl

theorem scatter_append (v : List α) (first second : List (ℕ × α)) :
    scatter v (first ++ second) = scatter (scatter v first) second := List.foldl_append ..

@[simp] theorem length_scatter (writes : List (ℕ × α)) :
    ∀ v : List α, (scatter v writes).length = v.length := by
  induction writes with
  | nil =>
    intro v
    rfl
  | cons w rest ih =>
    intro v
    rw [scatter_cons, ih, List.length_set]

/-- An index that is not written keeps its entry. -/
theorem scatter_of_not_mem {writes : List (ℕ × α)} {i : ℕ} :
    ∀ {v : List α}, i ∉ writes.map Prod.fst → (scatter v writes)[i]? = v[i]? := by
  induction writes with
  | nil =>
    intro v _
    rfl
  | cons w rest ih =>
    intro v hi
    rw [List.map_cons, List.mem_cons, not_or] at hi
    rw [scatter_cons, ih hi.2, List.getElem?_set_ne (Ne.symm hi.1)]

/-- An index that is written once ends with the value of its write. -/
theorem scatter_of_mem {writes : List (ℕ × α)} {w : ℕ × α} :
    ∀ {v : List α}, (writes.map Prod.fst).Nodup → w ∈ writes → w.1 < v.length →
      (scatter v writes)[w.1]? = some w.2 := by
  induction writes with
  | nil =>
    intro v _ hw
    exact absurd hw List.not_mem_nil
  | cons w' rest ih =>
    intro v hnodup hw hlt
    rw [List.map_cons, List.nodup_cons] at hnodup
    rw [scatter_cons]
    rcases List.mem_cons.1 hw with rfl | hw
    · rw [scatter_of_not_mem hnodup.1, List.getElem?_set_self hlt]
    · exact ih hnodup.2 hw (by rwa [List.length_set])

/-- Where no index is written twice, one write is all there is for its index. -/
theorem writer_unique {writes : List (ℕ × α)} (hnodup : (writes.map Prod.fst).Nodup)
    {w : ℕ × α} (hw : w ∈ writes) : writes.filter (fun w' => w'.1 = w.1) = [w] := by
  induction writes with
  | nil => exact absurd hw List.not_mem_nil
  | cons w' rest ih =>
    rw [List.map_cons, List.nodup_cons] at hnodup
    rcases List.mem_cons.1 hw with rfl | hw
    · rw [List.filter_cons, if_pos (decide_eq_true rfl)]
      congr 1
      refine List.filter_eq_nil_iff.2 fun w' hw' => ?_
      intro heq
      exact hnodup.1 (of_decide_eq_true heq ▸ List.mem_map_of_mem hw')
    · have hne : w'.1 ≠ w.1 := fun heq => hnodup.1 (heq ▸ List.mem_map_of_mem hw)
      rw [List.filter_cons, if_neg (by simpa using hne)]
      exact ih hnodup.2 hw

/-- Writes that partition the indices leave nothing of the old vector: each index has exactly
one writer, and holds its value. -/
theorem scatter_partition {n : ℕ} {writes : List (ℕ × α)}
    (hpart : Partition n (writes.map Prod.fst)) {v : List α} (hlen : v.length = n) {i : ℕ}
    (hi : i < n) : ∃ a, writes.filter (fun w => w.1 = i) = [(i, a)] ∧
      (scatter v writes)[i]? = some a := by
  obtain ⟨w, hw, rfl⟩ := List.mem_map.1 ((hpart.covers i).2 hi)
  exact ⟨w.2, writer_unique hpart.nodup hw, scatter_of_mem hpart.nodup hw (by rwa [hlen])⟩

/-- Writing item by item is performing all their writes in order. -/
theorem foldl_scatter {ι : Type} (writes : ι → List (ℕ × α)) (items : List ι) :
    ∀ v, items.foldl (fun v item => scatter v (writes item)) v =
      scatter v (items.flatMap writes) := by
  induction items with
  | nil =>
    intro v
    rfl
  | cons item rest ih =>
    intro v
    rw [List.foldl_cons, ih, List.flatMap_cons, scatter_append]

/-! ## Rows -/

section Rows

variable {β : Type}

/-- Every row performs the writes of its own datum. -/
def scatter_rows (writes : β → List (ℕ × α)) (data : List β) (rows : List (List α)) :
    List (List α) := List.zipWith (fun row d => scatter row (writes d)) rows data

theorem scatter_rows_append {first second : β → List (ℕ × α)} {data : List β} :
    ∀ {rows : List (List α)}, scatter_rows second data (scatter_rows first data rows) =
      scatter_rows (fun d => first d ++ second d) data rows := by
  unfold scatter_rows
  induction data with
  | nil =>
    intro rows
    simp only [List.zipWith_nil_right]
  | cons d rest ih =>
    intro rows
    cases rows with
    | nil => rfl
    | cons row rows' =>
      simp only [List.zipWith_cons_cons, ih, scatter_append]

/-- Rows that all start alike. -/
theorem scatter_rows_replicate {writes : β → List (ℕ × α)} {data : List β} {v : List α} :
    scatter_rows writes data (List.replicate data.length v) =
      data.map fun d => scatter v (writes d) := by
  unfold scatter_rows
  induction data with
  | nil => rfl
  | cons d rest ih =>
    rw [List.length_cons, List.replicate_succ, List.zipWith_cons_cons, ih, List.map_cons]

/-- Writing into the rows item by item is performing all their writes in order. -/
theorem foldl_scatter_rows {ι : Type} (writes : ι → β → List (ℕ × α)) (data : List β)
    (items : List ι) : ∀ {before : β → List (ℕ × α)} {rows : List (List α)},
      items.foldl (fun rows item => scatter_rows (writes item) data rows)
        (scatter_rows before data rows) =
      scatter_rows (fun d => before d ++ items.flatMap fun item => writes item d) data rows := by
  induction items with
  | nil =>
    intro before rows
    simp only [List.foldl_nil, List.flatMap_nil, List.append_nil]
  | cons item rest ih =>
    intro before rows
    rw [List.foldl_cons, scatter_rows_append, ih]
    simp only [List.flatMap_cons, List.append_assoc]

/-- Rows without writes stay as they are. -/
theorem scatter_rows_nil {data : List β} {v : List α} :
    scatter_rows (fun _ => []) data (List.replicate data.length v) =
      List.replicate data.length v := by
  rw [scatter_rows_replicate]
  exact List.map_const' ..

end Rows

/-! ## Claims -/

/-- A vector under construction, with the indices claimed so far. -/
structure Claimed (V : Type) where
  vector : V
  mapped : List ℕ

section Claims

variable {ι ε V : Type}

/-- Let every item make its claim and its write, up to the first that is refused. -/
def claim_all (f : ι → Claimed V → Except ε (Claimed V)) :
    List ι → Claimed V → Except ε (Claimed V)
  | [], b => .ok b
  | item :: rest, b => do
    let b ← f item b
    claim_all f rest b

/-- What an item's step does: a valid item whose targets are free claims them and writes. -/
structure ClaimSpec (f : ι → Claimed V → Except ε (Claimed V)) (valid : ι → Prop)
    (targets : ι → List ℕ) (write : ι → V → V) : Prop where
  ok_iff : ∀ item b b', f item b = .ok b' ↔ valid item ∧ (∀ i ∈ targets item, i ∉ b.mapped) ∧
    b' = ⟨write item b.vector, b.mapped ++ targets item⟩
  nodup : ∀ item, valid item → (targets item).Nodup

/-- All items succeed exactly when each is valid and no index is claimed twice. -/
theorem ClaimSpec.claim_all_ok {f : ι → Claimed V → Except ε (Claimed V)} {valid : ι → Prop}
    {targets : ι → List ℕ} {write : ι → V → V} (h : ClaimSpec f valid targets write)
    {items : List ι} : ∀ {b b' : Claimed V}, b.mapped.Nodup →
      (claim_all f items b = .ok b' ↔ (∀ item ∈ items, valid item) ∧
        (b.mapped ++ items.flatMap targets).Nodup ∧
        b' = ⟨items.foldl (fun v item => write item v) b.vector,
          b.mapped ++ items.flatMap targets⟩) := by
  induction items with
  | nil =>
    intro b b' hb
    simp only [claim_all, List.flatMap_nil, List.append_nil, List.foldl_nil]
    constructor
    · intro heq
      exact ⟨fun item hitem => absurd hitem List.not_mem_nil, hb, (Except.ok.inj heq).symm⟩
    · rintro ⟨-, -, rfl⟩
      rfl
  | cons item rest ih =>
    intro b b' hb
    unfold claim_all
    rw [bind_ok]
    constructor
    · -- the first item is granted, and the rest on top of it
      rintro ⟨b₁, hstep, hrest⟩
      obtain ⟨hvalid, hfree, rfl⟩ := (h.ok_iff item b b₁).1 hstep
      have hb₁ : (b.mapped ++ targets item).Nodup := by
        refine List.nodup_append.2 ⟨hb, h.nodup item hvalid, ?_⟩
        rintro i hi j hj rfl
        exact hfree i hj hi
      obtain ⟨hvalids, hnodup, rfl⟩ := (ih hb₁).1 hrest
      rw [List.flatMap_cons, ← List.append_assoc]
      refine ⟨?_, hnodup, rfl⟩
      intro item' hitem'
      rcases List.mem_cons.1 hitem' with rfl | hitem'
      · exact hvalid
      · exact hvalids item' hitem'
    · -- targets without a duplicate are free when their turn comes
      rintro ⟨hvalids, hnodup, rfl⟩
      rw [List.flatMap_cons, ← List.append_assoc] at hnodup
      have hb₁ : (b.mapped ++ targets item).Nodup := (List.nodup_append.1 hnodup).1
      have hfree : ∀ i ∈ targets item, i ∉ b.mapped := by
        intro i hi hmapped
        exact (List.nodup_append.1 hb₁).2.2 i hmapped i hi rfl
      refine ⟨_, (h.ok_iff item b _).2 ⟨hvalids item List.mem_cons_self, hfree, rfl⟩,
        (ih hb₁).2 ⟨fun item' hitem' => hvalids item' (List.mem_cons_of_mem _ hitem'), hnodup, ?_⟩⟩
      rw [List.flatMap_cons, List.append_assoc]
      rfl

end Claims

end Scatter
