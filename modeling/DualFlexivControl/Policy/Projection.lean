/-
The index lists of an OpenPI config and the vectors they project: `_indices`, `_pairs` and
`_claim` of `policy/adapter.py`, and the two loops that write with them.

A config declares its writes as lists of index values, and any value may stand in such a list.
[`Declared`] is what a good config declares: sources that are distinct positions of the source
vector, as many as the targets, and targets that partition the projected vector. The loops
accept nothing else, and what they accept they write out exactly: [`Projected`].
-/
import Mathlib.Data.Int.Notation
import DualFlexivControl.Lib.Scatter

set_option autoImplicit false

namespace DualFlexivControl.Policy

open Results Scatter

/-! ## Declarations -/

/-- One value of an index list: an integer, a boolean, or anything else. -/
inductive IndexValue
  | int (value : ℤ)
  | bool (value : Bool)
  | other (repr : String)
  deriving DecidableEq, Repr

/-- The index value of a position. -/
def IndexValue.of (i : ℕ) : IndexValue := .int i

/-- `IndexCopyCfg` -/
structure IndexCopyCfg where
  name : String
  source : List IndexValue
  target : List IndexValue
  deriving DecidableEq, Repr

/-- `IndexConstantCfg` -/
structure IndexConstantCfg (F : Type) where
  name : String
  target : List IndexValue
  value : F
  deriving DecidableEq, Repr

/-- A `PolicyError` of the projections, by what its message shows. -/
inductive ProjectionError
  | not_an_integer (label : String) (value : IndexValue)
  | outside (label : String) (index : ℤ) (size : ℕ)
  | duplicate (label : String) (indices : List ℕ)
  | lengths_differ (label : String) (source target : ℕ)
  | overwrites (label : String) (overlap : List ℕ)
  | negative_dim (dim : ℤ)
  | no_observation
  | unmapped (missing : List ℕ)
  deriving DecidableEq, Repr

/-! ## Index lists -/

/-- One value of `_indices`. -/
def index (size : ℕ) (label : String) : IndexValue → Except ProjectionError ℕ
  | .int value =>
    if value < 0 ∨ value ≥ size then .error (.outside label value size) else .ok value.toNat
  | value => .error (.not_an_integer label value)

/-- `_indices` -/
def indices (values : List IndexValue) (size : ℕ) (label : String) :
    Except ProjectionError (List ℕ) := do
  let indices ← collect (index size label) values
  if ¬ indices.Nodup then .error (.duplicate label indices) else .ok indices

/-- `_pairs` -/
def pairs (item : IndexCopyCfg) (source_size target_size : ℕ) (label : String) :
    Except ProjectionError (List ℕ × List ℕ) := do
  let source ← indices item.source source_size s!"{label} source"
  let target ← indices item.target target_size s!"{label} target"
  if source.length ≠ target.length then
    .error (.lengths_differ label source.length target.length)
  else .ok (source, target)

/-- `_claim`: the mapped indices with the new ones, unless some are mapped already. -/
def claim (mapped target : List ℕ) (label : String) : Except ProjectionError (List ℕ) :=
  let overlap := target.filter mapped.contains
  if overlap ≠ [] then .error (.overwrites label overlap.mergeSort) else .ok (mapped ++ target)

/-- `sorted(set(range(dim)) - mapped)` -/
def missing (dim : ℕ) (mapped : List ℕ) : List ℕ :=
  (List.range dim).filter fun i => !mapped.contains i

/-- `vector[source]` -/
def gather {α : Type} (vector : List α) (source : List ℕ) : List α :=
  source.filterMap fun i => vector[i]?

section Items

variable {F V : Type}

/-- One copied item: pair its indices, claim the targets, write. -/
def copy_item (unnamed : String) (source_size target_size : ℕ)
    (write : List ℕ → List ℕ → V → V) (item : IndexCopyCfg) (b : Claimed V) :
    Except ProjectionError (Claimed V) := do
  let label := if item.name = "" then unnamed else item.name
  let (source, target) ← pairs item source_size target_size label
  let mapped ← claim b.mapped target label
  pure ⟨write source target b.vector, mapped⟩

/-- One constant item: claim its targets, write. -/
def constant_item (unnamed : String) (target_size : ℕ) (write : List ℕ → F → V → V)
    (item : IndexConstantCfg F) (b : Claimed V) : Except ProjectionError (Claimed V) := do
  let label := if item.name = "" then unnamed else item.name
  let target ← indices item.target target_size s!"{label} target"
  let mapped ← claim b.mapped target label
  pure ⟨write target item.value b.vector, mapped⟩

end Items

/-! ## What a config declares -/

/-- The source a declared write names. -/
inductive Source (F : Type)
  | copied (index : IndexValue)
  | held (index : IndexValue)
  | constant (value : F)
  deriving DecidableEq, Repr

/-- The position an index value names, if it names one. -/
def IndexValue.position : IndexValue → Option ℕ
  | .int value => if 0 ≤ value then some value.toNat else none
  | _ => none

/-- The element an index value names, if it names one. -/
def element {α : Type} (vector : List α) (index : IndexValue) : Option α :=
  index.position.bind fun i => vector[i]?

/-- The positions named in an index list. -/
def positions (values : List IndexValue) : List ℕ := values.filterMap IndexValue.position

section Declared

variable {F α : Type}

/-- The writes a copied item declares. -/
def IndexCopyCfg.writes (item : IndexCopyCfg) (source : IndexValue → Source F) :
    List (IndexValue × Source F) := item.target.zip (item.source.map source)

/-- The writes a constant item declares. -/
def IndexConstantCfg.writes (item : IndexConstantCfg F) : List (IndexValue × Source F) :=
  item.target.map fun target => (target, .constant item.value)

/-- Distinct positions of a vector of this size. -/
structure Indexable (values : List IndexValue) (size : ℕ) : Prop where
  nodup : values.Nodup
  within : ∀ value ∈ values, ∃ i, i < size ∧ value = .of i

/-- The sources are positions of the source vector, and as many as the targets. -/
structure IndexCopyCfg.Paired (item : IndexCopyCfg) (source_size : ℕ) : Prop where
  source : Indexable item.source source_size
  lengths : item.source.length = item.target.length

/-- Every index of `[0, dim)` once, and nothing else. -/
structure Partitions (targets : List IndexValue) (dim : ℤ) : Prop where
  nodup : targets.Nodup
  covers : ∀ value, value ∈ targets ↔ ∃ i : ℕ, (i : ℤ) < dim ∧ value = .of i

/-- Each index of the vector is written by exactly one declared write, and holds the value of
its source. -/
structure Projected (dim : ℤ) (writes : List (IndexValue × Source F))
    (value : Source F → Option α) (vector : List α) : Prop where
  length : (vector.length : ℤ) = dim
  written : ∀ i, i < vector.length → ∃ source a,
    writes.filter (fun w => w.1 = .of i) = [(.of i, source)] ∧
      value source = some a ∧ vector[i]? = some a

end Declared

/-! ## Index lists that are accepted -/

/-- Different positions are different index values. -/
theorem of_injective : Function.Injective IndexValue.of := by
  intro i j h
  exact Int.ofNat.inj (IndexValue.int.inj h)

/-- An index value is accepted when it is a position of the vector, given as an integer. -/
theorem index_ok {size : ℕ} {label : String} {value : IndexValue} {i : ℕ} :
    index size label value = .ok i ↔ i < size ∧ value = .of i := by
  constructor
  · intro h
    cases value with
    | int value =>
      obtain ⟨hrange, h⟩ := guard_ok.1 h
      obtain rfl := Except.ok.inj h
      refine ⟨by omega, ?_⟩
      unfold IndexValue.of
      rw [Int.toNat_of_nonneg (by omega)]
    | bool value => exact nomatch h
    | other repr => exact nomatch h
  · rintro ⟨hlt, rfl⟩
    refine guard_ok.2 ⟨by omega, ?_⟩
    rw [Int.toNat_natCast]

/-- An accepted list holds distinct positions, and these are what is returned. -/
theorem indices_ok {values : List IndexValue} {size : ℕ} {label : String} {is : List ℕ} :
    indices values size label = .ok is ↔
      Indexable values size ∧ values = is.map .of := by
  unfold indices
  simp only [bind_ok, guard_ok, collect_ok, index_ok, not_not, Except.ok.injEq]
  constructor
  · rintro ⟨_, hvalues, hnodup, rfl⟩
    rename_i is
    have heq : values = is.map .of := by
      have h := hvalues.imp fun _ _ h => h.2
      rwa [← List.forall₂_map_right_iff (f := IndexValue.of), List.forall₂_eq_eq_eq] at h
    refine ⟨⟨?_, ?_⟩, heq⟩
    · rw [heq]
      exact hnodup.map of_injective
    · intro value hvalue
      rw [heq] at hvalue
      obtain ⟨i, hi, rfl⟩ := List.mem_map.1 hvalue
      rw [heq, List.forall₂_map_left_iff, List.forall₂_same] at hvalues
      exact ⟨i, (hvalues i hi).1, rfl⟩
  · rintro ⟨hindexable, rfl⟩
    refine ⟨is, ?_, hindexable.nodup.of_map _, rfl⟩
    rw [List.forall₂_map_left_iff, List.forall₂_same]
    intro i hi
    obtain ⟨j, hj, heq⟩ := hindexable.within _ (List.mem_map_of_mem hi)
    obtain rfl := of_injective heq
    exact ⟨hj, rfl⟩

/-- The position of the index value that stands for it. -/
@[simp] theorem position_of {i : ℕ} : (IndexValue.of i).position = some i := by
  show (if (0 : ℤ) ≤ i then some (i : ℤ).toNat else none) = some i
  rw [if_pos (Int.natCast_nonneg i), Int.toNat_natCast]

/-- The positions of index values that stand for them. -/
@[simp] theorem positions_map_of {is : List ℕ} : positions (is.map .of) = is := by
  unfold positions
  rw [List.filterMap_map]
  refine (List.filterMap_congr fun i _ => ?_).trans List.filterMap_some
  exact position_of

/-- A list of positions is the list of its positions. -/
theorem eq_map_positions {values : List IndexValue} (h : ∀ value ∈ values, ∃ i, value = .of i) :
    values = (positions values).map .of := by
  induction values with
  | nil => rfl
  | cons value rest ih =>
    obtain ⟨i, rfl⟩ := h value List.mem_cons_self
    have hrest := ih fun v hv => h v (List.mem_cons_of_mem _ hv)
    unfold positions at hrest ⊢
    rw [List.filterMap_cons_some position_of, List.map_cons, ← hrest]

/-- A good list consists of positions, so nothing is lost by naming them. -/
theorem Indexable.eq_positions {values : List IndexValue} {size : ℕ}
    (h : Indexable values size) : values = (positions values).map .of := by
  refine eq_map_positions fun value hvalue => ?_
  obtain ⟨i, -, heq⟩ := h.within value hvalue
  exact ⟨i, heq⟩

/-- A good list is accepted as the positions that it names. -/
theorem indices_positions {values : List IndexValue} {size : ℕ} {label : String}
    (h : Indexable values size) : indices values size label = .ok (positions values) :=
  indices_ok.2 ⟨h, h.eq_positions⟩

/-- A good list names no position twice. -/
theorem Indexable.nodup_positions {values : List IndexValue} {size : ℕ}
    (h : Indexable values size) : (positions values).Nodup :=
  (h.eq_positions ▸ h.nodup).of_map _

/-- Every value of a good list names a position. -/
theorem Indexable.length_positions {values : List IndexValue} {size : ℕ}
    (h : Indexable values size) : (positions values).length = values.length := by
  conv_rhs => rw [h.eq_positions, List.length_map]

/-! ## Items that are accepted -/

/-- A claim is granted where nothing in it is mapped. -/
theorem claim_ok {mapped target mapped' : List ℕ} {label : String} :
    claim mapped target label = .ok mapped' ↔
      (∀ i ∈ target, i ∉ mapped) ∧ mapped' = mapped ++ target := by
  have hoverlap : target.filter mapped.contains = [] ↔ ∀ i ∈ target, i ∉ mapped := by
    simp only [List.filter_eq_nil_iff, List.contains_iff_mem]
  unfold claim
  simp only [guard_ok, not_not, hoverlap, Except.ok.injEq]
  rw [eq_comm (b := mapped')]

/-- Paired lists are accepted, and no others: as many sources as targets, each a position of its
vector. -/
theorem pairs_ok {item : IndexCopyCfg} {source_size target_size : ℕ} {label : String}
    {source target : List ℕ} :
    pairs item source_size target_size label = .ok (source, target) ↔
      item.Paired source_size ∧ Indexable item.target target_size ∧
        source = positions item.source ∧ target = positions item.target := by
  unfold pairs
  simp only [bind_ok, guard_ok, not_not, Except.ok.injEq, Prod.mk.injEq]
  constructor
  · rintro ⟨source', hsource, target', htarget, hlengths, rfl, rfl⟩
    obtain ⟨hindexable, hsource⟩ := indices_ok.1 hsource
    obtain ⟨hindexable', htarget⟩ := indices_ok.1 htarget
    refine ⟨⟨hindexable, ?_⟩, hindexable', ?_, ?_⟩
    · rw [hsource, htarget, List.length_map, List.length_map, hlengths]
    · rw [hsource, positions_map_of]
    · rw [htarget, positions_map_of]
  · rintro ⟨hpaired, htarget, rfl, rfl⟩
    refine ⟨_, indices_positions hpaired.source, _, indices_positions htarget, ?_, rfl, rfl⟩
    rw [hpaired.source.length_positions, htarget.length_positions, hpaired.lengths]

section Items

variable {F V : Type}

/-- A copied item is accepted when it pairs its sources with targets, claims these targets and
writes the ones from the others. -/
theorem copy_item_spec (unnamed : String) (source_size target_size : ℕ)
    (write : List ℕ → List ℕ → V → V) :
    ClaimSpec (copy_item unnamed source_size target_size write)
      (fun item => item.Paired source_size ∧ Indexable item.target target_size)
      (fun item => positions item.target)
      (fun item => write (positions item.source) (positions item.target)) where
  ok_iff item b b' := by
    unfold copy_item
    simp only [bind_ok, pure_ok, Prod.exists, pairs_ok, claim_ok]
    constructor
    · rintro ⟨_, _, ⟨hpaired, htarget, rfl, rfl⟩, _, ⟨hfree, rfl⟩, rfl⟩
      exact ⟨⟨hpaired, htarget⟩, hfree, rfl⟩
    · rintro ⟨⟨hpaired, htarget⟩, hfree, rfl⟩
      exact ⟨_, _, ⟨hpaired, htarget, rfl, rfl⟩, _, ⟨hfree, rfl⟩, rfl⟩
  nodup item hvalid := hvalid.2.nodup_positions

/-- A constant item is accepted when its targets are good, claims them and writes its value to each.
-/
theorem constant_item_spec (unnamed : String) (target_size : ℕ)
    (write : List ℕ → F → V → V) :
    ClaimSpec (constant_item unnamed target_size write)
      (fun item => Indexable item.target target_size)
      (fun item => positions item.target)
      (fun item => write (positions item.target) item.value) where
  ok_iff item b b' := by
    unfold constant_item
    simp only [bind_ok, pure_ok, indices_ok, claim_ok]
    constructor
    · rintro ⟨target, ⟨htarget, heq⟩, _, ⟨hfree, rfl⟩, rfl⟩
      rw [heq, positions_map_of]
      exact ⟨heq ▸ htarget, hfree, rfl⟩
    · rintro ⟨htarget, hfree, rfl⟩
      exact ⟨_, ⟨htarget, htarget.eq_positions⟩, _, ⟨hfree, rfl⟩, rfl⟩
  nodup item hvalid := hvalid.nodup_positions

end Items

/-! ## What is missing, and what is partitioned -/

/-- Nothing is missing when every index below the width was mapped. -/
theorem missing_eq_nil {dim : ℕ} {mapped : List ℕ} :
    missing dim mapped = [] ↔ ∀ i, i < dim → i ∈ mapped := by
  simp [missing, List.filter_eq_nil_iff]

/-- Targets partition `[0, dim)` exactly when each is a position below `dim` and their positions
do. -/
theorem partitions_iff {targets : List IndexValue} {dim : ℕ} :
    Partitions targets dim ↔
      (∀ value ∈ targets, ∃ i, i < dim ∧ value = .of i) ∧ Partition dim (positions targets) := by
  constructor
  · intro h
    have hwithin : ∀ value ∈ targets, ∃ i, i < dim ∧ value = .of i := by
      intro value hvalue
      obtain ⟨i, hi, heq⟩ := (h.covers value).1 hvalue
      exact ⟨i, Int.ofNat_lt.1 hi, heq⟩
    have heq := Indexable.eq_positions ⟨h.nodup, hwithin⟩
    refine ⟨hwithin, Indexable.nodup_positions ⟨h.nodup, hwithin⟩, ?_⟩
    intro i
    have hi := h.covers (.of i)
    rw [heq, List.mem_map_of_injective of_injective] at hi
    rw [hi]
    constructor
    · rintro ⟨j, hj, hij⟩
      rw [of_injective hij]
      exact Int.ofNat_lt.1 hj
    · intro hlt
      exact ⟨i, Int.ofNat_lt.2 hlt, rfl⟩
  · rintro ⟨hwithin, hpart⟩
    have heq := eq_map_positions fun value hvalue => (hwithin value hvalue).imp fun _ h => h.2
    refine ⟨?_, ?_⟩
    · rw [heq]
      exact hpart.nodup.map of_injective
    · intro value
      rw [heq, List.mem_map]
      constructor
      · rintro ⟨i, hi, rfl⟩
        exact ⟨i, Int.ofNat_lt.2 ((hpart.covers i).1 hi), rfl⟩
      · rintro ⟨i, hi, rfl⟩
        exact ⟨i, (hpart.covers i).2 (Int.ofNat_lt.1 hi), rfl⟩

/-! ## Declared writes performed -/

section Performs

variable {F α : Type} {value : Source F → Option α}

/-- The writes are the declared ones, with the values of their sources. -/
def Performs (value : Source F → Option α) (declared : List (IndexValue × Source F))
    (writes : List (ℕ × α)) : Prop :=
  List.Forall₂ (fun d w => d.1 = .of w.1 ∧ value d.2 = some w.2) declared writes

/-- Writes that do what is declared, one list after the other. -/
theorem Performs.append {d₁ d₂ : List (IndexValue × Source F)} {w₁ w₂ : List (ℕ × α)}
    (h₁ : Performs value d₁ w₁) (h₂ : Performs value d₂ w₂) :
    Performs value (d₁ ++ d₂) (w₁ ++ w₂) := List.rel_append h₁ h₂

/-- The same for all items of a config in a row. -/
theorem performs_flatMap {ι : Type} {items : List ι} {declared : ι → List (IndexValue × Source F)}
    {writes : ι → List (ℕ × α)} (h : ∀ item ∈ items, Performs value (declared item) (writes item)) :
    Performs value (items.flatMap declared) (items.flatMap writes) := by
  induction items with
  | nil => exact List.Forall₂.nil
  | cons item rest ih =>
    rw [List.flatMap_cons, List.flatMap_cons]
    exact (h item List.mem_cons_self).append (ih fun i hi => h i (List.mem_cons_of_mem _ hi))

/-- The performed writes go to the declared targets. -/
theorem Performs.targets {declared : List (IndexValue × Source F)} {writes : List (ℕ × α)}
    (h : Performs value declared writes) :
    writes.map Prod.fst = positions (declared.map Prod.fst) := by
  induction h with
  | nil => rfl
  | cons h _ ih =>
    unfold positions at ih ⊢
    rw [List.map_cons, List.map_cons, h.1, List.filterMap_cons_some position_of, ih]

/-- Writes that partition the vector project it as declared: every index has the value of the one
write that declares it. -/
theorem Performs.projected {declared : List (IndexValue × Source F)} {writes : List (ℕ × α)}
    (h : Performs value declared writes) {dim : ℕ} (hpart : Partition dim (writes.map Prod.fst))
    {vector : List α} (hlen : vector.length = dim) :
    Projected dim declared value (scatter vector writes) := by
  refine ⟨by rw [length_scatter, hlen], ?_⟩
  intro i hi
  rw [length_scatter, hlen] at hi
  obtain ⟨a, hwriter, hentry⟩ := scatter_partition hpart hlen hi
  have hfilter : List.Forall₂ (fun d w => d.1 = .of w.1 ∧ value d.2 = some w.2)
      (declared.filter fun d => d.1 = .of i) (writes.filter fun w => w.1 = i) := by
    refine List.rel_filter ?_ h
    intro d w hdw
    simp only [decide_eq_true_iff, hdw.1]
    exact ⟨fun heq => of_injective heq, congrArg IndexValue.of⟩
  rw [hwriter, List.forall₂_cons_right_iff] at hfilter
  obtain ⟨⟨target, source⟩, rest, ⟨htarget, hvalue⟩, hrest, heq⟩ := hfilter
  obtain rfl := List.forall₂_nil_right_iff.1 hrest
  dsimp only at htarget hvalue
  exact ⟨source, a, by rw [heq, htarget], hvalue, hentry⟩

/-- The element that a position names is the vector's. -/
theorem element_of {vector : List α} {i : ℕ} : element vector (.of i) = vector[i]? := by
  unfold element
  rw [position_of]
  rfl

/-- A paired item copies what it declares, each target from the source in the same place of its
list. -/
theorem performs_copy {item : IndexCopyCfg} {vector : List α} {size : ℕ}
    (hpaired : item.Paired vector.length) (htarget : Indexable item.target size)
    {source : IndexValue → Source F} (hvalue : ∀ v, value (source v) = element vector v) :
    Performs value (item.writes source)
      ((positions item.target).zip (gather vector (positions item.source))) := by
  unfold IndexCopyCfg.writes
  have hlengths := hpaired.lengths
  rw [hpaired.source.eq_positions, htarget.eq_positions] at hlengths ⊢
  rw [List.length_map, List.length_map] at hlengths
  have hwithin : ∀ i ∈ positions item.source, i < vector.length := by
    intro i hi
    have hmem := List.mem_map_of_mem (f := IndexValue.of) hi
    rw [← hpaired.source.eq_positions] at hmem
    obtain ⟨j, hj, heq⟩ := hpaired.source.within _ hmem
    rwa [of_injective heq]
  simp only [positions_map_of]
  generalize positions item.source = source' at hlengths hwithin
  generalize positions item.target = target' at hlengths
  clear hpaired htarget
  -- Both lists of positions have one length and are walked together.
  induction source' generalizing target' with
  | nil =>
    obtain rfl := List.length_eq_zero_iff.1 hlengths.symm
    exact List.Forall₂.nil
  | cons i rest ih =>
    cases target' with
    | nil => exact nomatch hlengths
    | cons j rest' =>
      have hentry := List.getElem?_eq_getElem (hwithin i List.mem_cons_self)
      unfold gather at ih ⊢
      rw [List.filterMap_cons_some hentry]
      refine List.Forall₂.cons ⟨rfl, ?_⟩ (ih
        (fun i hi => hwithin i (List.mem_cons_of_mem _ hi)) rest' (Nat.succ.inj hlengths))
      rw [hvalue, element_of, hentry]

/-- A constant item writes its value. -/
theorem performs_constant {item : IndexConstantCfg F} {size : ℕ}
    (htarget : Indexable item.target size) {a : α}
    (hvalue : value (.constant item.value) = some a) :
    Performs value item.writes ((positions item.target).map fun i => (i, a)) := by
  unfold Performs IndexConstantCfg.writes
  rw [htarget.eq_positions, positions_map_of, List.map_map, List.forall₂_map_left_iff,
    List.forall₂_map_right_iff, List.forall₂_same]
  intro i _
  exact ⟨rfl, hvalue⟩

end Performs

end DualFlexivControl.Policy
