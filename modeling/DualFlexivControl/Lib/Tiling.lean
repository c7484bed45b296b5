/-
Vectors made of labelled blocks placed one after another.

A layout is a list of parts, each a label with a width. `place` lays them out from an offset,
`splice` and `slice` write and read the entries of a block, and `fill` writes every block in
turn, whatever the vector held before. What `fill` leaves is read back block by block: a block
that comes later starts where the earlier one stops, so no write disturbs an earlier one.
-/
import Mathlib.Algebra.GroupWithZero.Nat
import Mathlib.Data.List.Nodup
import Mathlib.Algebra.BigOperators.Group.List.Basic

set_option autoImplicit false

namespace Tiling

variable {ι α ε : Type}

/-- The entries `start ≤ k < stop` of a vector, under a label. -/
structure Block (ι : Type) where
  label : ι
  start : ℕ
  stop : ℕ
  deriving DecidableEq, Repr

/-- How many entries a block has. -/
def Block.width (b : Block ι) : ℕ := b.stop - b.start

/-- Lay the parts out one after another. -/
def place (offset : ℕ) : List (ι × ℕ) → List (Block ι)
  | [] => []
  | (label, width) :: rest => ⟨label, offset, offset + width⟩ :: place (offset + width) rest

/-- How many entries the parts have together. -/
def extent (parts : List (ι × ℕ)) : ℕ := (parts.map Prod.snd).sum

/-- `v[b]` -/
def slice (b : Block ι) (v : List α) : List α := (v.drop b.start).take b.width

/-- `v[start : start + len(w)] = w` -/
def splice (v : List α) (start : ℕ) (w : List α) : List α :=
  v.take start ++ w ++ v.drop (start + w.length)

/-- Write every block in turn, or stop at the first whose content cannot be had. -/
def fill (content : Block ι → Except ε (List α)) : List (Block ι) → List α → Except ε (List α)
  | [], v => .ok v
  | b :: rest, v =>
    match content b with
    | .error e => .error e
    | .ok w => fill content rest (splice v b.start w)

/-! ## Where the blocks lie -/

@[simp] theorem extent_nil : extent ([] : List (ι × ℕ)) = 0 := rfl

@[simp] theorem extent_cons (p : ι × ℕ) (parts : List (ι × ℕ)) :
    extent (p :: parts) = p.2 + extent parts := rfl

theorem labels_place (parts : List (ι × ℕ)) :
    ∀ offset, (place offset parts).map Block.label = parts.map Prod.fst := by
  induction parts with
  | nil =>
    intro offset
    rfl
  | cons p rest ih =>
    intro offset
    exact congrArg (p.1 :: ·) (ih (offset + p.2))

/-- A block lies between the offset and the end of the layout. -/
theorem place_bounds {parts : List (ι × ℕ)} {b : Block ι} :
    ∀ {offset : ℕ}, b ∈ place offset parts →
      offset ≤ b.start ∧ b.start ≤ b.stop ∧ b.stop ≤ offset + extent parts := by
  induction parts with
  | nil =>
    intro offset hb
    exact absurd hb List.not_mem_nil
  | cons p rest ih =>
    intro offset hb
    rw [extent_cons]
    rcases List.mem_cons.1 hb with rfl | hb
    · exact ⟨Nat.le_refl _, Nat.le_add_right _ _,
        Nat.add_le_add_left (Nat.le_add_right _ _) _⟩
    · have h := ih hb
      omega

/-- A block comes from a part of its width. -/
theorem part_of_place {parts : List (ι × ℕ)} {b : Block ι} :
    ∀ {offset : ℕ}, b ∈ place offset parts → (b.label, b.width) ∈ parts := by
  induction parts with
  | nil =>
    intro offset hb
    exact absurd hb List.not_mem_nil
  | cons p rest ih =>
    intro offset hb
    rcases List.mem_cons.1 hb with rfl | hb
    · have hwidth : (Block.mk p.1 offset (offset + p.2)).width = p.2 :=
        Nat.add_sub_cancel_left _ _
      rw [hwidth]
      exact List.mem_cons_self
    · exact List.mem_cons_of_mem _ (ih hb)

/-- A part has a block. -/
theorem block_of_part {parts : List (ι × ℕ)} {p : ι × ℕ} (hp : p ∈ parts) :
    ∀ offset, ∃ b ∈ place offset parts, b.label = p.1 := by
  intro offset
  have hlabel : p.1 ∈ (place offset parts).map Block.label := by
    rw [labels_place]
    exact List.mem_map_of_mem hp
  exact List.mem_map.1 hlabel

/-! ## Which block an entry belongs to -/

theorem place_cover {parts : List (ι × ℕ)} {k : ℕ} :
    ∀ {offset : ℕ}, offset ≤ k → k < offset + extent parts →
      ∃ b ∈ place offset parts, b.start ≤ k ∧ k < b.stop := by
  induction parts with
  | nil =>
    intro offset hle hlt
    rw [extent_nil] at hlt
    omega
  | cons p rest ih =>
    intro offset hle hlt
    rw [extent_cons] at hlt
    by_cases hfirst : k < offset + p.2
    · exact ⟨_, List.mem_cons_self, hle, hfirst⟩
    · obtain ⟨b, hb, howns⟩ := ih (show offset + p.2 ≤ k by omega) (by omega)
      exact ⟨b, List.mem_cons_of_mem _ hb, howns⟩

/-- No entry belongs to two blocks. -/
theorem owner_unique {parts : List (ι × ℕ)} {b b' : Block ι} {k : ℕ} :
    ∀ {offset : ℕ}, b ∈ place offset parts → b' ∈ place offset parts →
      b.start ≤ k → k < b.stop → b'.start ≤ k → k < b'.stop → b = b' := by
  induction parts with
  | nil =>
    intro offset hb
    exact absurd hb List.not_mem_nil
  | cons p rest ih =>
    intro offset hb hb' hle hlt hle' hlt'
    rcases List.mem_cons.1 hb with rfl | hb
    · rcases List.mem_cons.1 hb' with rfl | hb'
      · rfl
      · -- a later block starts where the first one stops
        have hbounds := place_bounds hb'
        dsimp only at hlt
        omega
    · rcases List.mem_cons.1 hb' with rfl | hb'
      · have hbounds := place_bounds hb
        dsimp only at hlt'
        omega
      · exact ih hb hb' hle hlt hle' hlt'

/-- The ranges of a dict of slices split `[0, dim)`: each lies in it, and each entry lies in
exactly one. -/
structure Partition {κ : Type} (range : κ → Option (ℕ × ℕ)) (dim : ℕ) : Prop where
  bounds : ∀ key r, range key = some r → r.1 ≤ r.2 ∧ r.2 ≤ dim
  cover : ∀ k, k < dim → ∃ key r, range key = some r ∧ r.1 ≤ k ∧ k < r.2
  disjoint : ∀ key key' r r' k, range key = some r → range key' = some r' →
    r.1 ≤ k → k < r.2 → r'.1 ≤ k → k < r'.2 → key = key'

section Keys

variable {κ : Type} [DecidableEq κ]

/-- Where no two items have one key, looking an item's key up finds that item. -/
theorem find_by_key {β : Type} {key : β → κ} {items : List β} (hnodup : (items.map key).Nodup)
    {b : β} (hb : b ∈ items) : items.find? (fun b' => key b' == key b) = some b := by
  cases hfind : items.find? fun b' => key b' == key b with
  | none =>
    have hnone := List.find?_eq_none.1 hfind b hb
    exact absurd (beq_self_eq_true _) hnone
  | some found =>
    have hkey := List.find?_some (p := fun b' : β => key b' == key b) hfind
    have hfound : found = b :=
      List.inj_on_of_nodup_map hnodup (List.mem_of_find?_eq_some hfind) hb (eq_of_beq hkey)
    rw [hfound]

omit [DecidableEq κ] in
/-- Lists that are made item by item, each entry of which tells the key of its item. -/
theorem nodup_flatMap_by_key {β γ : Type} (tag : γ → κ) {key : β → κ} {items : List β}
    {f : β → List γ} (hkeys : (items.map key).Nodup)
    (htag : ∀ b ∈ items, ∀ c ∈ f b, tag c = key b) (hnodup : ∀ b ∈ items, (f b).Nodup) :
    (items.flatMap f).Nodup := by
  refine List.nodup_flatMap.2 ⟨hnodup, ?_⟩
  refine (List.pairwise_map.1 hkeys).imp_of_mem ?_
  intro b b' hb hb' hne c hc hc'
  exact hne ((htag b hb c hc).symm.trans (htag b' hb' c hc'))

variable {key : ι → κ}

/-- The block under a key. -/
def block_at (key : ι → κ) (blocks : List (Block ι)) (k : κ) : Option (Block ι) :=
  blocks.find? fun b => key b.label == k

theorem mem_of_block_at {blocks : List (Block ι)} {k : κ} {b : Block ι}
    (h : block_at key blocks k = some b) : b ∈ blocks ∧ key b.label = k := by
  have hkey := List.find?_some (p := fun b : Block ι => key b.label == k) h
  exact ⟨List.mem_of_find?_eq_some h, eq_of_beq hkey⟩

theorem block_at_eq_some {blocks : List (Block ι)}
    (hnodup : (blocks.map fun b => key b.label).Nodup) {k : κ} {b : Block ι} :
    block_at key blocks k = some b ↔ b ∈ blocks ∧ key b.label = k := by
  constructor
  · exact mem_of_block_at
  · unfold block_at
    rintro ⟨hb, rfl⟩
    exact find_by_key hnodup hb

/-- The blocks of a layout under distinct keys split it. -/
theorem partition_place {parts : List (ι × ℕ)}
    (hnodup : ((place 0 parts).map fun b => key b.label).Nodup) :
    Partition (fun k => (block_at key (place 0 parts) k).map fun b => (b.start, b.stop))
      (extent parts) where
  bounds k r hr := by
    obtain ⟨b, hb, rfl⟩ := Option.map_eq_some_iff.1 hr
    have hbounds := place_bounds ((block_at_eq_some hnodup).1 hb).1
    dsimp only
    omega
  cover k hk := by
    obtain ⟨b, hb, howns⟩ := place_cover (Nat.zero_le k) (by rwa [Nat.zero_add])
    exact ⟨key b.label, _, Option.map_eq_some_iff.2
      ⟨b, (block_at_eq_some hnodup).2 ⟨hb, rfl⟩, rfl⟩, howns⟩
  disjoint k k' r r' i hr hr' hle hlt hle' hlt' := by
    obtain ⟨b, hb, rfl⟩ := Option.map_eq_some_iff.1 hr
    obtain ⟨b', hb', rfl⟩ := Option.map_eq_some_iff.1 hr'
    obtain ⟨hmem, rfl⟩ := (block_at_eq_some hnodup).1 hb
    obtain ⟨hmem', rfl⟩ := (block_at_eq_some hnodup).1 hb'
    rw [owner_unique hmem hmem' hle hlt hle' hlt']

end Keys

/-- A name for every entry, by its part and its place there. -/
def entries {β : Type} (name : ι → ℕ → β) (parts : List (ι × ℕ)) : List β :=
  parts.flatMap fun p => (List.range p.2).map (name p.1)

section Entries

variable {β : Type} {name : ι → ℕ → β}

theorem length_entries (parts : List (ι × ℕ)) : (entries name parts).length = extent parts := by
  induction parts with
  | nil => rfl
  | cons p rest ih =>
    rw [entries, List.flatMap_cons, List.length_append, List.length_map, List.length_range,
      extent_cons, ← ih]
    rfl

theorem entry_of_block {parts : List (ι × ℕ)} {b : Block ι} {i : ℕ} (hi : i < b.width) :
    ∀ {offset : ℕ}, b ∈ place offset parts →
      (entries name parts)[b.start - offset + i]? = some (name b.label i) := by
  induction parts with
  | nil =>
    intro offset hb
    exact absurd hb List.not_mem_nil
  | cons p rest ih =>
    intro offset hb
    have hlen : ((List.range p.2).map (name p.1)).length = p.2 := by
      rw [List.length_map, List.length_range]
    rw [entries, List.flatMap_cons]
    rcases List.mem_cons.1 hb with rfl | hb
    · have hi' : i < p.2 := by
        rw [Block.width] at hi
        dsimp only at hi
        omega
      rw [Nat.sub_self, Nat.zero_add, List.getElem?_append_left (by rw [hlen]; exact hi'),
        List.getElem?_map, List.getElem?_range hi']
      rfl
    · have hbounds := place_bounds hb
      have hplace : b.start - offset + i = p.2 + (b.start - (offset + p.2) + i) := by omega
      rw [hplace, List.getElem?_append_right (by omega), hlen, Nat.add_sub_cancel_left]
      exact ih hb

end Entries

/-! ## One write -/

section Splice

variable {v w : List α} {start : ℕ}

theorem length_splice (h : start + w.length ≤ v.length) : (splice v start w).length = v.length := by
  unfold splice
  simp only [List.length_append, List.length_take, List.length_drop]
  omega

/-- Before the written entries nothing changes, and then come the written entries. -/
theorem take_splice (h : start ≤ v.length) :
    (splice v start w).take (start + w.length) = v.take start ++ w := by
  have hlen : (v.take start ++ w).length = start + w.length := by
    rw [List.length_append, List.length_take, Nat.min_eq_left h]
  unfold splice
  rw [← hlen]
  exact List.take_left

end Splice

/-! ## Filling a layout -/

/-- Blocks in order that do not overlap hold their contents, and before them nothing changes. -/
theorem fill_sorted {content : Block ι → Except ε (List α)} {blocks : List (Block ι)} :
    ∀ {v v' : List α}, blocks.Pairwise (fun b b' => b.stop ≤ b'.start) →
      (∀ b ∈ blocks, b.start ≤ b.stop ∧ b.stop ≤ v.length) →
      (∀ b ∈ blocks, ∀ w, content b = .ok w → w.length = b.width) →
      fill content blocks v = .ok v' →
      v'.length = v.length ∧ (∀ k, (∀ b ∈ blocks, k ≤ b.start) → v'.take k = v.take k) ∧
        ∀ b ∈ blocks, content b = .ok (slice b v') := by
  induction blocks with
  | nil =>
    intro v v' _ _ _ h
    have hv : v = v' := Except.ok.inj h
    rw [hv]
    exact ⟨rfl, fun _ _ => rfl, fun b hb => absurd hb List.not_mem_nil⟩
  | cons b rest ih =>
    intro v v' hsorted hbounds hwidth h
    rw [List.pairwise_cons] at hsorted
    unfold fill at h
    split at h
    · exact absurd h (by simp)
    · rename_i w hw
      obtain ⟨hle, hlen⟩ := hbounds b List.mem_cons_self
      have hw_len : w.length = b.width := hwidth b List.mem_cons_self w hw
      have hstop : b.start + w.length = b.stop := by
        rw [hw_len, Block.width]
        omega
      have hfit : b.start + w.length ≤ v.length := by omega
      have hlength := length_splice hfit
      obtain ⟨hsame, hkeeps, hslices⟩ := ih (v := splice v b.start w) hsorted.2
        (fun b' hb' => by rw [hlength]; exact hbounds b' (List.mem_cons_of_mem _ hb'))
        (fun b' hb' => hwidth b' (List.mem_cons_of_mem _ hb')) h
      -- the later blocks leave everything up to where this one stops
      have hfront : v'.take b.stop = v.take b.start ++ w := by
        rw [hkeeps b.stop hsorted.1, ← hstop]
        exact take_splice (by omega)
      have hstart : (v.take b.start).length = b.start := by
        rw [List.length_take]
        omega
      refine ⟨hsame.trans hlength, ?_, ?_⟩
      · intro k hk
        have hbefore : k ≤ b.start := hk b List.mem_cons_self
        calc v'.take k = (v'.take b.stop).take k := by
              rw [List.take_take, Nat.min_eq_left (by omega)]
          _ = (v.take b.start).take k := by
              rw [hfront, List.take_append_of_le_length (by omega)]
          _ = v.take k := by rw [List.take_take, Nat.min_eq_left hbefore]
      · intro b' hb'
        rcases List.mem_cons.1 hb' with rfl | hb'
        · have hslice : slice b' v' = (v'.take b'.stop).drop b'.start := List.drop_take.symm
          rw [hw, hslice, hfront, List.drop_left' hstart]
        · exact hslices b' hb'

/-- The blocks of a layout are in order and do not overlap. -/
theorem sorted_place (parts : List (ι × ℕ)) :
    ∀ offset, (place offset parts).Pairwise fun b b' => b.stop ≤ b'.start := by
  induction parts with
  | nil =>
    intro offset
    exact List.Pairwise.nil
  | cons p rest ih =>
    intro offset
    refine List.pairwise_cons.2 ⟨?_, ih (offset + p.2)⟩
    intro b hb
    exact (place_bounds hb).1

/-- What is left of the layout: its prefix as it was, each block with its content. -/
theorem fill_spec {content : Block ι → Except ε (List α)} {parts : List (ι × ℕ)} {offset : ℕ}
    {v v' : List α} (hwidth : ∀ b ∈ place offset parts, ∀ w, content b = .ok w →
      w.length = b.width) (hlen : offset + extent parts ≤ v.length)
    (h : fill content (place offset parts) v = .ok v') :
    v'.length = v.length ∧ v'.take offset = v.take offset ∧
      ∀ b ∈ place offset parts, content b = .ok (slice b v') := by
  have hbounds : ∀ b ∈ place offset parts, b.start ≤ b.stop ∧ b.stop ≤ v.length := by
    intro b hb
    have hplace := place_bounds hb
    omega
  obtain ⟨hlength, hkeeps, hslices⟩ := fill_sorted (sorted_place parts offset) hbounds hwidth h
  exact ⟨hlength, hkeeps offset fun b hb => (place_bounds hb).1, hslices⟩

/-- Lists of parts that differ in one value only, where both have it, are told apart by their
concatenations. -/
theorem eq_of_flatten_eq {p q : List α} {as bs : List (List α)}
    (h : List.Forall₂ (fun a b => a = b ∨ a = p ∧ b = q) as bs) (hmem : (p, q) ∈ as.zip bs)
    (hflatten : as.flatten = bs.flatten) : p = q := by
  have hcount : ∃ k, as.flatten.length + k * q.length = bs.flatten.length + k * p.length ∧
      ((p, q) ∈ as.zip bs → p.length = q.length ∨ 0 < k) := by
    clear hmem hflatten
    induction h with
    | nil => exact ⟨0, by simp, fun habs => absurd habs List.not_mem_nil⟩
    | @cons a b as bs hab _ ih =>
      obtain ⟨k, hk, hpos⟩ := ih
      rw [List.flatten_cons, List.flatten_cons, List.length_append, List.length_append,
        List.zip_cons_cons]
      rcases hab with rfl | ⟨rfl, rfl⟩
      · refine ⟨k, by omega, ?_⟩
        intro hin
        rcases List.mem_cons.1 hin with heq | hrest
        · obtain ⟨rfl, rfl⟩ := Prod.mk.inj heq
          exact Or.inl rfl
        · exact hpos hrest
      · refine ⟨k + 1, ?_, fun _ => Or.inr (Nat.succ_pos k)⟩
        rw [Nat.succ_mul, Nat.succ_mul]
        omega
  obtain ⟨k, hk, hpos⟩ := hcount
  have hlength : p.length = q.length := by
    rcases hpos hmem with hsame | hk'
    · exact hsame
    · rw [hflatten] at hk
      have hmul : k * q.length = k * p.length := by omega
      exact (Nat.eq_of_mul_eq_mul_left hk' hmul).symm
  -- with equal lengths the concatenation determines the parts
  have hall : as = bs := by
    clear hmem hk hpos
    induction h with
    | nil => rfl
    | @cons a b as bs hab _ ih =>
      have hsame : a.length = b.length := by
        rcases hab with rfl | ⟨rfl, rfl⟩
        · rfl
        · exact hlength
      rw [List.flatten_cons, List.flatten_cons] at hflatten
      obtain ⟨rfl, hrest⟩ := List.append_inj hflatten hsame
      rw [ih hrest]
  rw [hall] at hmem
  obtain ⟨i, hi⟩ := List.mem_iff_getElem?.1 hmem
  rw [List.getElem?_zip_eq_some] at hi
  exact Option.some.inj (hi.1.symm.trans hi.2)

/-- The blocks of a layout as wide as the vectors placed in it hold those vectors. -/
theorem slice_flatten {items : List (ι × List α)} :
    ∀ front : List α,
      (place front.length (items.map fun p => (p.1, p.2.length))).map
          (fun b => (b.label, slice b (front ++ (items.map Prod.snd).flatten))) = items := by
  induction items with
  | nil =>
    intro front
    rfl
  | cons p rest ih =>
    intro front
    have hrest := ih (front ++ p.2)
    rw [List.length_append, List.append_assoc] at hrest
    have hfirst : slice ⟨p.1, front.length, front.length + p.2.length⟩
        (front ++ (p.2 ++ (rest.map Prod.snd).flatten)) = p.2 := by
      unfold slice Block.width
      rw [List.drop_left, Nat.add_sub_cancel_left]
      exact List.take_left
    rw [List.map_cons, List.map_cons, List.flatten_cons, place, List.map_cons, hrest, hfirst]

/-- A block's content may be had wherever the whole layout could be filled. -/
theorem fill_ok_iff (content : Block ι → Except ε (List α)) (blocks : List (Block ι)) :
    ∀ v, (∃ v', fill content blocks v = .ok v') ↔ ∀ b ∈ blocks, ∃ w, content b = .ok w := by
  induction blocks with
  | nil =>
    intro v
    exact ⟨fun _ b hb => absurd hb List.not_mem_nil, fun _ => ⟨v, rfl⟩⟩
  | cons b rest ih =>
    intro v
    unfold fill
    cases hb : content b with
    | error e =>
      refine ⟨fun ⟨v', h⟩ => absurd h (by simp), ?_⟩
      intro h
      obtain ⟨w, hw⟩ := h b List.mem_cons_self
      rw [hb] at hw
      exact absurd hw (by simp)
    | ok w =>
      refine (ih _).trans ⟨?_, fun h b' hb' => h b' (List.mem_cons_of_mem _ hb')⟩
      intro h b' hb'
      rcases List.mem_cons.1 hb' with rfl | hb'
      · exact ⟨w, hb⟩
      · exact h b' hb'

/-! ## Terminated blocks

Blocks that each end with a mark, and have none before it, are a prefix code: their
concatenation determines them. -/

/-- The block ends with its only mark. -/
def Terminated (mark : α → Prop) (b : List α) : Prop :=
  ∃ body last, b = body ++ [last] ∧ mark last ∧ ∀ a ∈ body, ¬ mark a

theorem terminated_append_inj {mark : α → Prop} {body : List α} :
    ∀ {body' rest rest' : List α} {last last' : α}, mark last → mark last' →
      (∀ a ∈ body, ¬ mark a) → (∀ a ∈ body', ¬ mark a) →
      body ++ last :: rest = body' ++ last' :: rest' →
      body = body' ∧ last = last' ∧ rest = rest' := by
  induction body with
  | nil =>
    intro body' rest rest' last last' hlast _ _ hbody' h
    cases body' with
    | nil =>
      injection h with hhead htail
      exact ⟨rfl, hhead, htail⟩
    | cons a _ =>
      injection h with hhead _
      rw [hhead] at hlast
      exact absurd hlast (hbody' a List.mem_cons_self)
  | cons a body ih =>
    intro body' rest rest' last last' hlast hlast' hbody hbody' h
    cases body' with
    | nil =>
      injection h with hhead _
      rw [← hhead] at hlast'
      exact absurd hlast' (hbody a List.mem_cons_self)
    | cons a' body' =>
      injection h with hhead htail
      obtain ⟨heq, hlasts, hrest⟩ := ih hlast hlast'
        (fun x hx => hbody x (List.mem_cons_of_mem _ hx))
        (fun x hx => hbody' x (List.mem_cons_of_mem _ hx)) htail
      rw [hhead, heq]
      exact ⟨rfl, hlasts, hrest⟩

theorem flatten_inj_of_terminated {mark : α → Prop} {bs : List (List α)} :
    ∀ {cs : List (List α)}, (∀ b ∈ bs, Terminated mark b) → (∀ c ∈ cs, Terminated mark c) →
      bs.flatten = cs.flatten → bs = cs := by
  induction bs with
  | nil =>
    intro cs _ hcs h
    cases cs with
    | nil => rfl
    | cons c cs =>
      obtain ⟨body, last, rfl, _, _⟩ := hcs c List.mem_cons_self
      exact absurd h (by simp)
  | cons b bs ih =>
    intro cs hbs hcs h
    obtain ⟨body, last, rfl, hlast, hbody⟩ := hbs b List.mem_cons_self
    cases cs with
    | nil => exact absurd h (by simp)
    | cons c cs =>
      obtain ⟨body', last', rfl, hlast', hbody'⟩ := hcs c List.mem_cons_self
      simp only [List.flatten_cons, List.append_assoc, List.singleton_append] at h
      obtain ⟨heq, hlasts, hrest⟩ := terminated_append_inj hlast hlast' hbody hbody' h
      rw [heq, hlasts, ih (fun b hb => hbs b (List.mem_cons_of_mem _ hb))
        (fun c hc => hcs c (List.mem_cons_of_mem _ hc)) hrest]

/-- Two lists that both end with a mark, each followed by a last word: they agree, or one of the
words ends with the mark and the other word. -/
theorem words_of_append_eq {mark : α} {x y v w : List α} (hx : x.getLast? = some mark)
    (hy : y.getLast? = some mark) (h : x ++ v = y ++ w) :
    (x = y ∧ v = w) ∨ mark :: v <:+ w ∨ mark :: w <:+ v := by
  have hends : ∀ {front mid : List α}, (front ++ mid).getLast? = some mark → mid ≠ [] →
      ∃ mid', mid = mid' ++ [mark] := by
    intro front mid hlast hne
    rw [List.getLast?_append_of_ne_nil front hne] at hlast
    obtain ⟨mid', hmid⟩ := List.getLast?_eq_some_iff.1 hlast
    exact ⟨mid', hmid⟩
  rcases List.append_eq_append_iff.1 h with ⟨mid, hmid, hword⟩ | ⟨mid, hmid, hword⟩
  · by_cases hne : mid = []
    · rw [hne, List.append_nil] at hmid
      rw [hne, List.nil_append] at hword
      exact Or.inl ⟨hmid.symm, hword⟩
    · rw [hmid] at hy
      obtain ⟨mid', rfl⟩ := hends hy hne
      rw [List.append_assoc] at hword
      exact Or.inr (Or.inr ⟨mid', hword.symm⟩)
  · by_cases hne : mid = []
    · rw [hne, List.append_nil] at hmid
      rw [hne, List.nil_append] at hword
      exact Or.inl ⟨hmid, hword.symm⟩
    · rw [hmid] at hx
      obtain ⟨mid', rfl⟩ := hends hx hne
      rw [List.append_assoc] at hword
      exact Or.inr (Or.inl ⟨mid', hword.symm⟩)

end Tiling
