/-
What the normalization statistics are taken of: `_relative_action_chunks` of
`deploy/openpi_dfc/compute_norm_stats.py`, against the transforms that serve the policy,
`OpenPIActionDeltas` and `OpenPIOutputs`.

The script writes the slices of the two arms down as numbers and works on whole episodes; the
transforms take them from the layout and see one sample at a time. A chunk of the script is what
the transform makes of the frame's state and of the actions from that frame on, the episode's last
one repeated; and what is served of a chunk, under whatever padding the model puts around it, is
these absolute actions again ([`training_targets_served_back`]).

The numbers are those of a ring, in which a state that is taken away and added again leaves an
action as it was. The script and the transforms have floats, where the two steps round.
-/
import Mathlib.Data.Finset.Sort
import Mathlib.Data.Fintype.Basic
import Mathlib.Data.List.FinRange
import DualFlexivControl.Layout.Deltas

set_option autoImplicit false

namespace DualFlexivControl.NormStats

open Results NdArray Effect Deltas DFCStateActionLayout

/-! ## The script -/

/-- The arrays of `_load_dataset`, whose shapes it has checked. -/
structure Dataset (R : Type) where
  size : ℕ
  state : Fin size → Fin 14 → R
  action : Fin size → Fin 16 → R
  episode : Fin size → ℤ

/-- What `_relative_action_chunks` raises. -/
inductive ChunkError
  | not_contiguous (episode_id : ℤ)
  | nothing_to_concatenate
  deriving DecidableEq, Repr

section Script

variable {R : Type} (dataset : Dataset R)

/-- `np.unique(episode)` -/
def unique : List ℤ := (Finset.univ.image dataset.episode).sort (· ≤ ·)

/-- `np.flatnonzero(episode == episode_id)` -/
def flatnonzero (episode_id : ℤ) : List (Fin dataset.size) :=
  (List.finRange dataset.size).filter fun i => dataset.episode i == episode_id

/-- `np.arange(indices[0], indices[-1] + 1)` -/
def arange {n : ℕ} (indices : List (Fin n)) : List ℕ :=
  match indices.head?, indices.getLast? with
  | some first, some last => List.range' first (last + 1 - first)
  | _, _ => []

/-- `row[start:stop] -= state[first:]`, of as many columns. -/
def isub_columns [Sub R] (start stop first : ℕ) (state : Fin 14 → R) (row : Fin 16 → R) :
    Fin 16 → R :=
  fun c =>
    if h : (start ≤ c.val ∧ c.val < stop) ∧ first + (c.val - start) < 14 then
      row c - state ⟨first + (c.val - start), h.2⟩
    else row c

/-- The actions from the place `k` of an episode on; `future` stays at its last frame. -/
def window {horizon : ℕ} (indices : List (Fin dataset.size)) (k : Fin indices.length) :
    Fin horizon → Fin 16 → R :=
  fun h => dataset.action (indices.get ⟨min (k.val + h.val) (indices.length - 1),
    by have := k.isLt; omega⟩)

variable [Sub R]

/-- A frame's chunk: both arms' joints relative to its state. -/
def chunk {horizon : ℕ} (indices : List (Fin dataset.size)) (k : Fin indices.length) :
    Fin horizon → Fin 16 → R :=
  fun h => isub_columns 8 15 7 (dataset.state (indices.get k))
    (isub_columns 0 7 0 (dataset.state (indices.get k)) (window dataset indices k h))

/-- The body of the loop. -/
def episode_chunks (horizon : ℕ) (episode_id : ℤ) :
    Except ChunkError (List (Fin horizon → Fin 16 → R)) :=
  let indices := flatnonzero dataset episode_id
  if indices.map Fin.val ≠ arange indices then .error (.not_contiguous episode_id)
  else .ok ((List.finRange indices.length).map (chunk dataset indices))

/-- `_relative_action_chunks` -/
def relative_action_chunks (horizon : ℕ) :
    Except ChunkError (List (Fin horizon → Fin 16 → R)) := do
  let chunks ← collect (episode_chunks dataset horizon) (unique dataset)
  if chunks = [] then .error .nothing_to_concatenate
  else return chunks.flatten

end Script

/-! ## Serving -/

/-- `actions[..., :width]` of at least two axes; what it raises carries the shape. -/
def crop {R : Type} (width : ℕ) : NdArray R → Except (List ℕ) (NdArray R)
  | ⟨[], x⟩ => .error (NdArray.shape ⟨[], x⟩)
  | ⟨[w], x⟩ => .error (NdArray.shape ⟨[w], x⟩)
  | ⟨w :: h :: lead, x⟩ =>
    if hw : w < width then .error (NdArray.shape ⟨w :: h :: lead, x⟩)
    else .ok ⟨width :: h :: lead, fun i => x (⟨i.1.val, by omega⟩, i.2)⟩

/-- `OpenPIOutputs.__call__` on an array of actions. -/
def OpenPIOutputs {R : Type} (actions : NdArray R) : Except (List ℕ) (NdArray R) :=
  crop bimanual_qpos.action_dim actions

/-- One sample's state, and actions over a horizon, as arrays. -/
def state_array {R : Type} (state : Fin 14 → R) : NdArray R := ⟨[14], fun i => state i.1⟩

def actions_array {R : Type} {horizon : ℕ} (rows : Fin horizon → Fin 16 → R) : NdArray R :=
  ⟨[16, horizon], fun i => rows i.2.1 i.1⟩

/-! ## An episode's frames -/

section Episodes

variable {R : Type} {dataset : Dataset R} {id : ℤ}

/-- The frames that are picked for an episode are the frames of it. -/
theorem mem_flatnonzero {i : Fin dataset.size} :
    i ∈ flatnonzero dataset id ↔ dataset.episode i = id := by
  simp [flatnonzero]

/-- They come in the order of the dataset. -/
theorem flatnonzero_sorted : (flatnonzero dataset id).Pairwise (· < ·) :=
  (List.pairwise_lt_finRange dataset.size).sublist List.filter_sublist

/-- The episodes are those that some frame belongs to. -/
theorem mem_unique : id ∈ unique dataset ↔ ∃ i, dataset.episode i = id := by
  simp [unique]

/-- The frames of every episode are next to each other. -/
def Contiguous (dataset : Dataset R) : Prop :=
  ∀ i k j, i ≤ k → k ≤ j → dataset.episode i = dataset.episode j →
    dataset.episode k = dataset.episode i

/-- The frames of this episode are. -/
def ContiguousAt (dataset : Dataset R) (id : ℤ) : Prop :=
  ∀ i k j, i ≤ k → k ≤ j → dataset.episode i = id → dataset.episode j = id →
    dataset.episode k = id

/-- All episodes are in one piece when each of them is. -/
theorem contiguous_iff : Contiguous dataset ↔ ∀ id, ContiguousAt dataset id := by
  constructor
  · rintro h id i k j hik hkj rfl hj
    exact h i k j hik hkj hj.symm
  · intro h i k j hik hkj hij
    exact h _ i k j hik hkj rfl hij.symm

/-- The first and the last of some frames in order. -/
structure Ends {n : ℕ} (indices : List (Fin n)) (first last : Fin n) : Prop where
  first_mem : first ∈ indices
  last_mem : last ∈ indices
  between : ∀ i ∈ indices, first ≤ i ∧ i ≤ last
  arange : arange indices = List.range' first (last + 1 - first)

/-- Frames in order, if there are any, have a first and a last one. -/
theorem exists_ends {n : ℕ} {indices : List (Fin n)} (hsorted : indices.Pairwise (· < ·))
    (hne : indices ≠ []) : ∃ first last, Ends indices first last := by
  obtain ⟨first, rest, rfl⟩ := List.exists_cons_of_ne_nil hne
  have hlast : (first :: rest).getLast? = some ((first :: rest).getLast hne) :=
    List.getLast?_eq_some_getLast hne
  refine ⟨first, (first :: rest).getLast hne, List.mem_cons_self, List.getLast_mem hne, ?_, ?_⟩
  · intro i hi
    constructor
    · rcases List.mem_cons.1 hi with rfl | hi
      · exact le_refl i
      · exact le_of_lt ((List.pairwise_cons.1 hsorted).1 i hi)
    · rw [← List.dropLast_append_getLast hne] at hi hsorted
      rcases List.mem_append.1 hi with hi | hi
      · exact le_of_lt ((List.pairwise_append.1 hsorted).2.2 i hi _ (List.mem_singleton_self _))
      · exact le_of_eq (List.mem_singleton.1 hi)
  · unfold NormStats.arange
    rw [List.head?_cons, hlast]

/-- The check of the loop passes exactly the episodes whose frames are next to each other. -/
theorem map_val_flatnonzero_iff : (flatnonzero dataset id).map Fin.val =
    arange (flatnonzero dataset id) ↔ ContiguousAt dataset id := by
  by_cases hne : flatnonzero dataset id = []
  · rw [hne]
    refine iff_of_true rfl fun i k j _ _ hi _ => ?_
    rw [← mem_flatnonzero, hne] at hi
    exact absurd hi List.not_mem_nil
  · obtain ⟨first, last, hends⟩ := exists_ends flatnonzero_sorted hne
    have hle : first.val ≤ last.val := (hends.between last hends.last_mem).1
    rw [hends.arange]
    constructor
    · intro heq i k j hik hkj hi hj
      have hfirst : first.val ≤ i.val := (hends.between i (mem_flatnonzero.2 hi)).1
      have hlast : j.val ≤ last.val := (hends.between j (mem_flatnonzero.2 hj)).2
      have hik' : i.val ≤ k.val := hik
      have hkj' : k.val ≤ j.val := hkj
      have hk : k.val ∈ (flatnonzero dataset id).map Fin.val := by
        rw [heq, List.mem_range'_1]
        omega
      obtain ⟨k', hk', hval⟩ := List.mem_map.1 hk
      obtain rfl := Fin.ext hval
      exact mem_flatnonzero.1 hk'
    · intro hcontiguous
      -- both lists are in order, so it is enough that they hold the same places
      refine List.Pairwise.eq_of_mem_iff (r := (· < ·))
        (List.pairwise_map.2 flatnonzero_sorted) List.pairwise_lt_range' fun v => ?_
      rw [List.mem_map, List.mem_range'_1]
      constructor
      · rintro ⟨i, hi, rfl⟩
        have hi := hends.between i hi
        have hfirst : first.val ≤ i.val := hi.1
        have hlast : i.val ≤ last.val := hi.2
        omega
      · rintro ⟨hlow, hhigh⟩
        have hv : v < dataset.size := by
          have := last.isLt
          omega
        have hvlast : v ≤ last.val := by omega
        refine ⟨⟨v, hv⟩, mem_flatnonzero.2 ?_, rfl⟩
        exact hcontiguous first ⟨v, hv⟩ last hlow hvlast
          (mem_flatnonzero.1 hends.first_mem) (mem_flatnonzero.1 hends.last_mem)

end Episodes

/-! ## The transforms on one frame -/

section Transforms

variable {R : Type} [Ring R] {horizon : ℕ}

/-- What a column of the actions is relative to: its arm's measured joint, or nothing. -/
def joint (state : Fin 14 → R) (c : ℕ) : R :=
  if h : c < 7 then state ⟨c, by omega⟩
  else if h : 8 ≤ c ∧ c < 15 then state ⟨c - 1, by omega⟩
  else 0

/-- The two slices of the script, entry by entry: each column of an arm loses its own joint, and the
grippers lose nothing. -/
theorem isub_columns_eq (state : Fin 14 → R) (row : Fin 16 → R) (c : Fin 16) :
    isub_columns 8 15 7 state (isub_columns 0 7 0 state row) c = row c - joint state c := by
  unfold isub_columns joint
  by_cases hleft : c.val < 7
  · rw [dif_neg (by omega), dif_pos (by omega), dif_pos hleft]
    congr 3
    omega
  · by_cases hright : 8 ≤ c.val ∧ c.val < 15
    · rw [dif_pos (by omega), dif_neg (by omega), dif_neg hleft, dif_pos hright]
      congr 3
      omega
    · rw [dif_neg (by omega), dif_neg (by omega), dif_neg hleft, dif_neg hright, sub_zero]

/-- The two pairs of the layout, entry by entry: what is added to a column is the joint that the
script takes away from it. -/
theorem sum_addends_bimanual {d : ℕ} {x : Index [d] → R} {state : Fin 14 → R} (hd : 14 ≤ d)
    (hx : ∀ j : Fin 14, x (⟨j.val, by omega⟩, ()) = state j) {lead : List ℕ} (c : ℕ)
    (l : Index lead) (hlead : Reaches [1] lead) :
    (bimanual_qpos.state_to_action_joint_slices.map fun pair =>
      addend pair.1 pair.2 ⟨[d], x⟩ c l).sum = joint state c := by
  have hread : ∀ j : Fin 14, read j.val l ⟨[d], x⟩ = some (state j) := by
    intro j
    rw [read_eq hlead (Nat.lt_of_lt_of_le j.isLt hd) l, ← hx j]
    rfl
  rw [bimanual_joint_slices]
  simp only [List.map_cons, List.map_nil, List.sum_cons, List.sum_nil, add_zero]
  unfold joint
  by_cases hleft : c < 7
  · have hcolumn : column (0, 7) (0, 7) c = c := by
      rw [column, if_neg (by decide)]
      dsimp only
      omega
    have hfirst : addend (0, 7) (0, 7) ⟨[d], x⟩ c l = state ⟨c, by omega⟩ :=
      addend_of_read ⟨Nat.zero_le c, hleft⟩ (by rw [hcolumn]; exact hread ⟨c, by omega⟩)
    rw [dif_pos hleft, hfirst, addend_of_not_mem (by dsimp only; omega), add_zero]
  · rw [dif_neg hleft, addend_of_not_mem (by dsimp only; omega), zero_add]
    by_cases hright : 8 ≤ c ∧ c < 15
    · have hcolumn : column (7, 14) (8, 15) c = c - 1 := by
        rw [column, if_neg (by decide)]
        dsimp only
        omega
      rw [dif_pos hright]
      exact addend_of_read hright (by rw [hcolumn]; exact hread ⟨c - 1, by omega⟩)
    · rw [dif_neg hright, addend_of_not_mem hright]

/-- A state of both arms and rows that hold both arms' actions are wide enough for the two slices.
-/
theorem fits_bimanual {d w : ℕ} (hd : 14 ≤ d) (hw : 16 ≤ w) :
    Fits bimanual_qpos [d] [w, horizon] := by
  refine ⟨hd, hw, fun side s p hpair => ?_⟩
  have hmem := mem_joint_slices.2 ⟨side, hpair⟩
  rw [bimanual_joint_slices, List.mem_cons, List.mem_singleton] at hmem
  refine ⟨?_, Or.inl rfl, trivial⟩
  rcases hmem with h | h
  · obtain ⟨rfl, rfl⟩ := Prod.mk.inj h
    exact Or.inr rfl
  · obtain ⟨rfl, rfl⟩ := Prod.mk.inj h
    exact Or.inr rfl

/-- Rows with columns after their own, as the model's inputs and outputs have them. -/
def Padded {n w : ℕ} {lead : List ℕ} (x : Index (n :: lead) → R) (y : Index (w :: lead) → R) :
    Prop :=
  ∃ hle : n ≤ w, ∀ i : Index (n :: lead), y (⟨i.1.val, by omega⟩, i.2) = x i

/-- Deltas are what the transform makes of the actions and the state. -/
def Trained (state : Fin 14 → R) (rows deltas : Fin horizon → Fin 16 → R) : Prop :=
  ∃ heap, exec (OpenPIActionDeltas false bimanual_qpos (⟨some 0, some 1, ()⟩ : Sample Unit))
      [state_array state, actions_array rows] = (.ok ⟨some 0, some 2, ()⟩, heap) ∧
    heap[2]? = some (actions_array deltas)

/-- A model that answers with these deltas, in any padding, is served as these actions. -/
def Served (state : Fin 14 → R) (rows deltas : Fin horizon → Fin 16 → R) : Prop :=
  ∀ (d w : ℕ) (x : Index [d] → R) (y : Index [w, horizon] → R),
    Padded (state_array state).entry x → Padded (actions_array deltas).entry y →
    ∃ heap out, exec (OpenPIActionDeltas true bimanual_qpos (⟨some 0, some 1, ()⟩ : Sample Unit))
        [⟨[d], x⟩, ⟨[w, horizon], y⟩] = (.ok ⟨some 0, some 2, ()⟩, heap) ∧
      heap[2]? = some out ∧ OpenPIOutputs out = .ok (actions_array rows)

/-- A call of the transform on two arrays that are wide enough returns, and changes each entry by
its addend. -/
theorem exec_deltas {d w : ℕ} (inverse : Bool) {state : Fin 14 → R} {x : Index [d] → R}
    (y : Index [w, horizon] → R) (hd : 14 ≤ d) (hw : 16 ≤ w)
    (hx : ∀ j : Fin 14, x (⟨j.val, by omega⟩, ()) = state j) :
    ∃ heap, exec (OpenPIActionDeltas inverse bimanual_qpos
        (⟨some 0, some 1, ()⟩ : Sample Unit)) [⟨[d], x⟩, ⟨[w, horizon], y⟩] =
      (.ok ⟨some 0, some 2, ()⟩, heap) ∧
    heap[2]? = some ⟨[w, horizon], fun i => y i + sign inverse * joint state i.1.val⟩ := by
  obtain ⟨-, hrun⟩ : Ensures (OpenPIActionDeltas inverse bimanual_qpos
      (⟨some 0, some 1, ()⟩ : Sample Unit)) [⟨[d], x⟩, ⟨[w, horizon], y⟩] _ :=
    ensures_call_deltas rfl rfl rfl rfl
  rcases hrun with ⟨-, hr, hout⟩ | ⟨hfits, -⟩
  · refine ⟨_, Prod.ext hr rfl, hout.trans (congrArg some ?_)⟩
    refine congrArg (NdArray.mk [w, horizon]) (funext fun i => ?_)
    rw [sum_addends_bimanual hd hx i.1.val i.2 ⟨Or.inl rfl, trivial⟩]
  · exact absurd (fits_bimanual hd hw) hfits

/-- Rows less the measured joints are what the transform makes of them in training. -/
theorem trained_of_eq {state : Fin 14 → R} {rows deltas : Fin horizon → Fin 16 → R}
    (h : ∀ k c, deltas k c = rows k c - joint state c) : Trained state rows deltas := by
  obtain ⟨heap, hexec, hout⟩ := exec_deltas false (actions_array rows).entry
    (Nat.le_refl 14) (Nat.le_refl 16) (fun j => (rfl : (state_array state).entry _ = state j))
  refine ⟨heap, hexec, hout.trans (congrArg some ?_)⟩
  refine congrArg (NdArray.mk [16, horizon]) (funext fun i => ?_)
  rw [sign, if_neg (by decide), neg_one_mul, ← sub_eq_add_neg]
  exact (h i.2.1 i.1).symm

/-- Such deltas, served, are the rows again: the joints that were taken away are added back. -/
theorem served_of_eq {state : Fin 14 → R} {rows deltas : Fin horizon → Fin 16 → R}
    (h : ∀ k c, deltas k c = rows k c - joint state c) : Served state rows deltas := by
  rintro d w x y ⟨hd, hx⟩ ⟨hw, hy⟩
  obtain ⟨heap, hexec, hout⟩ := exec_deltas true y hd hw
    (fun j => (hx (j, ()) : _ = state j))
  refine ⟨heap, _, hexec, hout, ?_⟩
  have hdim : bimanual_qpos.action_dim = 16 := by decide
  rw [OpenPIOutputs, hdim, crop, dif_neg (Nat.not_lt.2 hw)]
  refine congrArg (fun x => Except.ok (NdArray.mk [16, horizon] x)) (funext fun i => ?_)
  rw [sign, if_pos rfl, one_mul, hy i]
  change deltas i.2.1 i.1 + joint state i.1 = rows i.2.1 i.1
  rw [h, sub_add_cancel]

end Transforms

/-! ## The whole script -/

section Chunks

variable {R : Type} [Ring R] {dataset : Dataset R} {horizon : ℕ} {id : ℤ}

/-- The actions of an episode from the frame `i` on, its last frame repeated. -/
def episode_rows (dataset : Dataset R) (i last : Fin dataset.size) : Fin horizon → Fin 16 → R :=
  fun h => dataset.action ⟨min (i.val + h.val) last.val, by have := last.isLt; omega⟩

/-- The chunk of a frame, and what it stands for: `rows` are recorded actions of the frame's own
episode. -/
structure Target (dataset : Dataset R) (i : Fin dataset.size)
    (rows deltas : Fin horizon → Fin 16 → R) : Prop where
  recorded : ∃ last, (∀ j, i ≤ j → (dataset.episode j = dataset.episode i ↔ j ≤ last)) ∧
    rows = episode_rows dataset i last
  trained : Trained (dataset.state i) rows deltas
  served : Served (dataset.state i) rows deltas

/-- A chunk's entry is the recorded action less the joint it is relative to, or the action itself
for a gripper. -/
theorem chunk_eq (indices : List (Fin dataset.size)) (k : Fin indices.length) (h : Fin horizon)
    (c : Fin 16) : chunk dataset indices k h c =
      window dataset indices k h c - joint (dataset.state (indices.get k)) c := by
  unfold chunk
  rw [isub_columns_eq]

/-- In an episode in one piece the `k`-th frame is `k` places behind the first. -/
theorem get_val {n first m : ℕ} {indices : List (Fin n)}
    (h : indices.map Fin.val = List.range' first m) (k : Fin indices.length) :
    (indices.get k).val = first + k.val := by
  have hk : (indices.map Fin.val)[k.val]? = some (indices.get k).val := by
    rw [List.getElem?_map, List.getElem?_eq_getElem k.isLt]
    rfl
  have hlt : k.val < m := by
    have hlength := congrArg List.length h
    rw [List.length_map, List.length_range'] at hlength
    have := k.isLt
    omega
  rw [h, List.getElem?_range' hlt] at hk
  have := Option.some.inj hk
  omega

/-- What the script takes from an episode, of a frame of it. -/
theorem target_of_contiguous
    (h : (flatnonzero dataset id).map Fin.val = arange (flatnonzero dataset id))
    (k : Fin (flatnonzero dataset id).length) :
    Target dataset ((flatnonzero dataset id).get k)
      (window dataset (flatnonzero dataset id) k : Fin horizon → Fin 16 → R)
      (chunk dataset (flatnonzero dataset id) k) := by
  have hcontiguous := map_val_flatnonzero_iff.1 h
  have hmem : (flatnonzero dataset id).get k ∈ flatnonzero dataset id := List.get_mem _ k
  obtain ⟨first, last, hends⟩ := exists_ends flatnonzero_sorted (List.ne_nil_of_mem hmem)
  rw [hends.arange] at h
  have hlength := congrArg List.length h
  rw [List.length_map, List.length_range'] at hlength
  have hid := mem_flatnonzero.1 hmem
  refine ⟨⟨last, fun j hj => ⟨fun hsame => ?_, fun hlast => ?_⟩, ?_⟩, ?_, ?_⟩
  · exact (hends.between j (mem_flatnonzero.2 (hsame.trans hid))).2
  · rw [hid]
    exact hcontiguous _ j last hj hlast hid (mem_flatnonzero.1 hends.last_mem)
  · funext t
    refine congrArg dataset.action (Fin.ext ?_)
    have hk := k.isLt
    have hle : first.val ≤ last.val := (hends.between last hends.last_mem).1
    have hplace : ((flatnonzero dataset id).get k).val = first + k.val := get_val h k
    rw [get_val h]
    dsimp only
    omega
  · exact trained_of_eq (chunk_eq _ k)
  · exact served_of_eq (chunk_eq _ k)

/-- The chunks of an episode, one for each of its frames in order, are targets: what the transform
makes of recorded actions. -/
theorem targets_of_episode {chunks : List (Fin horizon → Fin 16 → R)}
    (h : episode_chunks dataset horizon id = .ok chunks) :
    List.Forall₂ (fun i deltas => ∃ rows, Target dataset i rows deltas)
      (flatnonzero dataset id) chunks := by
  rw [episode_chunks, guard_ok, not_not] at h
  obtain ⟨heq, hchunks⟩ := h
  have htargets : List.Forall₂ (fun i deltas => ∃ rows, Target dataset i rows deltas)
      ((List.finRange (flatnonzero dataset id).length).map (flatnonzero dataset id).get)
      ((List.finRange (flatnonzero dataset id).length).map
        (chunk dataset (flatnonzero dataset id) : _ → Fin horizon → Fin 16 → R)) := by
    rw [List.forall₂_map_left_iff, List.forall₂_map_right_iff, List.forall₂_same]
    exact fun k _ => ⟨_, target_of_contiguous heq k⟩
  rw [List.map_get_finRange] at htargets
  rw [← Except.ok.inj hchunks]
  exact htargets

/-- The frames in the order of the chunks. -/
def order (dataset : Dataset R) : List (Fin dataset.size) :=
  (unique dataset).flatMap (flatnonzero dataset)

omit [Ring R] in
/-- The chunks come by episode, and by frame within an episode, as the script's two loops have them.
-/
theorem order_sorted : (order dataset).Pairwise fun i j =>
    dataset.episode i < dataset.episode j ∨ dataset.episode i = dataset.episode j ∧ i < j := by
  unfold order
  rw [List.pairwise_flatMap]
  constructor
  · intro id _
    refine flatnonzero_sorted.imp_of_mem fun hi hj hlt => .inr ⟨?_, hlt⟩
    rw [mem_flatnonzero.1 hi, mem_flatnonzero.1 hj]
  · refine ((Finset.sortedLT_sort _).pairwise).imp fun hlt i hi j hj => .inl ?_
    rw [mem_flatnonzero.1 hi, mem_flatnonzero.1 hj]
    exact hlt

omit [Ring R] in
/-- Every frame of the dataset has its chunk, exactly once: the episodes part the frames among them.
-/
theorem order_perm : (order dataset).Perm (List.finRange dataset.size) := by
  have hnodup : (order dataset).Nodup := order_sorted.imp fun h heq => by
    subst heq
    rcases h with h | h
    · exact lt_irrefl _ h
    · exact lt_irrefl _ h.2
  refine (List.perm_ext_iff_of_nodup hnodup (List.nodup_finRange _)).2 fun i => ?_
  refine iff_of_true (List.mem_flatMap.2 ⟨dataset.episode i, ?_, ?_⟩) (List.mem_finRange i)
  · exact mem_unique.2 ⟨i, rfl⟩
  · exact mem_flatnonzero.2 rfl

/-- An episode gives chunks exactly when its frames are next to each other. -/
theorem exists_episode_chunks :
    (∃ chunks, episode_chunks dataset horizon id = .ok chunks) ↔ ContiguousAt dataset id := by
  rw [← map_val_flatnonzero_iff]
  unfold episode_chunks
  dsimp only
  constructor
  · rintro ⟨chunks, h⟩
    rw [guard_ok, not_not] at h
    exact h.1
  · intro h
    rw [if_neg (not_not.2 h)]
    exact ⟨_, rfl⟩

/-- The script fails exactly where an episode's frames are torn apart, or there are none. Otherwise
it has one chunk for every frame, in the order of the episodes' numbers. Each is what the transform
makes of the frame's state and of recorded actions of its own episode, and what is served of it are,
in exact arithmetic, those actions. -/
theorem training_targets_served_back {R : Type} [Ring R] (dataset : Dataset R) (horizon : ℕ) :
    ((∃ chunks, relative_action_chunks dataset horizon = .ok chunks) ↔
      0 < dataset.size ∧ Contiguous dataset) ∧
    ∀ chunks, relative_action_chunks dataset horizon = .ok chunks →
      ∃ order : List (Fin dataset.size), order.Perm (List.finRange dataset.size) ∧
        (order.Pairwise fun i j => dataset.episode i < dataset.episode j ∨
          dataset.episode i = dataset.episode j ∧ i < j) ∧
        List.Forall₂ (fun i deltas => ∃ rows, Target dataset i rows deltas) order chunks := by
  -- the chunks are those of the episodes one after the other, if there is any
  have hsplit : ∀ chunks, relative_action_chunks dataset horizon = .ok chunks ↔
      ∃ episodes, collect (episode_chunks dataset horizon) (unique dataset) = .ok episodes ∧
        episodes ≠ [] ∧ episodes.flatten = chunks := by
    intro chunks
    rw [relative_action_chunks, bind_ok]
    refine exists_congr fun episodes => and_congr_right fun _ => ?_
    rw [guard_ok, pure_ok]
  constructor
  · constructor
    · rintro ⟨chunks, h⟩
      obtain ⟨episodes, hcollect, hne, -⟩ := (hsplit chunks).1 h
      have heach := exists_collect_iff.1 ⟨episodes, hcollect⟩
      obtain ⟨cs, hcs⟩ := List.exists_mem_of_ne_nil episodes hne
      obtain ⟨id, hid, -⟩ := element_of_collect hcollect cs hcs
      obtain ⟨i, -⟩ := mem_unique.1 hid
      refine ⟨Fin.pos i, contiguous_iff.2 fun id' i k j hik hkj hi hj => ?_⟩
      have hid' := mem_unique.2 ⟨i, hi⟩
      exact exists_episode_chunks.1 (heach id' hid') i k j hik hkj hi hj
    · rintro ⟨hpos, hcontiguous⟩
      obtain ⟨episodes, hcollect⟩ := exists_collect fun id (_ : id ∈ unique dataset) =>
        exists_episode_chunks.2 (contiguous_iff.1 hcontiguous id)
      refine ⟨episodes.flatten, (hsplit _).2 ⟨episodes, hcollect, ?_, rfl⟩⟩
      rintro rfl
      obtain ⟨cs, hcs, -⟩ := entry_of_collect hcollect _ (mem_unique.2 ⟨⟨0, hpos⟩, rfl⟩)
      exact absurd hcs List.not_mem_nil
  · intro chunks h
    obtain ⟨episodes, hcollect, -, rfl⟩ := (hsplit chunks).1 h
    refine ⟨order dataset, order_perm, order_sorted, ?_⟩
    have hepisodes : List.Forall₂ (List.Forall₂ fun i deltas =>
        ∃ rows, Target dataset i rows deltas) ((unique dataset).map (flatnonzero dataset))
        episodes := by
      rw [List.forall₂_map_left_iff]
      exact (collect_ok.1 hcollect).imp fun _ _ => targets_of_episode
    rw [order, List.flatMap_def]
    exact List.rel_flatten hepisodes

end Chunks

/-- Three frames of two episodes, the later one first. -/
def two_episodes : Dataset ℤ where
  size := 3
  state i j := i.val + j.val
  action i c := 10 * i.val + c.val
  episode i := if i.val < 2 then 7 else 4

/-- Both episodes of the example are in one piece. -/
theorem two_episodes_contiguous : Contiguous two_episodes := by
  unfold Contiguous two_episodes
  decide

/-- Every frame has a chunk, and all of them are targets, though the later episode comes first in
the dataset. -/
theorem two_episodes_served_back : ∃ chunks, relative_action_chunks two_episodes 2 = .ok chunks ∧
    chunks.length = 3 ∧ ∀ deltas ∈ chunks, ∃ i rows, Target two_episodes i rows deltas := by
  obtain ⟨hreturns, hchunks⟩ := training_targets_served_back two_episodes 2
  obtain ⟨chunks, h⟩ := hreturns.2 ⟨by decide, two_episodes_contiguous⟩
  obtain ⟨order, hperm, -, htargets⟩ := hchunks chunks h
  refine ⟨chunks, h, ?_, fun deltas hdeltas => ?_⟩
  · rw [← htargets.length_eq, hperm.length_eq]
    rfl
  · obtain ⟨k, hk⟩ := List.getElem?_of_mem hdeltas
    obtain ⟨i, -, htarget⟩ := entry_of_forall₂ htargets hk
    exact ⟨i, htarget⟩

end DualFlexivControl.NormStats
