/-
Deleting episodes of a dataset that has grown since it was listed.

The Storage tab lists the datasets and keeps a `DatasetInfo` of each. A recording appends episodes
meanwhile, and `delete_episodes` takes the number of episodes from the listing, never from the
disk. A partial selection is rebuilt from what is on the disk and stays right. A selection of all
the listed episodes removes the folder, the appended episodes with it.
-/
import DualFlexivControl.Dashboard.Storage

set_option autoImplicit false

namespace DualFlexivControl.Dashboard.Storage

open Effect

variable {ε : Type}

/-- `_read_dataset`: the snapshot of a dataset that holds these episodes. -/
def read_dataset (path : String) (episodes : List ε) : DatasetInfo := ⟨path, episodes.length⟩

/-- The episodes of a dataset whose folder is gone are none. -/
def episodes_at (path : String) (disk : Disk (List ε)) : List ε := (disk path).getD []

/-- The episodes without the selected indices, in their order. -/
def remaining (episodes : List ε) (indices : List ℤ) : List ε :=
  (episodes.zipIdx.filter fun entry => (entry.2 : ℤ) ∉ indices).map Prod.fst

/-! ## The selection -/

section Selection

variable {indices : List ℤ} {n : ℕ} {earlier appended : List ε}

theorem mem_sorted_set {i : ℤ} : i ∈ sorted_set indices ↔ i ∈ indices := by
  unfold sorted_set
  rw [List.mem_insertionSort, List.mem_dedup]

theorem nodup_sorted_set : (sorted_set indices).Nodup := by
  unfold sorted_set
  rw [(List.perm_insertionSort _ _).nodup_iff]
  exact List.nodup_dedup indices

/-- As many distinct valid indices as there are episodes are all of them. -/
theorem mem_of_all_selected (hvalid : ∀ i ∈ indices, 0 ≤ i ∧ i < (n : ℤ))
    (hall : n ≤ (sorted_set indices).length) {k : ℕ} (hk : k < n) : (k : ℤ) ∈ indices := by
  have hsub : sorted_set indices ⊆ (List.range n).map Int.ofNat := by
    intro i hi
    have hbounds := hvalid i (mem_sorted_set.1 hi)
    apply List.mem_map.2
    refine ⟨i.toNat, List.mem_range.2 (by omega), ?_⟩
    exact Int.toNat_of_nonneg hbounds.1
  have hperm : (sorted_set indices).Perm ((List.range n).map Int.ofNat) := by
    apply (List.subperm_of_subset nodup_sorted_set hsub).perm_of_length_le
    rw [List.length_map, List.length_range]
    exact hall
  apply mem_sorted_set.1
  rw [hperm.mem_iff]
  exact List.mem_map_of_mem (List.mem_range.2 hk)

theorem remaining_sorted_set (episodes : List ε) :
    remaining episodes (sorted_set indices) = remaining episodes indices := by
  unfold remaining
  simp only [mem_sorted_set]

/-- Without all the listed episodes only the appended ones remain, which is what a removal of the
folder would have to leave. -/
theorem remaining_of_all_selected
    (hvalid : ∀ i ∈ indices, 0 ≤ i ∧ i < (earlier.length : ℤ))
    (hall : earlier.length ≤ (sorted_set indices).length) :
    remaining (earlier ++ appended) indices = appended := by
  have hearlier : earlier.zipIdx.filter (fun entry => (entry.2 : ℤ) ∉ indices) = [] := by
    apply List.filter_eq_nil_iff.2
    intro entry hentry
    have hlt : entry.2 < earlier.length := by
      have h := List.snd_lt_of_mem_zipIdx hentry
      omega
    have hmem := mem_of_all_selected hvalid hall hlt
    simp only [hmem, not_true, decide_false, Bool.false_eq_true, not_false_eq_true]
  have hlater : (appended.zipIdx earlier.length).filter
      (fun entry => (entry.2 : ℤ) ∉ indices) = appended.zipIdx earlier.length := by
    apply List.filter_eq_self.2
    intro entry hentry
    have hle : earlier.length ≤ entry.2 := List.le_snd_of_mem_zipIdx hentry
    apply decide_eq_true
    intro hmem
    have hlt := (hvalid _ hmem).2
    omega
  unfold remaining
  rw [List.zipIdx_append, List.filter_append, Nat.zero_add, hearlier, hlater, List.nil_append,
    List.zipIdx_map_fst]

end Selection

/-! ## What a successful deletion leaves -/

section Deletion

variable {rebuilt : List ε → List ℤ → List ε} {calls : Calls (List ε)} {ds : DatasetInfo}
  {disk : Disk (List ε)} {episodes earlier appended : List ε} {indices : List ℤ}

theorem invalid_eq_nil (hvalid : ∀ i ∈ indices, 0 ≤ i ∧ i < (ds.num_episodes : ℤ)) :
    invalid ds.num_episodes (sorted_set indices) = [] := by
  unfold invalid
  apply List.filter_eq_nil_iff.2
  intro i hi hbad
  have hbounds := hvalid i (mem_sorted_set.1 hi)
  rw [Bool.or_eq_true, decide_eq_true_iff, decide_eq_true_iff] at hbad
  omega

theorem sorted_set_ne_nil (hne : indices ≠ []) : sorted_set indices ≠ [] := by
  obtain ⟨i, hi⟩ := List.exists_mem_of_ne_nil _ hne
  exact List.ne_nil_of_mem (mem_sorted_set.2 hi)

/-- As many indices as the snapshot counts: the folder is removed, whatever is in it. -/
theorem delete_all_ensures (hne : indices ≠ [])
    (hvalid : ∀ i ∈ indices, 0 ≤ i ∧ i < (ds.num_episodes : ℤ))
    (hall : ds.num_episodes ≤ (sorted_set indices).length) :
    Ensures (delete_episodes rebuilt calls ds indices) disk fun r disk' =>
      r = .ok "dataset-removed" ∧ disk' ds.path = calls.swept (disk ds.path) := by
  unfold delete_episodes
  rw [if_neg (sorted_set_ne_nil hne), if_neg (not_not.2 (invalid_eq_nil hvalid)), if_pos hall,
    ensures_bind, ensures_update]
  dsimp only
  rw [ensures_pure]
  exact ⟨rfl, Function.update_self _ _ _⟩

/-- Fewer indices than the snapshot counts: what is on the disk is rebuilt without them. -/
theorem delete_some_ensures (hold : disk ds.path = some episodes) (hne : indices ≠ [])
    (hvalid : ∀ i ∈ indices, 0 ≤ i ∧ i < (ds.num_episodes : ℤ))
    (hsome : (sorted_set indices).length < ds.num_episodes) :
    Ensures (delete_episodes rebuilt calls ds indices) disk fun r disk' =>
      ∀ status, r = .ok status → disk' ds.path = some (rebuilt episodes (sorted_set indices)) := by
  have hselects : Selects ds indices :=
    ⟨sorted_set_ne_nil hne, invalid_eq_nil hvalid, hsome⟩
  refine (delete_episodes_ensures hold).imp fun r disk' h status hstatus => ?_
  obtain ⟨r', hswapped, hr⟩ := h.1 hselects
  rw [hr] at hstatus
  generalize disk' ds.path = held at hswapped ⊢
  cases hswapped with
  | rebuild_raised _ => exact nomatch hstatus
  | aside_raised _ _ => exact nomatch hstatus
  | promote_raised _ _ _ => exact nomatch hstatus
  | done _ _ _ => rfl

/-- **Deleting is exact unless the whole snapshot is selected.** LeRobot removes the given indices;
a removal of the folder is right only where it leaves the episodes appended since. -/
theorem delete_episodes_exact_iff (rebuilt : List ε → List ℤ → List ε) (calls : Calls (List ε))
    (hlerobot : ∀ episodes indices, (∀ i ∈ indices, 0 ≤ i ∧ i < (episodes.length : ℤ)) →
      rebuilt episodes indices = remaining episodes indices)
    (path : String) (disk : Disk (List ε)) (earlier appended : List ε) (indices : List ℤ)
    (hdisk : disk path = some (earlier ++ appended)) (hne : indices ≠ [])
    (hvalid : ∀ i ∈ indices, 0 ≤ i ∧ i < (earlier.length : ℤ)) :
    (∀ status,
      (exec (delete_episodes rebuilt calls (read_dataset path earlier) indices) disk).1 =
          .ok status →
        episodes_at path
            (exec (delete_episodes rebuilt calls (read_dataset path earlier) indices) disk).2 =
          remaining (earlier ++ appended) indices) ↔
      ((sorted_set indices).length < earlier.length ∨
        (calls.swept (some (earlier ++ appended))).getD [] = appended) := by
  -- part of the snapshot is rebuilt from the disk, and keeps what was appended
  by_cases hsome : (sorted_set indices).length < earlier.length
  · have hensures : Ensures (delete_episodes rebuilt calls (read_dataset path earlier) indices)
        disk _ := delete_some_ensures hdisk hne hvalid hsome
    refine ⟨fun _ => Or.inl hsome, fun _ status hstatus => ?_⟩
    have hpath := hensures status hstatus
    have hfits : ∀ i ∈ sorted_set indices, 0 ≤ i ∧ i < ((earlier ++ appended).length : ℤ) := by
      intro i hi
      have hbounds := hvalid i (mem_sorted_set.1 hi)
      rw [List.length_append]
      omega
    have hleft : episodes_at path
        (exec (delete_episodes rebuilt calls (read_dataset path earlier) indices) disk).2 =
          rebuilt (earlier ++ appended) (sorted_set indices) := congrArg (·.getD []) hpath
    rw [hleft, hlerobot _ _ hfits, remaining_sorted_set]
  · -- all of the snapshot removes the folder, whatever has been appended
    have hall : earlier.length ≤ (sorted_set indices).length := not_lt.1 hsome
    have hensures : Ensures (delete_episodes rebuilt calls (read_dataset path earlier) indices)
        disk _ := delete_all_ensures hne hvalid hall
    have hleft : episodes_at path
        (exec (delete_episodes rebuilt calls (read_dataset path earlier) indices) disk).2 =
          (calls.swept (some (earlier ++ appended))).getD [] := by
      unfold episodes_at
      rw [← hdisk]
      exact congrArg (·.getD []) hensures.2
    rw [remaining_of_all_selected hvalid hall, hleft]
    constructor
    · intro h
      exact Or.inr (h "dataset-removed" hensures.1)
    · rintro (h | h)
      · exact absurd h hsome
      · exact fun _ _ => h

/-- A removal that takes the whole folder is right where nothing was appended. -/
theorem removed_folder_exact_iff (hswept : calls.swept (some (earlier ++ appended)) = none) :
    (calls.swept (some (earlier ++ appended))).getD [] = appended ↔ appended = [] := by
  rw [hswept, Option.getD_none]
  exact eq_comm

/-- Every call succeeds. -/
def all_succeed : Calls (List ε) := ⟨fun _ => none, none, false, false, fun _ => none⟩

/-- The dataset `pick`, listed with the episode `7`; `9` has been recorded since. -/
def grown_dataset : Disk (List ℕ) := Function.update (fun _ => none) "pick" (some ([7] ++ [9]))

/-- The one listed episode is selected, and another was recorded since: the general equivalence at
this deletion. -/
theorem delete_episodes_exact_iff_grown :
    (∀ status, (exec (delete_episodes remaining all_succeed (read_dataset "pick" [7]) [0])
        grown_dataset).1 = .ok status →
      episodes_at "pick" (exec (delete_episodes remaining all_succeed (read_dataset "pick" [7])
        [0]) grown_dataset).2 = remaining ([7] ++ [9]) [0]) ↔
      ((sorted_set [0]).length < [7].length ∨
        ((all_succeed (ε := ℕ)).swept (some ([7] ++ [9]))).getD [] = [9]) :=
  delete_episodes_exact_iff remaining all_succeed (fun _ _ _ => rfl) "pick" grown_dataset [7] [9]
    [0] rfl (List.cons_ne_nil _ _) (by decide)

/-- The one listed episode is selected: the deletion succeeds and the new episode is gone too. -/
theorem stale_snapshot_loses_episode :
    (exec (delete_episodes remaining all_succeed (read_dataset "pick" [7]) [0])
        grown_dataset).1 = .ok "dataset-removed" ∧
      episodes_at "pick" (exec (delete_episodes remaining all_succeed (read_dataset "pick" [7])
        [0]) grown_dataset).2 = [] ∧
      remaining ([7] ++ [9]) [0] = [9] := by
  decide

end Deletion

end DualFlexivControl.Dashboard.Storage
