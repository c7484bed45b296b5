/-
Deleting episodes of a recorded dataset: `delete_episodes` of the Storage tab.

LeRobot rebuilds the dataset without the episodes in a directory beside it, and two renames swap
the two: the old one aside, the new one into its place. Both temporary directories are removed in
a `finally` block, whatever happened before. A disk is what its directories hold; what LeRobot
writes, which call raises and what a removal that ignores its errors leaves are given from
outside ([`Calls`]).

The block is right for every failure but one. When the second rename raises, the old dataset is
in the backup directory and the new one in the temporary one, and the block removes both.
-/
import Mathlib.Data.List.Dedup
import Mathlib.Data.List.Sort
import DualFlexivControl.Lib.Effects

set_option autoImplicit false

namespace DualFlexivControl.Dashboard.Storage

open Effect

variable {τ : Type}

/-! ## Directories -/

/-- What each directory holds. -/
abbrev Disk (τ : Type) := String → Option τ

/-- `shutil.rmtree(path, ignore_errors=True)`, which leaves what it could not remove. -/
def rmtree (left : Option τ → Option τ) (path : String) (disk : Disk τ) : Disk τ :=
  Function.update disk path (left (disk path))

/-- What `os.replace` does when it does not raise. -/
def rename (src dst : String) (disk : Disk τ) : Disk τ :=
  Function.update (Function.update disk dst (disk src)) src none

/-- A LeRobot dataset on disk, as far as deleting reads it. -/
structure DatasetInfo where
  path : String
  num_episodes : ℕ

def DatasetInfo.tmp (ds : DatasetInfo) : String := ds.path ++ ".__editing__"

def DatasetInfo.backup (ds : DatasetInfo) : String := ds.path ++ ".__old__"

theorem tmp_ne_path (ds : DatasetInfo) : ds.tmp ≠ ds.path := by
  intro h
  have hlen := congrArg String.length h
  rw [DatasetInfo.tmp, String.length_append] at hlen
  have : ".__editing__".length = 12 := rfl
  omega

theorem backup_ne_path (ds : DatasetInfo) : ds.backup ≠ ds.path := by
  intro h
  have hlen := congrArg String.length h
  rw [DatasetInfo.backup, String.length_append] at hlen
  have : ".__old__".length = 8 := rfl
  omega

theorem tmp_ne_backup (ds : DatasetInfo) : ds.tmp ≠ ds.backup := by
  intro h
  have hlen := congrArg String.length h
  rw [DatasetInfo.tmp, DatasetInfo.backup, String.length_append, String.length_append] at hlen
  have h12 : ".__editing__".length = 12 := rfl
  have h8 : ".__old__".length = 8 := rfl
  omega

/-! ## The routine -/

/-- What `delete_episodes` raises: its own `ValueError`s, or what a call raised. -/
inductive Raised
  | value_error (message : String)
  | rebuild
  | replace
  deriving DecidableEq, Repr

/-- How the calls of one `delete_episodes` go. -/
structure Calls (τ : Type) where
  /-- What the removals before the rebuild leave. -/
  cleared : Option τ → Option τ
  /-- What LeRobot has written to the temporary directory when it raises, if it does. -/
  rebuild_raises : Option (Option τ)
  /-- `os.replace(ds.path, backup)` raises. -/
  aside_raises : Bool
  /-- `os.replace(tmp, ds.path)` raises. -/
  promote_raises : Bool
  /-- What the last removals leave. -/
  swept : Option τ → Option τ

variable (rebuilt : τ → List ℤ → τ) (calls : Calls τ)

/-- `LeRobotDataset(...)` and `dataset_tools.delete_episodes(...)`: a new dataset under the
temporary directory. -/
def rebuild (ds : DatasetInfo) (indices : List ℤ) : Effect Raised (Disk τ) Unit := do
  let disk ← get
  match calls.rebuild_raises, disk ds.path with
  | none, some old => update fun disk => Function.update disk ds.tmp (some (rebuilt old indices))
  | none, none => throw .rebuild
  | some written, _ =>
    update fun disk => Function.update disk ds.tmp written
    throw .rebuild

/-- `os.replace`: all or nothing. -/
def os_replace (raises : Bool) (src dst : String) : Effect Raised (Disk τ) Unit :=
  if raises then throw .replace else update (rename src dst)

/-- `sorted({int(i) for i in indices})` -/
def sorted_set (indices : List ℤ) : List ℤ := indices.dedup.insertionSort (· ≤ ·)

/-- `i < 0 or i >= total` -/
def invalid (total : ℕ) (indices : List ℤ) : List ℤ :=
  indices.filter fun i => i < 0 || (total : ℤ) ≤ i

/-- The rebuild and the two renames. -/
def swap (ds : DatasetInfo) (indices : List ℤ) : Effect Raised (Disk τ) Unit := do
  rebuild rebuilt calls ds indices
  os_replace calls.aside_raises ds.path ds.backup
  os_replace calls.promote_raises ds.tmp ds.path

/-- `delete_episodes` -/
def delete_episodes (ds : DatasetInfo) (indices : List ℤ) : Effect Raised (Disk τ) String := do
  let indices := sorted_set indices
  if indices = [] then
    throw (.value_error "no episodes selected")
  else if invalid ds.num_episodes indices ≠ [] then
    throw (.value_error
      ("invalid episode indices: " ++ toString (invalid ds.num_episodes indices)))
  else if ds.num_episodes ≤ indices.length then
    update (rmtree calls.swept ds.path)
    pure "dataset-removed"
  else
    update (rmtree calls.cleared ds.tmp)
    update (rmtree calls.cleared ds.backup)
    withFinally (swap rebuilt calls ds indices) fun disk =>
      rmtree calls.swept ds.backup (rmtree calls.swept ds.tmp disk)
    pure "reindexed"

/-! ## What is left on the disk -/

section Disk

variable {rebuilt calls} {ds : DatasetInfo} {disk : Disk τ} {old : τ} {indices : List ℤ}

/-- The removals of the two temporary directories do not touch the dataset. -/
theorem removals_path (left left' : Option τ → Option τ) :
    rmtree left ds.backup (rmtree left' ds.tmp disk) ds.path = disk ds.path := by
  rw [rmtree, Function.update_of_ne (backup_ne_path ds).symm, rmtree,
    Function.update_of_ne (tmp_ne_path ds).symm]

/-- Where the old dataset is after the rebuild and the two renames, and which of them raised. -/
inductive Swapped (rebuilt : τ → List ℤ → τ) (calls : Calls τ) (ds : DatasetInfo) (old : τ)
    (indices : List ℤ) : Except Raised Unit → Option τ → Prop
  | rebuild_raised (h : calls.rebuild_raises ≠ none) :
    Swapped rebuilt calls ds old indices (.error .rebuild) (some old)
  | aside_raised (h : calls.rebuild_raises = none) (h' : calls.aside_raises = true) :
    Swapped rebuilt calls ds old indices (.error .replace) (some old)
  | promote_raised (h : calls.rebuild_raises = none) (h' : calls.aside_raises = false)
    (h'' : calls.promote_raises = true) :
    Swapped rebuilt calls ds old indices (.error .replace) none
  | done (h : calls.rebuild_raises = none) (h' : calls.aside_raises = false)
    (h'' : calls.promote_raises = false) :
    Swapped rebuilt calls ds old indices (.ok ()) (some (rebuilt old indices))

theorem ensures_os_replace {raises : Bool} {src dst : String}
    {Q : Except Raised Unit → Disk τ → Prop} :
    Ensures (os_replace raises src dst) disk Q ↔
      if raises then Q (.error .replace) disk else Q (.ok ()) (rename src dst disk) := by
  cases raises with
  | true => exact Iff.rfl
  | false => exact Iff.rfl

theorem rename_path_aside : rename ds.path ds.backup disk ds.path = none :=
  Function.update_self _ _ _

theorem rename_tmp_aside : rename ds.path ds.backup disk ds.tmp = disk ds.tmp := by
  rw [rename, Function.update_of_ne (tmp_ne_path ds), Function.update_of_ne (tmp_ne_backup ds)]

theorem rename_promote : rename ds.tmp ds.path disk ds.path = disk ds.tmp := by
  rw [rename, Function.update_of_ne (tmp_ne_path ds).symm, Function.update_self]

/-- **The swap**: both renames succeed and the rebuilt dataset is in place, or the rebuilding or the
first rename fails and the old one is, or the second fails and none is. -/
theorem swap_ensures (hold : disk ds.path = some old) :
    Ensures (swap rebuilt calls ds indices) disk fun r disk' =>
      Swapped rebuilt calls ds old indices r (disk' ds.path) := by
  unfold swap rebuild
  rw [ensures_bind, ensures_get_bind]
  rcases hrebuild : calls.rebuild_raises with _ | written
  · rw [hold]
    show Ensures (update _) disk _
    rw [ensures_update]
    dsimp only
    rw [ensures_bind, ensures_os_replace]
    by_cases haside : calls.aside_raises = true
    · rw [if_pos haside]
      dsimp only
      rw [Function.update_of_ne (tmp_ne_path ds).symm, hold]
      exact .aside_raised hrebuild haside
    · rw [if_neg haside]
      dsimp only
      rw [ensures_os_replace]
      by_cases hpromote : calls.promote_raises = true
      · rw [if_pos hpromote, rename_path_aside]
        exact .promote_raised hrebuild (Bool.eq_false_iff.2 haside) hpromote
      · rw [if_neg hpromote, rename_promote, rename_tmp_aside, Function.update_self]
        exact .done hrebuild (Bool.eq_false_iff.2 haside) (Bool.eq_false_iff.2 hpromote)
  · show Ensures (update _ >>= fun _ => throw _) disk _
    rw [ensures_bind, ensures_update]
    dsimp only
    rw [ensures_throw]
    dsimp only
    rw [Function.update_of_ne (tmp_ne_path ds).symm, hold]
    exact .rebuild_raised (by rw [hrebuild]; exact Option.some_ne_none _)

/-- The indices select some of the episodes, not all, and nothing else. -/
structure Selects (ds : DatasetInfo) (indices : List ℤ) : Prop where
  some_selected : sorted_set indices ≠ []
  all_valid : invalid ds.num_episodes (sorted_set indices) = []
  some_left : (sorted_set indices).length < ds.num_episodes

/-- Selections are swapped, anything else leaves with the disk as it was or without raising. -/
theorem delete_episodes_ensures (hold : disk ds.path = some old) :
    Ensures (delete_episodes rebuilt calls ds indices) disk fun r disk' =>
      (Selects ds indices → ∃ r',
        Swapped rebuilt calls ds old (sorted_set indices) r' (disk' ds.path) ∧
          r = r'.map fun _ => "reindexed") ∧
      (¬ Selects ds indices → ∀ raised, r = .error raised → disk' = disk) := by
  unfold delete_episodes
  by_cases hnone : sorted_set indices = []
  · rw [if_pos hnone, ensures_throw]
    exact ⟨fun h => absurd hnone h.some_selected, fun _ _ _ => rfl⟩
  rw [if_neg hnone]
  by_cases hvalid : invalid ds.num_episodes (sorted_set indices) = []
  swap
  · rw [if_pos hvalid, ensures_throw]
    exact ⟨fun h => absurd h.all_valid hvalid, fun _ _ _ => rfl⟩
  rw [if_neg (not_not.2 hvalid)]
  by_cases hall : ds.num_episodes ≤ (sorted_set indices).length
  · rw [if_pos hall, ensures_bind, ensures_update]
    dsimp only
    rw [ensures_pure]
    exact ⟨fun h => absurd h.some_left (not_lt.2 hall), fun _ _ h => nomatch h⟩
  · rw [if_neg hall, ensures_bind, ensures_update]
    dsimp only
    rw [ensures_bind, ensures_update]
    dsimp only
    rw [ensures_bind, ensures_withFinally]
    have hcleared : rmtree calls.cleared ds.backup (rmtree calls.cleared ds.tmp disk) ds.path =
        some old := by rw [removals_path, hold]
    refine (swap_ensures hcleared).imp fun r disk' hswapped => ?_
    -- the `finally` block does not touch the dataset, and the result is the swap's
    have hpath : rmtree calls.swept ds.backup (rmtree calls.swept ds.tmp disk') ds.path =
        disk' ds.path := removals_path _ _
    rw [← hpath] at hswapped
    have hselects : Selects ds indices := ⟨hnone, hvalid, not_le.1 hall⟩
    rcases r with raised | _
    · exact ⟨fun _ => ⟨_, hswapped, rfl⟩, fun h => absurd hselects h⟩
    · rw [ensures_pure]
      exact ⟨fun _ => ⟨_, hswapped, rfl⟩, fun h => absurd hselects h⟩

/-- The directory holds the untouched old dataset or the fully rebuilt one. -/
def Complete (rebuilt : τ → List ℤ → τ) (ds : DatasetInfo) (old : τ) (indices : List ℤ)
    (disk : Disk τ) : Prop :=
  disk ds.path = some old ∨ disk ds.path = some (rebuilt old (sorted_set indices))

/-- **Deleting is failure-atomic but for the second rename**: a deletion that raises leaves the
dataset complete, unless the rename that was to promote the rebuilt one has failed. -/
theorem delete_episodes_failure_atomic_iff (rebuilt : τ → List ℤ → τ) (calls : Calls τ)
    (ds : DatasetInfo) (indices : List ℤ) (disk : Disk τ) (old : τ)
    (hold : disk ds.path = some old) :
    (∀ raised, (exec (delete_episodes rebuilt calls ds indices) disk).1 = .error raised →
      Complete rebuilt ds old indices
        (exec (delete_episodes rebuilt calls ds indices) disk).2) ↔
      ¬ (Selects ds indices ∧ calls.rebuild_raises = none ∧ calls.aside_raises = false ∧
        calls.promote_raises = true) := by
  have hensures : Ensures (delete_episodes rebuilt calls ds indices) disk _ :=
    delete_episodes_ensures hold
  unfold Ensures at hensures
  generalize exec (delete_episodes rebuilt calls ds indices) disk = out at hensures ⊢
  obtain ⟨r, disk'⟩ := out
  dsimp only at hensures ⊢
  by_cases hselects : Selects ds indices
  · obtain ⟨r', hswapped, rfl⟩ := hensures.1 hselects
    unfold Complete
    generalize disk' ds.path = held at hswapped ⊢
    cases hswapped with
    | rebuild_raised h => exact ⟨fun _ hlost => h hlost.2.1, fun _ _ _ => Or.inl rfl⟩
    | aside_raised h h' =>
      refine ⟨fun _ hlost => ?_, fun _ _ _ => Or.inl rfl⟩
      rw [h'] at hlost
      exact nomatch hlost.2.2.1
    | promote_raised h h' h'' =>
      constructor
      · intro hsafe _
        rcases hsafe .replace rfl with hheld | hheld <;> exact nomatch hheld
      · intro hcon
        exact absurd ⟨hselects, h, h', h''⟩ hcon
    | done h h' h'' =>
      refine ⟨fun _ hlost => ?_, fun _ _ _ => Or.inr rfl⟩
      rw [h''] at hlost
      exact nomatch hlost.2.2.2
  · refine ⟨fun _ hlost => hselects hlost.1, fun _ raised hraised => Or.inl ?_⟩
    rw [hensures.2 hselects raised hraised, hold]

/-- Two episodes, the first one deleted, and the rebuilt dataset cannot be moved into place. -/
def second_rename_raises : Calls (List ℕ) :=
  ⟨fun _ => none, none, false, true, fun _ => none⟩

/-- What LeRobot writes, for a dataset that is a list of its episodes. -/
def without (episodes : List ℕ) (indices : List ℤ) : List ℕ :=
  (episodes.zipIdx.filter fun entry => (entry.2 : ℤ) ∉ indices).map Prod.fst

/-- The dataset `pick` with the episodes `7` and `9`. -/
def one_dataset : Disk (List ℕ) := Function.update (fun _ => none) "pick" (some [7, 9])

/-- One of two episodes is deleted and the second rename fails: the general equivalence at this
deletion. -/
theorem delete_episodes_failure_atomic_iff_pick :
    one_dataset "pick" = some [7, 9] ∧
      ((∀ raised, (exec (delete_episodes without second_rename_raises ⟨"pick", 2⟩ [0])
          one_dataset).1 = .error raised →
        Complete without ⟨"pick", 2⟩ [7, 9] [0]
          (exec (delete_episodes without second_rename_raises ⟨"pick", 2⟩ [0])
            one_dataset).2) ↔
        ¬ (Selects ⟨"pick", 2⟩ [0] ∧ second_rename_raises.rebuild_raises = none ∧
          second_rename_raises.aside_raises = false ∧
          second_rename_raises.promote_raises = true)) :=
  ⟨rfl, delete_episodes_failure_atomic_iff without second_rename_raises ⟨"pick", 2⟩ [0]
    one_dataset [7, 9] rfl⟩

/-- The rename raises, and there is no dataset, no backup and no rebuilt one any more. -/
theorem second_rename_loses_dataset :
    (exec (delete_episodes without second_rename_raises ⟨"pick", 2⟩ [0]) one_dataset).1 =
        .error .replace ∧
      ¬ Complete without ⟨"pick", 2⟩ [7, 9] [0]
        (exec (delete_episodes without second_rename_raises ⟨"pick", 2⟩ [0]) one_dataset).2 ∧
      ∀ path ∈ ["pick", "pick.__old__", "pick.__editing__"],
        (exec (delete_episodes without second_rename_raises ⟨"pick", 2⟩ [0])
          one_dataset).2 path = none := by
  unfold Complete
  decide

end Disk

end DualFlexivControl.Dashboard.Storage
