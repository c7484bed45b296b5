/-
Opening a recording: `LeRobotRecorder.__init__` on whatever is at the dataset directory.

A directory with a `meta` folder is resumed when two files in that folder say it has an episode,
and is otherwise taken for the leftover of a crashed run and removed. What the files say is one
thing and which episodes are there another: a damaged `meta` folder says nothing of the episodes
beside it.

LeRobot itself is given from outside, as far as its documentation goes: `create` refuses a
directory that exists, and `resume` opens one without touching what is recorded.
-/
import DualFlexivControl.Lib.Effects
import DualFlexivControl.Collection.Features
import DualFlexivControl.Documents

set_option autoImplicit false

namespace DualFlexivControl.Collection.Recorder

open Effect Results Documents
open Daemon (Json)

variable {ε : Type}

/-! ## The dataset directory -/

/-- The `meta` folder: `info.json` if it is a file, and whether `tasks.parquet` is one. -/
structure Meta where
  info : Option FileText
  tasks : Bool

/-- A dataset directory: its `meta` folder, if there is one, and the episodes recorded in it. -/
structure Folder (ε : Type) where
  metadata : Option Meta
  episodes : List ε

section Reading

variable (numerals : Numerals)

/-- `int(json.loads(...).get("total_episodes", 0) or 0)` -/
def total_episodes (info : FileText) : Except PyError ℤ := do
  let doc ← json_loads info
  let value ← get doc "total_episodes"
  int numerals (or_default (value.getD (.int 0)) (.int 0))

/-- `_resumable` -/
def resumable (metadata : Meta) : Except PyError Bool :=
  match metadata.info, metadata.tasks with
  | some info, true =>
    match total_episodes numerals info with
    | .ok total => .ok (decide (0 < total))
    | .error .os_error => .ok false
    | .error .value_error => .ok false
    | .error raised => .error raised
  | _, _ => .ok false

/-- `_disk_features` -/
def disk_features (metadata : Option Meta) : Except PyError (List (String × Json)) :=
  match json_loads ((metadata.bind Meta.info).getD .unreadable) with
  | .error .os_error => .ok []
  | .error .value_error => .ok []
  | .error raised => .error raised
  | .ok doc => do
    match ← get doc "features" with
    | some (.obj feats) => pure feats
    | _ => pure []

/-- `[int(x) for x in have.get("shape", ())]` -/
def shape_of (have' : Json) : Except PyError (List ℤ) := do
  let shape ← get have' "shape"
  let entries ← iterate (shape.getD (.arr []))
  collect (int numerals) entries

/-- `list(have["names"]) == list(spec["names"])` -/
def same_names (have_names : List Json) (names : List String) : Bool :=
  have_names.length == names.length && (have_names.zip names).all fun pair => pair.1.isStr pair.2

/-- How one feature of this run differs from the one on disk. -/
def feature_diff (existing : List (String × Json)) (expected : String × Feature) :
    Except PyError (List String) := do
  match (existing.lookup expected.1).getD .null with
  | .null => pure [s!"{expected.1}: not in the existing dataset"]
  | on_disk =>
    let want_shape := expected.2.shape.map Int.ofNat
    let have_shape ← shape_of numerals on_disk
    if have_shape ≠ want_shape then
      pure [s!"{expected.1}: shape {have_shape} on disk vs {want_shape} in this run"]
    else
      let have_names := ((← get on_disk "names").getD .null)
      if have_names.truthy && !expected.2.names.isEmpty then
        let listed ← iterate have_names
        if same_names listed expected.2.names then pure []
        else pure [s!"{expected.1}: same shape but a different layout (names differ)"]
      else pure []

/-- `_schema_mismatches` -/
def schema_mismatches (existing : List (String × Json)) (expected : List (String × Feature)) :
    Except PyError (List String) := do
  let diffs ← collect (feature_diff numerals existing) expected
  let dropped := existing.filter fun entry =>
    "observation.".isPrefixOf entry.1 && !(expected.map Prod.fst).contains entry.1
  pure (diffs.flatten ++ dropped.map fun entry =>
    s!"{entry.1}: in the existing dataset but not produced by this run")

end Reading

/-! ## The constructor -/

/-- LeRobot, as the constructor finds it. -/
structure LeRobot (ε : Type) where
  /-- `lerobot` can be imported. -/
  importable : Bool
  /-- `LeRobotDataset.resume`, which may raise. -/
  resume : Option (Folder ε) → Except PyError Unit
  /-- `LeRobotDataset.create` where there is no directory: what it raises, and the `meta` folder
  it leaves, if it leaves a directory. -/
  create : Except PyError Unit × Option (Option Meta)

/-- How the dataset was opened. -/
inductive Opened
  | resumed
  | created
  deriving DecidableEq, Repr

/-- What the constructor raises. -/
inductive Raised
  | recorder_unavailable (message : String)
  | python (raised : PyError)
  | file_exists
  | lerobot (raised : PyError)
  deriving DecidableEq, Repr

/-- The refusal to append to a dataset of another schema. -/
def different_schema (dataset_dir : String) (diffs : List String) : String :=
  s!"existing dataset at {dataset_dir} was recorded with a " ++
    "different schema than this run produces — appending would " ++
    "corrupt it, so it is left untouched:\n  - " ++ "\n  - ".intercalate diffs ++
    "\nThis usually means the rig / cameras / state signals " ++
    "changed since it was recorded (e.g. single-arm vs bimanual). " ++
    "Record to a fresh dataset with e.g. " ++
    "task.collection.repo_id=<namespace>/<name>, or move the existing folder away."

/-- The refusal to delete a complete dataset. -/
def resume_disabled (dataset_dir : String) : String :=
  s!"a complete dataset already exists at {dataset_dir} and " ++
    "recording.resume is disabled — refusing to delete recorded " ++
    "episodes. Re-enable resume to append, record elsewhere via " ++
    "task.collection.repo_id=<namespace>/<name>, or move the existing folder away."

/-- The refusal to record without LeRobot. -/
def lerobot_missing : String :=
  "collection requires the 'lerobot' package to write datasets. " ++
    "Install it with:  pip install 'dual-flexiv-control[collection]'  (or  pip install lerobot)."

/-- What a run asks of its recorder. -/
structure Request where
  dataset_dir : String
  resume : Bool
  features : List (String × Feature)

section Init

variable (numerals : Numerals) (lerobot : LeRobot ε) (left : Folder ε → Option (Folder ε))

/-- Run a reader, with its exceptions as the constructor's. -/
def reading {α : Type} (x : Except PyError α) : Effect Raised (Option (Folder ε)) α :=
  call (x.mapError .python)

/-- `LeRobotDataset.create`: an existing directory is an error and stays as it is. -/
def create : Effect Raised (Option (Folder ε)) Unit := do
  match ← MonadState.get with
  | some _ => throw .file_exists
  | none =>
    update fun _ => lerobot.create.2.map fun metadata => ⟨metadata, []⟩
    call (lerobot.create.1.mapError .lerobot)

/-- `shutil.rmtree(dataset_dir, ignore_errors=True)`, which leaves what it could not remove. -/
def rmtree (disk : Option (Folder ε)) : Option (Folder ε) := disk.bind left

/-- `LeRobotRecorder.__init__` once it is known whether the directory can be resumed. -/
def open_dataset (request : Request) (disk : Option (Folder ε)) (resumable : Bool) :
    Effect Raised (Option (Folder ε)) Opened := do
  let metadata := disk.bind Folder.metadata
  if request.resume && resumable then
    let existing ← reading (disk_features metadata)
    let diffs ← reading (schema_mismatches numerals existing request.features)
    if diffs ≠ [] then
      throw (.recorder_unavailable (different_schema request.dataset_dir diffs))
    else
      call ((lerobot.resume disk).mapError .lerobot)
      pure .resumed
  else if resumable then
    throw (.recorder_unavailable (resume_disabled request.dataset_dir))
  else
    -- the leftover of a crashed run makes way for a new dataset
    if metadata.isSome then update (rmtree left)
    create lerobot
    pure .created

/-- `LeRobotRecorder.__init__` -/
def init (request : Request) : Effect Raised (Option (Folder ε)) Opened := do
  if lerobot.importable then
    let disk ← MonadState.get
    match disk.bind Folder.metadata with
    | some metadata =>
      let resumable ← reading (resumable numerals metadata)
      open_dataset numerals lerobot left request disk resumable
    | none => open_dataset numerals lerobot left request disk false
  else
    throw (.recorder_unavailable lerobot_missing)

end Init

/-! ## What is left of the directory -/

section Outcome

variable {numerals : Numerals} {lerobot : LeRobot ε} {left : Folder ε → Option (Folder ε)}
  {request : Request} {disk : Option (Folder ε)}

/-- A directory with a recorded episode is left as it is, and the constructor resumes or raises. -/
def Respects (disk : Option (Folder ε)) (r : Except Raised Opened) (disk' : Option (Folder ε)) :
    Prop :=
  ∀ folder, disk = some folder → folder.episodes ≠ [] →
    disk' = disk ∧ (r = .ok .resumed ∨ ∃ raised, r = .error raised)

/-- LeRobot is there, and so is a `meta` folder that does not say there is an episode. -/
def Clears (numerals : Numerals) (lerobot : LeRobot ε) (disk : Option (Folder ε)) : Prop :=
  lerobot.importable = true ∧
    ∃ metadata, disk.bind Folder.metadata = some metadata ∧
      resumable numerals metadata = .ok false

theorem ensures_reading {α : Type} {x : Except PyError α}
    {Q : Except Raised α → Option (Folder ε) → Prop} :
    Ensures (reading x) disk Q ↔ Q (x.mapError .python) disk := Iff.rfl

/-- What creating leaves: an existing directory as it is, and the constructor raises; where there
was none, a directory without episodes. -/
theorem ensures_create {rest : Option (Folder ε)} :
    Ensures (create lerobot >>= fun _ => pure Opened.created) rest fun r disk' =>
      (rest ≠ none → r = .error .file_exists ∧ disk' = rest) ∧
        (rest = none → ∀ folder, disk' = some folder → folder.episodes = []) := by
  unfold create
  rw [ensures_bind, ensures_get_bind]
  rcases rest with _ | folder
  · show Ensures (update _ >>= fun _ => call _) none _
    rw [ensures_bind, ensures_update]
    dsimp only
    rw [ensures_call]
    have hempty : ∀ folder : Folder ε,
        lerobot.create.2.map (fun metadata => ⟨metadata, []⟩) = some folder →
          folder.episodes = [] := by
      intro folder hfolder
      obtain ⟨metadata, _, rfl⟩ := Option.map_eq_some_iff.1 hfolder
      rfl
    rcases lerobot.create.1 with raised | _
    · exact ⟨fun h => absurd rfl h, fun _ => hempty⟩
    · exact ⟨fun h => absurd rfl h, fun _ => hempty⟩
  · exact ⟨fun _ => ⟨rfl, rfl⟩, fun h => nomatch h⟩

/-- Opening what can be resumed does not touch it: the constructor resumes or raises. -/
theorem open_resumable :
    Ensures (open_dataset numerals lerobot left request disk true) disk fun r disk' =>
      disk' = disk ∧ (r = .ok .resumed ∨ ∃ raised, r = .error raised) := by
  unfold open_dataset
  dsimp only
  by_cases hresume : request.resume = true
  · rw [if_pos (by rw [hresume]; rfl), ensures_bind, ensures_reading]
    rcases disk_features (disk.bind Folder.metadata) with raised | existing
    · exact ⟨rfl, Or.inr ⟨_, rfl⟩⟩
    show Ensures (reading _ >>= _) disk _
    rw [ensures_bind, ensures_reading]
    rcases schema_mismatches numerals existing request.features with raised | diffs
    · exact ⟨rfl, Or.inr ⟨_, rfl⟩⟩
    show Ensures (if diffs ≠ [] then _ else _) disk _
    by_cases hdiffs : diffs ≠ []
    · rw [if_pos hdiffs, ensures_throw]
      exact ⟨rfl, Or.inr ⟨_, rfl⟩⟩
    · rw [if_neg hdiffs, ensures_bind, ensures_call]
      rcases lerobot.resume disk with raised | _
      · exact ⟨rfl, Or.inr ⟨_, rfl⟩⟩
      · exact ⟨rfl, Or.inl rfl⟩
  · rw [if_neg (by simpa using hresume), if_pos rfl, ensures_throw]
    exact ⟨rfl, Or.inr ⟨_, rfl⟩⟩

/-- Without a `meta` folder a directory stays as it is, since creating one there raises. -/
theorem open_without_meta (hmeta : disk.bind Folder.metadata = none) :
    Ensures (open_dataset numerals lerobot left request disk false) disk
      (Respects disk) := by
  unfold open_dataset
  dsimp only
  rw [if_neg (by simp), if_neg (by simp), hmeta]
  intro folder hfolder _
  subst hfolder
  exact ⟨rfl, Or.inr ⟨_, rfl⟩⟩

/-- With one that cannot be resumed, the directory is what the removal leaves of it; what is
created where nothing was left has no episode. -/
theorem open_leftover {folder : Folder ε} (hmeta : folder.metadata ≠ none)
    (hepisodes : folder.episodes ≠ []) :
    Ensures (open_dataset numerals lerobot left request (some folder) false) (some folder)
      fun r disk' => Respects (some folder) r disk' ↔ left folder = some folder := by
  unfold open_dataset
  dsimp only
  rw [if_neg (by simp), if_neg (by simp), if_pos (by simpa [Option.isSome_iff_ne_none])]
  rw [ensures_bind, ensures_update]
  dsimp only
  refine ensures_create.imp fun r disk' h => ?_
  have hleft : rmtree left (some folder) = left folder := rfl
  rw [hleft] at h
  constructor
  · intro hrespects
    have huntouched := (hrespects folder rfl hepisodes).1
    by_contra hne
    by_cases hnone : left folder = none
    · exact hepisodes (h.2 hnone folder huntouched)
    · exact hne ((h.1 hnone).2 ▸ huntouched)
  · intro hkept folder' hfolder' _
    have hne : left folder ≠ none := by
      rw [hkept]
      exact Option.some_ne_none folder
    obtain ⟨hr, hdisk⟩ := h.1 hne
    exact ⟨hdisk.trans hkept, Or.inr ⟨_, hr⟩⟩

/-- **What becomes of the recorded episodes.** They stay where they are unless a `meta` folder
that does not say there is an episode makes the constructor remove the directory. -/
theorem init_respects_episodes_iff (numerals : Numerals) (lerobot : LeRobot ε)
    (left : Folder ε → Option (Folder ε)) (request : Request) (disk : Option (Folder ε)) :
    Respects disk (exec (init numerals lerobot left request) disk).1
        (exec (init numerals lerobot left request) disk).2 ↔
      ¬ ∃ folder, disk = some folder ∧ folder.episodes ≠ [] ∧ left folder ≠ some folder ∧
        Clears numerals lerobot disk := by
  show Ensures (init numerals lerobot left request) disk fun r disk' => Respects disk r disk' ↔ _
  unfold init
  by_cases himportable : lerobot.importable = true
  swap
  · rw [if_neg himportable, ensures_throw]
    refine ⟨fun _ ⟨_, _, _, _, hclears⟩ => himportable hclears.1, fun _ folder _ _ => ?_⟩
    exact ⟨rfl, Or.inr ⟨_, rfl⟩⟩
  rw [if_pos himportable, ensures_get_bind]
  rcases hmeta : disk.bind Folder.metadata with _ | metadata
  · refine (open_without_meta hmeta).imp fun r disk' hrespects => ?_
    refine ⟨fun _ ⟨_, _, _, _, _, metadata, hmetadata, _⟩ => ?_, fun _ => hrespects⟩
    rw [hmeta] at hmetadata
    exact nomatch hmetadata
  show Ensures (reading _ >>= _) disk _
  rw [ensures_bind, ensures_reading]
  -- whatever the reader makes of the folder, only a `false` clears it
  have hclears : Clears numerals lerobot disk → resumable numerals metadata = .ok false := by
    rintro ⟨_, metadata', hmetadata', hfalse⟩
    rw [hmeta, Option.some_inj] at hmetadata'
    rw [hmetadata']
    exact hfalse
  rcases hresumable : resumable numerals metadata with raised | resumable
  · refine ⟨fun _ ⟨_, _, _, _, h⟩ => ?_, fun _ folder _ _ => ⟨rfl, Or.inr ⟨_, rfl⟩⟩⟩
    exact nomatch (hclears h).symm.trans hresumable
  show Ensures (open_dataset numerals lerobot left request disk resumable) disk _
  by_cases hdecided : resumable = true
  · subst hdecided
    refine open_resumable.imp fun r disk' hopened => ?_
    refine ⟨fun _ ⟨_, _, _, _, h⟩ => ?_, fun _ folder _ _ => hopened⟩
    exact nomatch (hclears h).symm.trans hresumable
  rw [Bool.not_eq_true] at hdecided
  subst hdecided
  obtain ⟨folder, rfl, hmetadata⟩ := Option.bind_eq_some_iff.1 hmeta
  have hcleared : Clears numerals lerobot (some folder) :=
    ⟨himportable, metadata, hmeta, hresumable⟩
  by_cases hepisodes : folder.episodes = []
  · unfold Ensures
    constructor
    · rintro _ ⟨folder', hfolder', hnonempty, _⟩
      rw [← Option.some.inj hfolder'] at hnonempty
      exact hnonempty hepisodes
    · intro _ folder' hfolder' hnonempty
      rw [← Option.some.inj hfolder'] at hnonempty
      exact absurd hepisodes hnonempty
  · have hsome : folder.metadata ≠ none := by
      rw [hmetadata]
      exact Option.some_ne_none metadata
    refine (open_leftover hsome hepisodes).imp fun r disk' hleftover => ?_
    rw [hleftover]
    constructor
    · rintro hkept ⟨folder', hfolder', _, hremoved, _⟩
      rw [← Option.some.inj hfolder'] at hremoved
      exact hremoved hkept
    · intro hnot
      by_contra hremoved
      exact hnot ⟨folder, rfl, hepisodes, hremoved, hcleared⟩

/-- LeRobot is installed, resumes what it is given and creates what is asked for. -/
def working : LeRobot ε := ⟨true, fun _ => .ok (), (.ok (), some (some ⟨some .not_json, true⟩))⟩

/-- Two recorded episodes, and an `info.json` that a crash left cut off. -/
def truncated_info : Folder ℕ := ⟨some ⟨some .not_json, true⟩, [7, 9]⟩

/-- The recorded episodes are removed and a new dataset takes their place. -/
theorem truncated_info_loses_episodes :
    (exec (init ⟨fun _ => none, fun _ => none⟩ working (fun _ => none) ⟨"pick", true, []⟩)
        (some truncated_info)).1 = .ok .created ∧
      ¬ Respects (some truncated_info)
        (exec (init ⟨fun _ => none, fun _ => none⟩ working (fun _ => none) ⟨"pick", true, []⟩)
          (some truncated_info)).1
        (exec (init ⟨fun _ => none, fun _ => none⟩ working (fun _ => none) ⟨"pick", true, []⟩)
          (some truncated_info)).2 := by
  refine ⟨rfl, fun hrespects => ?_⟩
  have huntouched := (hrespects truncated_info rfl (List.cons_ne_nil _ _)).1
  have hleft : (exec (init ⟨fun _ => none, fun _ => none⟩ working (fun _ => none)
      ⟨"pick", true, []⟩) (some truncated_info)).2 =
        some ⟨some ⟨some .not_json, true⟩, []⟩ := rfl
  rw [hleft] at huntouched
  exact nomatch congrArg Folder.episodes (Option.some.inj huntouched)

end Outcome

end DualFlexivControl.Collection.Recorder
