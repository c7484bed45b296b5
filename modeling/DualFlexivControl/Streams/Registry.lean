/-
Streams by name: segments, manifests and the registry.

A stream has a logical name. Its shared-memory segment and its manifest file are named
after it, with everything but letters, digits and underscores collapsed to an underscore,
so that the names are the same in every run of a session -- and that two logical names can
share them. A manifest lives in one of two directories; a segment in one name space.

`StreamWriter.create` is two steps, the segment and then the manifest, and a writer that is
done with a stream may take down the one and leave the other. Nothing ties them together.
-/
import Mathlib.Data.List.AList

set_option autoImplicit false

namespace DualFlexivControl.Streams

/-! ## Names -/

/-- `[A-Za-z0-9_]`. -/
def is_safe (c : Char) : Bool := c.isAlphanum || c == '_'

/-- Every run of other characters becomes one underscore; `inside` says that the last
character was in such a run. -/
def collapse (inside : Bool) : List Char → List Char
  | [] => []
  | c :: cs =>
    if is_safe c then c :: collapse false cs
    else if inside then collapse true cs
    else '_' :: collapse true cs

/-- `sanitize`. -/
def sanitize (name : String) : String := String.ofList (collapse false name.toList)

/-- `shm_name_for`. -/
def shm_name_for (run_id stream_name : String) : String :=
  "dfc_" ++ sanitize run_id ++ "_" ++ sanitize stream_name

/-- The manifest directories. -/
inductive Sub where
  | streams
  | control
  deriving DecidableEq

/-- A stream: where its manifest is published, and its logical name. -/
structure Stream where
  sub : Sub
  name : String
  deriving DecidableEq

/-- What a manifest says, as far as it is read. -/
structure RegistryEntry where
  name : String
  shm_name : String
  deriving DecidableEq

/-- The name of a stream's segment. -/
def Stream.shm_name (run_id : String) (s : Stream) : String := shm_name_for run_id s.name

/-- The name of its manifest, without the suffix. -/
def Stream.file (s : Stream) : String := sanitize s.name

/-- Its manifest. -/
def Stream.entry (run_id : String) (s : Stream) : RegistryEntry := ⟨s.name, s.shm_name run_id⟩

/-! ## Segments and manifests -/

/-- Who created a segment: a telemetry producer, or the consumer of a run. -/
inductive Creator where
  | telemetry
  | run (seq : ℕ)
  deriving DecidableEq

/-- A manifest directory. -/
abbrev Dir := AList fun _ : String => RegistryEntry

/-- Shared memory and the session's manifests. -/
structure Store where
  segments : String → Option Creator
  manifests : Sub → Dir

/-- Nothing yet. -/
def Store.empty : Store := ⟨fun _ => none, fun _ => ∅⟩

/-- `SharedMemory(create=True)`; a segment of that name is a `FileExistsError`. -/
def Store.create (o : Store) (creator : Creator) (shm_name : String) : Option Store :=
  if o.segments shm_name = none then
    some { o with segments := Function.update o.segments shm_name (some creator) }
  else none

/-- `SharedMemory.unlink`, by name; that there is none is not an error. -/
def Store.unlink (o : Store) (shm_name : String) : Store :=
  { o with segments := Function.update o.segments shm_name none }

/-- `StreamRegistry.publish`: the file is replaced. -/
def Store.publish (o : Store) (sub : Sub) (file : String) (entry : RegistryEntry) : Store :=
  { o with manifests := Function.update o.manifests sub ((o.manifests sub).insert file entry) }

/-- `StreamRegistry.remove`. -/
def Store.remove (o : Store) (sub : Sub) (file : String) : Store :=
  { o with manifests := Function.update o.manifests sub ((o.manifests sub).erase file) }

/-- What a manifest file says, if it is there. -/
def Store.read (o : Store) (sub : Sub) (file : String) : Option RegistryEntry :=
  (o.manifests sub).lookup file

/-- What a producer does to one of its streams. -/
inductive Op where
  | create (s : Stream)
  | publish (s : Stream)
  | unlink (s : Stream)
  | remove (s : Stream)
  deriving DecidableEq

/-- One step of a producer. -/
def Store.apply (run_id : String) (creator : Creator) (o : Store) : Op → Option Store
  | .create s => o.create creator (s.shm_name run_id)
  | .publish s => some (o.publish s.sub s.file (s.entry run_id))
  | .unlink s => some (o.unlink (s.shm_name run_id))
  | .remove s => some (o.remove s.sub s.file)

section Rules

variable {o o' : Store} {creator c : Creator} {shm_name name : String} {sub sub' : Sub}
  {file file' : String} {entry : RegistryEntry}

theorem create_eq_some (h : o.create creator shm_name = some o') : o.segments shm_name = none ∧
    o' = { o with segments := Function.update o.segments shm_name (some creator) } := by
  unfold Store.create at h
  split at h
  · next hnone => exact ⟨hnone, (Option.some.inj h).symm⟩
  · exact absurd h (by simp)

@[simp] theorem segments_unlink_self : (o.unlink shm_name).segments shm_name = none :=
  Function.update_self ..

@[simp] theorem segments_unlink_ne (h : name ≠ shm_name) :
    (o.unlink shm_name).segments name = o.segments name := Function.update_of_ne h ..

/-- What is left after an unlink was there before, under another name. -/
theorem segments_unlink_eq_some (h : (o.unlink shm_name).segments name = some c) :
    name ≠ shm_name ∧ o.segments name = some c := by
  by_cases hname : name = shm_name
  · rw [hname, segments_unlink_self] at h
    exact absurd h (by simp)
  · rw [segments_unlink_ne hname] at h
    exact ⟨hname, h⟩

@[simp] theorem segments_publish :
    (o.publish sub file entry).segments = o.segments := rfl

@[simp] theorem segments_remove : (o.remove sub file).segments = o.segments := rfl

@[simp] theorem read_unlink : (o.unlink shm_name).read sub file = o.read sub file := rfl

theorem read_publish_self : (o.publish sub file entry).read sub file = some entry := by
  unfold Store.read Store.publish
  simp

theorem read_publish_ne (h : (sub', file') ≠ (sub, file)) :
    (o.publish sub file entry).read sub' file' = o.read sub' file' := by
  unfold Store.read Store.publish
  by_cases hsub : sub' = sub
  · subst hsub
    have hfile : file' ≠ file := fun hfile => h (by rw [hfile])
    simp [AList.lookup_insert_ne hfile]
  · simp [Function.update_of_ne hsub]

/-- A manifest is the one just published, or it was there before. -/
theorem read_publish_eq_some {found : RegistryEntry}
    (h : (o.publish sub file entry).read sub' file' = some found) :
    sub' = sub ∧ file' = file ∧ found = entry ∨ o.read sub' file' = some found := by
  by_cases hsame : (sub', file') = (sub, file)
  · obtain ⟨rfl, rfl⟩ := Prod.mk.inj hsame
    rw [read_publish_self] at h
    exact .inl ⟨rfl, rfl, (Option.some.inj h).symm⟩
  · rw [read_publish_ne hsame] at h
    exact .inr h

theorem read_remove_self : (o.remove sub file).read sub file = none := by
  unfold Store.read Store.remove
  simp

theorem read_remove_ne (h : (sub', file') ≠ (sub, file)) :
    (o.remove sub file).read sub' file' = o.read sub' file' := by
  unfold Store.read Store.remove
  by_cases hsub : sub' = sub
  · subst hsub
    have hfile : file' ≠ file := fun hfile => h (by rw [hfile])
    simp [AList.lookup_erase_ne hfile]
  · simp [Function.update_of_ne hsub]

theorem manifests_remove_ne (h : sub' ≠ sub) :
    (o.remove sub file).manifests sub' = o.manifests sub' := Function.update_of_ne h ..

/-- A manifest that is left after a removal was there before, and is not the removed one. -/
theorem read_remove_eq_some {found : RegistryEntry}
    (h : (o.remove sub file).read sub' file' = some found) :
    (sub', file') ≠ (sub, file) ∧ o.read sub' file' = some found := by
  by_cases hsame : (sub', file') = (sub, file)
  · obtain ⟨rfl, rfl⟩ := Prod.mk.inj hsame
    rw [read_remove_self] at h
    exact absurd h (by simp)
  · rw [read_remove_ne hsame] at h
    exact ⟨hsame, h⟩

end Rules

/-- The segment of a stream and its manifest file go by the same characters. -/
theorem shm_name_eq_of_file_eq (run_id : String) {s t : Stream} (h : s.file = t.file) :
    s.shm_name run_id = t.shm_name run_id := by
  unfold Stream.file at h
  unfold Stream.shm_name shm_name_for
  rw [h]

theorem shm_name_inj {run_id : String} {s t : Stream} :
    s.shm_name run_id = t.shm_name run_id ↔ s.file = t.file := by
  constructor
  · intro h
    have hlist := congrArg String.toList h
    simp only [Stream.shm_name, shm_name_for, String.toList_append] at hlist
    exact String.toList_injective (List.append_cancel_left hlist)
  · exact shm_name_eq_of_file_eq run_id

/-- A safe first character stays. -/
theorem sanitize_head {name : String} {c : Char} (hname : name.toList.head? = some c)
    (hsafe : is_safe c = true) : (sanitize name).toList.head? = some c := by
  obtain ⟨cs, hcs⟩ := List.head?_eq_some_iff.1 hname
  unfold sanitize
  rw [String.toList_ofList, hcs, collapse, if_pos hsafe]
  rfl

end DualFlexivControl.Streams
