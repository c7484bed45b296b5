/-
The readers of the live viewers: `_sync_readers` of `viser/consumer.py` and
`plotly_dash/consumer.py`, and the streams that come and go under it.

A viewer keeps one reader for each stream and looks for changes once in a discovery period. It
replaces a reader when the entry of its stream names another segment. The name of a segment is a
function of the run and the stream, so within a run it never does: a stream that was removed and
published again between two passes keeps its old reader, and with it the old segment.

Segments are numbered in the order they were created. Which streams are live is decided by the
pass and given to it here, as long as they are published. A cached value carries the segment it
was read from.
-/
import Mathlib.Logic.Function.Basic
import DualFlexivControl.Lib.Runs
import DualFlexivControl.Streams.Registry

set_option autoImplicit false

namespace DualFlexivControl.Viewers

open Streams (RegistryEntry shm_name_for)

variable {α : Type}

/-! ## Streams -/

/-- The segments by name, how many there have been, which of them have been unlinked, and the
manifests of each run. -/
structure World where
  segments : String → Option ℕ
  created : ℕ
  unlinked : List ℕ
  manifests : String → String → Option RegistryEntry

namespace World

/-- The entry a stream is published with. -/
def entry_of (run_id name : String) : RegistryEntry := ⟨name, shm_name_for run_id name⟩

/-- `SharedMemory(create=True)`; a name that is taken is an error. -/
def create (w : World) (shm_name : String) : World :=
  match w.segments shm_name with
  | some _ => w
  | none => { w with
      segments := Function.update w.segments shm_name (some w.created)
      created := w.created + 1 }

/-- `SharedMemory.unlink` -/
def unlink (w : World) (shm_name : String) : World := { w with
  segments := Function.update w.segments shm_name none
  unlinked := (w.segments shm_name).toList ++ w.unlinked }

/-- `StreamRegistry.publish` (`some`) and `StreamRegistry.remove` (`none`). -/
def set_manifest (w : World) (run_id name : String) (entry : Option RegistryEntry) : World :=
  { w with
    manifests := Function.update w.manifests run_id
      (Function.update (w.manifests run_id) name entry) }

end World

/-! ## The viewer -/

/-- A `StreamReader`: its entry, and the segment it mapped. -/
structure Reader where
  entry : RegistryEntry
  segment : ℕ

/-- The viewer's dicts. The values of `last_seq` and `newest` carry the segment they are from. -/
structure Viewer (α : Type) where
  attached_run : Option String
  readers : String → Option Reader
  last_seq : String → Option (ℕ × ℕ)
  newest : String → Option (ℕ × α)

/-- What `_newest_live_run` returns: a run and its live entries. -/
abbrev Candidate := Option (String × (String → Option RegistryEntry))

namespace Viewer

/-- `_close_readers`, and every dict emptied. -/
def detached (attached_run : Option String) : Viewer α :=
  ⟨attached_run, fun _ => none, fun _ => none, fun _ => none⟩

/-- The reader of a stream stays: the entry still names the reader's segment. -/
def stays (v : Viewer α) (entries : String → Option RegistryEntry) (name : String) : Bool :=
  match v.readers name, entries name with
  | some reader, some entry => reader.entry.shm_name == entry.shm_name
  | _, _ => false

/-- `StreamReader.attach`, which `refused` makes raise for a reason of its own. -/
def attach (segments : String → Option ℕ) (refused : String → Bool) (entry : RegistryEntry) :
    Option Reader :=
  if refused entry.name then none
  else (segments entry.shm_name).map fun segment => ⟨entry, segment⟩

/-- `_sync_readers` -/
def sync_readers (segments : String → Option ℕ) (refused : String → Bool)
    (entries : String → Option RegistryEntry) (v : Viewer α) : Viewer α :=
  let pops (name : String) := (v.readers name).isSome && !v.stays entries name
  { v with
    readers := fun name =>
      if v.stays entries name then v.readers name
      else (entries name).bind (attach segments refused)
    last_seq := fun name => if pops name then none else v.last_seq name
    newest := fun name => if pops name then none else v.newest name }

/-- One discovery pass. -/
def discover (segments : String → Option ℕ) (refused : String → Bool) (candidate : Candidate)
    (v : Viewer α) : Viewer α :=
  match candidate with
  | none => detached none
  | some (run_id, entries) =>
    let v := if v.attached_run = some run_id then v else detached (some run_id)
    v.sync_readers segments refused entries

/-- What one `reader.latest()` comes to. -/
inductive Latest (α : Type)
  | raises
  | empty
  | samples (seq : ℕ) (value : α)

/-- One reader's turn in a tick. The Plotly viewer keeps no newest values. -/
def poll (keeps_newest : Bool) (name : String) (latest : Latest α) (v : Viewer α) : Viewer α :=
  match v.readers name with
  | none => v
  | some reader =>
    match latest with
    | .raises => { v with
        readers := Function.update v.readers name none
        last_seq := Function.update v.last_seq name none
        newest := Function.update v.newest name none }
    | .empty => v
    | .samples seq value =>
      if (v.last_seq name).map Prod.snd = some seq then v
      else { v with
        last_seq := Function.update v.last_seq name (some (reader.segment, seq))
        newest := if keeps_newest then
            Function.update v.newest name (some (reader.segment, value))
          else v.newest }

end Viewer

/-! ## Runs -/

/-- What happens to the streams and in the viewer. -/
inductive Event (α : Type)
  | create (run_id name : String)
  | publish (run_id name : String)
  | unlink (run_id name : String)
  | remove (run_id name : String)
  | poll (name : String) (latest : Viewer.Latest α)
  | discover (pass : Candidate × (String → Bool))

/-- The streams and the viewer. -/
structure State (α : Type) where
  world : World
  viewer : Viewer α

/-- No stream yet, and a viewer that has just started. -/
def State.init : State α := ⟨⟨fun _ => none, 0, [], fun _ _ => none⟩, Viewer.detached none⟩

/-- One event. -/
def step (keeps_newest : Bool) (s : State α) : Event α → State α
  | .create run_id name => { s with world := s.world.create (shm_name_for run_id name) }
  | .publish run_id name =>
    { s with world := s.world.set_manifest run_id name (some (World.entry_of run_id name)) }
  | .unlink run_id name => { s with world := s.world.unlink (shm_name_for run_id name) }
  | .remove run_id name => { s with world := s.world.set_manifest run_id name none }
  | .poll name latest => { s with viewer := s.viewer.poll keeps_newest name latest }
  | .discover pass =>
    { s with viewer := s.viewer.discover s.world.segments pass.2 pass.1 }

/-- A pass finds entries that are published. -/
def valid (s : State α) : Event α → Prop
  | .discover (some (run_id, entries), _) =>
    ∀ name entry, entries name = some entry → s.world.manifests run_id name = some entry
  | _ => True

/-! ## What holds in every state -/

section Invariant

variable {w : World} {s : State α}

/-- Segments are numbered as they come, and what has a name has not been unlinked. Entries name
the segment of their run and stream. -/
structure World.Sound (w : World) : Prop where
  created : ∀ shm_name segment, w.segments shm_name = some segment → segment < w.created
  distinct : ∀ shm_name shm_name' segment, w.segments shm_name = some segment →
    w.segments shm_name' = some segment → shm_name = shm_name'
  linked : ∀ shm_name segment, w.segments shm_name = some segment → segment ∉ w.unlinked
  numbered : ∀ segment ∈ w.unlinked, segment < w.created
  published : ∀ run_id name entry, w.manifests run_id name = some entry →
    entry = World.entry_of run_id name

/-- A reader's segment is linked or has been unlinked. -/
def Reader.Sound (w : World) (run_id name : String) (r : Reader) : Prop :=
  r.entry = World.entry_of run_id name ∧
    (w.segments r.entry.shm_name = some r.segment ∨ r.segment ∈ w.unlinked)

/-- Every cached value is from the segment of its stream's reader. -/
def OfReaders {β : Type} (readers : String → Option Reader) (cache : String → Option (ℕ × β)) :
    Prop :=
  ∀ name cached, cache name = some cached →
    ∃ reader, readers name = some reader ∧ reader.segment = cached.1

/-- The readers are of the attached run, and the cached values are the readers'. -/
structure Sound (s : State α) : Prop where
  world : s.world.Sound
  attached : ∀ name reader, s.viewer.readers name = some reader →
    ∃ run_id, s.viewer.attached_run = some run_id ∧ reader.Sound s.world run_id name
  last_seq : OfReaders s.viewer.readers s.viewer.last_seq
  newest : OfReaders s.viewer.readers s.viewer.newest

/-- Creating a segment leaves the names of the others. -/
theorem segments_create_ne {shm_name name : String} (hne : name ≠ shm_name) :
    (w.create shm_name).segments name = w.segments name := by
  unfold World.create
  split
  · rfl
  · exact Function.update_of_ne hne _ _

/-- A new segment has a new number, unless its name is taken, and then nothing is created. -/
theorem segments_create_self (w : World) (shm_name : String) :
    (w.create shm_name).segments shm_name = w.segments shm_name ∧ w.segments shm_name ≠ none ∧
        (w.create shm_name).created = w.created ∨
      w.segments shm_name = none ∧ (w.create shm_name).segments shm_name = some w.created ∧
        (w.create shm_name).created = w.created + 1 := by
  unfold World.create
  split
  · next segment hsegment =>
    left
    rw [hsegment]
    exact ⟨rfl, Option.some_ne_none segment, rfl⟩
  · next hnone =>
    right
    exact ⟨hnone, Function.update_self _ _ _, rfl⟩

/-- Creating a segment unlinks nothing. -/
theorem unlinked_create {shm_name : String} : (w.create shm_name).unlinked = w.unlinked := by
  unfold World.create
  split <;> rfl

/-- A segment is created before its manifest is published. -/
theorem manifests_create {shm_name : String} : (w.create shm_name).manifests = w.manifests := by
  unfold World.create
  split <;> rfl

/-- What is linked after a create was linked before, or is the new segment. -/
theorem of_segments_create {shm_name name : String} {segment : ℕ}
    (h : (w.create shm_name).segments name = some segment) :
    w.segments name = some segment ∨
      name = shm_name ∧ w.segments shm_name = none ∧ segment = w.created := by
  by_cases hname : name = shm_name
  · rw [hname] at h ⊢
    rcases segments_create_self w shm_name with hself | hself
    · left
      rw [← hself.1]
      exact h
    · right
      rw [hself.2.1, Option.some_inj] at h
      exact ⟨rfl, hself.1, h.symm⟩
  · left
    rw [← segments_create_ne hname]
    exact h

/-- The number of segments that there have been only grows. -/
theorem created_le_create {shm_name : String} : w.created ≤ (w.create shm_name).created := by
  rcases segments_create_self w shm_name with hself | hself <;> omega

/-- A new segment gets a new number, so what is known of the older ones is kept. -/
theorem World.Sound.create (h : w.Sound) (shm_name : String) : (w.create shm_name).Sound where
  created name segment hsegment := by
    rcases of_segments_create hsegment with hold | ⟨rfl, hnone, rfl⟩
    · exact Nat.lt_of_lt_of_le (h.created name segment hold) created_le_create
    · rcases segments_create_self w name with hself | hself
      · exact absurd hnone hself.2.1
      · omega
  distinct name name' segment hsegment hsegment' := by
    rcases of_segments_create hsegment with hold | ⟨rfl, _, rfl⟩
    · rcases of_segments_create hsegment' with hold' | ⟨rfl, _, rfl⟩
      · exact h.distinct name name' segment hold hold'
      · -- a new number is no old one
        exact absurd (h.created name _ hold) (Nat.lt_irrefl _)
    · rcases of_segments_create hsegment' with hold' | ⟨rfl, _, _⟩
      · exact absurd (h.created name' _ hold') (Nat.lt_irrefl _)
      · rfl
  linked name segment hsegment := by
    rw [unlinked_create]
    rcases of_segments_create hsegment with hold | ⟨_, _, rfl⟩
    · exact h.linked name segment hold
    · exact fun hunlinked => absurd (h.numbered _ hunlinked) (Nat.lt_irrefl _)
  numbered segment hunlinked := by
    rw [unlinked_create] at hunlinked
    exact Nat.lt_of_lt_of_le (h.numbered segment hunlinked) created_le_create
  published := by
    rw [manifests_create]
    exact h.published

/-- What is linked after an unlink was linked before, under another name. -/
theorem of_segments_unlink {shm_name name : String} {segment : ℕ}
    (h : (w.unlink shm_name).segments name = some segment) :
    name ≠ shm_name ∧ w.segments name = some segment := by
  unfold World.unlink at h
  dsimp only at h
  by_cases hname : name = shm_name
  · rw [hname, Function.update_self] at h
    exact nomatch h
  · rw [Function.update_of_ne hname] at h
    exact ⟨hname, h⟩

/-- An unlink adds the segment that the name had to those that are gone. -/
theorem mem_unlinked_unlink {shm_name : String} {segment : ℕ} :
    segment ∈ (w.unlink shm_name).unlinked ↔
      w.segments shm_name = some segment ∨ segment ∈ w.unlinked := by
  unfold World.unlink
  rw [List.mem_append, Option.mem_toList]

/-- An unlink moves a segment from the linked ones to those that are gone, and keeps the two apart.
-/
theorem World.Sound.unlink (h : w.Sound) (shm_name : String) : (w.unlink shm_name).Sound where
  created name segment hsegment := h.created name segment (of_segments_unlink hsegment).2
  distinct name name' segment hsegment hsegment' :=
    h.distinct name name' segment (of_segments_unlink hsegment).2 (of_segments_unlink hsegment').2
  linked name segment hsegment hunlinked := by
    obtain ⟨hne, hold⟩ := of_segments_unlink hsegment
    rcases mem_unlinked_unlink.1 hunlinked with hself | hearlier
    · -- the segment just unlinked had one name only
      exact hne (h.distinct name shm_name segment hold hself)
    · exact h.linked name segment hold hearlier
  numbered segment hunlinked := by
    rcases mem_unlinked_unlink.1 hunlinked with hself | hearlier
    · exact h.created shm_name segment hself
    · exact h.numbered segment hearlier
  published := h.published

/-- A manifest names the segment that belongs to its run and stream, whenever it is written. -/
theorem World.Sound.set_manifest (h : w.Sound) (run_id name : String)
    {entry : Option RegistryEntry}
    (hentry : ∀ e, entry = some e → e = World.entry_of run_id name) :
    (w.set_manifest run_id name entry).Sound where
  created := h.created
  distinct := h.distinct
  linked := h.linked
  numbered := h.numbered
  published run_id' name' e he := by
    unfold World.set_manifest at he
    dsimp only at he
    by_cases hrun : run_id' = run_id
    · rw [hrun, Function.update_self] at he
      by_cases hname : name' = name
      · rw [hname, Function.update_self] at he
        rw [hrun, hname]
        exact hentry e he
      · rw [Function.update_of_ne hname] at he
        rw [hrun]
        exact h.published run_id name' e he
    · rw [Function.update_of_ne hrun] at he
      exact h.published run_id' name' e he

/-! ### Readers -/

/-- A reader is sound whatever happens to the streams: the segment it maps stays linked or among the
unlinked. -/
theorem Reader.Sound.create {run_id name : String} {r : Reader} (h : r.Sound w run_id name)
    (shm_name : String) : r.Sound (w.create shm_name) run_id name := by
  refine ⟨h.1, ?_⟩
  rw [unlinked_create]
  rcases h.2 with hlinked | hunlinked
  · left
    by_cases hname : r.entry.shm_name = shm_name
    · rcases segments_create_self w shm_name with hself | hself
      · rw [hname, hself.1, ← hname]
        exact hlinked
      · -- the name was free, so no reader was on it
        rw [hname, hself.1] at hlinked
        exact nomatch hlinked
    · rw [segments_create_ne hname]
      exact hlinked
  · exact Or.inr hunlinked

/-- A reader keeps its mapping when the name is unlinked; its segment is then among those that are
gone. -/
theorem Reader.Sound.unlink {run_id name : String} {r : Reader} (h : r.Sound w run_id name)
    (shm_name : String) : r.Sound (w.unlink shm_name) run_id name := by
  refine ⟨h.1, ?_⟩
  rcases h.2 with hlinked | hunlinked
  · by_cases hname : r.entry.shm_name = shm_name
    · right
      -- the reader's own segment goes: it is now among the unlinked ones
      rw [mem_unlinked_unlink, ← hname]
      exact Or.inl hlinked
    · left
      unfold World.unlink
      rw [← hlinked]
      exact Function.update_of_ne hname _ _
  · exact Or.inr (mem_unlinked_unlink.2 (Or.inr hunlinked))

/-! ### One pass -/

variable {v : Viewer α} {entries : String → Option RegistryEntry} {refused : String → Bool}
  {segments : String → Option ℕ} {name : String}

/-- A reader stays exactly when its stream is still live under an entry with the same segment name.
-/
theorem stays_iff : v.stays entries name = true ↔ ∃ reader entry, v.readers name = some reader ∧
    entries name = some entry ∧ reader.entry.shm_name = entry.shm_name := by
  unfold Viewer.stays
  split
  · next reader entry hreader hentry =>
    rw [hreader, hentry, beq_iff_eq]
    constructor
    · intro heq
      exact ⟨reader, entry, rfl, rfl, heq⟩
    · rintro ⟨reader', entry', hreader', hentry', heq⟩
      rw [Option.some.inj hreader', Option.some.inj hentry']
      exact heq
  · next hnot =>
    constructor
    · intro h
      exact nomatch h
    · rintro ⟨reader, entry, hreader, hentry, _⟩
      exact (hnot reader entry hreader hentry).elim

/-- A reader after a pass was there before, under an entry that still names its segment, or has
just been attached to what its entry names. -/
theorem reader_of_sync {reader : Reader}
    (h : (v.sync_readers segments refused entries).readers name = some reader) :
    v.stays entries name = true ∧ v.readers name = some reader ∨
      ∃ entry, entries name = some entry ∧ reader.entry = entry ∧
        segments entry.shm_name = some reader.segment := by
  unfold Viewer.sync_readers at h
  dsimp only at h
  by_cases hstays : v.stays entries name = true
  · rw [if_pos hstays] at h
    exact Or.inl ⟨hstays, h⟩
  · rw [if_neg hstays] at h
    obtain ⟨entry, hentry, hattach⟩ := Option.bind_eq_some_iff.1 h
    unfold Viewer.attach at hattach
    by_cases hrefused : refused entry.name = true
    · rw [if_pos hrefused] at hattach
      exact nomatch hattach
    · rw [if_neg hrefused] at hattach
      obtain ⟨segment, hsegment, rfl⟩ := Option.map_eq_some_iff.1 hattach
      exact Or.inr ⟨entry, hentry, rfl, hsegment⟩

/-- A reader that stays is not touched by the pass. -/
theorem readers_sync_of_stays (hstays : v.stays entries name = true) :
    (v.sync_readers segments refused entries).readers name = v.readers name := if_pos hstays

/-- What is popped with its reader leaves the values of the readers that stay. -/
theorem OfReaders.sync {β : Type} {cache : String → Option (ℕ × β)}
    (h : OfReaders v.readers cache) :
    OfReaders (v.sync_readers segments refused entries).readers
      (fun name => if (v.readers name).isSome && !v.stays entries name then none
        else cache name) := by
  intro name cached hcached
  dsimp only at hcached
  by_cases hpops : ((v.readers name).isSome && !v.stays entries name) = true
  · rw [if_pos hpops] at hcached
    exact nomatch hcached
  rw [if_neg hpops] at hcached
  obtain ⟨reader, hreader, hsegment⟩ := h name cached hcached
  have hstays : v.stays entries name = true := by
    -- a reader that goes takes its cached value with it
    by_contra hgone
    apply hpops
    rw [hreader, Bool.eq_false_iff.2 hgone]
    rfl
  refine ⟨reader, ?_, hsegment⟩
  rw [readers_sync_of_stays hstays]
  exact hreader

/-- A value that goes with its reader leaves no other value without one. -/
theorem OfReaders.drop {β : Type} {readers : String → Option Reader}
    {cache : String → Option (ℕ × β)} (h : OfReaders readers cache) (name : String) :
    OfReaders (Function.update readers name none) (Function.update cache name none) := by
  intro name' cached hcached
  by_cases hname : name' = name
  · rw [hname, Function.update_self] at hcached
    exact nomatch hcached
  · rw [Function.update_of_ne hname] at hcached ⊢
    exact h name' cached hcached

/-- A value that is read by a stream's reader is cached with that reader's segment. -/
theorem OfReaders.update {β : Type} {readers : String → Option Reader}
    {cache : String → Option (ℕ × β)} (h : OfReaders readers cache) {name : String}
    {reader : Reader} (hreader : readers name = some reader) (value : β) :
    OfReaders readers (Function.update cache name (some (reader.segment, value))) := by
  intro name' cached hcached
  by_cases hname : name' = name
  · rw [hname, Function.update_self, Option.some_inj] at hcached
    rw [hname, ← hcached]
    exact ⟨reader, hreader, rfl⟩
  · rw [Function.update_of_ne hname] at hcached
    exact h name' cached hcached

/-- A viewer that is attached to no run has neither readers nor values. -/
theorem Sound.detached {w : World} (h : w.Sound) (attached_run : Option String) :
    Sound (⟨w, Viewer.detached attached_run⟩ : State α) where
  world := h
  attached _ _ hreader := nomatch hreader
  last_seq _ _ hcached := nomatch hcached
  newest _ _ hcached := nomatch hcached

/-- A pass over the attached run keeps the invariant: readers are attached to entries that are
published, and values leave with their readers. -/
theorem Sound.sync (h : Sound (⟨w, v⟩ : State α)) {run_id : String}
    (hrun : v.attached_run = some run_id)
    (hentries : ∀ name entry, entries name = some entry → w.manifests run_id name = some entry) :
    Sound (⟨w, v.sync_readers w.segments refused entries⟩ : State α) where
  world := h.world
  attached name reader hreader := by
    refine ⟨run_id, hrun, ?_⟩
    rcases reader_of_sync hreader with ⟨_, hold⟩ | ⟨entry, hentry, heq, hsegment⟩
    · obtain ⟨run_id', hrun', hsound⟩ := h.attached name reader hold
      have hruns : run_id = run_id' := Option.some.inj (hrun.symm.trans hrun')
      rw [hruns]
      exact hsound
    · -- attached just now: its segment was linked under the published name
      have hpublished := h.world.published run_id name entry (hentries name entry hentry)
      refine ⟨heq.trans hpublished, Or.inl ?_⟩
      rw [heq]
      exact hsegment
  last_seq := h.last_seq.sync
  newest := h.newest.sync

/-- The viewer a pass syncs: the one there is, or an emptied one for another run. -/
theorem Sound.reattach (h : Sound (⟨w, v⟩ : State α)) (run_id : String) :
    Sound (⟨w, if v.attached_run = some run_id then v else Viewer.detached (some run_id)⟩ :
        State α) ∧
      (if v.attached_run = some run_id then v else
        Viewer.detached (some run_id)).attached_run = some run_id := by
  by_cases hrun : v.attached_run = some run_id
  · rw [if_pos hrun]
    exact ⟨h, hrun⟩
  · rw [if_neg hrun]
    exact ⟨Sound.detached h.world _, rfl⟩

/-- A reader's turn keeps the invariant: a value is cached with the reader's own segment. -/
theorem Sound.poll (h : Sound (⟨w, v⟩ : State α)) (keeps_newest : Bool) (name : String)
    (latest : Viewer.Latest α) : Sound (⟨w, v.poll keeps_newest name latest⟩ : State α) := by
  unfold Viewer.poll
  rcases hreader : v.readers name with _ | reader
  · exact h
  rcases latest with _ | _ | ⟨seq, value⟩
  · -- the reader is lost, and what was cached of it
    refine ⟨h.world, ?_, h.last_seq.drop name, h.newest.drop name⟩
    intro name' reader' hreader'
    dsimp only at hreader'
    by_cases hname : name' = name
    · rw [hname, Function.update_self] at hreader'
      exact nomatch hreader'
    · rw [Function.update_of_ne hname] at hreader'
      exact h.attached name' reader' hreader'
  · exact h
  · dsimp only
    by_cases hseen : (v.last_seq name).map Prod.snd = some seq
    · rw [if_pos hseen]
      exact h
    rw [if_neg hseen]
    refine ⟨h.world, h.attached, h.last_seq.update hreader seq, ?_⟩
    -- the newest value is kept by one of the two viewers only
    by_cases hkeeps : keeps_newest = true
    · rw [if_pos hkeeps]
      exact h.newest.update hreader value
    · rw [if_neg hkeeps]
      exact h.newest

/-- A change of the streams that keeps every reader sound keeps the viewer sound, as it touches
nothing of it. -/
theorem Sound.world_step {w' : World} (h : Sound (⟨w, v⟩ : State α)) (hworld : w'.Sound)
    (hreaders : ∀ run_id name (reader : Reader), reader.Sound w run_id name →
      reader.Sound w' run_id name) :
    Sound (⟨w', v⟩ : State α) where
  world := hworld
  attached name reader hreader := by
    obtain ⟨run_id, hrun, hsound⟩ := h.attached name reader hreader
    exact ⟨run_id, hrun, hreaders run_id name reader hsound⟩
  last_seq := h.last_seq
  newest := h.newest

/-- Every event keeps the invariant, those of the streams by the readers' soundness and those of the
viewer by what they cache. -/
theorem Sound.step {s : State α} (h : Sound s) (keeps_newest : Bool) {e : Event α}
    (hvalid : valid s e) : Sound (step keeps_newest s e) := by
  rcases e with ⟨run_id, name⟩ | ⟨run_id, name⟩ | ⟨run_id, name⟩ | ⟨run_id, name⟩ |
    ⟨name, latest⟩ | ⟨candidate, refused⟩
  · exact h.world_step (h.world.create _) fun _ _ _ hreader => hreader.create _
  · apply h.world_step (h.world.set_manifest run_id name fun e he => (Option.some.inj he).symm)
    exact fun _ _ _ hreader => hreader
  · exact h.world_step (h.world.unlink _) fun _ _ _ hreader => hreader.unlink _
  · have hnone : ∀ e, (none : Option RegistryEntry) = some e → e = World.entry_of run_id name :=
      fun e he => nomatch he
    apply h.world_step (h.world.set_manifest run_id name hnone)
    exact fun _ _ _ hreader => hreader
  · -- a reader takes its turn
    exact h.poll keeps_newest name latest
  · rcases candidate with _ | ⟨run_id, entries⟩
    · -- no run to view: the viewer drops all it has
      exact Sound.detached h.world none
    · obtain ⟨hsound, hrun⟩ := h.reattach run_id
      exact hsound.sync hrun hvalid

/-- Before the first segment there is nothing that could be wrong. -/
theorem World.Sound.none_yet : World.Sound ⟨fun _ => none, 0, [], fun _ _ => none⟩ where
  created _ _ h := nomatch h
  distinct _ _ _ h := nomatch h
  linked _ _ h := nomatch h
  numbered _ h := absurd h List.not_mem_nil
  published _ _ _ h := nomatch h

/-- So a session starts out sound, the viewer without readers. -/
theorem sound_init : Sound (State.init : State α) := Sound.detached World.Sound.none_yet none

end Invariant

/-! ## When the readers track the streams -/

/-- Every reader maps the segment that is published under its name, and nothing is cached of
another. -/
structure Tracks (s : State α) : Prop where
  readers : ∀ name reader, s.viewer.readers name = some reader →
    ∃ run_id entry, s.viewer.attached_run = some run_id ∧
      s.world.manifests run_id name = some entry ∧
      s.world.segments entry.shm_name = some reader.segment
  last_seq : OfReaders s.viewer.readers s.viewer.last_seq
  newest : OfReaders s.viewer.readers s.viewer.newest

/-- A pass keeps the reader: it is over the attached run, and the stream is in it. -/
def Keeps (s : State α) (candidate : Candidate) (name : String) (reader : Reader) : Prop :=
  ∃ run_id entries entry, candidate = some (run_id, entries) ∧
    s.viewer.attached_run = some run_id ∧ s.viewer.readers name = some reader ∧
    entries name = some entry

/-- None of the readers that a pass keeps is on a segment that has been unlinked. -/
def NoneReplaced (s : State α) (candidate : Candidate) : Prop :=
  ∀ name reader, Keeps s candidate name reader → reader.segment ∉ s.world.unlinked

section Pass

variable {s : State α} {keeps_newest : Bool} {candidate : Candidate} {refused : String → Bool}

/-- After a pass the readers are the kept ones and the ones just attached. -/
theorem tracks_iff (h : Sound s) (hvalid : valid s (.discover (candidate, refused))) :
    Tracks (step keeps_newest s (.discover (candidate, refused))) ↔ NoneReplaced s candidate := by
  have hafter := h.step keeps_newest hvalid
  constructor
  · -- a kept reader that tracks is on a linked segment, so on none that was unlinked
    rintro htracks name reader ⟨run_id, entries, entry, rfl, hrun, hreader, hentry⟩
    obtain ⟨run_id', hrun', hsound⟩ := h.attached name reader hreader
    have hruns : run_id = run_id' := Option.some.inj (hrun.symm.trans hrun')
    have hpublished := h.world.published run_id name entry (hvalid name entry hentry)
    -- names are equal for equal streams: the comparison keeps the reader
    have hstays : s.viewer.stays entries name = true := by
      apply stays_iff.2
      refine ⟨reader, entry, hreader, hentry, ?_⟩
      rw [hsound.1, hpublished, hruns]
    have hkept : (step keeps_newest s (.discover (some (run_id, entries), refused))).viewer.readers
        name = some reader := by
      show (Viewer.sync_readers _ _ _ (if _ then _ else _)).readers name = _
      rw [if_pos hrun, readers_sync_of_stays hstays]
      exact hreader
    obtain ⟨_, entry', _, _, hsegment⟩ := htracks.readers name reader hkept
    exact h.world.linked entry'.shm_name reader.segment hsegment
  · intro hnone
    refine ⟨?_, hafter.last_seq, hafter.newest⟩
    intro name reader hreader
    rcases candidate with _ | ⟨run_id, entries⟩
    · exact nomatch hreader
    obtain ⟨hsound, hrun⟩ := h.reattach run_id
    have hentries : ∀ name entry, entries name = some entry →
        s.world.manifests run_id name = some entry := hvalid
    refine ⟨run_id, World.entry_of run_id name, hrun, ?_⟩
    rcases reader_of_sync hreader with ⟨hstays, hold⟩ | ⟨entry, hentry, heq, hsegment⟩
    · -- kept: linked or unlinked, and the second is excluded
      obtain ⟨_, entry, _, hentry, _⟩ := stays_iff.1 hstays
      have hmanifest := hentries name entry hentry
      have hpublished := h.world.published run_id name entry hmanifest
      by_cases hattached : s.viewer.attached_run = some run_id
      · rw [if_pos hattached] at hold
        obtain ⟨run_id', hrun', hentry', hlinked⟩ := h.attached name reader hold
        have hruns : run_id = run_id' := Option.some.inj (hattached.symm.trans hrun')
        have hkept : Keeps s (some (run_id, entries)) name reader :=
          ⟨run_id, entries, entry, rfl, hattached, hold, hentry⟩
        rw [hentry', ← hruns] at hlinked
        rw [hpublished] at hmanifest
        exact ⟨hmanifest, hlinked.resolve_right (hnone name reader hkept)⟩
      · -- a viewer of another run was emptied first
        rw [if_neg hattached] at hold
        exact nomatch hold
    · -- attached in this pass
      have hmanifest := hentries name entry hentry
      have hpublished := h.world.published run_id name entry hmanifest
      rw [hpublished] at hmanifest hsegment
      exact ⟨hmanifest, hsegment⟩

end Pass

/-- **Which passes leave the readers on the published segments.** In every run of the streams and
the viewer: those before which no kept reader's segment was unlinked. -/
theorem readers_track_iff (keeps_newest : Bool) (events : List (Event α))
    (hvalid : Runs.Valid (step keeps_newest) valid State.init events) :
    Runs.Each (step keeps_newest) Event.discover State.init events
        (fun s pass => Tracks (step keeps_newest s (.discover pass))) ↔
      Runs.Each (step keeps_newest) Event.discover State.init events
        (fun s pass => NoneReplaced s pass.1) := by
  have hstep : ∀ (s : State α) (e : Event α), valid s e → Sound s →
      Sound (step keeps_newest s e) := fun s e he h => h.step keeps_newest he
  have hiff : ∀ (s : State α) (pass : Candidate × (String → Bool)), valid s (.discover pass) →
      Sound s → (Tracks (step keeps_newest s (.discover pass)) ↔ NoneReplaced s pass.1) :=
    fun s pass hpass h => tracks_iff h hpass
  exact Runs.each_iff hstep hiff sound_init hvalid

/-! ### A restart between two passes -/

/-- The stream `left/q` of the run `r`. -/
def left_q : Candidate := some ("r", fun name =>
  if name = "left/q" then some (World.entry_of "r" "left/q") else none)

/-- The stream is published and found, and its producer comes back before the next pass. -/
def restart : List (Event ℕ) :=
  [.create "r" "left/q", .publish "r" "left/q", .discover (left_q, fun _ => false),
    .unlink "r" "left/q", .remove "r" "left/q", .create "r" "left/q", .publish "r" "left/q",
    .discover (left_q, fun _ => false)]

/-- The pass of the example finds an entry that is published, as a pass of the code always does. -/
theorem left_q_valid {s : State ℕ} {refused : String → Bool}
    (h : s.world.manifests "r" "left/q" = some (World.entry_of "r" "left/q")) :
    valid s (.discover (left_q, refused)) := by
  intro name entry hentry
  dsimp only at hentry
  by_cases hname : name = "left/q"
  · rw [if_pos hname, Option.some_inj] at hentry
    rw [hname, ← hentry]
    exact h
  · rw [if_neg hname] at hentry
    exact nomatch hentry

/-- The example is a run: each of its passes finds what is published at the time. -/
theorem restart_valid : Runs.Valid (step true) valid State.init restart :=
  ⟨trivial, trivial, left_q_valid rfl, trivial, trivial, trivial, trivial, left_q_valid rfl,
    trivial⟩

/-- The general equivalence at the run of the example, in which the stream comes back between two
passes. -/
theorem readers_track_iff_restart :
    Runs.Each (step true) Event.discover State.init restart
        (fun s pass => Tracks (step true s (.discover pass))) ↔
      Runs.Each (step true) Event.discover State.init restart
        (fun s pass => NoneReplaced s pass.1) :=
  readers_track_iff true restart restart_valid

/-- After the second pass the reader is on the segment that is gone. -/
theorem restart_keeps_stale_reader :
    (Runs.run (step true) State.init restart).world.segments (shm_name_for "r" "left/q") =
        some 1 ∧
      ((Runs.run (step true) State.init restart).viewer.readers "left/q").map Reader.segment =
        some 0 ∧
      ¬ Runs.Each (step true) Event.discover State.init restart
        (fun s pass => Tracks (step true s (.discover pass))) := by
  have hsegment : (Runs.run (step true) State.init restart).world.segments
      (shm_name_for "r" "left/q") = some 1 := rfl
  have hreader : ((Runs.run (step true) State.init restart).viewer.readers "left/q").map
      Reader.segment = some 0 := rfl
  refine ⟨hsegment, hreader, fun htracks => ?_⟩
  obtain ⟨reader, hreads, hstale⟩ := Option.map_eq_some_iff.1 hreader
  have hlast := htracks (restart.take 7) (left_q, fun _ => false) [] rfl
  obtain ⟨run_id, entry, hrun, hmanifest, hcurrent⟩ := hlast.readers "left/q" reader hreads
  have hr : "r" = run_id := Option.some.inj hrun
  subst hr
  have hentry : World.entry_of "r" "left/q" = entry := Option.some.inj hmanifest
  subst hentry
  have hone : 1 = reader.segment := Option.some.inj hcurrent
  omega


end DualFlexivControl.Viewers
