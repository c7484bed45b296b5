/-
Names as the only handle on a stream: what the nodes of a run and their supervisor do to each
other's segments and manifests.

A node creates its streams one by one and takes down those it has created. It can die at any
point, and before it is started again the supervisor sweeps everything it declares, by name
(`_sweep_node_streams`, and `cleanup_sub` for a consumer). Whose segment the name stands for is
not looked at. So the nodes leave each other alone as long as no two of their streams share a
name, and that is a matter of what the rig calls its parts ([`Clear`]).
-/
import DualFlexivControl.Lib.Runs
import DualFlexivControl.Streams.Declared

set_option autoImplicit false

namespace DualFlexivControl.Streams.Sweep

/-! ## Nodes, segments and manifests -/

/-- Which nodes run and what each has created since it was started, and for every segment and
every manifest who created it last. -/
structure World where
  alive : Node → Bool
  writers : Node → List StreamId
  segments : String → Option Node
  manifests : Sub → String → Option Node

/-- Before the first node is started. -/
def World.empty : World := ⟨fun _ => false, fun _ => [], fun _ => none, fun _ _ => none⟩

/-- What happens to a node, what it does to a stream, and what its supervisor does once it is
dead. -/
inductive Act
  | spawn (node : Node)
  | die (node : Node)
  | create (node : Node) (id : StreamId)
  | publish (node : Node) (id : StreamId)
  | unlink (node : Node) (id : StreamId)
  | remove (node : Node) (id : StreamId)
  | sweep_segment (node : Node) (id : StreamId)
  | sweep_manifest (node : Node) (id : StreamId)
  deriving DecidableEq, Repr

/-- The node it is about. -/
def Act.node : Act → Node
  | .spawn node => node
  | .die node => node
  | .create node _ => node
  | .publish node _ => node
  | .unlink node _ => node
  | .remove node _ => node
  | .sweep_segment node _ => node
  | .sweep_manifest node _ => node

section Steps

variable (rig : Rig) (phase : Phase) (run_id : String)

/-- `node.declare_streams()` -/
def declared (node : Node) : List StreamId := ((rig.units phase).lookup node).getD []

/-- `StreamWriter.create` raises where the segment exists; a node publishes, unlinks and removes
what is among its writers, and the supervisor sweeps what a dead node declares. -/
def allowed (w : World) : Act → Prop
  | .spawn node => w.alive node = false
  | .die node => w.alive node = true
  | .create node id => w.alive node = true ∧ id ∈ declared rig phase node ∧
      w.segments (id.stream.shm_name run_id) = none
  | .publish node id => w.alive node = true ∧ id ∈ w.writers node
  | .unlink node id => w.alive node = true ∧ id ∈ w.writers node
  | .remove node id => w.alive node = true ∧ id ∈ w.writers node
  | .sweep_segment node id => w.alive node = false ∧ id ∈ declared rig phase node
  | .sweep_manifest node id => w.alive node = false ∧ id ∈ declared rig phase node

/-- A segment comes to be a node's, or goes. -/
def World.put_segment (w : World) (name : String) (owner : Option Node) : World :=
  { w with segments := Function.update w.segments name owner }

/-- The same for a manifest. -/
def World.put_manifest (w : World) (sub : Sub) (file : String) (owner : Option Node) : World :=
  { w with
    manifests := Function.update w.manifests sub
      (Function.update (w.manifests sub) file owner) }

/-- One step. -/
def World.step (w : World) : Act → World
  | .spawn node => { w with
      alive := Function.update w.alive node true
      writers := Function.update w.writers node [] }
  | .die node => { w with alive := Function.update w.alive node false }
  | .create node id => { w with
      writers := Function.update w.writers node (w.writers node ++ [id])
      segments := Function.update w.segments (id.stream.shm_name run_id) (some node) }
  | .publish node id => w.put_manifest id.sub id.stream.file (some node)
  | .unlink _ id => w.put_segment (id.stream.shm_name run_id) none
  | .remove _ id => w.put_manifest id.sub id.stream.file none
  | .sweep_segment _ id => w.put_segment (id.stream.shm_name run_id) none
  | .sweep_manifest _ id => w.put_manifest id.sub id.stream.file none

/-- The step takes nothing away that another living node owns. -/
structure Spares (node : Node) (w w' : World) : Prop where
  segments : ∀ owner name, owner ≠ node → w.alive owner = true →
    w.segments name = some owner → w'.segments name = some owner
  manifests : ∀ owner sub file, owner ≠ node → w.alive owner = true →
    w.manifests sub file = some owner → w'.manifests sub file = some owner

/-- Whatever has an owner goes by the name of a stream that its owner declares. -/
structure Named (w : World) : Prop where
  writers : ∀ node, ∀ id ∈ w.writers node, id ∈ declared rig phase node
  segments : ∀ owner name, w.segments name = some owner →
    ∃ id ∈ declared rig phase owner, id.stream.shm_name run_id = name
  manifests : ∀ owner sub file, w.manifests sub file = some owner →
    ∃ id ∈ declared rig phase owner, id.sub = sub ∧ id.stream.file = file

end Steps

/-! ## What one step does -/

section Step

variable {rig : Rig} {phase : Phase} {run_id : String} {w : World}

/-- A node's streams are streams of the run, and no other node's. -/
theorem origin_of_declared {node : Node} {id : StreamId} (h : id ∈ declared rig phase node) :
    Origin rig phase id ∧ id.node = node := by
  unfold declared at h
  cases hfound : (rig.units phase).lookup node with
  | none =>
    rw [hfound] at h
    exact absurd h List.not_mem_nil
  | some ids =>
    rw [hfound] at h
    obtain ⟨front, back, hunits, _⟩ := List.lookup_eq_some_iff.1 hfound
    have hunit : (node, ids) ∈ rig.units phase := by
      rw [hunits]
      exact List.mem_append_right _ List.mem_cons_self
    exact ⟨origin_iff.1 (List.mem_flatMap.2 ⟨_, hunit, h⟩), node_of_unit hunit h⟩

/-- With names that survive the sanitizer, streams of two nodes have different files. -/
theorem file_ne_of_declared (hclear : Clear rig phase) {node other : Node} {id id' : StreamId}
    (hid : id ∈ declared rig phase node) (hid' : id' ∈ declared rig phase other)
    (hne : other ≠ node) : id'.stream.file ≠ id.stream.file := by
  intro hfile
  obtain ⟨horigin, hnode⟩ := origin_of_declared hid
  obtain ⟨horigin', hnode'⟩ := origin_of_declared hid'
  have heq := hclear.token_inj horigin' horigin hfile
  -- one stream has one node
  rw [heq, hnode] at hnode'
  exact hne hnode'.symm

/-- A segment after one was put somewhere. -/
theorem segments_put {name name' : String} {owner : Option Node} :
    (w.put_segment name owner).segments name' =
      if name' = name then owner else w.segments name' := by
  unfold World.put_segment
  exact Function.update_apply ..

theorem manifests_put {sub sub' : Sub} {file file' : String} {owner : Option Node} :
    (w.put_manifest sub file owner).manifests sub' file' =
      if sub' = sub ∧ file' = file then owner else w.manifests sub' file' := by
  unfold World.put_manifest
  dsimp only
  by_cases hsub : sub' = sub
  · subst hsub
    rw [Function.update_self, Function.update_apply]
    by_cases hfile : file' = file
    · rw [if_pos hfile, if_pos ⟨rfl, hfile⟩]
    · rw [if_neg hfile, if_neg fun h => hfile h.2]
  · rw [Function.update_of_ne hsub, if_neg fun h => hsub h.1]

theorem Named.put_segment (h : Named rig phase run_id w) {name : String} {owner : Option Node}
    (howner : ∀ node, owner = some node →
      ∃ id ∈ declared rig phase node, id.stream.shm_name run_id = name) :
    Named rig phase run_id (w.put_segment name owner) := by
  refine ⟨h.writers, ?_, h.manifests⟩
  intro node name' hsegment
  rw [segments_put] at hsegment
  by_cases hname : name' = name
  · rw [if_pos hname] at hsegment
    rw [hname]
    exact howner node hsegment
  · rw [if_neg hname] at hsegment
    exact h.segments node name' hsegment

theorem Named.put_manifest (h : Named rig phase run_id w) {sub : Sub} {file : String}
    {owner : Option Node} (howner : ∀ node, owner = some node →
      ∃ id ∈ declared rig phase node, id.sub = sub ∧ id.stream.file = file) :
    Named rig phase run_id (w.put_manifest sub file owner) := by
  refine ⟨h.writers, h.segments, ?_⟩
  intro node sub' file' hmanifest
  rw [manifests_put] at hmanifest
  by_cases hsame : sub' = sub ∧ file' = file
  · rw [if_pos hsame] at hmanifest
    rw [hsame.1, hsame.2]
    exact howner node hmanifest
  · rw [if_neg hsame] at hmanifest
    exact h.manifests node sub' file' hmanifest

/-- The writers of a node after they changed are still ones that the node has declared. -/
theorem Named.put_writers (h : Named rig phase run_id w) {node : Node} {ids : List StreamId}
    (hids : ∀ id ∈ ids, id ∈ declared rig phase node) {alive : Node → Bool} :
    Named rig phase run_id { w with
      alive := alive
      writers := Function.update w.writers node ids } := by
  refine ⟨?_, h.segments, h.manifests⟩
  intro node' id hid
  dsimp only at hid
  by_cases hnode : node' = node
  · subst hnode
    rw [Function.update_self] at hid
    exact hids id hid
  · rw [Function.update_of_ne hnode] at hid
    exact h.writers node' id hid

/-- The step lemma of the invariant: whatever a node does, segments and manifests are named after
streams of the run. -/
theorem Named.step (act : Act) (hallowed : allowed rig phase run_id w act)
    (h : Named rig phase run_id w) : Named rig phase run_id (w.step run_id act) := by
  cases act with
  -- the writers of an earlier life are gone with it, what it had created is not
  | spawn node => exact h.put_writers fun id hid => absurd hid List.not_mem_nil
  | die node => exact ⟨h.writers, h.segments, h.manifests⟩
  | create node id =>
    have hwriters : ∀ id' ∈ w.writers node ++ [id], id' ∈ declared rig phase node := by
      intro id' hid'
      rcases List.mem_append.1 hid' with hid' | hid'
      · exact h.writers node id' hid'
      · rw [List.mem_singleton.1 hid']
        exact hallowed.2.1
    apply (h.put_writers hwriters).put_segment
    intro node' hnode'
    rw [← Option.some.inj hnode']
    exact ⟨id, hallowed.2.1, rfl⟩
  | publish node id =>
    -- a writer is declared, so its manifest is filed under a declared name
    apply h.put_manifest
    intro node' hnode'
    rw [← Option.some.inj hnode']
    exact ⟨id, h.writers node id hallowed.2, rfl, rfl⟩
  | unlink node id => exact h.put_segment fun _ hnone => nomatch hnone
  | remove node id => exact h.put_manifest fun _ hnone => nomatch hnone
  | sweep_segment node id => exact h.put_segment fun _ hnone => nomatch hnone
  | sweep_manifest node id => exact h.put_manifest fun _ hnone => nomatch hnone

/-- With names that survive the sanitizer, putting a segment under the name of a node's stream
touches nobody else's. -/
theorem spares_put_segment (hclear : Clear rig phase) (h : Named rig phase run_id w) {node : Node}
    {id : StreamId} (hid : id ∈ declared rig phase node) (owner : Option Node) :
    Spares node w (w.put_segment (id.stream.shm_name run_id) owner) := by
  refine ⟨?_, fun _ _ _ _ _ hmanifest => hmanifest⟩
  intro other name hne _ hsegment
  have hname : name ≠ id.stream.shm_name run_id := by
    rintro rfl
    -- the other node declares a stream of that name too
    obtain ⟨id', hid', hsame⟩ := h.segments other _ hsegment
    have hfile : id'.stream.file = id.stream.file := shm_name_inj.1 hsame
    exact file_ne_of_declared hclear hid hid' hne hfile
  rw [segments_put, if_neg hname]
  exact hsegment

theorem spares_put_manifest (hclear : Clear rig phase) (h : Named rig phase run_id w) {node : Node}
    {id : StreamId} (hid : id ∈ declared rig phase node) (owner : Option Node) :
    Spares node w (w.put_manifest id.sub id.stream.file owner) := by
  refine ⟨fun _ _ _ _ hsegment => hsegment, ?_⟩
  intro other sub file hne _ hmanifest
  have hfile : ¬ (sub = id.sub ∧ file = id.stream.file) := by
    rintro ⟨rfl, rfl⟩
    obtain ⟨id', hid', _, hsame⟩ := h.manifests other _ _ hmanifest
    exact file_ne_of_declared hclear hid hid' hne hsame
  rw [manifests_put, if_neg hfile]
  exact hmanifest

/-- No step takes anything away from another living node, where the rig's names survive the
sanitizer. -/
theorem spares_step (hclear : Clear rig phase) (h : Named rig phase run_id w) (act : Act)
    (hallowed : allowed rig phase run_id w act) : Spares act.node w (w.step run_id act) := by
  cases act with
  | spawn node => exact ⟨fun _ _ _ _ hkept => hkept, fun _ _ _ _ _ hkept => hkept⟩
  | die node => exact ⟨fun _ _ _ _ hkept => hkept, fun _ _ _ _ _ hkept => hkept⟩
  | create node id =>
    -- the segment is put as for a sweep; the writers are the node's own
    have hput := spares_put_segment hclear h hallowed.2.1 (some node)
    exact ⟨hput.segments, fun _ _ _ _ _ hkept => hkept⟩
  | publish node id => exact spares_put_manifest hclear h (h.writers node id hallowed.2) (some node)
  | unlink node id => exact spares_put_segment hclear h (h.writers node id hallowed.2) none
  | remove node id => exact spares_put_manifest hclear h (h.writers node id hallowed.2) none
  | sweep_segment node id => exact spares_put_segment hclear h hallowed.2 none
  | sweep_manifest node id => exact spares_put_manifest hclear h hallowed.2 none

end Step

/-! ## Whole runs -/

/-- The names of a run's streams differ, and in no run of its nodes does a step of one node, or
the sweep of a dead one, take away what another living node owns. -/
def NeverCollide (rig : Rig) (phase : Phase) (run_id : String) : Prop :=
  Distinct rig phase run_id ∧ ∀ acts : List Act,
    Runs.Valid (World.step run_id) (allowed rig phase run_id) World.empty acts →
      Runs.Each (World.step run_id) id World.empty acts fun w act =>
        Spares act.node w (w.step run_id act)

theorem named_empty (rig : Rig) (phase : Phase) (run_id : String) :
    Named rig phase run_id World.empty :=
  ⟨fun _ _ hid => absurd hid List.not_mem_nil,
    fun _ _ hnone => absurd hnone (Option.some_ne_none _).symm,
    fun _ _ _ hnone => absurd hnone (Option.some_ne_none _).symm⟩

/-- The nodes of a run never get into each other's way by name exactly where the rig's names
survive the sanitizer. -/
theorem never_collide_iff (rig : Rig) (phase : Phase) (run_id : String) :
    NeverCollide rig phase run_id ↔ Clear rig phase := by
  constructor
  · -- two streams of one name need no run to collide
    intro h
    exact (distinct_iff_clear run_id).1 h.1
  · intro hclear
    refine ⟨(distinct_iff_clear run_id).2 hclear, ?_⟩
    intro acts hvalid before act after hacts
    rw [hacts] at hvalid
    -- the invariant carries to the state just before the step
    have hnamed : Named rig phase run_id (Runs.run (World.step run_id) World.empty before) :=
      Runs.run_induct (fun w act hallowed h => h.step act hallowed) before World.empty
        (named_empty rig phase run_id) hvalid.left
    exact spares_step hclear hnamed act (hvalid.at_event before)

/-! ## Two wrist cameras -/

/-- Two cameras whose names differ in a character that is lost. -/
def wrist_rig : Rig where
  arms := []
  cameras := [⟨"wrist-left", ["color"], by decide⟩, ⟨"wrist_left", ["color"], by decide⟩]
  leaders := []
  sides_distinct := List.nodup_nil
  names_distinct := by decide
  leaders_distinct := List.nodup_nil

/-- The color stream of a camera. -/
def color (name : String) : StreamId := .owned .camera name "color"

/-- The first camera is up; the second cannot create its stream and exits. -/
def wrist_acts : List Act :=
  [.spawn (.camera "wrist-left"), .create (.camera "wrist-left") (color "wrist-left"),
   .publish (.camera "wrist-left") (color "wrist-left"), .spawn (.camera "wrist_left"),
   .die (.camera "wrist_left")]

/-- The sweep of the second camera, before it is started again, unlinks the first one's live
segment. -/
theorem sweep_takes_a_live_segment :
    ¬ ∀ (rig : Rig) (phase : Phase) (run_id : String), NeverCollide rig phase run_id := by
  intro h
  have hvalid : Runs.Valid (World.step "1_0a") (allowed wrist_rig .viewing "1_0a") World.empty
      (wrist_acts ++ [.sweep_segment (.camera "wrist_left") (color "wrist_left")]) := by
    refine ⟨rfl, ⟨rfl, by decide +kernel, rfl⟩, ⟨rfl, by decide +kernel⟩, rfl, rfl,
      ⟨rfl, by decide +kernel⟩, trivial⟩
  have hspares := (h wrist_rig .viewing "1_0a").2 _ hvalid wrist_acts _ [] rfl
  have howner : (Runs.run (World.step "1_0a") World.empty wrist_acts).segments
      "dfc_1_0a_cam_wrist_left_color" = some (.camera "wrist-left") := by
    decide +kernel
  have hkept := hspares.segments (.camera "wrist-left") _ (by decide) (by decide +kernel) howner
  have hgone : ((Runs.run (World.step "1_0a") World.empty wrist_acts).step "1_0a"
      (.sweep_segment (.camera "wrist_left") (color "wrist_left"))).segments
      "dfc_1_0a_cam_wrist_left_color" = none := by
    decide +kernel
  exact absurd (hgone.symm.trans hkept) (Option.some_ne_none _).symm

end DualFlexivControl.Streams.Sweep
