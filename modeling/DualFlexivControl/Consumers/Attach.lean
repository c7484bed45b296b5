/-
Which channels an arm attaches.

An arm that has an `EnterControl` reads two manifests, one after the other, and attaches the
segments they name. That both are live channels of the consumer it was started for is not
something the manifests say: they outlive the segments when the consumer closes, they are
swept one by one after it, and the two reads may fall to either side of a sweep. What is left
when these three are excluded ([`InTime`]) is a fact about the order in which a consumer
opens its channels: a command manifest says that the setpoint channel is there.

The argument keeps a ledger ([`Ledger`]). Every control manifest is one the current consumer
has published, because the sweep after the one before took all of them; and every channel
the current consumer has created and not unlinked is there, because nobody else unlinks under
that name. The second part is where the names matter, the telemetry's and the consumer's own.
-/
import DualFlexivControl.Consumers.Programs

set_option autoImplicit false

namespace DualFlexivControl.Consumers

open ProgramOrder Streams
open Session (Chan)

/-- No telemetry stream goes by the name of a control channel. -/
def NamesApart (telemetry : List String) : Prop :=
  ∀ name ∈ telemetry, ∀ side ch, sanitize name ≠ (channel side ch).file

/-- The two channels of a side are the most recently started consumer's, there, and not
closed by it. -/
def Attached (run_id : String) (s : State) (side : String) : Prop :=
  ∃ c, s.run = some c ∧ c.seq = s.seq ∧ ∀ ch, ch ≠ .gripper →
    s.store.segments ((channel side ch).shm_name run_id) = some (.run s.seq) ∧
      Op.unlink (channel side ch) ∉ c.done

/-- The arm reads its second manifest in time: before the consumer closes the side's channels,
before the sweep gets to them, and, where the first was the command manifest, before a sweep
has ended in between or after the next consumer has got as far. -/
structure InTime (s : State) (side : String) : Prop where
  opened : ∀ c ch, s.run = some c → ch ≠ .gripper → Op.unlink (channel side ch) ∉ c.done
  unswept : ∀ ch, ch ≠ .gripper → s.pc.Ahead (channel side ch).file
  fresh : ∀ k, s.pass side = .seen .command k → k = s.sweeps ∨
    ∃ c, s.run = some c ∧ Op.create (channel side .command) ∈ c.done

/-- What telemetry producers have published is there as before. -/
def KeepsTelemetry (s s' : State) : Prop :=
  s'.store.manifests .streams = s.store.manifests .streams ∧
    ∀ n, s.store.segments n = some .telemetry → s'.store.segments n = some .telemetry

/-! ## The ledger -/

/-- What the record of a consumer says, wherever it was stopped. -/
structure Record (done : List Op) : Prop where
  made : ∀ t, Op.create t ∈ done → (∃ side ch, t = channel side ch) ∨ Shown t
  created : ∀ t, Op.publish t ∈ done → Op.create t ∈ done
  setpoint_first : ∀ side, Op.publish (channel side .command) ∈ done →
    Op.create (channel side .setpoint) ∈ done

theorem Record.of_program {plan : Plan} {before after : List Op}
    (h : before ++ after = plan.program) : Record before where
  made := fun _ ht => made_of_create_mem (h ▸ List.mem_append_left _ ht)
  created := fun _ ht => Precedes.mem (h ▸ create_precedes_publish) ht
  setpoint_first := fun _ ht => Precedes.mem (h ▸ setpoint_precedes_command) ht

/-- A publication that failed leaves an unlink in its place. -/
theorem Record.unlinked {done : List Op} (h : Record done) (t : Stream) :
    Record (done ++ [.unlink t]) where
  made := fun u hu => h.made u (by simpa using hu)
  created := fun u hu => List.mem_append_left _ (h.created u (by simpa using hu))
  setpoint_first := fun side hu =>
    List.mem_append_left _ (h.setpoint_first side (by simpa using hu))

/-- What is true of the streams in every state. -/
structure Ledger (run_id : String) (telemetry : List String) (s : State) : Prop where
  recent : ∀ c, s.run = some c → c.seq = s.seq
  record : ∀ c, s.run = some c → Record c.done
  /-- Nothing else the consumer has created goes by the name of a channel it has created. -/
  distinct : ∀ c t side ch, s.run = some c → Op.create t ∈ c.done →
    Op.create (channel side ch) ∈ c.done → t.file = (channel side ch).file → t = channel side ch
  /-- What it has created and not unlinked is there, until the sweep gets to it. -/
  present : ∀ c side ch, s.run = some c → Op.create (channel side ch) ∈ c.done →
    Op.unlink (channel side ch) ∉ c.done → s.pc.Ahead (channel side ch).file →
    s.store.segments ((channel side ch).shm_name run_id) = some (.run c.seq)
  /-- The control manifests are the current consumer's. -/
  manifests : ∀ file entry, s.store.read .control file = some entry → ∃ c stream,
    s.run = some c ∧ Op.publish stream ∈ c.done ∧ stream.sub = .control ∧ stream.file = file ∧
      entry = stream.entry run_id
  segments : ∀ n, s.store.segments n = some .telemetry →
    ∃ name ∈ telemetry, n = shm_name_for run_id name
  /-- The sweep has all of them ahead, each once. -/
  sweep : ∀ files unlinked, s.pc = .sweeping files unlinked → files.Nodup ∧
    ∀ file entry, s.store.read .control file = some entry → file ∈ files
  /-- A command manifest that an arm has read since the last sweep is the current one. -/
  marks : ∀ side ch k, s.pass side = .seen ch k → ch ≠ .gripper ∧ k ≤ s.sweeps ∧
    (k = s.sweeps → ∃ c, s.run = some c ∧ Op.publish (channel side ch) ∈ c.done)

section Ledger

variable {run_id : String} {telemetry : List String} {s s' : State}

theorem ledger_init : Ledger run_id telemetry .init where
  recent := fun c hc => absurd hc (by simp [State.init])
  record := fun c hc => absurd hc (by simp [State.init])
  distinct := fun c t side ch hc => absurd hc (by simp [State.init])
  present := fun c side ch hc => absurd hc (by simp [State.init])
  manifests := fun file entry h => absurd h (by simp [State.init, Store.empty, Store.read])
  segments := fun n h => absurd h (by simp [State.init, Store.empty])
  sweep := fun files unlinked h => absurd h (by simp [State.init])
  marks := fun side ch k h => absurd h (by simp [State.init])

/-- The consumer of the current run goes on, or ends: what it has done only grows, and the manifests
in the store follow it. -/
theorem Ledger.consumer {c c' : Consumer} {store : Store} (h : Ledger run_id telemetry s)
    (hturns : Turns s) (hrun : s.run = some c) (halive : c.alive = true) (hseq : c'.seq = c.seq)
    (hgrow : ∀ op ∈ c.done, op ∈ c'.done)
    (hrecord : Record c'.done)
    (hdistinct : ∀ t side ch, Op.create t ∈ c'.done → Op.create (channel side ch) ∈ c'.done →
      t.file = (channel side ch).file → t = channel side ch)
    (hpresent : ∀ side ch, Op.create (channel side ch) ∈ c'.done →
      Op.unlink (channel side ch) ∉ c'.done →
      store.segments ((channel side ch).shm_name run_id) = some (.run c.seq))
    (hmanifests : ∀ file entry, store.read .control file = some entry →
      s.store.read .control file = some entry ∨ ∃ stream : Stream, Op.publish stream ∈ c'.done ∧
        stream.sub = .control ∧ stream.file = file ∧ entry = stream.entry run_id)
    (hsegments : ∀ n, store.segments n = some .telemetry → s.store.segments n = some .telemetry) :
    Ledger run_id telemetry { s with store := store, run := some c' } where
  recent := by
    intro x hx
    rw [← Option.some.inj hx, hseq]
    exact h.recent c hrun
  record := by
    intro x hx
    rw [← Option.some.inj hx]
    exact hrecord
  distinct := by
    intro x t side ch hx
    rw [← Option.some.inj hx]
    exact hdistinct t side ch
  present := by
    intro x side ch hx hcreate hunlink _
    rw [← Option.some.inj hx] at hcreate hunlink ⊢
    rw [hseq]
    exact hpresent side ch hcreate hunlink
  manifests := by
    intro file entry hentry
    obtain hold | ⟨stream, hpublish, hrest⟩ := hmanifests file entry hentry
    · obtain ⟨x, stream, hx, hpublish, hrest⟩ := h.manifests file entry hold
      rw [hrun, Option.some.injEq] at hx
      exact ⟨c', stream, rfl, hgrow _ (hx ▸ hpublish), hrest⟩
    · exact ⟨c', stream, rfl, hpublish, hrest⟩
  segments := fun n hn => h.segments n (hsegments n hn)
  sweep := by
    intro files unlinked hpc
    exact absurd ((hturns.serving hrun halive).symm.trans hpc) (by simp)
  marks := by
    intro side ch k hseen
    obtain ⟨hch, hle, hcurrent⟩ := h.marks side ch k hseen
    refine ⟨hch, hle, fun hk => ?_⟩
    -- What has been published stays published, so a mark of this sweep stays good.
    obtain ⟨x, hx, hpublish⟩ := hcurrent hk
    rw [hrun, Option.some.injEq] at hx
    exact ⟨c', rfl, hgrow _ (hx ▸ hpublish)⟩

/-! ## The consumer's own steps -/

/-- A live consumer's step, of a kind that neither creates nor unlinks. -/
theorem Ledger.did_manifest {c : Consumer} {op : Op} {rest : List Op} {store : Store}
    (h : Ledger run_id telemetry s) (hturns : Turns s) (hrun : s.run = some c)
    (halive : c.alive = true) (htodo : c.todo = op :: rest)
    (hop : ∀ t, op ≠ .create t ∧ op ≠ .unlink t)
    (hsegments : store.segments = s.store.segments)
    (hmanifests : ∀ file entry, store.read .control file = some entry →
      s.store.read .control file = some entry ∨ ∃ stream : Stream,
        Op.publish stream ∈ (c.did op).done ∧ stream.sub = .control ∧ stream.file = file ∧
          entry = stream.entry run_id) :
    Ledger run_id telemetry { s with store := store, run := some (c.did op) } := by
  obtain ⟨plan, hplan⟩ := hturns.follows c hrun halive
  have hfollows := (did_append htodo).trans hplan
  have hold : ∀ t, Op.create t ∈ (c.did op).done → Op.create t ∈ c.done :=
    fun t ht => (mem_did.1 ht).resolve_right fun heq => (hop t).1 heq.symm
  refine h.consumer hturns hrun halive rfl (fun x hx => mem_did.2 (.inl hx))
    (.of_program hfollows) ?_ ?_ hmanifests (fun n hn => hsegments ▸ hn)
  · exact fun t side ch ht hch => h.distinct c t side ch hrun (hold t ht) (hold _ hch)
  · intro side ch hcreate hunlink
    rw [hsegments]
    refine h.present c side ch hrun (hold _ hcreate) (fun hx => hunlink (mem_did.2 (.inl hx))) ?_
    rw [hturns.serving hrun halive]
    trivial

/-- The segments of the channels a live consumer has created, while it is still creating. -/
theorem Ledger.present_of_create {c : Consumer} {t : Stream} {rest : List Op}
    (h : Ledger run_id telemetry s) (hturns : Turns s) (hrun : s.run = some c)
    (halive : c.alive = true) (htodo : c.todo = .create t :: rest) {side : String} {ch : Chan}
    (hcreate : Op.create (channel side ch) ∈ c.done) :
    s.store.segments ((channel side ch).shm_name run_id) = some (.run c.seq) := by
  obtain ⟨plan, hplan⟩ := hturns.follows c hrun halive
  rw [htodo] at hplan
  refine h.present c side ch hrun hcreate (unlink_notMem_of_create hplan) ?_
  rw [hturns.serving hrun halive]
  trivial

theorem Ledger.did_create {c : Consumer} {t : Stream} {rest : List Op}
    (h : Ledger run_id telemetry s) (hturns : Turns s) (hrun : s.run = some c)
    (halive : c.alive = true) (htodo : c.todo = .create t :: rest)
    (hnone : s.store.segments (t.shm_name run_id) = none) :
    Ledger run_id telemetry { s with
      store := { s.store with
        segments := Function.update s.store.segments (t.shm_name run_id) (some (.run c.seq)) }
      run := some (c.did (.create t)) } := by
  obtain ⟨plan, hplan⟩ := hturns.follows c hrun halive
  have hfollows := (did_append htodo).trans hplan
  -- what has been created before is there, so its name is not the new one's
  have hother : ∀ side ch, Op.create (channel side ch) ∈ c.done →
      (channel side ch).file ≠ t.file := by
    intro side ch hcreate hfile
    have hthere := h.present_of_create hturns hrun halive htodo hcreate
    rw [shm_name_eq_of_file_eq run_id hfile, hnone] at hthere
    exact absurd hthere (by simp)
  refine h.consumer hturns hrun halive rfl (fun x hx => mem_did.2 (.inl hx))
    (.of_program hfollows) ?_ ?_ (fun file entry hentry => .inl hentry) ?_
  -- Of two streams of one file at most one can have been created before; both new is the same.
  · intro u side ch hu hch hfile
    rw [mem_did, Op.create.injEq] at hu hch
    obtain hu | rfl := hu
    · obtain hch | heq := hch
      · exact h.distinct c u side ch hrun hu hch hfile
      · obtain ⟨side', ch', rfl⟩ | hshown := (h.record c hrun).made u hu
        · exact absurd (heq ▸ hfile) (hother side' ch' hu)
        · exact absurd hfile (hshown.file_ne side ch)
    · obtain hch | heq := hch
      · exact absurd hfile.symm (hother side ch hch)
      · exact heq.symm
  · intro side ch hcreate _
    dsimp only
    rw [mem_did, Op.create.injEq] at hcreate
    obtain hold | rfl := hcreate
    · rw [Function.update_of_ne (fun heq => hother side ch hold (shm_name_inj.1 heq))]
      exact h.present_of_create hturns hrun halive htodo hold
    · exact Function.update_self ..
  · intro n hn
    dsimp only at hn
    by_cases hname : n = t.shm_name run_id
    · rw [hname, Function.update_self] at hn
      exact absurd hn (by simp)
    · rwa [Function.update_of_ne hname] at hn

/-- The consumer unlinks a segment it has created, and goes on or ends. -/
theorem Ledger.unlinks {c c' : Consumer} {t : Stream} (h : Ledger run_id telemetry s)
    (hturns : Turns s) (hrun : s.run = some c) (halive : c.alive = true) (hseq : c'.seq = c.seq)
    (hdone : c'.done = c.done ++ [.unlink t]) (hcreated : Op.create t ∈ c.done) :
    Ledger run_id telemetry
      { s with store := s.store.unlink (t.shm_name run_id), run := some c' } := by
  have hold : ∀ u, Op.create u ∈ c'.done → Op.create u ∈ c.done := by
    intro u hu
    simpa [hdone] using hu
  refine h.consumer hturns hrun halive hseq (fun x hx => hdone ▸ List.mem_append_left _ hx) ?_ ?_ ?_
    (fun file entry hentry => .inl hentry) (fun n hn => (segments_unlink_eq_some hn).2)
  · rw [hdone]
    exact (h.record c hrun).unlinked t
  · exact fun u side ch hu hch => h.distinct c u side ch hrun (hold u hu) (hold _ hch)
  · intro side ch hcreate hunlink
    rw [hdone, List.mem_append, List.mem_singleton, Op.unlink.injEq, not_or] at hunlink
    -- The segment unlinked is another one: by `distinct` its name would give the stream away.
    have hname : (channel side ch).shm_name run_id ≠ t.shm_name run_id := by
      intro heq
      have hfile : t.file = (channel side ch).file := (shm_name_inj.1 heq).symm
      exact hunlink.2 (h.distinct c t side ch hrun hcreated (hold _ hcreate) hfile).symm
    rw [segments_unlink_ne hname]
    refine h.present c side ch hrun (hold _ hcreate) hunlink.1 ?_
    rw [hturns.serving hrun halive]
    trivial

/-- A live consumer's step keeps the ledger: whichever operation its program has next, what the
store has of it is what the consumer has done. -/
theorem Ledger.performs {c : Consumer} {op : Op} {rest : List Op} {store : Store}
    (h : Ledger run_id telemetry s) (hturns : Turns s) (hrun : s.run = some c)
    (halive : c.alive = true) (htodo : c.todo = op :: rest)
    (hstore : s.store.apply run_id (.run c.seq) op = some store) :
    Ledger run_id telemetry { s with store := store, run := some (c.did op) } := by
  obtain ⟨plan, hplan⟩ := hturns.follows c hrun halive
  cases op with
  | create t =>
    obtain ⟨hnone, rfl⟩ := create_eq_some hstore
    exact h.did_create hturns hrun halive htodo hnone
  | publish t =>
    rw [← Option.some.inj hstore]
    refine h.did_manifest hturns hrun halive htodo (by simp) segments_publish ?_
    intro file entry hentry
    obtain ⟨hsub, rfl, rfl⟩ | hold := read_publish_eq_some hentry
    · exact .inr ⟨t, mem_did.2 (.inr rfl), hsub.symm, rfl, rfl⟩
    · exact .inl hold
  | unlink t =>
    rw [← Option.some.inj hstore]
    -- In every program the creation stands before the unlinking.
    have hcreated : Op.create t ∈ c.done :=
      create_precedes_unlink c.done rest (by rw [← hplan, htodo])
    exact h.unlinks hturns hrun halive rfl rfl hcreated
  | remove t =>
    rw [← Option.some.inj hstore]
    exact h.did_manifest hturns hrun halive htodo (by simp) segments_remove
      fun file entry hentry => .inl (read_remove_eq_some hentry).2

/-- It ends where it is: its manifests and segments stay, and the ledger still says whose they are.
-/
theorem Ledger.died {c : Consumer} (h : Ledger run_id telemetry s) (hturns : Turns s)
    (hrun : s.run = some c) (halive : c.alive = true) :
    Ledger run_id telemetry { s with run := some { c with alive := false } } := by
  refine h.consumer hturns hrun halive rfl (fun x hx => hx)
    (h.record c hrun) (fun t side ch => h.distinct c t side ch hrun) ?_
    (fun file entry hentry => .inl hentry) (fun n hn => hn)
  intro side ch hcreate hunlink
  refine h.present c side ch hrun hcreate hunlink ?_
  rw [hturns.serving hrun halive]
  trivial

/-- It ends at a publication that fails, after the segment was released, so that no manifest speaks
of it. -/
theorem Ledger.unpublished {c : Consumer} {t : Stream} {rest : List Op}
    (h : Ledger run_id telemetry s) (hturns : Turns s) (hrun : s.run = some c)
    (halive : c.alive = true) (htodo : c.todo = .publish t :: rest) :
    Ledger run_id telemetry { s with
      store := s.store.unlink (t.shm_name run_id)
      run := some { c.did (.unlink t) with alive := false } } := by
  obtain ⟨plan, hplan⟩ := hturns.follows c hrun halive
  have hcreated : Op.create t ∈ c.done :=
    create_precedes_publish c.done rest (by rw [← hplan, htodo])
  exact h.unlinks hturns hrun halive rfl rfl hcreated

/-! ## The sweep -/

/-- A step of the sweep, or its beginning: it takes manifests of the dead consumer away and adds
none, and it goes through each file once. -/
theorem Ledger.sweeps {c : Consumer} {store : Store} {files : List String} {unlinked : Bool}
    (h : Ledger run_id telemetry s) (hrun : s.run = some c) (hfiles : files.Nodup)
    (hread : ∀ file entry, store.read .control file = some entry →
      s.store.read .control file = some entry ∧ file ∈ files)
    (hpresent : ∀ side ch, Op.create (channel side ch) ∈ c.done →
      Op.unlink (channel side ch) ∉ c.done →
      (Pc.sweeping files unlinked).Ahead (channel side ch).file →
      s.pc.Ahead (channel side ch).file ∧
        store.segments ((channel side ch).shm_name run_id) =
          s.store.segments ((channel side ch).shm_name run_id))
    (hsegments : ∀ n, store.segments n = some .telemetry → s.store.segments n = some .telemetry) :
    Ledger run_id telemetry { s with store := store, pc := .sweeping files unlinked } where
  recent := h.recent
  record := h.record
  distinct := h.distinct
  present := by
    intro x side ch hx hcreate hunlink hahead
    have hxc : x = c := Option.some.inj (hx.symm.trans hrun)
    subst hxc
    obtain ⟨hbefore, hsame⟩ := hpresent side ch hcreate hunlink hahead
    exact hsame.trans (h.present x side ch hx hcreate hunlink hbefore)
  manifests := fun file entry hentry => h.manifests file entry (hread file entry hentry).1
  segments := fun n hn => h.segments n (hsegments n hn)
  sweep := by
    intro files' unlinked' hpc
    obtain ⟨rfl, rfl⟩ := Pc.sweeping.inj hpc
    exact ⟨hfiles, fun file entry hentry => (hread file entry hentry).2⟩
  marks := h.marks

theorem Ledger.reaped {c : Consumer} {files : List String} (h : Ledger run_id telemetry s)
    (hrun : s.run = some c) (hpc : s.pc = .serving) (hnodup : files.Nodup)
    (hfiles : ∀ file ∈ (s.store.manifests .control).keys, file ∈ files) :
    Ledger run_id telemetry { s with pc := .sweeping files false } := by
  refine h.sweeps hrun hnodup (fun file entry hentry => ⟨hentry, hfiles file ?_⟩) ?_
    (fun n hn => hn)
  · rw [← AList.mem_keys, ← AList.lookup_isSome]
    exact Option.isSome_of_eq_some hentry
  · intro side ch _ _ _
    rw [hpc]
    exact ⟨trivial, rfl⟩

/-- A segment is unlinked by its manifest's name, so that no channel ahead goes with it. -/
theorem Ledger.unlinked {file : String} {files : List String} {entry : RegistryEntry}
    (h : Ledger run_id telemetry s) (hturns : Turns s)
    (hpc : s.pc = .sweeping (file :: files) false)
    (hentry : s.store.read .control file = some entry) :
    Ledger run_id telemetry { s with
      store := s.store.unlink entry.shm_name
      pc := .sweeping (file :: files) true } := by
  obtain ⟨hnodup, hfiles⟩ := h.sweep _ _ hpc
  obtain ⟨c, hrun, -⟩ := hturns.sweeping _ _ hpc
  -- The manifest is a stream's own, so its segment and its file stand for the same name.
  obtain ⟨-, stream, -, -, -, hfile, rfl⟩ := h.manifests file entry hentry
  refine h.sweeps hrun hnodup (fun f e he => ⟨he, hfiles f e he⟩) ?_
    (fun n hn => (segments_unlink_eq_some hn).2)
  rintro side ch - - ⟨hmem, hne⟩
  rw [hpc]
  refine ⟨List.mem_cons_of_mem _ hmem, segments_unlink_ne fun heq => hne ?_⟩
  rw [← hfile]
  exact shm_name_inj.1 heq

theorem Ledger.passed {file : String} {files : List String} (h : Ledger run_id telemetry s)
    (hturns : Turns s) (hpc : s.pc = .sweeping (file :: files) false) :
    Ledger run_id telemetry { s with pc := .sweeping (file :: files) true } := by
  obtain ⟨hnodup, hfiles⟩ := h.sweep _ _ hpc
  obtain ⟨c, hrun, -⟩ := hturns.sweeping _ _ hpc
  refine h.sweeps hrun hnodup (fun f e he => ⟨he, hfiles f e he⟩) ?_ (fun n hn => hn)
  rintro side ch - - ⟨hmem, -⟩
  rw [hpc]
  exact ⟨List.mem_cons_of_mem _ hmem, rfl⟩

theorem Ledger.removed {file : String} {files : List String} (h : Ledger run_id telemetry s)
    (hturns : Turns s) (hpc : s.pc = .sweeping (file :: files) true) :
    Ledger run_id telemetry
      { s with store := s.store.remove .control file, pc := .sweeping files false } := by
  obtain ⟨hnodup, hfiles⟩ := h.sweep _ _ hpc
  obtain ⟨c, hrun, -⟩ := hturns.sweeping _ _ hpc
  obtain ⟨hnotMem, hrest⟩ := List.nodup_cons.1 hnodup
  refine h.sweeps hrun hrest ?_ ?_ (fun n hn => hn)
  · intro f e he
    obtain ⟨hne, hold⟩ := read_remove_eq_some he
    exact ⟨hold, (List.mem_cons.1 (hfiles f e hold)).resolve_left fun heq => hne (by rw [heq])⟩
  -- The sweep lists a file once: what is ahead of it afterwards is another one.
  · intro side ch _ _ hahead
    rw [hpc]
    exact ⟨⟨hahead, fun heq => hnotMem (heq ▸ hahead)⟩, rfl⟩

/-- At the end of a sweep there is no control manifest, so the next consumer finds the directory as
a new session does. -/
theorem Ledger.swept {unlinked : Bool} (h : Ledger run_id telemetry s)
    (hpc : s.pc = .sweeping [] unlinked) :
    Ledger run_id telemetry
      { s with run := none, pc := .serving, sweeps := s.sweeps + 1 } where
  recent := fun c hc => absurd hc (by simp)
  record := fun c hc => absurd hc (by simp)
  distinct := fun c t side ch hc => absurd hc (by simp)
  present := fun c side ch hc => absurd hc (by simp)
  manifests := by
    intro file entry hentry
    -- All control manifests were ahead of the sweep, and nothing is any more.
    exact absurd ((h.sweep [] unlinked hpc).2 file entry hentry) (by simp)
  segments := h.segments
  sweep := fun files unlinked hsweep => absurd hsweep (by simp)
  marks := by
    intro side ch k hseen
    obtain ⟨hch, hle, -⟩ := h.marks side ch k hseen
    -- The count of sweeps has gone up, so no mark from before is a current one.
    exact ⟨hch, Nat.le_succ_of_le hle, fun hk => absurd hle (by rw [hk]; simp)⟩

/-- A new consumer has done nothing, and nobody has read a manifest of its. -/
theorem Ledger.start {plan : Plan} {inbox : String → ℕ} (h : Ledger run_id telemetry s)
    (hrun : s.run = none) (hpc : s.pc = .serving) :
    Ledger run_id telemetry { s with
      run := some ⟨s.seq + 1, [], plan.program, true⟩
      seq := s.seq + 1
      inbox := inbox } where
  recent := by
    intro c hc
    rw [← Option.some.inj hc]
  record := by
    intro c hc
    rw [← Option.some.inj hc]
    exact Record.of_program (List.nil_append plan.program)
  distinct := by
    intro c t side ch hc hcreate
    rw [← Option.some.inj hc] at hcreate
    exact absurd hcreate (by simp)
  present := by
    intro c side ch hc hcreate
    rw [← Option.some.inj hc] at hcreate
    exact absurd hcreate (by simp)
  manifests := by
    intro file entry hentry
    obtain ⟨c, -, hc, -⟩ := h.manifests file entry hentry
    exact absurd (hrun.symm.trans hc) (by simp)
  segments := h.segments
  sweep := fun files unlinked hsweep => absurd (hpc.symm.trans hsweep) (by simp)
  marks := by
    intro side ch k hseen
    obtain ⟨hch, hle, hcurrent⟩ := h.marks side ch k hseen
    refine ⟨hch, hle, fun hk => ?_⟩
    obtain ⟨c, hc, -⟩ := hcurrent hk
    exact absurd (hrun.symm.trans hc) (by simp)

/-! ## Everybody else -/

/-- A telemetry producer's step, of a stream of its own, changes no control manifest and no control
segment, as its names keep clear of them. -/
theorem Ledger.produces {op : Op} {t : Stream} {store : Store} (h : Ledger run_id telemetry s)
    (hapart : NamesApart telemetry)
    (hop : op = .create t ∨ op = .publish t ∨ op = .unlink t ∨ op = .remove t)
    (hsub : t.sub = .streams) (hname : t.name ∈ telemetry)
    (hstore : s.store.apply run_id .telemetry op = some store) :
    Ledger run_id telemetry { s with store := store } := by
  have hread := telemetry_read hop hsub hstore
  refine ⟨h.recent, h.record, h.distinct, ?_, ?_, ?_, ?_, h.marks⟩
  · intro c side ch hc hcreate hunlink hahead
    have hne : (channel side ch).shm_name run_id ≠ t.shm_name run_id :=
      fun heq => hapart t.name hname side ch (shm_name_inj.1 heq).symm
    exact (telemetry_segments_ne hop hstore hne).trans
      (h.present c side ch hc hcreate hunlink hahead)
  · exact fun file entry hentry => h.manifests file entry ((hread file).symm.trans hentry)
  · intro n hn
    by_cases hsame : n = t.shm_name run_id
    · exact ⟨t.name, hname, hsame⟩
    · exact h.segments n ((telemetry_segments_ne hop hstore hsame).symm.trans hn)
  · intro files unlinked hpc
    obtain ⟨hnodup, hfiles⟩ := h.sweep files unlinked hpc
    exact ⟨hnodup, fun file entry hentry => hfiles file entry ((hread file).symm.trans hentry)⟩

/-- A manifest that an arm finds is of the current consumer: what earlier ones had left was swept
before it began. -/
theorem Ledger.finds {side : String} {ch : Chan} (h : Ledger run_id telemetry s)
    (hfinds : finds s side ch = true) :
    ∃ c, s.run = some c ∧ Op.publish (channel side ch) ∈ c.done := by
  unfold Consumers.finds at hfinds
  obtain ⟨entry, hentry, hname⟩ := (Option.any_eq_true _ _).1 hfinds
  -- `discover` keys the entries by name, so a file that two names share is no confusion.
  obtain ⟨c, stream, hrun, hpublish, hsub, -, rfl⟩ := h.manifests _ entry hentry
  have hstream : stream = channel side ch := by
    have hsame : stream.name = (channel side ch).name := of_decide_eq_true hname
    cases stream with
    | mk sub name =>
      rw [Stream.mk.injEq]
      exact ⟨hsub, hsame⟩
  exact ⟨c, hrun, hstream ▸ hpublish⟩

theorem Ledger.arm {inbox : String → ℕ} {pass : String → Pass} (h : Ledger run_id telemetry s)
    (hseen : ∀ side ch k, pass side = .seen ch k → s.pass side = .seen ch k ∨
      ch ≠ .gripper ∧ Consumers.finds s side ch = true ∧ k = s.sweeps) :
    Ledger run_id telemetry { s with inbox := inbox, pass := pass } := by
  refine ⟨h.recent, h.record, h.distinct, h.present, h.manifests, h.segments, h.sweep, ?_⟩
  intro side ch k hk
  obtain hold | ⟨hch, hfinds, hmark⟩ := hseen side ch k hk
  · exact h.marks side ch k hold
  · exact ⟨hch, Nat.le_of_eq hmark, fun _ => h.finds hfinds⟩

/-! ## Runs -/

theorem Ledger.move (h : Ledger run_id telemetry s) (hturns : Turns s)
    (hapart : NamesApart telemetry) (hmove : Move run_id telemetry s s') :
    Ledger run_id telemetry s' := by
  cases hmove with
  | start plan inbox hrun hpc => exact h.start hrun hpc
  | did c op rest store hrun halive htodo hstore =>
    exact h.performs hturns hrun halive htodo hstore
  | blocked c op rest hrun halive => exact h.died hturns hrun halive
  | unpublished c stream rest hrun halive htodo => exact h.unpublished hturns hrun halive htodo
  | died c hrun halive => exact h.died hturns hrun halive
  | reaped c files hrun _ hpc hnodup hfiles => exact h.reaped hrun hpc hnodup hfiles
  | unlinked file files entry hpc hentry => exact h.unlinked hturns hpc hentry
  | passed file files hpc _ => exact h.passed hturns hpc
  | removed file files hpc => exact h.removed hturns hpc
  | swept unlinked hpc => exact h.swept hpc
  | telemetry op stream store hop hsub hname hstore =>
    exact h.produces hapart hop hsub hname hstore
  | arm inbox pass hseen => exact h.arm hseen

theorem ledger_reachable (hapart : NamesApart telemetry) (h : Reachable run_id telemetry s) :
    Turns s ∧ Ledger run_id telemetry s := by
  induction h with
  | refl => exact ⟨turns_init, ledger_init⟩
  | tail _ hstep ih =>
    obtain ⟨act, hact⟩ := hstep
    obtain ⟨hturns, hledger⟩ := ih
    exact ⟨hturns.move (step_move hact), hledger.move hturns hapart (step_move hact)⟩

/-- An arm that finds its channels has read one manifest before, and the other one now. -/
theorem found_of_look {side : String} {ch : Chan} (h : look s side ch = some s')
    (hfound : s'.pass side = .found) : ∃ first k, s.pass side = .seen first k ∧ ch ≠ .gripper ∧
      ch ≠ first ∧ finds s side ch = true := by
  unfold look at h
  split at h
  · next hpass =>
    split_ifs at h
    · rw [← Option.some.inj h] at hfound
      exact absurd hfound (by simp)
    · rw [← Option.some.inj h, hpass] at hfound
      exact absurd hfound (by simp)
  · next first k hpass =>
    split_ifs at h with hch hfinds
    · rw [not_or] at hch
      exact ⟨first, k, hpass, hch.1, hch.2, hfinds⟩
    · rw [← Option.some.inj h] at hfound
      exact absurd hfound (by simp)
  · exact absurd h (by simp)

/-- In time, both channels have been created by the consumer whose manifest is found. -/
theorem Ledger.created {side : String} {ch first : Chan} {k : ℕ} {c : Consumer}
    (h : Ledger run_id telemetry s) (hpass : s.pass side = .seen first k) (hne : ch ≠ first)
    (hrun : s.run = some c) (hpublish : Op.publish (channel side ch) ∈ c.done)
    (htime : InTime s side) {other : Chan} (hother : other ≠ .gripper) (hch : ch ≠ .gripper) :
    Op.create (channel side other) ∈ c.done := by
  have hrecord := h.record c hrun
  obtain ⟨hfirst, -, hcurrent⟩ := h.marks side first k hpass
  by_cases hsame : other = ch
  · rw [hsame]
    exact hrecord.created _ hpublish
  · cases ch with
    | gripper => exact absurd rfl hch
    -- The command manifest is published last, so both segments are there.
    | command =>
      have hsetpoint : other = .setpoint := by
        cases other <;> simp_all
      rw [hsetpoint]
      exact hrecord.setpoint_first side hpublish
    | setpoint =>
      -- the command manifest is the one the arm has read before
      have hcommand : other = .command ∧ first = .command := by
        cases other <;> cases first <;> simp_all
      obtain ⟨rfl, rfl⟩ := hcommand
      obtain hk | ⟨x, hx, hcreate⟩ := htime.fresh k hpass
      · obtain ⟨x, hx, hread⟩ := hcurrent hk
        rw [hrun, Option.some.injEq] at hx
        exact hrecord.created _ (hx ▸ hread)
      · rw [hrun, Option.some.injEq] at hx
        exact hx ▸ hcreate

theorem Ledger.attached {side : String} {ch : Chan} (h : Ledger run_id telemetry s)
    (hlook : look s side ch = some s') (hfound : s'.pass side = .found) (htime : InTime s side) :
    Attached run_id s side := by
  obtain ⟨first, k, hpass, hch, hne, hfinds⟩ := found_of_look hlook hfound
  obtain ⟨c, hrun, hpublish⟩ := h.finds hfinds
  refine ⟨c, hrun, h.recent c hrun, fun other hother => ⟨?_, htime.opened c other hrun hother⟩⟩
  rw [← h.recent c hrun]
  exact h.present c side other hrun
    (h.created hpass hne hrun hpublish htime hother hch) (htime.opened c other hrun hother)
    (htime.unswept other hother)

/-- What the sweep unlinks is a control channel's, since it goes by the manifests of the control
directory and those are the consumer's. -/
theorem Ledger.keeps_telemetry {act : Act} (h : Ledger run_id telemetry s)
    (hapart : NamesApart telemetry) (hact : act = .sweep_segment ∨ act = .sweep_manifest)
    (hstep : step run_id telemetry s act = some s') : KeepsTelemetry s s' := by
  obtain rfl | rfl := hact
  · rw [step] at hstep
    split at hstep
    · next file files hpc =>
      split at hstep
      · next entry hentry =>
        rw [← Option.some.inj hstep]
        refine ⟨rfl, fun n hn => ?_⟩
        obtain ⟨c, stream, hrun, hpublish, hsub, -, rfl⟩ := h.manifests file entry hentry
        obtain ⟨name, hname, rfl⟩ := h.segments n hn
        have hrecord := h.record c hrun
        -- The manifest names a control channel's segment, and telemetry keeps clear of those.
        refine (segments_unlink_ne fun heq => ?_).trans hn
        obtain ⟨side, ch, rfl⟩ | hshown := hrecord.made stream (hrecord.created stream hpublish)
        · have hfile : (⟨.streams, name⟩ : Stream).file = (channel side ch).file :=
            shm_name_inj.1 heq
          exact hapart name hname side ch hfile
        · exact absurd (hshown.sub.symm.trans hsub) (by simp)
      · rw [← Option.some.inj hstep]
        exact ⟨rfl, fun n hn => hn⟩
    · exact absurd hstep (by simp)
  · rw [step] at hstep
    split at hstep
    · rw [← Option.some.inj hstep]
      exact ⟨manifests_remove_ne (by simp), fun n hn => hn⟩
    · exact absurd hstep (by simp)

end Ledger

/-- In every session whose telemetry keeps clear of the control channels' names: an arm that
finds its manifests in time finds the live channels of the most recently started consumer, and
cleaning the control registry leaves the telemetry alone. -/
theorem attaches_live_channels {run_id : String} {telemetry : List String} {s s' : State}
    (hapart : NamesApart telemetry) (h : Reachable run_id telemetry s) :
    (∀ side ch, step run_id telemetry s (.look side ch) = some s' → s'.pass side = .found →
      InTime s side → Attached run_id s side) ∧
    (∀ act, act = .sweep_segment ∨ act = .sweep_manifest →
      step run_id telemetry s act = some s' → KeepsTelemetry s s') := by
  have hledger := (ledger_reachable hapart h).2
  constructor
  · exact fun side ch hlook hfound htime => hledger.attached hlook hfound htime
  · exact fun act hact hstep => hledger.keeps_telemetry hapart hact hstep

/-- A collection run of one arm up to its two channels, and the arm in the middle of its pass. -/
def attaching : List Act :=
  [.telemetry (.create ⟨.streams, "left/q"⟩),
    .start (collection_plan [⟨"left", true, false, none⟩]) ["left"], .perform, .perform, .perform,
    .perform, .enter "left", .look "left" .setpoint]

/-- The same run, killed, and the sweep about to begin. -/
def sweeping_after : List Act :=
  attaching ++ [.die, .reap ["cmd_left_setpoint", "cmd_left_command"]]

theorem namesApart_left : NamesApart ["left/q"] := by
  intro name hname side ch heq
  rw [List.mem_singleton] at hname
  have hhead := channel_file_head side ch
  rw [← heq, hname] at hhead
  exact absurd hhead (by decide +kernel)

/-- The arm gets both channels, and the telemetry is there after the sweep of the first. -/
theorem left_attaches_live_channels :
    (∃ s s', steps "s" ["left/q"] .init attaching = some s ∧
      step "s" ["left/q"] s (.look "left" .command) = some s' ∧ s'.pass "left" = .found ∧
      Attached "s" s "left") ∧
    ∃ s s', steps "s" ["left/q"] .init sweeping_after = some s ∧
      step "s" ["left/q"] s .sweep_segment = some s' ∧ KeepsTelemetry s s' ∧
      s.store.segments "dfc_s_left_q" = some .telemetry := by
  constructor
  · have hrun : ((steps "s" ["left/q"] .init attaching).bind fun s =>
        (step "s" ["left/q"] s (.look "left" .command)).map fun s' =>
          (s.run, s.pc, s.pass "left", s'.pass "left")) =
        some (some ⟨1, (collection_plan [⟨"left", true, false, none⟩]).program.take 4,
          (collection_plan [⟨"left", true, false, none⟩]).program.drop 4, true⟩, .serving,
          .seen .setpoint 0, .found) := by
      decide +kernel
    obtain ⟨s, hs, hstep⟩ := Option.bind_eq_some_iff.1 hrun
    obtain ⟨s', hs', hstate⟩ := Option.map_eq_some_iff.1 hstep
    simp only [Prod.mk.injEq] at hstate
    obtain ⟨hc, hpc, hpass, hfound⟩ := hstate
    have htime : InTime s "left" := by
      refine ⟨?_, fun ch _ => by rw [hpc]; trivial, fun k hk => ?_⟩
      · intro c ch hcrun _
        rw [hc, Option.some.injEq] at hcrun
        rw [← hcrun]
        cases ch <;> decide +kernel
      -- The setpoint manifest was read first, so no older command manifest is in play.
      · rw [hpass] at hk
        exact absurd hk (by simp)
    exact ⟨s, s', hs, hs', hfound, (attaches_live_channels namesApart_left (steps_reach hs)).1
      "left" .command hs' hfound htime⟩
  · have hrun : ((steps "s" ["left/q"] .init sweeping_after).bind fun s =>
        (step "s" ["left/q"] s .sweep_segment).map fun s' => s.store.segments "dfc_s_left_q") =
        some (some .telemetry) := by
      decide +kernel
    obtain ⟨s, hs, hstep⟩ := Option.bind_eq_some_iff.1 hrun
    obtain ⟨s', hs', hsegment⟩ := Option.map_eq_some_iff.1 hstep
    exact ⟨s, s', hs, hs', (attaches_live_channels namesApart_left (steps_reach hs)).2
      .sweep_segment (.inl rfl) hs', hsegment⟩

/-- The same run to its clean end, and the arm, late, in the middle of its pass. -/
def attaching_late : List Act :=
  [.start (collection_plan [⟨"left", true, false, none⟩]) ["left"], .perform, .perform, .perform,
    .perform, .perform, .perform, .enter "left", .look "left" .setpoint]

/-- Both manifests are still there when the consumer has closed its channels, and the arm
finds them. -/
theorem closed_channels_found : ∃ s s', steps "s" [] .init attaching_late = some s ∧
    step "s" [] s (.look "left" .command) = some s' ∧ s'.pass "left" = .found ∧
    ¬ Attached "s" s "left" := by
  have hrun : ((steps "s" [] .init attaching_late).bind fun s =>
      (step "s" [] s (.look "left" .command)).map fun s' =>
        (s'.pass "left", s.store.segments ((channel "left" .setpoint).shm_name "s"))) =
      some (.found, none) := by
    decide +kernel
  obtain ⟨s, hs, hstep⟩ := Option.bind_eq_some_iff.1 hrun
  obtain ⟨s', hs', hstate⟩ := Option.map_eq_some_iff.1 hstep
  obtain ⟨hfound, hsegment⟩ := Prod.mk.inj hstate
  refine ⟨s, s', hs, hs', hfound, ?_⟩
  rintro ⟨c, -, -, hchannels⟩
  have hthere := (hchannels .setpoint (by simp)).1
  rw [hsegment] at hthere
  exact absurd hthere (by simp)

end DualFlexivControl.Consumers
