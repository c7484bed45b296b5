/-
What a dead consumer leaves behind.

The next run's consumer creates the same segments again, and fails if one of them is still
there. A consumer that ran to the end of its program has unlinked everything it created. One
that did not leaves what it held, and the daemon's sweep after it goes by the manifests of the
control directory: it finds the control channels, as long as they were published. A horizon
stream, the comm stream, and any segment whose manifest was not published yet stay, and the
next consumer of that kind fails at their creation ([`LeavesControlOnly`]).

The argument follows the segments of the current run through the consumer's death
([`Inv.dead`]): while it lives, each is one it has created and not unlinked; once it is dead,
each is named by a control manifest the sweep has still ahead.
-/
import DualFlexivControl.Consumers.Programs

set_option autoImplicit false

namespace DualFlexivControl.Consumers

open Streams
open Session (Chan)

/-- All that is left of the consumer's segments are control channels with a manifest. -/
def Consumer.LeavesControlOnly (c : Consumer) : Prop :=
  ∀ s, Op.create s ∈ c.done → Op.unlink s ∉ c.done → s.sub = .control ∧ Op.publish s ∈ c.done

/-- A consumer that ends in this step before it is through leaves control channels only. -/
def EndsWell (s s' : State) : Prop :=
  ∀ c c', s.run = some c → c.alive = true → c.todo ≠ [] → s'.run = some c' → c'.alive = false →
    c'.LeavesControlOnly

/-- A step of the session in which no consumer ends badly. -/
def WellStep (run_id : String) (telemetry : List String) (s s' : State) : Prop :=
  (∃ act, step run_id telemetry s act = some s') ∧ EndsWell s s'

/-- The sweep will find the segment. -/
def Covered (s : State) (shm_name : String) : Prop :=
  ∃ file entry, s.store.read .control file = some entry ∧ entry.shm_name = shm_name ∧
    s.pc.Ahead file

section Leaks

variable {run_id : String} {telemetry : List String} {s s' : State}

/-- Whose segments there are, and who will unlink them. -/
structure Inv (run_id : String) (s : State) : Prop where
  /-- Only the current run has segments. -/
  current : ∀ n r, s.store.segments n = some (.run r) → ∃ c, s.run = some c ∧ c.seq = r
  /-- They are ones its consumer has created and not unlinked. -/
  held : ∀ c n, s.run = some c → s.store.segments n = some (.run c.seq) →
    ∃ stream, Op.create stream ∈ c.done ∧ Op.unlink stream ∉ c.done ∧ stream.shm_name run_id = n
  /-- The control manifests it has published are there. -/
  published : ∀ c stream, s.run = some c → s.pc = .serving → stream.sub = .control →
    Op.publish stream ∈ c.done → (s.store.read .control stream.file).isSome
  /-- A control manifest names the segment that goes by its own name. -/
  entries : ∀ file entry, s.store.read .control file = some entry →
    ∃ stream : Stream, stream.file = file ∧ entry = stream.entry run_id
  /-- Once the consumer is dead, the sweep will find what it left. -/
  dead : ∀ c n, s.run = some c → c.alive = false → s.store.segments n = some (.run c.seq) →
    Covered s n

theorem inv_init : Inv run_id .init where
  current := fun n r h => absurd h (by simp [State.init, Store.empty])
  held := fun c n hc => absurd hc (by simp [State.init])
  published := fun c stream hc => absurd hc (by simp [State.init])
  entries := fun file entry h => absurd h (by simp [State.init, Store.empty, Store.read])
  dead := fun c n hc => absurd hc (by simp [State.init])

/-- A consumer that is through with its program has unlinked everything: each stream that it created
is unlinked later in the same program. -/
theorem Inv.finished {c : Consumer} (h : Inv run_id s) (hturns : Turns s) (hrun : s.run = some c)
    (halive : c.alive = true) (htodo : c.todo = []) (n : String) :
    s.store.segments n ≠ some (.run c.seq) := by
  intro hn
  obtain ⟨stream, hcreate, hunlink, -⟩ := h.held c n hrun hn
  obtain ⟨plan, hplan⟩ := hturns.follows c hrun halive
  -- Done is the whole program, which unlinks whatever it creates.
  rw [htodo, List.append_nil] at hplan
  rw [hplan] at hcreate hunlink
  exact hunlink (unlink_mem_program hcreate)

/-- What a consumer leaves that ends well is covered by the coming sweep. -/
theorem Inv.covered {c : Consumer} (h : Inv run_id s) (hturns : Turns s) (hrun : s.run = some c)
    (halive : c.alive = true) {done : List Op} {n : String}
    (hleaves : ∀ stream, Op.create stream ∈ done → Op.unlink stream ∉ done →
      stream.sub = .control ∧ Op.publish stream ∈ c.done)
    (hheld : ∃ stream, Op.create stream ∈ done ∧ Op.unlink stream ∉ done ∧
      stream.shm_name run_id = n) : Covered s n := by
  have hserving := hturns.serving hrun halive
  obtain ⟨stream, hcreate, hunlink, hname⟩ := hheld
  obtain ⟨hsub, hpublish⟩ := hleaves stream hcreate hunlink
  obtain ⟨entry, hentry⟩ :=
    Option.isSome_iff_exists.1 (h.published c stream hrun hserving hsub hpublish)
  -- The manifest under the stream's file may be another stream's: one whose file is the same,
  -- and so whose segment is.
  obtain ⟨other, hfile, rfl⟩ := h.entries _ _ hentry
  refine ⟨stream.file, _, hentry, ?_, by rw [hserving]; trivial⟩
  rw [← hname]
  exact shm_name_eq_of_file_eq run_id hfile

/-! ## The consumer's own steps -/

/-- The parts of the invariant that a live consumer's step cannot break. -/
theorem Inv.did {c : Consumer} {op : Op} {store : Store} (h : Inv run_id s)
    (hrun : s.run = some c) (halive : c.alive = true)
    (hcurrent : ∀ n r, store.segments n = some (.run r) →
      r = c.seq ∨ s.store.segments n = some (.run r))
    (hheld : ∀ n, store.segments n = some (.run c.seq) →
      ∃ stream, Op.create stream ∈ (c.did op).done ∧ Op.unlink stream ∉ (c.did op).done ∧ stream.shm_name run_id = n)
    (hpublished : ∀ stream : Stream, stream.sub = .control → Op.publish stream ∈ (c.did op).done →
      (store.read .control stream.file).isSome)
    (hentries : ∀ file entry, store.read .control file = some entry →
      ∃ stream : Stream, stream.file = file ∧ entry = stream.entry run_id) :
    Inv run_id { s with store := store, run := some (c.did op) } where
  current := by
    intro n r hn
    obtain rfl | hold := hcurrent n r hn
    · exact ⟨c.did op, rfl, rfl⟩
    · obtain ⟨c', hc', hseq⟩ := h.current n r hold
      rw [hrun, Option.some.injEq] at hc'
      exact ⟨c.did op, rfl, by rw [← hseq, ← hc']; rfl⟩
  held := by
    intro c' n hc' hn
    rw [← Option.some.inj hc'] at hn ⊢
    exact hheld n hn
  published := by
    intro c' stream hc' _ hsub hmem
    rw [← Option.some.inj hc'] at hmem
    exact hpublished stream hsub hmem
  entries := hentries
  dead := by
    intro c' n hc' hdead
    rw [← Option.some.inj hc'] at hdead
    exact absurd hdead (by simp [Consumer.did, halive])

/-- What the consumer has published before it does something else. -/
theorem Inv.published_did {c : Consumer} {op : Op} (h : Inv run_id s) (hturns : Turns s)
    (hrun : s.run = some c) (halive : c.alive = true) (hop : ∀ stream, op ≠ .publish stream)
    {stream : Stream}
    (hsub : stream.sub = .control) (hmem : Op.publish stream ∈ (c.did op).done) :
    (s.store.read .control stream.file).isSome := by
  obtain hold | hnew := mem_did.1 hmem
  · exact h.published c stream hrun (hturns.serving hrun halive) hsub hold
  · exact absurd hnew.symm (hop stream)

/-- What a consumer holds that does something other than unlink is held for the same reason as
before, one operation later. -/
theorem Inv.held_did {c : Consumer} {op : Op} {n : String} (h : Inv run_id s)
    (hrun : s.run = some c) (hop : ∀ stream, op ≠ .unlink stream)
    (hn : s.store.segments n = some (.run c.seq)) :
    ∃ stream, Op.create stream ∈ (c.did op).done ∧ Op.unlink stream ∉ (c.did op).done ∧
      stream.shm_name run_id = n := by
  obtain ⟨stream, hcreate, hunlink, hname⟩ := h.held c n hrun hn
  refine ⟨stream, mem_did.2 (.inl hcreate), ?_, hname⟩
  rw [mem_did]
  rintro (hold | hnew)
  · exact hunlink hold
  · exact hop stream hnew.symm

theorem Inv.did_create {c : Consumer} {stream : Stream} {rest : List Op} (h : Inv run_id s)
    (hturns : Turns s) (hrun : s.run = some c) (halive : c.alive = true)
    (htodo : c.todo = .create stream :: rest) :
    Inv run_id { s with
      store := { s.store with
        segments := Function.update s.store.segments (stream.shm_name run_id) (some (.run c.seq)) }
      run := some (c.did (.create stream)) } := by
  obtain ⟨plan, hplan⟩ := hturns.follows c hrun halive
  rw [htodo] at hplan
  refine h.did hrun halive ?_ ?_ ?_ h.entries
  · intro n r hn
    dsimp only at hn
    by_cases hname : n = stream.shm_name run_id
    · rw [hname, Function.update_self] at hn
      exact .inl (by simpa using hn.symm)
    · rw [Function.update_of_ne hname] at hn
      exact .inr hn
  · intro n hn
    dsimp only at hn
    by_cases hname : n = stream.shm_name run_id
    · refine ⟨stream, mem_did.2 (.inr rfl), ?_, hname.symm⟩
      rw [mem_did]
      rintro (hold | hnew)
      -- The creations come before all unlinking, so the new segment has not been unlinked yet.
      · exact unlink_notMem_of_create hplan hold
      · simp at hnew
    · rw [Function.update_of_ne hname] at hn
      exact h.held_did hrun (by simp) hn
  · exact fun other hsub hmem => h.published_did hturns hrun halive (by simp) hsub hmem

theorem Inv.did_publish {c : Consumer} {stream : Stream} (h : Inv run_id s) (hturns : Turns s)
    (hrun : s.run = some c) (halive : c.alive = true) :
    Inv run_id { s with
      store := s.store.publish stream.sub stream.file (stream.entry run_id)
      run := some (c.did (.publish stream)) } := by
  refine h.did hrun halive (fun n r hn => .inr hn) ?_ ?_ ?_
  · exact fun n hn => h.held_did hrun (by simp) hn
  · intro other hsub hmem
    by_cases hsame : (Sub.control, other.file) = (stream.sub, stream.file)
    · obtain ⟨hs, hf⟩ := Prod.mk.inj hsame
      rw [hs, hf, read_publish_self]
      rfl
    · rw [read_publish_ne hsame]
      obtain hold | hnew := mem_did.1 hmem
      · exact h.published c other hrun (hturns.serving hrun halive) hsub hold
      · have hother : other = stream := by simpa using hnew
        rw [hother] at hsub hsame
        exact absurd (by rw [hsub]) hsame
  · intro file entry hentry
    obtain ⟨-, rfl, rfl⟩ | hold := read_publish_eq_some hentry
    · exact ⟨stream, rfl, rfl⟩
    · exact h.entries file entry hold

/-- What a consumer holds that unlinks a stream, whatever of the other streams is there. -/
theorem Inv.held_unlink {c : Consumer} {stream : Stream} {n : String} (h : Inv run_id s)
    (hrun : s.run = some c) (hname : n ≠ stream.shm_name run_id)
    (hn : s.store.segments n = some (.run c.seq)) :
    ∃ other, Op.create other ∈ (c.did (.unlink stream)).done ∧
      Op.unlink other ∉ (c.did (.unlink stream)).done ∧ other.shm_name run_id = n := by
  obtain ⟨other, hcreate, hunlink, hother⟩ := h.held c n hrun hn
  refine ⟨other, mem_did.2 (.inl hcreate), ?_, hother⟩
  rw [mem_did]
  rintro (hdone | hnew)
  · exact hunlink hdone
  · have hsame : other = stream := by simpa using hnew
    rw [hsame] at hother
    exact hname hother.symm

theorem Inv.did_unlink {c : Consumer} {stream : Stream} (h : Inv run_id s) (hturns : Turns s)
    (hrun : s.run = some c) (halive : c.alive = true) :
    Inv run_id { s with
      store := s.store.unlink (stream.shm_name run_id)
      run := some (c.did (.unlink stream)) } := by
  refine h.did hrun halive (fun n r hn => .inr (segments_unlink_eq_some hn).2) ?_ ?_ h.entries
  · intro n hn
    obtain ⟨hname, hold⟩ := segments_unlink_eq_some hn
    exact h.held_unlink hrun hname hold
  · exact fun other hsub hmem => h.published_did hturns hrun halive (by simp) hsub hmem

theorem Inv.did_remove {c : Consumer} {stream : Stream} {rest : List Op} (h : Inv run_id s)
    (hturns : Turns s) (hrun : s.run = some c) (halive : c.alive = true)
    (htodo : c.todo = .remove stream :: rest) :
    Inv run_id { s with
      store := s.store.remove stream.sub stream.file
      run := some (c.did (.remove stream)) } := by
  obtain ⟨plan, hplan⟩ := hturns.follows c hrun halive
  -- A program removes manifests of shown streams only; `close` leaves those of the channels.
  have hsub : stream.sub = .streams := by
    refine @sub_of_remove_mem plan stream ?_
    rw [← hplan, htodo]
    exact List.mem_append_right _ List.mem_cons_self
  refine h.did hrun halive (fun n r hn => .inr hn) ?_ ?_ ?_
  · exact fun n hn => h.held_did hrun (by simp) hn
  -- The control manifests outlive the removal, being in the other registry.
  · intro other hcontrol hmem
    rw [read_remove_ne (by rw [hsub]; simp)]
    exact h.published_did hturns hrun halive (by simp) hcontrol hmem
  · exact fun file entry hentry => h.entries file entry (read_remove_eq_some hentry).2

/-- A live consumer's step keeps the invariant, by the operation: creating adds a segment that it
holds, and unlinking takes one away. -/
theorem Inv.performs {c : Consumer} {op : Op} {rest : List Op} {store : Store} (h : Inv run_id s)
    (hturns : Turns s) (hrun : s.run = some c) (halive : c.alive = true)
    (htodo : c.todo = op :: rest) (hstore : s.store.apply run_id (.run c.seq) op = some store) :
    Inv run_id { s with store := store, run := some (c.did op) } := by
  cases op with
  | create stream =>
    obtain ⟨-, rfl⟩ := create_eq_some hstore
    exact h.did_create hturns hrun halive htodo
  | publish stream =>
    rw [← Option.some.inj hstore]
    exact h.did_publish hturns hrun halive
  | unlink stream =>
    rw [← Option.some.inj hstore]
    exact h.did_unlink hturns hrun halive
  | remove stream =>
    rw [← Option.some.inj hstore]
    exact h.did_remove hturns hrun halive htodo

/-! ## The end of a consumer -/

/-- A consumer that ends: the streams it leaves are covered, if it ends well or is through. -/
theorem Inv.ends {c c' : Consumer} {store : Store} (h : Inv run_id s) (hturns : Turns s)
    (hrun : s.run = some c) (halive : c.alive = true) (hseq : c'.seq = c.seq)
    (hsegments : ∀ n r, store.segments n = some (.run r) → s.store.segments n = some (.run r))
    (hread : ∀ file, store.read .control file = s.store.read .control file)
    (hheld : ∀ n, store.segments n = some (.run c.seq) → ∃ stream, Op.create stream ∈ c'.done ∧
      Op.unlink stream ∉ c'.done ∧ stream.shm_name run_id = n)
    (hpublish : ∀ stream, Op.publish stream ∈ c'.done → Op.publish stream ∈ c.done)
    (hwell : c.todo ≠ [] → c'.LeavesControlOnly) :
    Inv run_id { s with store := store, run := some c' } where
  current := by
    intro n r hn
    obtain ⟨x, hx, hr⟩ := h.current n r (hsegments n r hn)
    rw [hrun, Option.some.injEq] at hx
    exact ⟨c', rfl, by rw [hseq, hx, hr]⟩
  held := by
    intro x n hx hn
    rw [← Option.some.inj hx] at hn ⊢
    rw [hseq] at hn
    exact hheld n hn
  published := by
    intro x stream hx hpc hsub hmem
    rw [← Option.some.inj hx] at hmem
    exact hread stream.file ▸ h.published c stream hrun hpc hsub (hpublish stream hmem)
  entries := by
    intro file entry hentry
    exact h.entries file entry ((hread file).symm.trans hentry)
  dead := by
    intro x n hx _ hn
    rw [← Option.some.inj hx, hseq] at hn
    -- A consumer that is through has nothing left; one that is cut short leaves, by `hwell`, what
    -- the sweep finds.
    by_cases htodo : c.todo = []
    · exact absurd (hsegments n c.seq hn) (h.finished hturns hrun halive htodo n)
    · obtain ⟨file, entry, hentry, hname, hahead⟩ := h.covered hturns hrun halive
        (fun stream hc hu => ⟨(hwell htodo stream hc hu).1,
          hpublish stream (hwell htodo stream hc hu).2⟩) (hheld n hn)
      exact ⟨file, entry, (hread file).trans hentry, hname, hahead⟩

/-- It is killed, or an exception of a creation ends it. -/
theorem Inv.died {c : Consumer} (h : Inv run_id s) (hturns : Turns s) (hrun : s.run = some c)
    (halive : c.alive = true)
    (hwell : EndsWell s { s with run := some { c with alive := false } }) :
    Inv run_id { s with run := some { c with alive := false } } := by
  refine h.ends hturns hrun halive rfl (fun n r hn => hn) (fun file => rfl) ?_ (fun _ hp => hp) ?_
  · exact fun n hn => h.held c n hrun hn
  · exact fun htodo => hwell c _ hrun halive htodo rfl rfl

/-- An exception of `publish` ends the consumer, after the segment was released; what it still holds
then is what the condition is about. -/
theorem Inv.unpublished {c : Consumer} {stream : Stream} (h : Inv run_id s)
    (hturns : Turns s) (hrun : s.run = some c) (halive : c.alive = true)
    (hwell : EndsWell s { s with
      store := s.store.unlink (stream.shm_name run_id)
      run := some { c.did (.unlink stream) with alive := false } }) :
    Inv run_id { s with
      store := s.store.unlink (stream.shm_name run_id)
      run := some { c.did (.unlink stream) with alive := false } } := by
  refine h.ends hturns hrun halive rfl (fun n r hn => (segments_unlink_eq_some hn).2)
    (fun file => rfl) ?_ ?_ ?_
  · intro n hn
    obtain ⟨hname, hold⟩ := segments_unlink_eq_some hn
    exact h.held_unlink hrun hname hold
  · intro other hmem
    obtain hold | hnew := mem_did.1 hmem
    · exact hold
    · exact absurd hnew (by simp)
  · exact fun htodo => hwell c _ hrun halive htodo rfl rfl

/-! ## The sweep -/

/-- A step of the sweep, or its beginning: what is left stays covered. -/
theorem Inv.sweeps {c : Consumer} {store : Store} {files : List String} {unlinked : Bool}
    (h : Inv run_id s) (hrun : s.run = some c)
    (hsegments : ∀ n r, store.segments n = some (.run r) → s.store.segments n = some (.run r))
    (hread : ∀ file entry, store.read .control file = some entry →
      s.store.read .control file = some entry)
    (hcovered : ∀ n, store.segments n = some (.run c.seq) →
      Covered { s with store := store, pc := .sweeping files unlinked } n) :
    Inv run_id { s with store := store, pc := .sweeping files unlinked } where
  current := fun n r hn => h.current n r (hsegments n r hn)
  held := fun x n hx hn => h.held x n hx (hsegments n x.seq hn)
  published := fun x stream _ hpc => absurd hpc (by simp)
  entries := fun file entry hentry => h.entries file entry (hread file entry hentry)
  dead := by
    intro x n hx _ hn
    rw [Option.some.inj (hx.symm.trans hrun)] at hn
    exact hcovered n hn

theorem Inv.reaped {c : Consumer} {files : List String} (h : Inv run_id s)
    (hrun : s.run = some c) (hdead : c.alive = false)
    (hfiles : ∀ file ∈ (s.store.manifests .control).keys, file ∈ files) :
    Inv run_id { s with pc := .sweeping files false } := by
  refine h.sweeps hrun (fun n r hn => hn) (fun file entry he => he) ?_
  intro n hn
  obtain ⟨file, entry, hentry, hname, -⟩ := h.dead c n hrun hdead hn
  refine ⟨file, entry, hentry, hname, hfiles file ?_⟩
  rw [← AList.mem_keys, ← AList.lookup_isSome]
  exact Option.isSome_of_eq_some hentry

/-- The segment a manifest names is unlinked, and the manifests of the others are ahead. -/
theorem Inv.unlinked {c : Consumer} {file : String} {files : List String} {entry : RegistryEntry}
    (h : Inv run_id s) (hrun : s.run = some c) (hdead : c.alive = false)
    (hpc : s.pc = .sweeping (file :: files) false)
    (hentry : s.store.read .control file = some entry) :
    Inv run_id { s with
      store := s.store.unlink entry.shm_name
      pc := .sweeping (file :: files) true } := by
  refine h.sweeps hrun (fun n r hn => (segments_unlink_eq_some hn).2)
    (fun _ _ he => he) ?_
  intro n hn
  obtain ⟨hne, hold⟩ := segments_unlink_eq_some hn
  obtain ⟨other, found, hfound, hname, hahead⟩ := h.dead c n hrun hdead hold
  rw [hpc] at hahead
  -- The segment that is left is not the one just unlinked, so its manifest is another one.
  have hother : other ≠ file := by
    rintro rfl
    rw [hentry, Option.some.injEq] at hfound
    exact hne (by rw [← hname, hfound])
  exact ⟨other, found, hfound, hname, (List.mem_cons.1 hahead).resolve_left hother, hother⟩

/-- A file that is no manifest is passed over by the sweep: what the dead consumer has left is under
the files that are still ahead. -/
theorem Inv.passed {c : Consumer} {file : String} {files : List String} (h : Inv run_id s)
    (hrun : s.run = some c) (hdead : c.alive = false)
    (hpc : s.pc = .sweeping (file :: files) false) (hnone : s.store.read .control file = none) :
    Inv run_id { s with pc := .sweeping (file :: files) true } := by
  refine h.sweeps hrun (fun n r hn => hn) (fun _ _ he => he) ?_
  intro n hn
  obtain ⟨other, found, hfound, hname, hahead⟩ := h.dead c n hrun hdead hn
  rw [hpc] at hahead
  have hother : other ≠ file := by
    rintro rfl
    rw [hnone] at hfound
    exact absurd hfound (by simp)
  exact ⟨other, found, hfound, hname, (List.mem_cons.1 hahead).resolve_left hother, hother⟩

/-- The manifest whose segment is gone is removed, after which it need not be looked at again. -/
theorem Inv.removed {c : Consumer} {file : String} {files : List String} (h : Inv run_id s)
    (hrun : s.run = some c) (hdead : c.alive = false)
    (hpc : s.pc = .sweeping (file :: files) true) :
    Inv run_id { s with store := s.store.remove .control file, pc := .sweeping files false } := by
  refine h.sweeps hrun (fun n r hn => hn)
    (fun other found he => (read_remove_eq_some he).2) ?_
  intro n hn
  obtain ⟨other, found, hfound, hname, hahead⟩ := h.dead c n hrun hdead hn
  rw [hpc] at hahead
  -- Removing one manifest keeps the others, and what is covered relies on the others only.
  obtain ⟨hmem, hne⟩ := hahead
  refine ⟨other, found, ?_, hname, hmem⟩
  exact (read_remove_ne (by simpa using hne)).trans hfound

/-- At the end of the sweep nothing is left of the run. -/
theorem Inv.nothing_left {unlinked : Bool} (h : Inv run_id s) (hturns : Turns s)
    (hpc : s.pc = .sweeping [] unlinked) (n : String) (r : ℕ) :
    s.store.segments n ≠ some (.run r) := by
  intro hn
  obtain ⟨c, hrun, hdead⟩ := hturns.sweeping [] unlinked hpc
  obtain ⟨x, hx, hseq⟩ := h.current n r hn
  rw [hrun, Option.some.injEq] at hx
  obtain ⟨file, entry, -, -, hahead⟩ := h.dead c n hrun hdead (by rw [hx, hseq]; exact hn)
  rw [hpc] at hahead
  -- No manifest is ahead of a sweep that is through, so nothing can be covered.
  cases unlinked with
  | false => exact absurd hahead (by simp [Pc.Ahead])
  | true => exact hahead

/-- No run: nothing to hold, and nobody is dead. -/
theorem Inv.of_none {seq sweeps : ℕ} (h : Inv run_id s)
    (hnone : ∀ n r, s.store.segments n ≠ some (.run r)) :
    Inv run_id { s with run := none, pc := .serving, sweeps := sweeps, seq := seq } where
  current := fun n r hn => absurd hn (hnone n r)
  held := fun c n hc => absurd hc (by simp)
  published := fun c stream hc => absurd hc (by simp)
  entries := h.entries
  dead := fun c n hc => absurd hc (by simp)

/-- A new consumer has done nothing, and nothing is left of the runs before. -/
theorem Inv.start {plan : Plan} {inbox : String → ℕ} (h : Inv run_id s) (hrun : s.run = none) :
    Inv run_id { s with
      run := some ⟨s.seq + 1, [], plan.program, true⟩
      seq := s.seq + 1
      inbox := inbox } := by
  -- By `current` segments belong to the run there is, and there is none.
  have hnone : ∀ n r, s.store.segments n ≠ some (.run r) := by
    intro n r hn
    obtain ⟨c, hc, -⟩ := h.current n r hn
    rw [hrun] at hc
    exact absurd hc (by simp)
  refine ⟨fun n r hn => absurd hn (hnone n r), fun c n _ hn => absurd hn (hnone n _), ?_,
    h.entries, ?_⟩
  · intro c stream hc _ _ hmem
    rw [← Option.some.inj hc] at hmem
    exact absurd hmem (by simp)
  · intro c n hc hdead
    rw [← Option.some.inj hc] at hdead
    exact absurd hdead (by simp)

/-! ## Everybody else -/

/-- A step that adds no segment of a run and leaves the control manifests alone. -/
theorem Inv.frame {store : Store} {inbox : String → ℕ} {pass : String → Pass} (h : Inv run_id s)
    (hsegments : ∀ n r, store.segments n = some (.run r) → s.store.segments n = some (.run r))
    (hread : ∀ file, store.read .control file = s.store.read .control file) :
    Inv run_id { s with store := store, inbox := inbox, pass := pass } where
  current := fun n r hn => h.current n r (hsegments n r hn)
  held := fun x n hx hn => h.held x n hx (hsegments n x.seq hn)
  published := by
    intro c stream hc hpc hsub hmem
    exact hread stream.file ▸ h.published c stream hc hpc hsub hmem
  entries := fun file entry hentry => h.entries file entry ((hread file).symm.trans hentry)
  dead := by
    intro c n hc hdead hn
    obtain ⟨file, entry, hentry, hname, hahead⟩ := h.dead c n hc hdead (hsegments n c.seq hn)
    exact ⟨file, entry, (hread file).trans hentry, hname, hahead⟩

/-- A telemetry producer adds no segment of a run: whatever it creates is marked as telemetry's own.
-/
theorem telemetry_segments {op : Op} {store : Store}
    (hstore : s.store.apply run_id .telemetry op = some store) {n : String} {r : ℕ}
    (hn : store.segments n = some (.run r)) : s.store.segments n = some (.run r) := by
  cases op with
  | create stream =>
    obtain ⟨-, rfl⟩ := create_eq_some hstore
    dsimp only at hn
    by_cases hname : n = stream.shm_name run_id
    · rw [hname, Function.update_self] at hn
      exact absurd hn (by simp)
    · rwa [Function.update_of_ne hname] at hn
  | publish stream =>
    rw [← Option.some.inj hstore] at hn
    exact hn
  | unlink stream =>
    rw [← Option.some.inj hstore] at hn
    exact (segments_unlink_eq_some hn).2
  | remove stream =>
    rw [← Option.some.inj hstore] at hn
    exact hn

/-! ## Runs -/

theorem Inv.move (h : Inv run_id s) (hturns : Turns s) (hmove : Move run_id telemetry s s')
    (hwell : EndsWell s s') :
    Inv run_id s' := by
  cases hmove with
  | start plan inbox hrun _ => exact h.start hrun
  | did c op rest store hrun halive htodo hstore => exact h.performs hturns hrun halive htodo hstore
  | blocked c op rest hrun halive => exact h.died hturns hrun halive hwell
  | unpublished c stream rest hrun halive => exact h.unpublished hturns hrun halive hwell
  | died c hrun halive => exact h.died hturns hrun halive hwell
  | reaped c files hrun hdead _ _ hfiles => exact h.reaped hrun hdead hfiles
  | unlinked file files entry hpc hentry =>
    obtain ⟨c, hrun, hdead⟩ := hturns.sweeping _ _ hpc
    exact h.unlinked hrun hdead hpc hentry
  | passed file files hpc hnone =>
    obtain ⟨c, hrun, hdead⟩ := hturns.sweeping _ _ hpc
    exact h.passed hrun hdead hpc hnone
  | removed file files hpc =>
    obtain ⟨c, hrun, hdead⟩ := hturns.sweeping _ _ hpc
    exact h.removed hrun hdead hpc
  | swept unlinked hpc => exact h.of_none (h.nothing_left hturns hpc)
  -- The others neither add segments of a run nor touch the control manifests.
  | telemetry op stream store hop hsub _ hstore =>
    exact h.frame (fun n r hn => telemetry_segments hstore hn) (telemetry_read hop hsub hstore)
  | arm inbox pass _ => exact h.frame (fun n r hn => hn) (fun file => rfl)

theorem inv_reachable (h : Relation.ReflTransGen (WellStep run_id telemetry) .init s) :
    Turns s ∧ Inv run_id s := by
  induction h with
  | refl => exact ⟨turns_init, inv_init⟩
  | tail _ hstep ih =>
    obtain ⟨⟨act, hact⟩, hwell⟩ := hstep
    obtain ⟨hturns, hinv⟩ := ih
    exact ⟨hturns.move (step_move hact), hinv.move hturns (step_move hact) hwell⟩

end Leaks

/-! ## Checking a run -/

/-- What is left of a stream the consumer has created, if anything, is a control channel. -/
def Consumer.leaves_control (c : Consumer) : Op → Bool
  | .create s =>
    decide (.unlink s ∈ c.done) || (decide (s.sub = .control) && decide (.publish s ∈ c.done))
  | _ => true

theorem leaves_control_iff {c : Consumer} :
    c.done.all c.leaves_control = true ↔ c.LeavesControlOnly := by
  rw [List.all_eq_true]
  constructor
  · intro h s hcreate hunlink
    have hs := h _ hcreate
    simpa [Consumer.leaves_control, hunlink] using hs
  · intro h op hop
    cases op with
    | create s =>
      by_cases hunlink : Op.unlink s ∈ c.done
      · simp [Consumer.leaves_control, hunlink]
      · simpa [Consumer.leaves_control, hunlink] using h s hop hunlink
    | publish s => rfl
    | unlink s => rfl
    | remove s => rfl

instance (c : Consumer) : Decidable c.LeavesControlOnly := decidable_of_iff _ leaves_control_iff

theorem endsWell_iff {s s' : State} :
    (s.run.all fun c => s'.run.all fun c' =>
      !c.alive || c.todo.isEmpty || c'.alive || decide c'.LeavesControlOnly) = true ↔
      EndsWell s s' := by
  unfold EndsWell
  cases hrun : s.run with
  | none => simp
  | some c =>
    cases hrun' : s'.run with
    | none => simp
    | some c' =>
      rw [Option.all_some, Option.all_some]
      constructor
      · rintro h x x' hx halive htodo hx' hdead
        rw [← Option.some.inj hx] at halive htodo
        rw [← Option.some.inj hx'] at hdead ⊢
        simpa [halive, hdead, htodo] using h
      · intro h
        by_cases hends : c.alive = true ∧ c.todo ≠ [] ∧ c'.alive = false
        · simp [h c c' rfl hends.1 hends.2.1 rfl hends.2.2]
        · simp only [Bool.or_eq_true]
          grind

instance (s s' : State) : Decidable (EndsWell s s') := decidable_of_iff _ endsWell_iff

/-- Some steps in which no consumer ends badly. -/
def well_steps (run_id : String) (telemetry : List String) (s : State) :
    List Act → Option State
  | [] => some s
  | act :: acts => (step run_id telemetry s act).bind fun s' =>
    if EndsWell s s' then well_steps run_id telemetry s' acts else none

theorem well_steps_reach {run_id : String} {telemetry : List String} {s s' : State}
    {acts : List Act} (h : well_steps run_id telemetry s acts = some s') :
    Relation.ReflTransGen (WellStep run_id telemetry) s s' := by
  induction acts generalizing s with
  | nil =>
    rw [← Option.some.inj h]
  | cons act acts ih =>
    obtain ⟨mid, hmid, hrest⟩ := Option.bind_eq_some_iff.1 h
    by_cases hwell : EndsWell s mid
    · rw [if_pos hwell] at hrest
      exact .head ⟨⟨act, hmid⟩, hwell⟩ (ih hrest)
    · rw [if_neg hwell] at hrest
      exact absurd hrest (by simp)

/-! ## The next run -/

/-- The consumer's next creation fails, on a segment that an earlier run's consumer created. -/
def BlockedByEarlier (run_id : String) (s : State) : Prop :=
  ∃ c stream rest r, s.run = some c ∧ c.alive = true ∧ c.todo = .create stream :: rest ∧
    s.store.segments (stream.shm_name run_id) = some (.run r) ∧ r < c.seq

/-- As long as every consumer that ends early leaves only control channels with a manifest, no
creation of a later run fails on what an earlier one has left. -/
theorem next_run_not_blocked {run_id : String} {telemetry : List String} {s : State}
    (h : Relation.ReflTransGen (WellStep run_id telemetry) .init s) :
    ¬ BlockedByEarlier run_id s := by
  rintro ⟨c, stream, rest, r, hrun, -, -, hsegment, hearlier⟩
  obtain ⟨current, hcurrent, hseq⟩ := (inv_reachable h).2.current _ r hsegment
  rw [hrun, Option.some.injEq] at hcurrent
  rw [← hseq, hcurrent] at hearlier
  exact absurd hearlier (lt_irrefl _)

/-- A collection run of one arm whose consumer is killed while it closes its channels, the
sweep after it, and the next run. -/
def killed_collection : List Act :=
  [.start (collection_plan [⟨"left", true, false, none⟩]) ["left"], .perform, .perform, .perform,
    .perform, .perform, .die, .reap ["cmd_left_setpoint", "cmd_left_command"], .sweep_segment,
    .sweep_manifest, .sweep_segment, .sweep_manifest, .swept,
    .start (collection_plan [⟨"left", true, false, none⟩]) ["left"]]

/-- The channel it had not closed yet is swept, and its successor can create it again. -/
theorem next_collection_not_blocked : ∃ s c stream rest,
    well_steps "s" [] .init killed_collection = some s ∧ s.run = some c ∧ c.seq = 2 ∧
      c.todo = .create stream :: rest ∧ ¬ BlockedByEarlier "s" s := by
  have hrun : (well_steps "s" [] .init killed_collection).map State.run =
      some (some ⟨2, [], (collection_plan [⟨"left", true, false, none⟩]).program, true⟩) := by
    decide +kernel
  obtain ⟨s, hs, hc⟩ := Option.map_eq_some_iff.1 hrun
  exact ⟨s, _, _, _, hs, hc, rfl, rfl, next_run_not_blocked (well_steps_reach hs)⟩

/-- A skill run whose consumer is killed after it has created its horizon stream, the sweep
after it, and the next run up to that stream. -/
def killed_skill : List Act :=
  [.start (skill_plan ["left"]) ["left"], .perform, .perform, .perform, .perform, .perform, .die,
    .reap ["cmd_left_setpoint", "cmd_left_command"], .sweep_segment, .sweep_manifest,
    .sweep_segment, .sweep_manifest, .swept, .start (skill_plan ["left"]) ["left"], .perform,
    .perform, .perform, .perform]

/-- The horizon segment is not in the control registry, and blocks the next run. -/
theorem horizon_blocks_next_run :
    ∃ s, steps "s" [] .init killed_skill = some s ∧ BlockedByEarlier "s" s := by
  have hrun : (steps "s" [] .init killed_skill).map
      (fun s => (s.run, s.store.segments ((horizon_stream "left" .q).shm_name "s"))) =
      some (some ⟨2, (skill_plan ["left"]).program.take 4, (skill_plan ["left"]).program.drop 4,
        true⟩, some (.run 1)) := by
    decide +kernel
  obtain ⟨s, hs, hstate⟩ := Option.map_eq_some_iff.1 hrun
  obtain ⟨hc, hsegment⟩ := Prod.mk.inj hstate
  exact ⟨s, hs, _, _, _, 1, hc, rfl, rfl, hsegment, by decide⟩

end DualFlexivControl.Consumers
