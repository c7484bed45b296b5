/-
Which run's message an attached arm executes.

A start is accepted on the word of the status stream, and that word can be old: an arm that
has taken an `EnterControl` says so only at its next tick, and one that has not taken it yet
does not say anything. If the run of that message is over by then, the arm goes on to wait
for channels with the old coefficients, and the channels it finds are the next run's.

Where no accepted start leaves such an arm behind ([`SettledStart`]) every session runs with
its own run's message. The invariant ([`SideOwn`]) follows two things per side: that every
message still on its way is of the last run that commanded the side, and that a segment an
arm may still open by name belongs to that same run.
-/
import DualFlexivControl.Session.Protocol

set_option autoImplicit false

namespace DualFlexivControl.Session

variable {Side M : Type}

/-- No session, or one that has attached everything it will. -/
def Settled (node : Node M) : Prop := ∀ c, node = .session c → c.stage = .running

/-- An accepted start finds the arms it commands with an empty queue and settled. -/
def SettledStart (s : State Side M) (act : Act Side M) : Prop :=
  ∀ cmd, act = .daemon (.start cmd) → ∀ side ∈ cmd.command_sides,
    (s.sides side).queue.pending = [] ∧ Settled (s.sides side).node

/-! ## The invariant -/

/-- A segment that is the last run's, or none. -/
def SideState.Own (x : SideState M) (ch : Chan) : Prop :=
  x.segments ch = none ∨ x.segments ch = some x.last

/-- The active run, if it commands the side. -/
def Commands (run : Option (ActiveRun Side)) (side : Side) (seq : ℕ) : Prop :=
  ∃ r, run = some r ∧ side ∈ r.command_sides ∧ r.seq = seq

@[simp] theorem not_commands_none (side : Side) (seq : ℕ) : ¬ Commands none side seq := by
  simp [Commands]

/-- Whether a run is being stopped, or its consumer is alive, does not matter here. -/
theorem commands_map {run : Option (ActiveRun Side)} {f : ActiveRun Side → ActiveRun Side}
    (hf : ∀ r, (f r).seq = r.seq ∧ (f r).command_sides = r.command_sides) (side : Side)
    (seq : ℕ) : Commands (run.map f) side seq ↔ Commands run side seq := by
  cases run with
  | none => rfl
  | some r => simp [Commands, hf r]

/-- What a start that is under way knows of a side. -/
structure Starting (d : Daemon Side M) (side : Side) (x : SideState M) (cmd : StartCmd Side M)
    (remaining : List Side) : Prop where
  run_none : d.run = none
  sent : d.sent d.run_seq = some cmd.content
  nodup : remaining.Nodup
  messaged : side ∈ cmd.command_sides → side ∈ remaining ∨ x.last = d.run_seq
  quiet : side ∈ remaining → x.queue.pending = [] ∧ Settled x.node

/-- Everything a side still has to do, it does for the last run that commanded it. -/
structure SideOwn (d : Daemon Side M) (side : Side) (x : SideState M) : Prop where
  pending_last : ∀ m ∈ x.queue.pending, m.run = x.last
  pending_sent : ∀ m ∈ x.queue.pending, d.sent m.run = some m.content
  session_le : ∀ c, x.node = .session c → c.msg.run ≤ x.last
  session_last : ∀ c, x.node = .session c → c.stage ≠ .running → c.msg.run = x.last
  session_sent : ∀ c, x.node = .session c → d.sent c.msg.run = some c.msg.content
  readers_own : ∀ c, x.node = .session c → ∀ r ∈ c.readers, r = c.msg.run
  looked_own : ∀ c, x.node = .session c → ∀ ch ∈ c.stage.looked, x.Own ch
  manifest_own : ∀ ch, (x.manifests ch).isSome → x.Own ch ∧ Commands d.run side x.last
  last_le : x.last ≤ d.run_seq
  commanded : ∀ seq, Commands d.run side seq → seq = x.last
  starting : ∀ cmd remaining, d.pc = .starting cmd remaining →
    Starting d side x cmd remaining

/-- All sides do. -/
def Owned (s : State Side M) : Prop := ∀ side, SideOwn s.toDaemon side (s.sides side)

section Side

variable {d d' : Daemon Side M} {side : Side} {x x' : SideState M}

/-- A change that only forgets: messages are taken away, a session ends or stays. -/
structure Forgets (x x' : SideState M) : Prop where
  node : x'.node = x.node ∨ ∀ c, x'.node ≠ .session c
  pending : ∀ m ∈ x'.queue.pending, m ∈ x.queue.pending
  last : x'.last = x.last
  segments : x'.segments = x.segments
  manifests : x'.manifests = x.manifests

theorem SideOwn.forget (h : SideOwn d side x) (hx : Forgets x x') : SideOwn d side x' := by
  obtain ⟨hnode, hpending, hlast, hsegments, hmanifests⟩ := hx
  -- nobody enters a session by forgetting
  have hsession : ∀ c, x'.node = .session c → x.node = .session c := by
    intro c hc
    obtain hsame | hnone := hnode
    · rw [← hsame, hc]
    · exact absurd hc (hnone c)
  have hown : ∀ ch, x.Own ch → x'.Own ch := by
    intro ch
    unfold SideState.Own
    rw [hsegments, hlast]
    exact id
  exact {
    pending_last := fun m hm => by rw [hlast, h.pending_last m (hpending m hm)]
    pending_sent := fun m hm => h.pending_sent m (hpending m hm)
    session_le := fun c hc => by rw [hlast]; exact h.session_le c (hsession c hc)
    session_last := fun c hc hrun => by rw [hlast, h.session_last c (hsession c hc) hrun]
    session_sent := fun c hc => h.session_sent c (hsession c hc)
    readers_own := fun c hc => h.readers_own c (hsession c hc)
    looked_own := fun c hc ch hch => hown ch (h.looked_own c (hsession c hc) ch hch)
    manifest_own := fun ch hch => by
      rw [hmanifests] at hch
      rw [hlast]
      exact ⟨hown ch (h.manifest_own ch hch).1, (h.manifest_own ch hch).2⟩
    last_le := by rw [hlast]; exact h.last_le
    commanded := fun seq hseq => by rw [hlast]; exact h.commanded seq hseq
    starting := fun cmd remaining hpc => by
      have hstart := h.starting cmd remaining hpc
      exact {
        run_none := hstart.run_none
        sent := hstart.sent
        nodup := hstart.nodup
        messaged := by rw [hlast]; exact hstart.messaged
        quiet := fun hside => by
          obtain ⟨hempty, hsettled⟩ := hstart.quiet hside
          refine ⟨?_, fun c hc => hsettled c (hsession c hc)⟩
          apply List.eq_nil_iff_forall_not_mem.2
          intro m hm
          simpa [hempty] using hpending m hm } }

/-- The daemon goes on, without touching the side or what it knows of its run. -/
theorem SideOwn.daemon (h : SideOwn d side x)
    (hrun : ∀ seq, Commands d'.run side seq ↔ Commands d.run side seq)
    (hseq : d'.run_seq = d.run_seq) (hsent : d'.sent = d.sent)
    (hstart : ∀ cmd remaining, d'.pc = .starting cmd remaining →
      Starting d' side x cmd remaining) : SideOwn d' side x :=
  { h with
    pending_sent := by rw [hsent]; exact h.pending_sent
    session_sent := by rw [hsent]; exact h.session_sent
    manifest_own := fun ch hch => ⟨(h.manifest_own ch hch).1, (hrun _).2 (h.manifest_own ch hch).2⟩
    last_le := by rw [hseq]; exact h.last_le
    commanded := fun seq hc => h.commanded seq ((hrun seq).1 hc)
    starting := hstart }

/-- A session goes on: what it opens next, it has looked up. -/
theorem SideOwn.advance (h : SideOwn d side x) {c : ControlSession M} {next : Stage}
    {readers : List ℕ} (hnode : x.node = .session c) (hrun : c.stage ≠ .running)
    (hreaders : ∀ r ∈ readers, r = c.msg.run)
    (hlook : ∀ ch ∈ next.looked, x.Own ch) :
    SideOwn d side { x with node := .session ⟨c.msg, next, readers⟩ } where
  pending_last := h.pending_last
  pending_sent := h.pending_sent
  session_le c' hc' := by
    cases hc'
    exact h.session_le c hnode
  session_last c' hc' _ := by
    cases hc'
    exact h.session_last c hnode hrun
  session_sent c' hc' := by
    cases hc'
    exact h.session_sent c hnode
  readers_own c' hc' := by
    cases hc'
    exact hreaders
  looked_own c' hc' := by
    cases hc'
    exact hlook
  manifest_own := h.manifest_own
  last_le := h.last_le
  commanded := h.commanded
  starting cmd remaining hpc :=
    { h.starting cmd remaining hpc with
      quiet := fun hside =>
        -- an arm the start has still to message is settled, and this one is not
        absurd (((h.starting cmd remaining hpc).quiet hside).2 c hnode) hrun }

/-- An arm's move keeps what is known of its side: it takes the head of its queue, attaches, or
ends, and puts nothing. -/
theorem SideOwn.arm_move (h : SideOwn d side x) (hmove : ArmMove x x') : SideOwn d side x' := by
  cases hmove with
  | publish b => exact h.forget ⟨.inl rfl, fun _ hm => hm, rfl, rfl, rfl⟩
  -- the message polled is a pending one, so its run is the last that was put
  | poll m q stage hget hstage =>
    have hpending := x.queue.pending_get hget
    have hm : m ∈ x.queue.pending := by simp [hpending]
    have hq : ∀ m' ∈ q.pending, m' ∈ x.queue.pending := by
      intro m' hm'
      simp [hpending, hm']
    exact {
      pending_last := fun m' hm' => h.pending_last m' (hq m' hm')
      pending_sent := fun m' hm' => h.pending_sent m' (hq m' hm')
      session_le := fun c hc => by
        cases hc
        exact Nat.le_of_eq (h.pending_last m hm)
      session_last := fun c hc _ => by
        cases hc
        exact h.pending_last m hm
      session_sent := fun c hc => by
        cases hc
        exact h.pending_sent m hm
      readers_own := fun c hc => by
        cases hc
        simp
      looked_own := fun c hc => by
        cases hc
        simp [hstage]
      manifest_own := h.manifest_own
      last_le := h.last_le
      commanded := h.commanded
      starting := fun cmd remaining hpc =>
        { h.starting cmd remaining hpc with
          quiet := fun hside => by
            have hempty := ((h.starting cmd remaining hpc).quiet hside).1
            rw [hempty] at hm
            cases hm } }
  | advance c next hnode hrun hlook =>
    apply h.advance hnode hrun (h.readers_own c hnode)
    intro ch hch
    obtain hlooked | hfound := hlook ch hch
    · exact h.looked_own c hnode ch hlooked
    · exact (h.manifest_own ch hfound).1
  -- the reader that is added is the one of the looked-up segment
  | attach c ch r next hnode hrun hch hseg hlook =>
    apply h.advance hnode hrun
    · intro r' hr'
      rw [List.mem_append, List.mem_singleton] at hr'
      obtain hr' | rfl := hr'
      · exact h.readers_own c hnode r' hr'
      · -- the segment has the last run's owner, and so has the message
        have hown := h.looked_own c hnode ch hch
        unfold SideState.Own at hown
        rw [hseg, h.session_last c hnode hrun |>.symm] at hown
        simpa using hown
    · intro ch' hch'
      exact h.looked_own c hnode ch' (hlook ch' hch')
  | leave node hnode => exact h.forget ⟨.inr hnode, fun _ hm => hm, rfl, rfl, rfl⟩

/-- Only the channels change, and an own segment stays own. -/
theorem SideOwn.channels (h : SideOwn d side x) {segments manifests : Chan → Option ℕ}
    (hown : ∀ ch, x.Own ch → segments ch = none ∨ segments ch = some x.last)
    (hmanifest : ∀ ch, (manifests ch).isSome →
      (segments ch = none ∨ segments ch = some x.last) ∧ Commands d.run side x.last) :
    SideOwn d side { x with segments := segments, manifests := manifests } :=
  { h with
    looked_own := fun c hc ch hch => hown ch (h.looked_own c hc ch hch)
    manifest_own := hmanifest
    starting := fun cmd remaining hpc => { h.starting cmd remaining hpc with } }

/-- One segment is created by the last run that commanded the side, or unlinked. -/
theorem SideOwn.segment (h : SideOwn d side x) (c : Chan) {segment : Option ℕ}
    (hsegment : segment = none ∨ segment = some x.last) :
    SideOwn d side { x with segments := Function.update x.segments c segment } := by
  have hown : ∀ ch, x.Own ch → Function.update x.segments c segment ch = none ∨
      Function.update x.segments c segment ch = some x.last := by
    intro ch hch
    by_cases hc : ch = c
    · rw [hc, Function.update_self]
      exact hsegment
    · rw [Function.update_of_ne hc]
      exact hch
  exact h.channels hown fun ch hch =>
    ⟨hown ch (h.manifest_own ch hch).1, (h.manifest_own ch hch).2⟩

/-- The consumer's step: its run is the last one that commanded the side. -/
theorem SideOwn.consumer_step (h : SideOwn d side x) {seq : ℕ} (hrun : Commands d.run side seq)
    {act : ConsumerAct} (hstep : Session.consumer_step seq x act = some x') :
    SideOwn d side x' := by
  have hseq : seq = x.last := h.commanded seq hrun
  subst hseq
  cases act with
  | create c =>
    simp only [Session.consumer_step] at hstep
    split at hstep <;> cases hstep
    exact h.segment c (.inr rfl)
  | publish c =>
    simp only [Session.consumer_step] at hstep
    split at hstep <;> cases hstep
    next hsegment =>
      apply h.channels (fun ch hch => hch)
      intro ch hch
      by_cases hc : ch = c
      · subst hc
        exact ⟨.inr hsegment, hrun⟩
      · rw [Function.update_of_ne hc] at hch
        exact h.manifest_own ch hch
  | unlink c =>
    simp only [Session.consumer_step] at hstep
    split at hstep <;> cases hstep
    exact h.segment c (.inl rfl)

/-- The sweep of a run that is over: no manifest is left. -/
theorem SideOwn.cleanup_sub (h : SideOwn d side x) (hpc : d.pc = .serving) :
    SideOwn { d with run := none } side (Session.cleanup_sub x) := by
  have hswept : SideOwn d side (Session.cleanup_sub x) := by
    apply h.channels
    · intro ch hch
      split
      · exact .inl rfl
      · exact hch
    · simp
  exact { hswept with
    manifest_own := by simp [Session.cleanup_sub]
    commanded := by simp
    starting := by simp [hpc] }

end Side

theorem owned_init : Owned (init : State Side M) := by
  intro side
  constructor <;> simp [init, FeederQueue.pending]

/-! ## The daemon's steps -/

section Steps

variable {arms : List Side} {s s' : State Side M} {side : Side} {x : SideState M}

/-- A start is accepted: what is on its way is of earlier runs, and `sent` keeps it. -/
theorem owned_start {cmd : StartCmd Side M} (hs : Owned s) (hrun : s.run = none)
    (hsettled : ∀ side ∈ cmd.command_sides,
      (s.sides side).queue.pending = [] ∧ Settled (s.sides side).node) (side : Side) :
    SideOwn
      { s.toDaemon with
        pc := .starting cmd cmd.command_sides
        run_seq := s.run_seq + 1
        sent := Function.update s.sent (s.run_seq + 1) (some cmd.content) }
      side (s.sides side) := by
  have h := hs side
  -- the new run's number is larger than any that was put
  have hsent : ∀ n ≤ (s.sides side).last,
      Function.update s.sent (s.run_seq + 1) (some cmd.content) n = s.sent n := by
    intro n hn
    have hlast := h.last_le
    exact Function.update_of_ne (by omega) _ _
  exact { h with
    pending_sent := fun m hm =>
      (hsent m.run (Nat.le_of_eq (h.pending_last m hm))).trans (h.pending_sent m hm)
    session_sent := fun c hc =>
      (hsent c.msg.run (h.session_le c hc)).trans (h.session_sent c hc)
    last_le := Nat.le_succ_of_le h.last_le
    starting := fun cmd' remaining hpc => by
      cases hpc
      exact {
        run_none := hrun
        sent := Function.update_self _ _ _
        nodup := cmd.nodup
        messaged := fun hside => .inl hside
        quiet := hsettled side } }

/-- The consumer is spawned: its run is the last one of every side it commands. -/
theorem owned_spawn {cmd : StartCmd Side M} (hs : Owned s) (hpc : s.pc = .starting cmd [])
    (side : Side) :
    SideOwn
      { s.toDaemon with
        run := some ⟨s.run_seq, cmd.phase, cmd.command_sides, false, true⟩
        pc := .serving } side (s.sides side) := by
  have h := hs side
  have hstart := h.starting cmd _ hpc
  exact { h with
    manifest_own := fun ch hch => by
      have hcommands := (h.manifest_own ch hch).2
      rw [hstart.run_none] at hcommands
      exact absurd hcommands (not_commands_none _ _)
    commanded := by
      rintro seq ⟨r, hr, hside, rfl⟩
      cases hr
      -- every arm of the run has been messaged by now
      obtain hremaining | hlast := hstart.messaged hside
      · cases hremaining
      · exact hlast.symm
    starting := by simp }

variable [DecidableEq Side]

theorem start_accepted_run {cmd : StartCmd Side M} (h : start_accepted arms s cmd = true) :
    s.run = none := by
  simp only [start_accepted, Bool.and_eq_true] at h
  simpa using h.1.1.1

/-- One side changes, the daemon does not. -/
theorem Owned.set (hs : Owned s) (hx : SideOwn s.toDaemon side x) : Owned (s.set side x) := by
  intro other
  by_cases h : other = side
  · subst h
    simpa using hx
  · simpa [h] using hs other

/-- One side changes, and the daemon in a way the others do not notice. -/
theorem Owned.set_daemon {d : Daemon Side M} (hs : Owned s) (hx : SideOwn d side x)
    (hrun : ∀ other seq, Commands d.run other seq ↔ Commands s.run other seq)
    (hseq : d.run_seq = s.run_seq) (hsent : d.sent = s.sent)
    (hstart : ∀ other, other ≠ side → ∀ cmd remaining, d.pc = .starting cmd remaining →
      Starting d other (s.sides other) cmd remaining) (other : Side) :
    SideOwn d other ((s.set side x).sides other) := by
  by_cases h : other = side
  · subst h
    simpa using hx
  · have hother := (hs other).daemon (hrun other) hseq hsent (hstart other h)
    simpa [h] using hother

/-- A put: the side now belongs to the run that is being started. -/
theorem owned_put {cmd : StartCmd Side M} {remaining : List Side} (hs : Owned s)
    (hpc : s.pc = .starting cmd (side :: remaining)) (other : Side) :
    SideOwn { s.toDaemon with pc := .starting cmd remaining } other
      ((s.set side { s.sides side with
        queue := (s.sides side).queue.put ⟨s.run_seq, (s.sides side).spawns, cmd.content⟩
        last := s.run_seq }).sides other) := by
  have h := hs side
  have hstart := h.starting cmd _ hpc
  -- the side is quiet until now, so its only message is the new one
  obtain ⟨hempty, hsettled⟩ := hstart.quiet (by simp)
  have hfresh : side ∉ remaining := (List.nodup_cons.1 hstart.nodup).1
  have hnodup : remaining.Nodup := (List.nodup_cons.1 hstart.nodup).2
  -- a manifest is of the active run, and there is none during a start
  have hmanifests : ∀ ch, ¬ ((s.sides side).manifests ch).isSome := by
    intro ch hch
    have hcommands := (h.manifest_own ch hch).2
    rw [hstart.run_none] at hcommands
    exact not_commands_none _ _ hcommands
  have hlooked : ∀ c, (s.sides side).node = .session c → c.stage.looked = [] := by
    intro c hc
    rw [hsettled c hc]
    rfl
  apply hs.set_daemon
  · exact {
      pending_last := by simp [hempty]
      pending_sent := by simp [hempty, hstart.sent]
      session_le := fun c hc => Nat.le_trans (h.session_le c hc) h.last_le
      session_last := fun c hc hrun => absurd (hsettled c hc) hrun
      session_sent := h.session_sent
      readers_own := h.readers_own
      looked_own := fun c hc ch hch => by simp [hlooked c hc] at hch
      manifest_own := fun ch hch => absurd hch (hmanifests ch)
      last_le := Nat.le_refl _
      commanded := by simp [hstart.run_none]
      starting := fun cmd' remaining' hpc' => by
        cases hpc'
        exact {
          run_none := hstart.run_none
          sent := hstart.sent
          nodup := hnodup
          messaged := fun _ => .inr rfl
          quiet := fun hside => absurd hside hfresh } }
  · exact fun _ _ => Iff.rfl
  · rfl
  · rfl
  · intro other hother cmd' remaining' hpc'
    cases hpc'
    have hstart' := (hs other).starting cmd _ hpc
    refine ⟨hstart'.run_none, hstart'.sent, hnodup, ?_,
      fun hside => hstart'.quiet (by simp [hside])⟩
    intro hside
    obtain hremaining | hlast := hstart'.messaged hside
    · left
      simpa [hother] using hremaining
    · exact .inr hlast

/-- A side that only forgets, and a daemon that at most stops its run. -/
theorem Owned.forget {d : Daemon Side M} (hs : Owned s) (hx : Forgets (s.sides side) x)
    (hrun : ∀ other seq, Commands d.run other seq ↔ Commands s.run other seq)
    (hseq : d.run_seq = s.run_seq) (hsent : d.sent = s.sent)
    (hpc : ∀ cmd remaining, d.pc ≠ .starting cmd remaining) (other : Side) :
    SideOwn d other ((s.set side x).sides other) :=
  hs.set_daemon
    (((hs side).forget hx).daemon (hrun side) hseq hsent fun cmd remaining h =>
      absurd h (hpc cmd remaining))
    hrun hseq hsent (fun _ _ cmd remaining h => absurd h (hpc cmd remaining)) other

/-- A new node executes nothing. -/
theorem forgets_make_arm_unit (down : Bool) :
    Forgets x (make_arm_unit { x with down := down }) where
  node := .inr (by simp [make_arm_unit])
  pending _ hm := hm
  last := rfl
  segments := rfl
  manifests := rfl

/-- Tending an arm keeps the invariant: a dead node is drained and respawned, and a live one is left
alone. -/
theorem owned_tend (hs : Owned s) (fresh due : Bool) : Owned (tend_arm s side fresh due) := by
  unfold tend_arm
  dsimp only
  split
  · exact hs.set ((hs side).forget ⟨.inl rfl, fun _ hm => hm, rfl, rfl, rfl⟩)
  · split
    · split
      · exact hs.set ((hs side).forget (forgets_make_arm_unit true))
      · exact hs.set ((hs side).forget ⟨.inl rfl, fun _ hm => hm, rfl, rfl, rfl⟩)
    · exact hs.forget ⟨.inl rfl, fun _ hm => hm, rfl, rfl, rfl⟩ (fun _ _ => Iff.rfl) rfl rfl
        (by simp)

/-- The rest of reaping an arm, after the drain: the node comes back idle, with an empty queue
before it. -/
theorem owned_reaped (hs : Owned s) (due : Bool) : Owned (reaped_arm s side due) := by
  have hrun : ∀ other seq, Commands (stop_for_dead_arm s.run side) other seq ↔
      Commands s.run other seq := by
    intro other seq
    apply commands_map
    intro r
    split <;> simp
  unfold reaped_arm
  refine hs.forget ?_ hrun rfl rfl (by simp)
  split
  · exact forgets_make_arm_unit true
  · exact ⟨.inl rfl, fun _ hm => hm, rfl, rfl, rfl⟩

/-- What one step of the daemon preserves, one case for each; the start is where the condition on
settled arms is used. -/
theorem owned_daemon_step {act : DaemonAct Side M} (hok : SettledStart s (.daemon act))
    (h : daemon_step arms s act = some s') (hs : Owned s) : Owned s' := by
  cases act with
  -- a start takes the condition: its sides are settled when it is accepted
  | start cmd =>
    simp only [daemon_step] at h
    split at h
    · split at h <;> cases h
      next haccept => exact owned_start hs (start_accepted_run haccept) (hok cmd rfl)
    · cases h
  | put =>
    simp only [daemon_step] at h
    split at h
    · next cmd side remaining hpc =>
      cases h
      exact owned_put hs hpc
    · cases h
  | spawn_consumer =>
    simp only [daemon_step] at h
    split at h
    · next cmd hpc =>
      cases h
      exact owned_spawn hs hpc
    · cases h
  | stop =>
    simp only [daemon_step] at h
    split at h <;> cases h
    next hpc =>
      intro side
      exact (hs side).daemon (commands_map (by simp) side) rfl rfl (by simp [hpc])
  | reap_consumer =>
    simp only [daemon_step] at h
    split at h
    · next hpc _ =>
      split at h <;> cases h
      exact fun side => (hs side).cleanup_sub hpc
    · cases h
  | tend side fresh due =>
    simp only [daemon_step] at h
    split at h <;> cases h
    exact owned_tend hs fresh due
  | reconnect side =>
    simp only [daemon_step] at h
    split at h
    · split at h <;> cases h
      intro other
      exact (hs other).daemon (fun _ => Iff.rfl) rfl rfl (by simp)
    · cases h
  -- a killed or drained side only forgets
  | kill =>
    simp only [daemon_step] at h
    split at h <;> cases h
    exact hs.forget ⟨.inr (by simp), fun _ hm => hm, rfl, rfl, rfl⟩ (fun _ _ => Iff.rfl) rfl rfl
      (by simp)
  | drain_get =>
    simp only [daemon_step] at h
    split at h
    · next side _ _ =>
      split at h <;> cases h
      next m q hget =>
        refine hs.set ((hs side).forget ⟨.inl rfl, ?_, rfl, rfl, rfl⟩)
        intro m' hm'
        simp [(s.sides side).queue.pending_get hget, hm']
    · cases h
  | drain_empty due =>
    simp only [daemon_step] at h
    split at h
    · next side reconnect hpc =>
      split at h
      · cases h
      · split at h <;> cases h
        · exact hs.forget (forgets_make_arm_unit (s.sides side).down) (fun _ _ => Iff.rfl) rfl rfl
            (by simp)
        · exact owned_reaped hs due
    · cases h

/-- What one step of the session preserves: the daemon's by the lemma before, and those of arms,
feeders and consumers by their own. -/
theorem owned_step {act : Act Side M} (hok : SettledStart s act) (h : step arms s act = some s')
    (hs : Owned s) : Owned s' := by
  cases act with
  | arm side act =>
    simp only [step, Option.map_eq_some_iff] at h
    obtain ⟨x, harm, rfl⟩ := h
    exact hs.set ((hs side).arm_move (arm_step_move harm).2)
  | feeder side =>
    cases h
    exact hs.set ((hs side).forget ⟨.inl rfl, by simp, rfl, rfl, rfl⟩)
  | consumer side act =>
    simp only [step] at h
    split at h
    · next r hrun =>
      split at h
      · next hcommands =>
        rw [Option.map_eq_some_iff] at h
        obtain ⟨x, hconsumer, rfl⟩ := h
        exact hs.set ((hs side).consumer_step ⟨r, hrun, hcommands.2, rfl⟩ hconsumer)
      · cases h
    · cases h
  | consumer_exit =>
    simp only [step, Option.map_eq_some_iff] at h
    obtain ⟨r, hr, rfl⟩ := h
    intro side
    refine (hs side).daemon ?_ rfl rfl ?_
    · intro seq
      simp [Commands, hr]
    · intro cmd remaining hpc
      have hnone := ((hs side).starting cmd remaining hpc).run_none
      rw [hr] at hnone
      cases hnone
  | daemon act => exact owned_daemon_step hok h hs

/-- The run lemma. -/
theorem owned_of_reach (h : Reach arms SettledStart s) : Owned s := by
  induction h with
  | init => exact owned_init
  | step act _ hok h ih => exact owned_step hok h ih

end Steps

/-! ## Which message an attached arm executes -/

/-- In every run in which each accepted start finds the arms it commands settled, for every
interleaving of the daemon, the consumers, the feeders and the arms: an arm attached to
channels of run `r`'s consumer executes the message the daemon put for run `r`, and behind
the message it took none of an earlier run is queued. -/
theorem session_executes_own_message [DecidableEq Side] (arms : List Side) {s : State Side M}
    (h : Reach arms SettledStart s) (side : Side) (c : ControlSession M)
    (hc : (s.sides side).node = .session c) :
    (∀ r ∈ c.readers, c.msg.run = r ∧ s.sent r = some c.msg.content) ∧
      ∀ m ∈ (s.sides side).queue.pending, c.msg.run ≤ m.run := by
  have hown := owned_of_reach h side
  constructor
  · intro r hr
    have hrun := hown.readers_own c hc r hr
    subst hrun
    exact ⟨rfl, hown.session_sent c hc⟩
  · intro m hm
    rw [hown.pending_last m hm]
    exact hown.session_le c hc

/-- A collection on the left arm, with content `n`. -/
def collection (n : ℕ) : StartCmd Bool ℕ where
  phase := .collection
  command_sides := [true]
  content := n
  nodup := by simp

/-- A start, from its gates on, up to the arm's poll. -/
def messaged : List (Act Bool ℕ) :=
  [.daemon .put, .daemon .spawn_consumer, .feeder true, .arm true (.poll true)]

/-- The consumer opens its channels and the arm finds and attaches them. -/
def attaches : List (Act Bool ℕ) :=
  [.consumer true (.create .setpoint), .consumer true (.publish .setpoint),
    .consumer true (.create .command), .consumer true (.publish .command), .arm true .enabled,
    .arm true .look_setpoint, .arm true .look_command, .arm true .attach, .arm true .attach]

/-- The run ends and its consumer is reaped. -/
def ends : List (Act Bool ℕ) :=
  [.arm true .finish, .consumer_exit, .daemon .reap_consumer]

/-- After a run that ended, the arm attaches the channels of the second one and executes the second
one's message. -/
theorem session_executes_own_message_second_run :
    ∃ (s : State Bool ℕ) (c : ControlSession ℕ), Reach [true, false] SettledStart s ∧
      (s.sides true).node = .session c ∧ c.readers = [2, 2] ∧
      s.sent 2 = some c.msg.content := by
  obtain ⟨s₁, s₂, s₃, s₄, c, h₁, h₂, hsettled, h₃, h₄, hnode, hreaders⟩ :
      ∃ (s₁ s₂ s₃ s₄ : State Bool ℕ) (c : ControlSession ℕ),
        step [true, false] init (.daemon (.start (collection 10))) = some s₁ ∧
        exec [true, false] s₁ (messaged ++ attaches ++ ends) = some s₂ ∧
        ((s₂.sides true).queue.pending = [] ∧ (s₂.sides true).node = .idle) ∧
        step [true, false] s₂ (.daemon (.start (collection 20))) = some s₃ ∧
        exec [true, false] s₃ (messaged ++ attaches) = some s₄ ∧
        (s₄.sides true).node = .session c ∧ c.readers = [2, 2] :=
    ⟨_, _, _, _, _, rfl, rfl, ⟨rfl, rfl⟩, rfl, rfl, rfl, rfl⟩
  have hfree : ∀ acts : List (Act Bool ℕ), (∀ cmd, Act.daemon (.start cmd) ∉ acts) →
      ∀ act ∈ acts, ∀ s, SettledStart s act := by
    intro acts hacts act hact s cmd h
    exact absurd (h ▸ hact) (hacts cmd)
  have hreach₁ : Reach [true, false] SettledStart s₁ := by
    refine Reach.init.step _ ?_ h₁
    intro cmd _ side _
    exact ⟨rfl, by simp [Settled, init]⟩
  have hreach₂ : Reach [true, false] SettledStart s₂ :=
    hreach₁.exec (hfree _ (by simp [messaged, attaches, ends])) h₂
  have hreach₃ : Reach [true, false] SettledStart s₃ := by
    refine hreach₂.step _ ?_ h₃
    intro cmd hcmd side hside
    cases hcmd
    simp only [collection, List.mem_singleton] at hside
    subst hside
    exact ⟨hsettled.1, by simp [Settled, hsettled.2]⟩
  have hreach₄ : Reach [true, false] SettledStart s₄ :=
    hreach₃.exec (hfree _ (by simp [messaged, attaches])) h₄
  have hown := (session_executes_own_message [true, false] hreach₄ true c hnode).1 2
    (by simp [hreaders])
  exact ⟨s₄, c, hreach₄, hnode, hreaders, hown.2⟩

/-- The first run's consumer dies while the arm is still in its eager `enter_control`, with
a status that says idle. The second run is accepted, and the arm attaches its channels
with the first run's message. -/
theorem session_executes_stale_message :
    ∃ (s : State Bool ℕ) (c : ControlSession ℕ), Reach [true, false] (fun _ _ => True) s ∧
      (s.sides true).node = .session c ∧ c.readers = [2, 2] ∧ c.msg.run = 1 ∧
      c.msg.content = 10 ∧ s.sent 2 = some 20 := by
  obtain ⟨s, c, h, hnode, hreaders, hrun, hcontent, hsent⟩ :
      ∃ (s : State Bool ℕ) (c : ControlSession ℕ),
        exec [true, false] init
          ([.arm true .tick, .arm false .tick, .daemon (.start (collection 10))] ++ messaged ++
            [.consumer_exit, .daemon .reap_consumer, .daemon (.start (collection 20)),
              .daemon .put, .daemon .spawn_consumer] ++ attaches) = some s ∧
        (s.sides true).node = .session c ∧ c.readers = [2, 2] ∧ c.msg.run = 1 ∧
        c.msg.content = 10 ∧ s.sent 2 = some 20 :=
    ⟨_, _, rfl, rfl, rfl, rfl, rfl, rfl⟩
  exact ⟨s, c, Reach.init.exec (fun _ _ _ => trivial) h, hnode, hreaders, hrun, hcontent, hsent⟩

end DualFlexivControl.Session
