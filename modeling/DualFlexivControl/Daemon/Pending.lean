/-
The queued start: fired at most once, never after a stop, and superseded by a newer switch
-- unless that one is refused.

Seen from far enough the daemon is a machine with one slot ([`Numbers`]). Commands are
numbered as they come; a start or a switch puts its number into the slot or starts a
consumer at once, and a tick may start a consumer for the number in the slot, which empties
it. Everything else can only empty it. That every event is a [`Turn`] of this machine is
[`Serves.turn`]; what follows from it is about numbers only: no number is started twice, and
once the slot holds nothing older than a given number, nothing older is ever started.

A stop empties the slot, so nothing received before it starts after it. A switch should
replace what is in the slot. It does when it stops a run, when it waits for the arms and when
it starts; but the switch that finds the session idle is a start like any other, and a start
that is refused leaves the slot alone. The older command in it then fires at the next tick
([`Supersedes`]).
-/
import DualFlexivControl.Daemon.Serve

set_option autoImplicit false

namespace DualFlexivControl.Daemon

open Effect
open Session (Phase)

/-! ## Numbered commands and one slot -/

/-- The commands that have started a consumer, the queued one, and how many were received. -/
structure Numbers where
  started : List ℕ
  queued : Option ℕ
  received : ℕ

/-- What an event can do to them. -/
inductive Turn (n : Numbers) : Numbers → Prop
  | keep (m : Numbers) : m.started = n.started → (m.queued = n.queued ∨ m.queued = none) →
      n.received ≤ m.received → Turn n m
  | queue : Turn n ⟨n.started, some (n.received + 1), n.received + 1⟩
  | start : Turn n ⟨n.started ++ [n.received + 1], none, n.received + 1⟩
  | fire (i : ℕ) : n.queued = some i → Turn n ⟨n.started ++ [i], none, n.received⟩

section Turns

variable {n m : Numbers}

/-- Neither count goes back. -/
theorem Turn.mono (hturn : Turn n m) :
    n.received ≤ m.received ∧ n.started.length ≤ m.started.length := by
  cases hturn with
  | keep m hstarted _ hreceived => exact ⟨hreceived, by rw [hstarted]⟩
  | queue => exact ⟨Nat.le_succ _, le_rfl⟩
  | start => exact ⟨Nat.le_succ _, by simp⟩
  | fire i _ => exact ⟨le_rfl, by simp⟩

/-- No command was started twice, and the queued one not yet. -/
structure Once (n : Numbers) : Prop where
  nodup : n.started.Nodup
  started_le : ∀ i ∈ n.started, i ≤ n.received
  queued_le : ∀ i, n.queued = some i → i ≤ n.received
  queued_new : ∀ i, n.queued = some i → i ∉ n.started

/-- A turn keeps that no number is started twice, because what it starts is new or leaves the slot.
-/
theorem Turn.once (hturn : Turn n m) (h : Once n) : Once m := by
  cases hturn with
  | keep m hstarted hqueued hreceived =>
    have hslot : ∀ i, m.queued = some i → n.queued = some i := by
      intro i hi
      obtain hsame | hnone := hqueued
      · rw [← hsame, hi]
      · rw [hnone] at hi
        exact absurd hi (by simp)
    exact {
      nodup := by rw [hstarted]; exact h.nodup
      started_le := by
        rw [hstarted]
        exact fun i hi => (h.started_le i hi).trans hreceived
      queued_le := fun i hi => (h.queued_le i (hslot i hi)).trans hreceived
      queued_new := by
        rw [hstarted]
        exact fun i hi => h.queued_new i (hslot i hi) }
  | queue =>
    exact {
      nodup := h.nodup
      started_le := fun i hi => (h.started_le i hi).trans (Nat.le_succ _)
      queued_le := by
        rintro i hi
        rw [← Option.some.inj hi]
      queued_new := by
        intro i hi hmem
        -- The number of a command just received is beyond all that were started.
        have hle := h.started_le i hmem
        rw [← Option.some.inj hi] at hle
        omega }
  | start =>
    exact {
      nodup := by
        rw [List.nodup_append_comm, List.singleton_append, List.nodup_cons]
        refine ⟨fun hmem => ?_, h.nodup⟩
        have hle := h.started_le _ hmem
        omega
      started_le := by
        intro i hi
        rw [List.mem_append, List.mem_singleton] at hi
        obtain hold | rfl := hi
        · exact (h.started_le i hold).trans (Nat.le_succ _)
        · exact le_rfl
      queued_le := fun i hi => absurd hi (by simp)
      queued_new := fun i hi => absurd hi (by simp) }
  | fire i hi =>
    exact {
      nodup := by
        rw [List.nodup_append_comm, List.singleton_append, List.nodup_cons]
        -- What was in the slot had not been started, and leaves the slot as it is.
        exact ⟨h.queued_new i hi, h.nodup⟩
      started_le := by
        intro j hj
        rw [List.mem_append, List.mem_singleton] at hj
        obtain hold | rfl := hj
        · exact h.started_le j hold
        · exact h.queued_le j hi
      queued_le := fun i hi => absurd hi (by simp)
      queued_new := fun i hi => absurd hi (by simp) }

/-- From some moment on, when `k` consumers had been started, only commands beyond the first
`old` start another, and the slot holds none of those. -/
structure OnlyNewer (old k : ℕ) (n : Numbers) : Prop where
  started : ∀ i ∈ n.started.drop k, old < i
  queued : ∀ i, n.queued = some i → old < i
  received : old ≤ n.received
  length : k ≤ n.started.length

/-- A turn keeps that only newer numbers start, because the slot can only be filled with the number
just received. -/
theorem Turn.onlyNewer {old k : ℕ} (hturn : Turn n m) (h : OnlyNewer old k n) :
    OnlyNewer old k m := by
  have hdrop : ∀ j, (∀ i ∈ n.started.drop k, old < i) → old < j →
      ∀ i ∈ (n.started ++ [j]).drop k, old < i := by
    intro j hold hj i hi
    -- The new one stands behind the first `k`, so dropping those does not lose it.
    rw [List.drop_append_of_le_length h.length, List.mem_append, List.mem_singleton] at hi
    obtain hmem | rfl := hi
    · exact hold i hmem
    · exact hj
  cases hturn with
  | keep m hstarted hqueued hreceived =>
    refine ⟨?_, ?_, h.received.trans hreceived, ?_⟩
    · rw [hstarted]
      exact h.started
    · intro i hi
      obtain hsame | hnone := hqueued
      · exact h.queued i (by rw [← hsame, hi])
      · rw [hnone] at hi
        exact absurd hi (by simp)
    · rw [hstarted]
      exact h.length
  | queue =>
    refine ⟨h.started, fun i hi => ?_, h.received.trans (Nat.le_succ _), h.length⟩
    rw [← Option.some.inj hi]
    exact Nat.lt_succ_of_le h.received
  | start =>
    refine ⟨hdrop _ h.started (Nat.lt_succ_of_le h.received), fun i hi => absurd hi (by simp),
      h.received.trans (Nat.le_succ _), ?_⟩
    simpa using h.length.trans (Nat.le_succ _)
  | fire i hi =>
    refine ⟨hdrop _ h.started (h.queued i hi), fun i hi => absurd hi (by simp), h.received, ?_⟩
    simpa using h.length.trans (Nat.le_succ _)

end Turns

/-! ## Every event is a turn -/

/-- The numbers of a lifecycle. -/
def Lifecycle.numbers (c : Lifecycle) : Numbers where
  started := c.consumers.map Consumer.command
  queued := c.pending.map fun p => p.cmd.id
  received := c.received

section Events

variable {cfg : Config} {d d' : SessionDaemon} {c c' : Lifecycle}

/-- A stop empties the slot and starts nothing. -/
theorem numbers_handle_stop (c : Lifecycle) :
    c.handle_stop.numbers = { c.numbers with queued := none } := by
  obtain ⟨run, state, hstop, -⟩ := handle_stop_spec c
  rw [hstop]
  rfl

/-- Looking at the queued start arms its deadline at most. -/
@[simp] theorem numbers_see_pending (c : Lifecycle) (now : ℚ) :
    (c.see_pending now).numbers = c.numbers := by
  unfold Lifecycle.numbers Lifecycle.see_pending
  simp [Option.map_map, Function.comp_def]

/-- Reaping a run leaves the queued start, the consumers and what was given up alone. -/
theorem reap_consumer_spec (c : Lifecycle) : ∃ run state outcomes,
    c.reap_consumer = { c with run := run, state := state, outcomes := outcomes } := by
  unfold Lifecycle.reap_consumer
  split
  · exact ⟨c.run, c.state, c.outcomes, rfl⟩
  · split
    · exact ⟨c.run, c.state, c.outcomes, rfl⟩
    · exact ⟨_, _, _, rfl⟩

/-- Reaping a dead consumer leaves the record of who was started by which command. -/
@[simp] theorem numbers_reap_consumer (c : Lifecycle) : c.reap_consumer.numbers = c.numbers := by
  obtain ⟨run, state, outcomes, hreap⟩ := reap_consumer_spec c
  rw [hreap]
  rfl

/-- The exit of a consumer is no command and starts nothing. -/
@[simp] theorem numbers_consumer_exit (c : Lifecycle) (proc : ℕ) (exitcode : ℤ) :
    (c.consumer_exit proc exitcode).numbers = c.numbers := by
  unfold Lifecycle.numbers
  rw [map_consumer_exit (fun _ _ => rfl)]
  rfl

/-- Nothing started, and the slot as it was or empty. -/
theorem Turn.halts {n : Numbers} (hc : Halts c c') (hstarted : c.numbers.started = n.started)
    (hqueued : c.numbers.queued = n.queued) (hreceived : n.received ≤ c.numbers.received) :
    Turn n c'.numbers := by
  obtain rfl | rfl := hc
  · exact .keep _ hstarted (.inl hqueued) hreceived
  · rw [numbers_handle_stop]
    exact .keep _ hstarted (.inr rfl) hreceived

/-- A start of a command that was just received: its number is started, or put into the slot, or
neither, and nothing else happens to the numbers. -/
theorem StartOutcome.turn {fields : List (String × Json)} {b : StartBeat} {r : Except Exc Unit}
    (h : StartOutcome cfg (d.next fields) b d.receive r c') : Turn d.numbers c'.numbers := by
  cases h with
  | refused _ _ _ => exact .keep _ rfl (.inl rfl) (Nat.le_succ _)
  | queued _ => exact .queue
  | launched phase config blockers consumer _ =>
    have hnumbers : (d.receive.launch (d.next fields) phase (cfg.fan_out config consumer)
        b.time).numbers = ⟨d.numbers.started ++ [d.received + 1], none, d.received + 1⟩ := by
      unfold Lifecycle.numbers Lifecycle.launch
      simp only [List.map_append]
      rfl
    rw [hnumbers]
    exact .start
  | escaped e _ => exact .keep _ rfl (.inl rfl) (Nat.le_succ _)

/-- A start of the queued command: the slot was emptied before it, and its number is started unless
the start is refused or queued again. -/
theorem StartOutcome.turn_fired {p : PendingStart} {now : ℚ} {b : StartBeat}
    {r : Except Exc Unit} (hp : d.pending = some p)
    (h : StartOutcome cfg p.cmd b
      (d.onLifecycle fun c => (c.see_pending now).clear_pending) r c') :
    Turn d.numbers c'.numbers := by
  have hqueued : d.numbers.queued = some p.cmd.id := by simp [Lifecycle.numbers, hp]
  cases h with
  | refused _ _ _ => exact .keep _ rfl (.inr rfl) le_rfl
  | queued _ => exact .keep _ rfl (.inl hqueued.symm) le_rfl
  | launched phase config blockers consumer _ =>
    have hnumbers : ((d.onLifecycle fun c => (c.see_pending now).clear_pending).launch p.cmd phase
        (cfg.fan_out config consumer) b.time).numbers =
          ⟨d.numbers.started ++ [p.cmd.id], none, d.received⟩ := by
      unfold Lifecycle.numbers Lifecycle.launch
      simp only [List.map_append]
      rfl
    rw [hnumbers]
    exact .fire _ hqueued
  | escaped e _ => exact .keep _ rfl (.inr rfl) le_rfl

/-- Handling a command is a turn: the command itself is started or queued, or the slot stays or is
emptied. -/
theorem CommandOutcome.turn {fields : List (String × Json)} {beat : CommandBeat}
    (h : CommandOutcome cfg (d.next fields) beat d.receive c') : Turn d.numbers c'.numbers := by
  cases h with
  | stop _ =>
    rw [numbers_handle_stop]
    exact .keep _ rfl (.inr rfl) (Nat.le_succ _)
  | other _ _ _ _ hhalts => exact Turn.halts hhalts rfl rfl (Nat.le_succ _)
  | start _ _ hstart => exact hstart.turn
  | malformed_switch _ _ => exact .keep _ rfl (.inl rfl) (Nat.le_succ _)
  -- The stop empties the slot, and the switch takes it.
  | switch_stops run _ _ =>
    have hnumbers : (d.receive.handle_stop.set_pending (d.next fields) none beat.now).numbers =
        ⟨d.numbers.started, some (d.received + 1), d.received + 1⟩ := by
      show Numbers.mk d.receive.handle_stop.numbers.started _
        d.receive.handle_stop.numbers.received = _
      rw [numbers_handle_stop]
      rfl
    rw [hnumbers]
    exact .queue
  | switch_starts _ _ _ _ _ hstart => exact hstart.turn
  | switch_waits _ _ _ => exact .queue

/-- A tick is a turn: at most it starts the queued command, and that empties the slot. -/
theorem TendOutcome.turn {now : ℚ} {status : String → Status} {b : StartBeat}
    (h : TendOutcome cfg now status b d c') : Turn d.numbers c'.numbers := by
  cases h with
  | idle _ => exact .keep _ rfl (.inl rfl) le_rfl
  | waits p _ _ =>
    rw [numbers_see_pending]
    exact .keep _ rfl (.inl rfl) le_rfl
  | gives_up p _ _ _ _ => exact .keep _ rfl (.inr rfl) le_rfl
  | fires p _ hp _ _ hstart => exact hstart.turn_fired hp

/-- **Every event of the daemon is a turn of the machine with one slot**, so what turns keep holds
of all sessions. -/
theorem Serves.turn {ev : Event} (h : Serves cfg d ev d') : Turn d.numbers d'.numbers := by
  have houtcome := h.outcome
  generalize d'.toLifecycle = c' at houtcome ⊢
  cases houtcome with
  | command fields beat _ hcommand => exact hcommand.turn
  | tend_pending now status b _ htend => exact htend.turn
  | reap_consumer =>
    rw [numbers_reap_consumer]
    exact .keep _ rfl (.inl rfl) le_rfl
  | consumer_exit proc exitcode =>
    rw [numbers_consumer_exit]
    exact .keep _ rfl (.inl rfl) le_rfl
  | quiet _ _ _ _ hhalts => exact Turn.halts hhalts rfl rfl le_rfl

/-- What every turn keeps, every run keeps. -/
theorem Runs.numbers {P : Numbers → Prop} (hP : ∀ n m, Turn n m → P n → P m)
    (hruns : Runs cfg d d') (h : P d.numbers) : P d'.numbers := by
  induction hruns with
  | refl => exact h
  | tail _ hstep ih =>
    obtain ⟨ev, hserves⟩ := hstep
    exact hP _ _ hserves.turn ih

/-- In every state of every session no command has started two consumers. -/
theorem Reachable.once (h : Reachable cfg d) : Once d.numbers := by
  obtain ⟨arms, cameras, hruns⟩ := h
  refine hruns.numbers (fun _ _ hturn => hturn.once) ?_
  exact ⟨List.nodup_nil, fun i hi => absurd hi (by simp [Lifecycle.numbers, SessionDaemon.init]),
    fun i hi => absurd hi (by simp [Lifecycle.numbers, SessionDaemon.init]),
    fun i hi => absurd hi (by simp [Lifecycle.numbers, SessionDaemon.init])⟩

/-- Once the slot holds nothing old, nothing old is started, by induction on the events: what fills
the slot later is newer. -/
theorem Runs.started_newer {old k : ℕ} (hruns : Runs cfg d d') (hreceived : old ≤ d.received)
    (hqueued : ∀ p, d.pending = some p → old < p.cmd.id) (hk : k ≤ d.consumers.length)
    (hstarted : ∀ x ∈ d.consumers.drop k, old < x.command) :
    ∀ x ∈ d'.consumers.drop k, old < x.command := by
  have hstart : OnlyNewer old k d.numbers := by
    refine ⟨?_, ?_, hreceived, by simpa [Lifecycle.numbers] using hk⟩
    · intro i hi
      rw [Lifecycle.numbers, ← List.map_drop] at hi
      obtain ⟨x, hx, rfl⟩ := List.mem_map.1 hi
      exact hstarted x hx
    · intro i hi
      obtain ⟨p, hp, rfl⟩ := Option.map_eq_some_iff.1 hi
      exact hqueued p hp
  have hend := hruns.numbers (fun _ _ hturn => hturn.onlyNewer) hstart
  intro x hx
  refine hend.started x.command ?_
  show x.command ∈ (d'.consumers.map Consumer.command).drop _
  rw [← List.map_drop]
  exact List.mem_map_of_mem hx

end Events

/-! ## Queued starts -/

/-- The readings of the arms' status an event checks before it starts anything. -/
def Event.checks : Event → List (String → Status)
  | .command fields beat =>
    match (Command.mk 0 fields).kind with
    | .start => [beat.start.status]
    | .switch => [beat.status, beat.start.status]
    | _ => []
  | .tend_pending _ status b => [status, b.status]
  | _ => []

/-- The deadline is the wind-down from the moment it counts from, once there is one. -/
def Armed (c : Lifecycle) : Prop :=
  ∀ p, c.pending = some p → p.deadline = p.since.map (· + PENDING_WINDDOWN_S)

section Queued

variable {cfg : Config} {d d' : SessionDaemon} {c c' : Lifecycle}

/-- Nothing queued, nothing to be armed. -/
theorem armed_of_none (h : c.pending = none) : Armed c := by
  intro p hp
  rw [h] at hp
  exact absurd hp (by simp)

/-- Whether the deadline is armed depends on the queued start alone. -/
theorem Armed.congr (h : Armed c) (hpending : c'.pending = c.pending) : Armed c' := by
  unfold Armed
  rw [hpending]
  exact h

/-- A stop either leaves the queued start or removes it. -/
theorem Armed.halts (h : Armed c) (hc : Halts c c') : Armed c' := by
  obtain rfl | rfl := hc
  · exact h
  · exact armed_of_none (handle_stop_pending c)

/-- Queued without a run, the deadline is armed at once. -/
theorem armed_set_pending (hrun : c.run = none) (cmd : Command) (now : ℚ) :
    Armed (c.set_pending cmd (some (now + PENDING_WINDDOWN_S)) now) := by
  intro p hp
  rw [← Option.some.inj hp]
  simp [hrun]

/-- Queued behind a run, it is armed by the first tick that finds none. -/
theorem Armed.see_pending (h : Armed c) (now : ℚ) : Armed (c.see_pending now) := by
  intro p hp
  obtain ⟨q, hq, rfl⟩ := Option.map_eq_some_iff.1 hp
  have hdeadline := h q hq
  simp only [PendingStart.deadline_at, hdeadline, Option.map_some, Option.some.injEq]
  cases q.since with
  | none => rfl
  | some t => rfl

/-- A start that has to queue behind a busy arm arms its deadline at once. -/
theorem StartOutcome.armed {cmd : Command} {b : StartBeat} {r : Except Exc Unit}
    (h : StartOutcome cfg cmd b d r c') (hd : Armed d.toLifecycle) : Armed c' := by
  cases h with
  | refused _ _ _ => exact hd
  | queued hqueues => exact armed_set_pending hqueues.no_run _ _
  | launched phase config blockers consumer _ => exact armed_of_none rfl
  | escaped e _ => exact hd

/-- The run half of a stop does not make a run appear or disappear. -/
theorem isSome_run_handle_stop (c : Lifecycle) : c.handle_stop.run.isSome = c.run.isSome := by
  obtain ⟨run, state, hstop, hsome, -⟩ := handle_stop_spec c
  rw [hstop, hsome]

/-- A command that queues a start queues it with the right deadline, and every other one leaves the
slot or empties it. -/
theorem CommandOutcome.armed {cmd : Command} {beat : CommandBeat}
    (h : CommandOutcome cfg cmd beat d c') (hd : Armed d.toLifecycle) : Armed c' := by
  cases h with
  | stop _ => exact armed_of_none (handle_stop_pending _)
  | other _ _ _ _ hhalts => exact hd.halts hhalts
  | start _ _ hstart => exact hstart.armed hd
  | malformed_switch _ _ => exact hd
  -- Behind a run there is no deadline yet, and no moment it would count from.
  | switch_stops run _ hrun =>
    intro p hp
    have hsome : d.handle_stop.run.isSome := by rw [isSome_run_handle_stop, hrun]; rfl
    rw [← Option.some.inj hp]
    rw [Option.isSome_iff_exists] at hsome
    obtain ⟨stopped, hstopped⟩ := hsome
    simp [hstopped]
  | switch_starts _ _ _ _ _ hstart => exact hstart.armed hd
  | switch_waits _ hrun _ => exact armed_set_pending hrun _ _

/-- A tick arms the deadline when it first finds no run, and does not move it afterwards. -/
theorem TendOutcome.armed {now : ℚ} {status : String → Status} {b : StartBeat}
    (h : TendOutcome cfg now status b d c') (hd : Armed d.toLifecycle) : Armed c' := by
  cases h with
  | idle _ => exact hd
  | waits p _ _ => exact hd.see_pending now
  | gives_up p _ _ _ _ => exact armed_of_none rfl
  | fires p _ _ _ _ hstart => exact hstart.armed (armed_of_none rfl)

/-- Every event keeps the deadline right, one case for each kind of event. -/
theorem Serves.armed {ev : Event} (h : Serves cfg d ev d') (hd : Armed d.toLifecycle) :
    Armed d'.toLifecycle := by
  have houtcome := h.outcome
  generalize d'.toLifecycle = c' at houtcome ⊢
  cases houtcome with
  | command fields beat _ hcommand => exact hcommand.armed (hd.congr rfl)
  | tend_pending now status b _ htend => exact htend.armed hd
  | reap_consumer =>
    obtain ⟨run, state, outcomes, hreap⟩ := reap_consumer_spec d.toLifecycle
    exact hd.congr (by rw [hreap])
  | consumer_exit proc exitcode => exact hd.congr rfl
  | quiet _ _ _ _ hhalts => exact hd.halts hhalts

/-- So it is right in every state of every session. -/
theorem Reachable.armed (h : Reachable cfg d) : Armed d.toLifecycle := by
  obtain ⟨arms, cameras, hruns⟩ := h
  induction hruns with
  | refl => exact armed_of_none rfl
  | tail _ hstep ih =>
    obtain ⟨ev, hserves⟩ := hstep
    exact hserves.armed ih

/-- The check before a start passes when no arm of the session reports that it is under control. -/
theorem arms_still_in_control_eq_nil (cfg : Config) (status : String → Status) :
    cfg.arms_still_in_control status = [] ↔
      ∀ side ∈ cfg.session_qs, control_active (status side) = false := by
  simp [Config.arms_still_in_control, List.filter_eq_nil_iff]

/-- A stop asks consumers to end; it spawns none and forgets none. -/
theorem Halts.consumers_length (hc : Halts c c') : c'.consumers.length = c.consumers.length := by
  obtain rfl | rfl := hc
  · rfl
  · obtain ⟨run, state, hstop, -⟩ := handle_stop_spec c
    rw [hstop]

/-- A start that spawns a consumer found no run, and no arm in control at that moment. -/
theorem StartOutcome.idle {cmd : Command} {b : StartBeat} {r : Except Exc Unit}
    (h : StartOutcome cfg cmd b d r c') (hgrows : d.consumers.length < c'.consumers.length) :
    d.run = none ∧ cfg.arms_still_in_control b.status = [] := by
  cases h with
  | refused _ _ _ => exact absurd hgrows (lt_irrefl _)
  | queued _ => exact absurd hgrows (lt_irrefl _)
  | launched phase config blockers consumer hpass => exact ⟨hpass.no_run, hpass.idle⟩
  | escaped e _ => exact absurd hgrows (lt_irrefl _)

/-- The event that starts a consumer finds no run, and no arm in control. -/
theorem Serves.idle {ev : Event} (h : Serves cfg d ev d')
    (hgrows : d.consumers.length < d'.consumers.length) :
    d.run = none ∧ ev.checks ≠ [] ∧
      ∀ status ∈ ev.checks, cfg.arms_still_in_control status = [] := by
  have houtcome := h.outcome
  -- Only the handlers that end in `_handle_start` add a consumer; the others leave the count.
  have hno : ¬ d'.consumers.length = d.consumers.length := by omega
  generalize d'.toLifecycle = c' at houtcome hgrows hno
  cases houtcome with
  | command fields beat _ hcommand =>
    have hkind : (Command.mk 0 fields).kind = (d.next fields).kind := rfl
    cases hcommand with
    | stop _ => exact absurd (Halts.consumers_length (.inr rfl)) hno
    | other _ _ _ _ hhalts => exact absurd hhalts.consumers_length hno
    | start _ hstart houtcome =>
      obtain ⟨hrun, hidle⟩ := houtcome.idle hgrows
      have hchecks : (Event.command fields beat).checks = [beat.start.status] := by
        simp only [Event.checks, hkind, hstart]
      rw [hchecks]
      exact ⟨hrun, by simp, by simpa using hidle⟩
    | malformed_switch _ _ => exact absurd rfl hno
    | switch_stops run _ _ =>
      exact absurd (Halts.consumers_length (c := d.receive.toLifecycle) (.inr rfl)) hno
    | switch_starts _ hswitch _ _ hfirst houtcome =>
      obtain ⟨hrun, hidle⟩ := houtcome.idle hgrows
      have hchecks : (Event.command fields beat).checks = [beat.status, beat.start.status] := by
        simp only [Event.checks, hkind, hswitch]
      rw [hchecks]
      exact ⟨hrun, by simp, by simpa using ⟨hfirst, hidle⟩⟩
    | switch_waits _ _ _ => exact absurd rfl hno
  | tend_pending now status b _ htend =>
    cases htend with
    | idle _ => exact absurd rfl hno
    | waits p _ _ => exact absurd rfl hno
    | gives_up p _ _ _ _ => exact absurd rfl hno
    | fires p _ _ hrun hfirst houtcome =>
      obtain ⟨-, hidle⟩ := houtcome.idle hgrows
      exact ⟨hrun, by simp [Event.checks], by simpa [Event.checks] using ⟨hfirst, hidle⟩⟩
  | reap_consumer =>
    obtain ⟨run, state, outcomes, hreap⟩ := reap_consumer_spec d.toLifecycle
    exact absurd (by rw [hreap]) hno
  | consumer_exit proc exitcode => exact absurd (by simp [Lifecycle.consumer_exit]) hno
  | quiet _ _ _ _ hhalts => exact absurd hhalts.consumers_length hno

/-- A stop takes a queued start back, which is not counted as giving it up. -/
theorem Halts.given_up (hc : Halts c c') : c'.given_up = c.given_up := by
  obtain rfl | rfl := hc
  · rfl
  · obtain ⟨run, state, hstop, -⟩ := handle_stop_spec c
    rw [hstop]

/-- No start gives up the one that is queued; only a tick does. -/
theorem StartOutcome.given_up {cmd : Command} {b : StartBeat} {r : Except Exc Unit}
    (h : StartOutcome cfg cmd b d r c') : c'.given_up = d.given_up := by
  cases h with
  | refused _ _ _ => rfl
  | queued _ => rfl
  | launched phase config blockers consumer _ => rfl
  | escaped e _ => rfl

/-- A queued start is given up by a tick only: one that finds no run, an arm in control, and
the deadline passed. -/
theorem Serves.given_up {ev : Event} (h : Serves cfg d ev d')
    (hmore : d'.given_up ≠ d.given_up) :
    ∃ now status b p, ev = .tend_pending now status b ∧ d.pending = some p ∧ d.run = none ∧
      cfg.arms_still_in_control status ≠ [] ∧ p.deadline_at now ≤ now := by
  have houtcome := h.outcome
  generalize d'.toLifecycle = c' at houtcome hmore
  cases houtcome with
  | command fields beat _ hcommand =>
    cases hcommand with
    | stop _ => exact absurd (Halts.given_up (.inr rfl)) hmore
    | other _ _ _ _ hhalts => exact absurd hhalts.given_up hmore
    | start _ _ houtcome => exact absurd houtcome.given_up hmore
    | malformed_switch _ _ => exact absurd rfl hmore
    | switch_stops run _ _ =>
      exact absurd (Halts.given_up (c := d.receive.toLifecycle) (.inr rfl)) hmore
    | switch_starts _ _ _ _ _ houtcome => exact absurd houtcome.given_up hmore
    | switch_waits _ _ _ => exact absurd rfl hmore
  | tend_pending now status b _ htend =>
    cases htend with
    | idle _ => exact absurd rfl hmore
    | waits p _ _ => exact absurd rfl hmore
    | gives_up p hp hrun hbusy hdeadline =>
      exact ⟨now, status, b, p, rfl, hp, hrun, hbusy, hdeadline⟩
    | fires p _ _ _ _ houtcome => exact absurd houtcome.given_up hmore
  | reap_consumer =>
    obtain ⟨run, state, outcomes, hreap⟩ := reap_consumer_spec d.toLifecycle
    exact absurd (by rw [hreap]) hmore
  | consumer_exit proc exitcode => exact absurd rfl hmore
  | quiet _ _ _ _ hhalts => exact absurd hhalts.given_up hmore

/-- What becomes of the commands, from a state on. -/
structure QueuedStarts (cfg : Config) (d : SessionDaemon) : Prop where
  /-- No command has started two consumers. -/
  once : (d.consumers.map Consumer.command).Nodup
  /-- The event that starts a consumer finds no run, and no control-enabled arm whose status
  reports control. -/
  only_idle : ∀ ev d', Serves cfg d ev d' → d.consumers.length < d'.consumers.length →
    d.run = none ∧ ev.checks ≠ [] ∧ ∀ status ∈ ev.checks, ∀ side ∈ cfg.session_qs,
      control_active (status side) = false
  /-- Whatever starts after a stop was received after it. -/
  stopped : ∀ fields beat d' d'', Serves cfg d (.command fields beat) d' →
    (d.next fields).kind = .stop → Runs cfg d' d'' →
    ∀ x ∈ d''.consumers.drop d.consumers.length, (d.next fields).id < x.command
  /-- A queued start is given up by a tick that finds no run and an arm in control, with the
  wind-down over since the moment it counts from. -/
  given_up : ∀ ev d', Serves cfg d ev d' → d'.given_up ≠ d.given_up →
    ∃ now status b p since, ev = .tend_pending now status b ∧ d.run = none ∧
      (∃ side ∈ cfg.session_qs, control_active (status side) = true) ∧
      d.pending = some p ∧ p.since = some since ∧ since + PENDING_WINDDOWN_S ≤ now

/-- In every state of every session: no command has started two consumers, each start finds the
session idle, nothing older starts after a stop, and a queued start is given up only once its
wind-down is over. -/
theorem queued_starts_fire_once {cfg : Config} {d : SessionDaemon} (h : Reachable cfg d) :
    QueuedStarts cfg d where
  once := h.once.nodup
  only_idle := by
    intro ev d' hserves hgrows
    obtain ⟨hrun, hchecks, hidle⟩ := hserves.idle hgrows
    refine ⟨hrun, hchecks, fun status hstatus => ?_⟩
    exact (arms_still_in_control_eq_nil cfg status).1 (hidle status hstatus)
  stopped := by
    intro fields beat d' d'' hserves hkind hruns
    have houtcome := hserves.outcome
    have hstop : d'.toLifecycle = d.receive.handle_stop := by
      generalize d'.toLifecycle = c' at houtcome ⊢
      -- Of the handlers only the stop's own serves a command of that kind.
      cases houtcome with
      | command _ _ _ hcommand =>
        cases hcommand with
        | stop _ => rfl
        | other _ _ _ hnot _ => exact absurd hkind hnot
        | start _ hother _ => simp [hkind] at hother
        | malformed_switch hother _ => simp [hkind] at hother
        | switch_stops run hother _ => simp [hkind] at hother
        | switch_starts _ hother _ _ _ _ => simp [hkind] at hother
        | switch_waits hother _ _ => simp [hkind] at hother
      | quiet _ _ hnot _ _ => exact absurd rfl (hnot fields beat)
    have hnumbers := numbers_handle_stop d.receive.toLifecycle
    have hlength : d'.consumers.length = d.consumers.length := by
      rw [hstop]
      exact Halts.consumers_length (c := d.receive.toLifecycle) (.inr rfl)
    refine hruns.started_newer ?_ ?_ hlength.ge ?_
    · rw [hstop]
      exact le_of_eq (congrArg Numbers.received hnumbers).symm
    · intro p hp
      rw [hstop, handle_stop_pending] at hp
      exact absurd hp (by simp)
    · rw [List.drop_eq_nil_of_le hlength.le]
      exact fun x hx => absurd hx (by simp)
  given_up := by
    intro ev d' hserves hmore
    obtain ⟨now, status, b, p, hev, hp, hrun, hbusy, hdeadline⟩ := hserves.given_up hmore
    have harmed := h.armed p hp
    -- The deadline is the wind-down after `since`, so its passing says when that was.
    rw [PendingStart.deadline_at, harmed] at hdeadline
    have hside : ∃ side ∈ cfg.session_qs, control_active (status side) = true := by
      by_contra hnone
      refine hbusy ((arms_still_in_control_eq_nil cfg status).2 fun side hside => ?_)
      by_contra hactive
      exact hnone ⟨side, hside, by simpa using hactive⟩
    cases hsince : p.since with
    | none =>
      -- the first tick to see it arms the deadline, and does not wait it out at once
      rw [hsince, Option.map_none, Option.getD_none, PENDING_WINDDOWN_S] at hdeadline
      exact absurd hdeadline (by linarith)
    | some since =>
      rw [hsince, Option.map_some, Option.getD_some] at hdeadline
      exact ⟨now, status, b, p, since, hev, hrun, hside, hp, hsince, hdeadline⟩

/-- A start that is queued behind a busy arm; a tick twenty seconds later gives it up. -/
theorem queued_start_fires_once :
    ∃ d, Reachable left_session d ∧ d.pending.isSome = true ∧
      (left_session.after d [left_tick 20 true energized]).given_up.length = 1 ∧
      QueuedStarts left_session d := by
  have hreach : Reachable left_session (left_session.after (.init [left_arm] [])
      [left_command "start" 0 true energized]) :=
    ⟨[left_arm], [], runs_after (by decide +kernel)⟩
  exact ⟨_, hreach, by decide +kernel, by decide +kernel, queued_starts_fire_once hreach⟩

end Queued

/-! ## A newer switch -/

section Switch

variable {cfg : Config} {d : SessionDaemon}

/-- Nothing received before the command starts a consumer from its handling on. -/
def NoOlderStarts (cfg : Config) (d : SessionDaemon) (fields : List (String × Json))
    (beat : CommandBeat) : Prop :=
  ∀ d' d'', Serves cfg d (.command fields beat) d' → Runs cfg d' d'' →
    ∀ x ∈ d''.consumers.drop d.consumers.length, ¬ x.command < (d.next fields).id

/-- A switch that replaces what is queued, if anything is: it finds a run to stop, or an arm
in control at one of its two readings, or it passes every gate of a start. -/
def Supersedes (cfg : Config) (d : SessionDaemon) (cmd : Command) (beat : CommandBeat) : Prop :=
  d.pending = none ∨ d.run ≠ none ∨ cfg.arms_still_in_control beat.status ≠ [] ∨
    cfg.arms_still_in_control beat.start.status ≠ [] ∨
    ∃ phase config blockers consumer, Passes cfg cmd beat.start d phase config blockers consumer

/-- The gates do not look at the number of commands received, so a start may be examined before or
after it is counted. -/
theorem Passes.receive {cmd : Command} {b : StartBeat} {phase : Phase} {config : RunConfig}
    {blockers : List (String × Blocker)} {consumer : ConsumerNode}
    (h : Passes cfg cmd b d phase config blockers consumer) :
    Passes cfg cmd b d.receive phase config blockers consumer where
  valid := h.valid
  no_run := h.no_run
  idle := h.idle
  cameras_up := h.cameras_up
  arms_up := h.arms_up
  prepared := h.prepared
  unrefused := h.unrefused
  driveable := h.driveable
  sides_up := h.sides_up

/-- The slot after a switch that supersedes: the switch itself, or nothing. -/
theorem CommandOutcome.superseded {fields : List (String × Json)} {beat : CommandBeat}
    {c' : Lifecycle} (h : CommandOutcome cfg (d.next fields) beat d.receive c')
    (hkind : (d.next fields).kind = .switch) (hvalid : WellFormed cfg.isalnum (d.next fields))
    (hsupersedes : Supersedes cfg d (d.next fields) beat) :
    ∀ p, c'.pending = some p → p.cmd = d.next fields := by
  cases h with
  | stop hother => simp [hkind] at hother
  | other _ _ hnot _ _ => exact absurd hkind hnot
  | start _ hother _ => simp [hkind] at hother
  | malformed_switch _ hinvalid => exact absurd hvalid hinvalid
  | switch_stops run _ _ =>
    intro p hp
    rw [← Option.some.inj hp]
  | switch_waits _ _ _ =>
    intro p hp
    rw [← Option.some.inj hp]
  | switch_starts _ _ _ hrun hfirst hstart =>
    cases hstart with
    | launched phase config blockers consumer _ =>
      exact fun p hp => absurd hp (by simp [Lifecycle.launch])
    | queued _ =>
      intro p hp
      rw [← Option.some.inj hp]
    | refused _ hidle hrefused =>
      -- the one way to leave an older start behind, which the condition excludes
      obtain hnone | hsome | hbusy | hbusy | ⟨phase, config, blockers, consumer, hpass⟩ :=
        hsupersedes
      · intro p hp
        have hsame : d.pending = some p := hp
        rw [hnone] at hsame
        exact absurd hsame (by simp)
      · exact absurd hrun hsome
      · exact absurd hfirst hbusy
      · exact absurd ⟨hvalid, hrun, hbusy⟩ hidle
      · exact absurd hpass.receive (hrefused phase config blockers consumer)

/-- What a command starts, it starts for itself. -/
theorem StartOutcome.new_command {cmd : Command} {b : StartBeat} {r : Except Exc Unit}
    {c' : Lifecycle} (h : StartOutcome cfg cmd b d r c') :
    ∀ x ∈ c'.consumers.drop d.consumers.length, x.command = cmd.id := by
  cases h with
  | refused _ _ _ => simp
  | queued _ => simp [Lifecycle.set_pending]
  | launched phase config blockers consumer _ => simp [Lifecycle.launch]
  | escaped e _ => simp

/-- Whatever consumers a command spawns, they are its own and not those of the queued start. -/
theorem CommandOutcome.new_command {cmd : Command} {beat : CommandBeat} {c' : Lifecycle}
    (h : CommandOutcome cfg cmd beat d c') :
    ∀ x ∈ c'.consumers.drop d.consumers.length, x.command = cmd.id := by
  have hsame : c'.consumers.length = d.consumers.length →
      ∀ x ∈ c'.consumers.drop d.consumers.length, x.command = cmd.id := by
    intro hlength
    rw [List.drop_eq_nil_of_le hlength.le]
    exact fun x hx => absurd hx (by simp)
  cases h with
  | stop _ => exact hsame (Halts.consumers_length (.inr rfl))
  | other _ _ _ _ hhalts => exact hsame hhalts.consumers_length
  | start _ _ hstart => exact hstart.new_command
  | malformed_switch _ _ => exact hsame rfl
  | switch_stops run _ _ =>
    -- The stop before the queueing starts nothing.
    have hstop : d.handle_stop.consumers.length = d.consumers.length :=
      Halts.consumers_length (.inr rfl)
    exact hsame hstop
  | switch_starts _ _ _ _ _ hstart => exact hstart.new_command
  | switch_waits _ _ _ => exact hsame rfl

/-- Once a well-formed switch has been handled that supersedes what was queued, nothing
received before it ever starts a consumer. -/
theorem switch_supersedes {cfg : Config} {d : SessionDaemon} {fields : List (String × Json)}
    {beat : CommandBeat} (hkind : (d.next fields).kind = .switch)
    (hvalid : WellFormed cfg.isalnum (d.next fields))
    (hsupersedes : Supersedes cfg d (d.next fields) beat) : NoOlderStarts cfg d fields beat := by
  intro d' d'' hserves hruns x hx
  have hcommand : CommandOutcome cfg (d.next fields) beat d.receive d'.toLifecycle := by
    have houtcome := hserves.outcome
    generalize d'.toLifecycle = c' at houtcome ⊢
    cases houtcome with
    | command _ _ _ hcommand => exact hcommand
    | quiet _ _ hnot _ _ => exact absurd rfl (hnot fields beat)
  have hslot := hcommand.superseded hkind hvalid hsupersedes
  obtain ⟨hreceived, hlength⟩ := hcommand.turn.mono
  -- From here on the slot and the new consumers carry this number or a later one.
  have hnewer : d.received < x.command := by
    refine hruns.started_newer hreceived ?_ (by simpa [Lifecycle.numbers] using hlength) ?_ x hx
    · intro p hp
      rw [hslot p hp]
      exact Nat.lt_succ_self _
    · intro y hy
      rw [hcommand.new_command y hy]
      exact Nat.lt_succ_self _
  show ¬ x.command < d.received + 1
  omega

/-- The one-arm session after a switch that found the arm winding down. -/
def left_queued : SessionDaemon :=
  left_session.after (.init [left_arm] []) [left_command "switch" 0 true energized]

/-- The state of the example is one of a session. -/
theorem reachable_left_queued : Reachable left_session left_queued :=
  ⟨[left_arm], [], runs_after (by decide +kernel)⟩

/-- A second switch while the arm is still winding down replaces the first. -/
theorem second_switch_supersedes :
    Reachable left_session left_queued ∧ left_queued.pending.isSome = true ∧
      NoOlderStarts left_session left_queued (collect 0 "switch").fields
        (left_command_beat 1 true energized) := by
  refine ⟨reachable_left_queued, by decide +kernel, switch_supersedes rfl ⟨.collection, rfl⟩ ?_⟩
  exact .inr (.inr (.inl (by decide +kernel)))

/-- A switch that is refused leaves the older one queued: the second switch finds the arm idle
but its leader limp, and the next tick starts the first. -/
theorem refused_switch_leaves_older :
    Reachable left_session left_queued ∧
      (left_queued.next (collect 0 "switch").fields).kind = .switch ∧
      WellFormed left_session.isalnum (left_queued.next (collect 0 "switch").fields) ∧
      ¬ NoOlderStarts left_session left_queued (collect 0 "switch").fields
        (left_command_beat 1 false limp) := by
  refine ⟨reachable_left_queued, rfl, ⟨.collection, rfl⟩, fun hnone => ?_⟩
  have hserves : Serves left_session left_queued (left_command "switch" 1 false limp)
      (left_session.after left_queued [left_command "switch" 1 false limp]) :=
    serves_after (by decide +kernel) (by decide +kernel)
  have hruns : Runs left_session
      (left_session.after left_queued [left_command "switch" 1 false limp])
      (left_session.after left_queued
        [left_command "switch" 1 false limp, left_tick 2 false energized]) :=
    @runs_after left_session _ [left_tick 2 false energized] (by decide +kernel)
  have hfirst : (left_session.after left_queued
      [left_command "switch" 1 false limp, left_tick 2 false energized]).consumers.map
        Consumer.command = [1] := by decide +kernel
  obtain ⟨x, hconsumers, hcommand⟩ := List.map_eq_singleton_iff.1 hfirst
  have hempty : left_queued.consumers.length = 0 := by decide +kernel
  refine hnone _ _ hserves hruns x ?_ ?_
  · rw [hconsumers, hempty]
    simp
  · rw [hcommand]
    decide +kernel

end Switch

end DualFlexivControl.Daemon
