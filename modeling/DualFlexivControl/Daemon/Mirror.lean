/-
`session.json` mirrors the run.

The dashboard sees the daemon through the fields of `session.json` alone, and a dozen
handlers write them, next to the run itself. That they never come apart has two halves. One
is about the present ([`Shown`]): the state, the task and the phase shown are the run's, a
run that is being stopped shows as saving, and the queued start shows what was queued. The
other is about the past ([`Ledger`]): the consumers spawned so far are the runs that were
reaped, in their order, and the one that is active.

Both are kept by the few things an event can do to the lifecycle, so both hold after every
sequence of events.
-/
import DualFlexivControl.Daemon.Serve

set_option autoImplicit false

namespace DualFlexivControl.Daemon

open Effect
open Session (Phase)

/-! ## The two halves -/

/-- What `session.json` shows of the run and of the queued start. -/
structure Shown (c : Lifecycle) : Prop where
  viewing : c.run = none → c.state.state = .viewing ∧ c.state.task = none ∧
    c.state.phase = none ∧ c.state.run_started_ts = none
  running : ∀ run, c.run = some run → run.stopping = false → c.state.state = mode run.phase
  saving : ∀ run, c.run = some run → run.stopping = true → c.state.state = .saving
  pending : c.state.pending = c.pending.map fun p => p.cmd.view
  queued : ∀ run, c.run = some run → c.pending ≠ none → run.stopping = true

/-- The number, the phase and the label of a run. -/
abbrev RunKey := ℕ × Phase × Json

/-- A run is told by its number, its phase and its label. -/
def Outcome.key (o : Outcome) : RunKey := (o.run_seq, o.phase, o.task)

/-- What a consumer was started as. -/
def Consumer.key (x : Consumer) : RunKey := (x.run_seq, x.phase, x.task)

/-- What a stop does not change of a run. -/
def ActiveRun.core (run : ActiveRun) : ℕ × Phase × Json := (run.proc, run.phase, run.task)

/-- The key of the active run. -/
def Lifecycle.active (c : Lifecycle) : Option RunKey :=
  (c.run.map ActiveRun.core).map fun core => (c.state.run_seq, core.2)

/-- The consumers spawned so far are the runs reaped and the active one; only the active
run's consumer can be alive. -/
structure Ledger (c : Lifecycle) : Prop where
  counted : c.state.run_seq = c.consumers.length
  numbered : ∀ i x, c.consumers[i]? = some x → x.run_seq = i + 1
  newest : ∀ core, c.run.map ActiveRun.core = some core → core.1 + 1 = c.consumers.length
  live : ∀ i x, c.consumers[i]? = some x → x.exitcode = none →
    (c.run.map ActiveRun.core).map Prod.fst = some i
  reaped : c.consumers.map Consumer.key = c.outcomes.map Outcome.key ++ c.active.toList
  last_outcome : c.state.last_outcome = c.outcomes.getLast?

/-- Both. -/
structure Inv (c : Lifecycle) : Prop where
  shown : Shown c
  ledger : Ledger c

section Edits

variable {c c' : Lifecycle}

/-- What stands in a list that grew at its end. -/
theorem getElem?_concat_cases {α : Type} {xs : List α} {a x : α} {i : ℕ}
    (h : (xs ++ [a])[i]? = some x) : xs[i]? = some x ∨ i = xs.length ∧ x = a := by
  by_cases hlt : i < xs.length
  · rw [List.getElem?_append_left hlt] at h
    exact .inl h
  · rw [List.getElem?_append_right (by omega), List.getElem?_singleton] at h
    split at h
    · exact .inr ⟨by omega, (Option.some.inj h).symm⟩
    · exact absurd h (by simp)

/-- The ledger does not depend on the queued start, nor on whether a run is being stopped. -/
theorem Ledger.congr (h : Ledger c) (hrun : c'.run.map ActiveRun.core = c.run.map ActiveRun.core)
    (hconsumers : c'.consumers = c.consumers) (houtcomes : c'.outcomes = c.outcomes)
    (hseq : c'.state.run_seq = c.state.run_seq)
    (hlast : c'.state.last_outcome = c.state.last_outcome) : Ledger c' where
  counted := by rw [hseq, hconsumers, h.counted]
  numbered := by rw [hconsumers]; exact h.numbered
  newest := by rw [hrun, hconsumers]; exact h.newest
  live := by rw [hrun, hconsumers]; exact h.live
  reaped := by
    have hactive : c'.active = c.active := by
      unfold Lifecycle.active
      rw [hrun, hseq]
    rw [hconsumers, houtcomes, hactive, h.reaped]
  last_outcome := by rw [hlast, houtcomes, h.last_outcome]

/-- Counting a command changes nothing that is shown. -/
theorem Inv.received (h : Inv c) (n : ℕ) : Inv { c with received := n } where
  shown := ⟨h.shown.viewing, h.shown.running, h.shown.saving, h.shown.pending, h.shown.queued⟩
  ledger := h.ledger.congr rfl rfl rfl rfl rfl

/-- Emptying the slot takes the queued start out of what is shown as well. -/
theorem Inv.clear_pending (h : Inv c) : Inv c.clear_pending where
  shown :=
    ⟨h.shown.viewing, h.shown.running, h.shown.saving, rfl, fun _ _ hnone => absurd rfl hnone⟩
  ledger := h.ledger.congr rfl rfl rfl rfl rfl

/-- A run that is asked to stop shows as saving, and stays the active one of the ledger. -/
theorem Inv.stop_run (h : Inv c) : Inv c.stop_run := by
  unfold Lifecycle.stop_run
  split
  · exact h
  · next run hrun =>
    by_cases hstopping : run.stopping
    · rw [if_pos hstopping]
      exact h
    · rw [if_neg hstopping]
      exact {
        shown := {
          viewing := fun hnone => absurd hnone (by simp)
          running := fun run' hrun' hfalse => by
            have hsame := Option.some.inj hrun'
            rw [← hsame] at hfalse
            exact absurd hfalse (by simp)
          saving := fun _ _ _ => rfl
          pending := h.shown.pending
          queued := fun run' hrun' _ => by
            have hsame := Option.some.inj hrun'
            rw [← hsame] }
        ledger := h.ledger.congr (by rw [hrun]; rfl) rfl rfl rfl rfl }

/-- A stop is that and an empty slot. -/
theorem Inv.handle_stop (h : Inv c) : Inv c.handle_stop := by
  unfold Lifecycle.handle_stop
  split
  · exact h.clear_pending.stop_run
  · exact h.stop_run

/-- A start is queued when there is no run, or behind one that is being stopped. -/
theorem Inv.set_pending (h : Inv c) (hrun : ∀ run, c.run = some run → run.stopping = true)
    (cmd : Command) (deadline : Option ℚ) (now : ℚ) : Inv (c.set_pending cmd deadline now) where
  shown :=
    ⟨h.shown.viewing, h.shown.running, h.shown.saving, rfl, fun run hsome _ => hrun run hsome⟩
  ledger := h.ledger.congr rfl rfl rfl rfl rfl

/-- Arming the deadline of a queued start does not change what was queued. -/
theorem Inv.see_pending (h : Inv c) (now : ℚ) : Inv (c.see_pending now) where
  shown := {
    viewing := h.shown.viewing
    running := h.shown.running
    saving := h.shown.saving
    pending := by
      show c.state.pending = (c.pending.map _).map _
      rw [h.shown.pending, Option.map_map]
      rfl
    queued := fun run hrun hpending => h.shown.queued run hrun (by
      simpa [Lifecycle.see_pending] using hpending) }
  ledger := h.ledger.congr rfl rfl rfl rfl rfl

/-- A queued start that is given up leaves the slot and the display together. -/
theorem Inv.give_up (h : Inv c) : Inv c.give_up where
  shown :=
    ⟨h.shown.viewing, h.shown.running, h.shown.saving, rfl, fun _ _ hnone => absurd rfl hnone⟩
  ledger := h.ledger.congr rfl rfl rfl rfl rfl

/-- A launch adds one consumer, which is the run's and gets the next number. -/
theorem Inv.launch (h : Inv c) (hrun : c.run = none) (cmd : Command) (phase : Phase)
    (sides : List String) (time : ℚ) : Inv (c.launch cmd phase sides time) where
  shown := {
    viewing := fun hnone => absurd hnone (by simp [Lifecycle.launch])
    running := fun run hsome _ => by
      rw [← Option.some.inj hsome]
      rfl
    saving := fun run hsome htrue => by
      rw [← Option.some.inj hsome] at htrue
      exact absurd htrue (by simp)
    pending := rfl
    queued := fun _ _ hnone => absurd rfl hnone }
  ledger := {
    counted := by simp [Lifecycle.launch, h.ledger.counted]
    numbered := by
      intro i x hx
      obtain hold | ⟨hi, hnew⟩ := getElem?_concat_cases hx
      · exact h.ledger.numbered i x hold
      · rw [hnew, hi, ← h.ledger.counted]
    newest := by
      intro core hcore
      rw [← Option.some.inj hcore]
      simp [Lifecycle.launch, ActiveRun.core]
    live := by
      intro i x hx hlive
      obtain hold | ⟨hi, -⟩ := getElem?_concat_cases hx
      · -- with no run there was no live consumer before
        have hnone := h.ledger.live i x hold hlive
        rw [hrun] at hnone
        exact absurd hnone (by simp)
      · rw [hi]
        rfl
    reaped := by
      have hold := h.ledger.reaped
      have hactive : c.active = none := by simp [Lifecycle.active, hrun]
      rw [hactive] at hold
      simp only [Option.toList_none, List.append_nil] at hold
      show (c.consumers ++ [_]).map Consumer.key = c.outcomes.map Outcome.key ++ [_]
      rw [List.map_append, hold]
      rfl
    last_outcome := h.ledger.last_outcome }

/-- The consumer of a reaped run is the newest one, so the outcome is written under its
number. -/
theorem Inv.reap_consumer (h : Inv c) : Inv c.reap_consumer := by
  unfold Lifecycle.reap_consumer
  split
  · exact h
  · next run hrun =>
    split
    · exact h
    · next exitcode hexit =>
      exact {
        shown := {
          viewing := fun _ => ⟨rfl, rfl, rfl, rfl⟩
          running := fun _ hsome => absurd hsome (by simp)
          saving := fun _ hsome => absurd hsome (by simp)
          pending := h.shown.pending
          queued := fun _ hsome => absurd hsome (by simp) }
        ledger := {
          counted := h.ledger.counted
          numbered := h.ledger.numbered
          newest := fun _ hsome => absurd hsome (by simp)
          live := by
            intro i x hx hlive
            have hproc := h.ledger.live i x hx hlive
            rw [hrun] at hproc
            have hi : run.proc = i := by simpa [ActiveRun.core] using hproc
            -- The only live consumer would be the run's own, and that one has an exit code.
            rw [Lifecycle.exitcode, hi, hx] at hexit
            rw [Option.bind_some, hlive] at hexit
            exact absurd hexit (by simp)
          reaped := by
            -- The active run's entry moves from the end of the consumers' list to the outcomes.
            have hold := h.ledger.reaped
            have hactive : c.active = some (c.state.run_seq, run.phase, run.task) := by
              simp [Lifecycle.active, hrun, ActiveRun.core]
            rw [hactive] at hold
            show c.consumers.map Consumer.key = (c.outcomes ++ [_]).map Outcome.key ++ []
            rw [hold, List.map_append, List.append_nil]
            rfl
          last_outcome := by simp } }

/-- An exit changes nothing but the exit code of a consumer that was alive. -/
theorem Inv.consumer_exit (h : Inv c) (proc : ℕ) (exitcode : ℤ) :
    Inv (c.consumer_exit proc exitcode) where
  shown := ⟨h.shown.viewing, h.shown.running, h.shown.saving, h.shown.pending, h.shown.queued⟩
  ledger := by
    -- Each consumer there is after the exit was there before, under the same key.
    have hget : ∀ (i : ℕ) (x : Consumer),
        (c.consumer_exit proc exitcode).consumers[i]? = some x →
        ∃ y : Consumer, c.consumers[i]? = some y ∧ x.key = y.key ∧
          (x.exitcode = none → y.exitcode = none) := by
      intro i x hx
      rw [Lifecycle.consumer_exit, List.getElem?_modify] at hx
      obtain ⟨y, hy, hxy⟩ := Option.map_eq_some_iff.1 hx
      refine ⟨y, hy, ?_, ?_⟩
      · rw [← hxy]
        split
        · rfl
        · rfl
      · rw [← hxy]
        split
        · exact fun hnone => absurd hnone (by simp)
        · exact id
    exact {
      counted := by simpa [Lifecycle.consumer_exit] using h.ledger.counted
      numbered := by
        intro i x hx
        obtain ⟨y, hy, hkey, -⟩ := hget i x hx
        rw [← h.ledger.numbered i y hy]
        exact congrArg Prod.fst hkey
      newest := by simpa [Lifecycle.consumer_exit] using h.ledger.newest
      live := by
        intro i x hx hlive
        obtain ⟨y, hy, -, hnone⟩ := hget i x hx
        exact h.ledger.live i y hy (hnone hlive)
      reaped := by
        rw [map_consumer_exit (fun _ _ => rfl)]
        exact h.ledger.reaped
      last_outcome := h.ledger.last_outcome }

/-- A run that a stop leaves behind is being stopped. -/
theorem handle_stop_stopping (c : Lifecycle) {run : ActiveRun} (h : c.handle_stop.run = some run) :
    run.stopping = true := by
  obtain ⟨stopped, state, hstop, -, hstopping⟩ := handle_stop_spec c
  rw [hstop] at h
  exact hstopping run h

/-- Whatever stops a run keeps the mirror. -/
theorem Inv.halts (h : Inv c) (hc : Halts c c') : Inv c' := by
  obtain rfl | rfl := hc
  · exact h
  · exact h.handle_stop

end Edits

/-! ## Every event keeps them -/

section Events

variable {cfg : Config} {d d' : SessionDaemon} {c' : Lifecycle}

/-- A start shows the run that it spawned, or queues itself and shows that, or is refused and
changes neither. -/
theorem StartOutcome.inv {cmd : Command} {b : StartBeat} {r : Except Exc Unit}
    (houtcome : StartOutcome cfg cmd b d r c') (h : Inv d.toLifecycle) : Inv c' := by
  cases houtcome with
  | refused _ _ _ => exact h
  | queued hqueues =>
    exact h.set_pending (fun run hsome => by simp [hqueues.no_run] at hsome) _ _ _
  | launched phase config blockers consumer hpass => exact h.launch hpass.no_run _ _ _ _
  | escaped e _ => exact h

/-- Each outcome of a command keeps the mirror, by what the command did to the run and to the slot.
-/
theorem CommandOutcome.inv {cmd : Command} {beat : CommandBeat}
    (houtcome : CommandOutcome cfg cmd beat d c') (h : Inv d.toLifecycle) : Inv c' := by
  cases houtcome with
  | stop _ => exact h.handle_stop
  | other _ _ _ _ hhalts => exact h.halts hhalts
  | start _ _ hstart => exact hstart.inv h
  | malformed_switch _ _ => exact h
  -- The queueing needs a run that is being stopped, which the stop before it has seen to.
  | switch_stops run _ hrun =>
    exact h.handle_stop.set_pending (fun run' hsome => handle_stop_stopping _ hsome) _ _ _
  | switch_starts _ _ _ _ _ hstart => exact hstart.inv h
  | switch_waits _ hrun _ => exact h.set_pending (fun run hsome => by simp [hrun] at hsome) _ _ _

/-- A tick keeps the mirror in each of its outcomes. -/
theorem TendOutcome.inv {now : ℚ} {status : String → Status} {b : StartBeat}
    (houtcome : TendOutcome cfg now status b d c') (h : Inv d.toLifecycle) : Inv c' := by
  cases houtcome with
  | idle _ => exact h
  | waits p _ _ => exact h.see_pending now
  | gives_up p _ _ _ _ => exact (h.see_pending now).give_up
  | fires p _ _ _ _ hstart => exact hstart.inv (h.see_pending now).clear_pending

/-- Every event keeps the mirror, one case for each kind: commands and ticks by their outcomes, the
others as stops or as nothing. -/
theorem Serves.inv {ev : Event} (hserves : Serves cfg d ev d') (h : Inv d.toLifecycle) :
    Inv d'.toLifecycle := by
  have houtcome := hserves.outcome
  generalize d'.toLifecycle = c' at houtcome ⊢
  cases houtcome with
  | command fields beat _ houtcome => exact houtcome.inv (h.received _)
  | tend_pending now status b _ houtcome => exact houtcome.inv h
  | reap_consumer => exact h.reap_consumer
  | consumer_exit proc exitcode => exact h.consumer_exit proc exitcode
  | quiet _ _ _ _ hhalts => exact h.halts hhalts

/-- At the beginning of a session there is no run, and none is shown. -/
theorem inv_init (arms : List ArmUnit) (cameras : List CameraUnit) :
    Inv (SessionDaemon.init arms cameras).toLifecycle where
  shown := {
    viewing := fun _ => ⟨rfl, rfl, rfl, rfl⟩
    running := fun _ hsome => absurd hsome (by simp [SessionDaemon.init])
    saving := fun _ hsome => absurd hsome (by simp [SessionDaemon.init])
    pending := rfl
    queued := fun _ hsome => absurd hsome (by simp [SessionDaemon.init]) }
  ledger := {
    counted := rfl
    numbered := fun i x hx => absurd hx (by simp [SessionDaemon.init])
    newest := fun _ hsome => absurd hsome (by simp [SessionDaemon.init])
    live := fun i x hx => absurd hx (by simp [SessionDaemon.init])
    reaped := rfl
    last_outcome := rfl }

/-- By induction on the events, a run keeps the mirror. -/
theorem Runs.inv (hruns : Runs cfg d d') (h : Inv d.toLifecycle) : Inv d'.toLifecycle := by
  induction hruns with
  | refl => exact h
  | tail _ hstep ih =>
    obtain ⟨ev, hserves⟩ := hstep
    exact hserves.inv ih

/-- So the mirror is right in every state of every session. -/
theorem Reachable.inv (h : Reachable cfg d) : Inv d.toLifecycle := by
  obtain ⟨arms, cameras, hruns⟩ := h
  exact hruns.inv (inv_init arms cameras)

end Events

/-! ## The numbers of the outcomes -/

section Numbers

variable {cfg : Config} {c c' : Lifecycle} {d d' : SessionDaemon}

/-- The newest outcome bears the number of outcomes so far, because runs are numbered and reaped in
their order. -/
theorem Ledger.run_seq_last_outcome (h : Ledger c) {outcome : Outcome}
    (hlast : c.state.last_outcome = some outcome) : outcome.run_seq = c.outcomes.length := by
  rw [h.last_outcome] at hlast
  obtain ⟨outcomes, hconcat⟩ := List.getLast?_eq_some_iff.1 hlast
  have hkey : (c.consumers.map Consumer.key)[outcomes.length]? = some outcome.key := by
    rw [h.reaped, hconcat]
    simp
  rw [List.getElem?_map, Option.map_eq_some_iff] at hkey
  obtain ⟨x, hx, hxkey⟩ := hkey
  have hseq : x.run_seq = outcome.run_seq := congrArg Prod.fst hxkey
  rw [← hseq, h.numbered _ x hx, hconcat, List.length_append, List.length_singleton]

/-- A stop writes no outcome; that is left to the reaping. -/
theorem handle_stop_outcomes (c : Lifecycle) : c.handle_stop.outcomes = c.outcomes := by
  obtain ⟨run, state, hstop, -⟩ := handle_stop_spec c
  rw [hstop]

/-- The same for everything that only stops. -/
theorem Halts.outcomes (h : Halts c c') : c'.outcomes = c.outcomes := by
  obtain rfl | rfl := h
  · rfl
  · exact handle_stop_outcomes c

/-- A start writes no outcome. -/
theorem StartOutcome.outcomes {cmd : Command} {b : StartBeat} {r : Except Exc Unit}
    (h : StartOutcome cfg cmd b d r c') : c'.outcomes = d.outcomes := by
  cases h with
  | refused _ _ _ => rfl
  | queued _ => rfl
  | launched phase config blockers consumer _ => rfl
  | escaped e _ => rfl

/-- No command writes an outcome: outcomes are written where a consumer is reaped. -/
theorem CommandOutcome.outcomes {cmd : Command} {beat : CommandBeat}
    (h : CommandOutcome cfg cmd beat d c') : c'.outcomes = d.outcomes := by
  cases h with
  | stop _ => exact handle_stop_outcomes _
  | other _ _ _ _ hhalts => exact Halts.outcomes hhalts
  | start _ _ hstart => exact hstart.outcomes
  | malformed_switch _ _ => rfl
  | switch_stops run _ _ => exact handle_stop_outcomes _
  | switch_starts _ _ _ _ _ hstart => exact hstart.outcomes
  | switch_waits _ _ _ => rfl

/-- No tick of the queued start writes one. -/
theorem TendOutcome.outcomes {now : ℚ} {status : String → Status} {b : StartBeat}
    (h : TendOutcome cfg now status b d c') : c'.outcomes = d.outcomes := by
  cases h with
  | idle _ => rfl
  | waits p _ _ => rfl
  | gives_up p _ _ _ _ => rfl
  | fires p _ _ _ _ hstart => exact hstart.outcomes

/-- Reaping adds an outcome, if a consumer has exited. -/
theorem reap_consumer_outcomes (c : Lifecycle) :
    c.outcomes.length ≤ c.reap_consumer.outcomes.length := by
  unfold Lifecycle.reap_consumer
  split
  · exact Nat.le_refl _
  · split
    · exact Nat.le_refl _
    · simp

/-- No event takes an outcome back, and only the reaping adds one. -/
theorem Serves.outcomes {ev : Event} (hserves : Serves cfg d ev d') :
    d.outcomes.length ≤ d'.outcomes.length := by
  have houtcome := hserves.outcome
  generalize d'.toLifecycle = c' at houtcome ⊢
  cases houtcome with
  | command fields beat _ houtcome => exact Nat.le_of_eq (congrArg _ houtcome.outcomes.symm)
  | tend_pending now status b _ houtcome =>
    exact Nat.le_of_eq (congrArg _ houtcome.outcomes.symm)
  | reap_consumer => exact reap_consumer_outcomes _
  | consumer_exit proc exitcode => exact Nat.le_refl _
  | quiet _ _ _ _ hhalts => exact Nat.le_of_eq (congrArg _ (Halts.outcomes hhalts).symm)

/-- Outcomes are only added, over a whole run. -/
theorem Runs.outcomes (hruns : Runs cfg d d') : d.outcomes.length ≤ d'.outcomes.length := by
  induction hruns with
  | refl => exact Nat.le_refl _
  | tail _ hstep ih =>
    obtain ⟨ev, hserves⟩ := hstep
    exact ih.trans (Serves.outcomes hserves)

end Numbers

/-! ## The mirror -/

/-- The mirror, as the dashboard relies on it. -/
structure Mirrored (c : Lifecycle) : Prop where
  viewing : c.run = none ↔ c.state.state = .viewing ∧ c.state.task = none ∧
    c.state.phase = none ∧ c.state.run_started_ts = none
  running : ∀ run, c.run = some run → (run.stopping = false ↔ c.state.state = mode run.phase)
  saving : (∃ run, c.run = some run ∧ run.stopping = true) ↔ c.state.state = .saving
  pending : c.state.pending = c.pending.map fun p => p.cmd.view
  queued : ∀ run, c.run = some run → c.pending ≠ none → run.stopping = true
  /-- The n-th consumer is run n, and there are as many as `run_seq` says. -/
  run_seq : c.state.run_seq = c.consumers.length ∧
    ∀ (i : ℕ) (x : Consumer), c.consumers[i]? = some x → x.run_seq = i + 1
  one_live : ∀ (i j : ℕ) (x y : Consumer), c.consumers[i]? = some x → c.consumers[j]? = some y →
    x.exitcode = none → y.exitcode = none → i = j
  /-- What was written to `last_outcome` is one outcome for each consumer, in their order,
  with its own number, phase and label; the active run's is still to come. -/
  outcomes : c.outcomes.map Outcome.key ++
    (c.run.map fun run => (c.state.run_seq, run.phase, run.task)).toList =
      c.consumers.map Consumer.key
  last_outcome : c.state.last_outcome = c.outcomes.getLast?

/-- After every event of every session `session.json` shows the run that there is, the start that is
queued, and an outcome for each run that was reaped. -/
theorem session_state_mirrors {cfg : Config} {d : SessionDaemon} (h : Reachable cfg d) :
    Mirrored d.toLifecycle := by
  obtain ⟨hshown, hledger⟩ := h.inv
  -- while a run is on, the state is its phase's, or saving once it is stopping
  have hmode : ∀ run, d.run = some run →
      d.state.state = if run.stopping then .saving else mode run.phase := by
    intro run hrun
    by_cases hstopping : run.stopping
    · rw [if_pos hstopping, hshown.saving run hrun hstopping]
    · rw [if_neg hstopping, hshown.running run hrun (by simpa using hstopping)]
  exact {
    viewing := by
      refine ⟨hshown.viewing, ?_⟩
      rintro ⟨hviewing, -, -, -⟩
      by_contra hrun
      obtain ⟨run, hsome⟩ := Option.ne_none_iff_exists'.1 hrun
      have hstate := hmode run hsome
      rw [hviewing] at hstate
      split at hstate
      · exact absurd hstate (by decide)
      · exact mode_ne_viewing run.phase hstate.symm
    running := by
      intro run hrun
      refine ⟨hshown.running run hrun, fun hstate => ?_⟩
      by_contra hstopping
      rw [hmode run hrun, if_pos (by simpa using hstopping)] at hstate
      exact mode_ne_saving run.phase hstate.symm
    saving := by
      constructor
      · rintro ⟨run, hrun, hstopping⟩
        exact hshown.saving run hrun hstopping
      · intro hsaving
        cases hrun : d.run with
        | none =>
          rw [(hshown.viewing hrun).1] at hsaving
          exact absurd hsaving (by decide)
        | some run =>
          refine ⟨run, rfl, ?_⟩
          by_contra hstopping
          rw [hmode run hrun, if_neg hstopping] at hsaving
          exact mode_ne_saving run.phase hsaving
    pending := hshown.pending
    queued := hshown.queued
    run_seq := ⟨hledger.counted, hledger.numbered⟩
    one_live := by
      intro i j x y hx hy hxlive hylive
      have hi := hledger.live i x hx hxlive
      have hj := hledger.live j y hy hylive
      rw [hi] at hj
      exact Option.some.inj hj
    outcomes := by
      rw [hledger.reaped]
      congr 2
      unfold Lifecycle.active
      rw [Option.map_map]
      rfl
    last_outcome := hledger.last_outcome }

/-- A collection run that is started, exits and is reaped. -/
theorem reaped_run_mirrors :
    ∃ d, Reachable left_session d ∧ d.outcomes.length = 1 ∧ Mirrored d.toLifecycle := by
  have hreach : Reachable left_session (left_session.after (.init [left_arm] [])
      [left_command "start" 0 false energized, .consumer_exit 0 0, .reap_consumer]) :=
    ⟨[left_arm], [], runs_after (by decide +kernel)⟩
  exact ⟨_, hreach, by decide +kernel, session_state_mirrors hreach⟩

end DualFlexivControl.Daemon
