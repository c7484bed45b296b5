/-
The dropout watchdog over a whole run.

A poll goes through the commanded sides once: it notes the active ones, and returns at the first
one that was noted before and is not active now, once the watchdog is armed; it arms at the end of
a poll. `polls` is what the arms' status was at each poll since the run was launched ([`Watched`]),
a record the code does not keep, and the watchdog's two fields are a digest of it ([`Digest`]): a
side has been noted when some poll saw it active, and the watchdog is armed when that is so of
every side. A poll then stops the run exactly when every side was seen before and one is not active
now ([`watch_arm_dropout_stops`]).
-/
import DualFlexivControl.Daemon.Frame

set_option autoImplicit false

namespace DualFlexivControl.Daemon

open Effect

/-! ## One poll -/

section Poll

variable {status : String → Status}

/-- The sides noted after some more were polled. -/
def note_sides (status : String → Status) (sides : List String) (active : List String) :
    List String :=
  sides.foldl (fun active side =>
    if control_active (status side) then active.insert side else active) active

theorem mem_note_sides {side : String} {sides active : List String} :
    side ∈ note_sides status sides active ↔
      side ∈ active ∨ side ∈ sides ∧ control_active (status side) = true := by
  induction sides generalizing active with
  | nil => simp [note_sides]
  | cons first rest ih =>
    show side ∈ note_sides status rest _ ↔ _
    rw [ih]
    dsimp only
    by_cases hfirst : control_active (status first)
    · rw [if_pos hfirst, List.mem_insert_iff, List.mem_cons]
      constructor
      · rintro ((rfl | h) | ⟨h, hactive⟩)
        · exact .inr ⟨.inl rfl, hfirst⟩
        · exact .inl h
        · exact .inr ⟨.inr h, hactive⟩
      · rintro (h | ⟨rfl | h, hactive⟩)
        · exact .inl (.inr h)
        · exact .inl (.inl rfl)
        · exact .inr ⟨h, hactive⟩
    · rw [if_neg hfirst, List.mem_cons]
      constructor
      · rintro (h | ⟨h, hactive⟩)
        · exact .inl h
        · exact .inr ⟨.inr h, hactive⟩
      · rintro (h | ⟨rfl | h, hactive⟩)
        · exact .inl h
        · exact absurd hactive hfirst
        · exact .inr ⟨h, hactive⟩

/-- The account after a poll that stopped nothing. -/
def SessionDaemon.noted (d : SessionDaemon) (status : String → Status) (sides : List String) :
    SessionDaemon :=
  { d with watchdog := { d.watchdog with
      active_sides := note_sides status sides d.watchdog.active_sides } }

/-- A side that counts as dropped out. -/
def Dropped (d : SessionDaemon) (status : String → Status) (side : String) : Prop :=
  d.watchdog.watchdog_armed = true ∧ side ∈ d.watchdog.active_sides ∧
    control_active (status side) = false

/-- Noting active sides makes no side count as dropped out, and none not. -/
theorem dropped_noted {d : SessionDaemon} {sides : List String} {side : String} :
    Dropped (d.noted status sides) status side ↔ Dropped d status side := by
  unfold Dropped SessionDaemon.noted
  dsimp only
  rw [mem_note_sides]
  constructor
  · rintro ⟨harmed, h | ⟨-, hactive⟩, hinactive⟩
    · exact ⟨harmed, h, hinactive⟩
    · rw [hinactive] at hactive
      exact absurd hactive (by simp)
  · rintro ⟨harmed, h, hinactive⟩
    exact ⟨harmed, .inl h, hinactive⟩

/-- The run is being stopped: the lifecycle is that of a stop. -/
theorem ensures_handle_stop (d : SessionDaemon) :
    Ensures handle_stop d fun r d' => r = .ok () ∧ d'.toLifecycle = d.handle_stop := by
  unfold handle_stop
  rw [ensures_get_bind, ensures_bind, ensures_update]
  dsimp only
  split
  · rw [ensures_say]
    exact ⟨rfl, rfl⟩
  · rw [ensures_pure]
    exact ⟨rfl, rfl⟩

/-- The loop stops the run at the first side that dropped out, or notes the active ones. -/
theorem watch_sides_ensures (status : String → Status) (sides : List String) (d : SessionDaemon) :
    Ensures (watch_sides status sides) d fun r d' =>
      (r = .ok true ∧ (∃ side ∈ sides, Dropped d status side) ∧ d'.toLifecycle = d.handle_stop) ∨
      (r = .ok false ∧ (∀ side ∈ sides, ¬ Dropped d status side) ∧ d' = d.noted status sides) := by
  induction sides generalizing d with
  | nil =>
    rw [watch_sides, ensures_pure]
    exact .inr ⟨rfl, fun side h => absurd h List.not_mem_nil, rfl⟩
  | cons side rest ih =>
    rw [watch_sides, ensures_get_bind]
    -- an active side is noted and the rest looked at; a silent one may end the run
    by_cases hactive : control_active (status side)
    · rw [if_pos hactive, ensures_bind, ensures_update]
      dsimp only
      have hnote : d.noted status [side] = { d with watchdog := { d.watchdog with
          active_sides := d.watchdog.active_sides.insert side } } := by
        unfold SessionDaemon.noted note_sides
        simp only [List.foldl_cons, List.foldl_nil, if_pos hactive]
      have hfirst : ¬ Dropped d status side := fun h => by
        rw [h.2.2] at hactive
        exact absurd hactive (by simp)
      rw [← hnote]
      refine (ih (d.noted status [side])).imp fun r d' h => h.imp ?_ ?_
      · rintro ⟨hr, ⟨other, hother, hdropped⟩, hstop⟩
        exact ⟨hr, ⟨other, List.mem_cons_of_mem _ hother, dropped_noted.1 hdropped⟩, hstop⟩
      · rintro ⟨hr, hnone, hd'⟩
        refine ⟨hr, fun other hother => ?_, hd'⟩
        rcases List.mem_cons.1 hother with rfl | hother
        · exact hfirst
        · exact mt dropped_noted.2 (hnone other hother)
    · rw [if_neg hactive]
      have hinactive : control_active (status side) = false := Bool.eq_false_iff.2 hactive
      -- armed, and seen active before: the run is stopped and no other side is looked at
      by_cases hdropped : d.watchdog.watchdog_armed ∧ side ∈ d.watchdog.active_sides
      · rw [if_pos hdropped, ensures_bind, ensures_say]
        dsimp only
        refine (ensures_handle_stop _).bind (fun _ d' hd' => ?_) fun e d' hd' => ?_
        · rw [ensures_pure]
          exact .inl ⟨rfl, ⟨side, List.mem_cons_self, hdropped.1, hdropped.2, hinactive⟩, hd'.2⟩
        · exact absurd hd'.1 (by simp)
      · rw [if_neg hdropped]
        have hnote : d.noted status (side :: rest) = d.noted status rest := by
          unfold SessionDaemon.noted note_sides
          rw [List.foldl_cons, if_neg hactive]
        rw [hnote]
        refine (ih d).imp fun r d' h => h.imp ?_ ?_
        · rintro ⟨hr, ⟨other, hother, hother'⟩, hstop⟩
          exact ⟨hr, ⟨other, List.mem_cons_of_mem _ hother, hother'⟩, hstop⟩
        · rintro ⟨hr, hnone, hd'⟩
          refine ⟨hr, fun other hother => ?_, hd'⟩
          rcases List.mem_cons.1 hother with rfl | hother
          · exact fun h => hdropped ⟨h.1, h.2.1⟩
          · exact hnone other hother

/-- A poll that counts: the run is on, and commands some side. -/
structure Polled (d : SessionDaemon) (run : ActiveRun) : Prop where
  on : d.run = some run
  unstopped : run.stopping = false
  sides : run.command_sides ≠ []

/-- Everything such a poll can do: stop the run at a side that dropped out, or note which sides are
active and arm itself once all have been. -/
theorem watch_arm_dropout_polled {d : SessionDaemon} {run : ActiveRun} (h : Polled d run)
    (status : String → Status) :
    Ensures (watch_arm_dropout status) d fun r d' => r = .ok () ∧
      (((∃ side ∈ run.command_sides, Dropped d status side) ∧ d'.toLifecycle = d.handle_stop) ∨
        ((∀ side ∈ run.command_sides, ¬ Dropped d status side) ∧
          d'.toLifecycle = d.toLifecycle ∧
          d'.watchdog.active_sides =
            note_sides status run.command_sides d.watchdog.active_sides ∧
          d'.watchdog.watchdog_armed = (d.watchdog.watchdog_armed ||
            run.command_sides.all (· ∈ d'.watchdog.active_sides)))) := by
  unfold watch_arm_dropout
  rw [ensures_get_bind, h.on]
  dsimp only
  rw [if_neg (by simp [h.unstopped, h.sides])]
  refine (watch_sides_ensures status run.command_sides d).bind ?_ ?_
  · rintro stopped d' (⟨hr, hdropped, hstop⟩ | ⟨hr, hnone, rfl⟩)
    · cases hr
      rw [if_pos rfl, ensures_pure]
      exact ⟨rfl, .inl ⟨hdropped, hstop⟩⟩
    · cases hr
      rw [if_neg (by simp), ensures_update]
      exact ⟨rfl, .inr ⟨hnone, rfl, rfl, rfl⟩⟩
  · rintro e d' (⟨hr, -⟩ | ⟨hr, -⟩)
    · exact absurd hr (by simp)
    · exact absurd hr (by simp)

/-- Any other poll does nothing at all: without a run, with one that is being stopped, or with one
that commands no side. -/
theorem watch_arm_dropout_idle {d : SessionDaemon} (h : ∀ run, ¬ Polled d run)
    (status : String → Status) :
    Ensures (watch_arm_dropout status) d fun r d' => r = .ok () ∧ d' = d := by
  unfold watch_arm_dropout
  rw [ensures_get_bind]
  rcases hrun : d.run with _ | run
  · dsimp only
    rw [ensures_pure]
    exact ⟨rfl, rfl⟩
  · dsimp only
    by_cases hidle : run.stopping = true ∨ run.command_sides = []
    · rw [if_pos hidle, ensures_pure]
      exact ⟨rfl, rfl⟩
    · rw [not_or, Bool.not_eq_true] at hidle
      exact absurd ⟨hrun, hidle.1, hidle.2⟩ (h run)

end Poll

/-! ## The polls of a run -/

section Run

variable {cfg : Config} {d d' : SessionDaemon} {polls : List (String → Status)} {run : ActiveRun}

/-- The side was active in some poll. -/
def Seen (polls : List (String → Status)) (side : String) : Prop :=
  ∃ status ∈ polls, control_active (status side) = true

theorem seen_append {status : String → Status} {side : String} :
    Seen (polls ++ [status]) side ↔ Seen polls side ∨ control_active (status side) = true := by
  unfold Seen
  constructor
  · rintro ⟨status', h, hactive⟩
    rcases List.mem_append.1 h with h | h
    · exact .inl ⟨status', h, hactive⟩
    · rw [List.mem_singleton.1 h] at hactive
      exact .inr hactive
  · rintro (⟨status', h, hactive⟩ | hactive)
    · exact ⟨status', List.mem_append_left _ h, hactive⟩
    · exact ⟨status, List.mem_append_right _ (List.mem_singleton_self _), hactive⟩

/-- The poll an event is. -/
def Event.polled : Event → List (String → Status)
  | .watch_arm_dropout status => [status]
  | _ => []

theorem polled_of_ne {ev : Event} (h : ∀ status, ev ≠ .watch_arm_dropout status) :
    ev.polled = [] := by
  unfold Event.polled
  split
  · next status => exact absurd rfl (h status)
  · rfl

/-- The record of the polls since the newest run was launched. -/
def record (d d' : SessionDaemon) (ev : Event) (polls : List (String → Status)) :
    List (String → Status) :=
  if d'.state.run_seq = d.state.run_seq then polls ++ ev.polled else []

/-- A session with the status polls of its newest run, oldest first. -/
inductive Watched (cfg : Config) : SessionDaemon → List (String → Status) → Prop
  | init (arms : List ArmUnit) (cameras : List CameraUnit) : Watched cfg (.init arms cameras) []
  | step {d d' : SessionDaemon} {polls : List (String → Status)} (ev : Event) :
    Watched cfg d polls → Serves cfg d ev d' → Watched cfg d' (record d d' ev polls)

theorem watched_of_reachable (h : Reachable cfg d) : ∃ polls, Watched cfg d polls := by
  obtain ⟨arms, cameras, hruns⟩ := h
  induction hruns with
  | refl => exact ⟨[], .init arms cameras⟩
  | tail _ hserves ih =>
    obtain ⟨polls, hpolls⟩ := ih
    obtain ⟨ev, hserves⟩ := hserves
    exact ⟨_, hpolls.step ev hserves⟩

/-- **The watchdog's two fields are a digest of the record.** -/
structure Digest (d : SessionDaemon) (polls : List (String → Status)) (run : ActiveRun) : Prop where
  active : ∀ side ∈ run.command_sides, side ∈ d.watchdog.active_sides ↔ Seen polls side
  armed : d.watchdog.watchdog_armed = true ↔ ∀ side ∈ run.command_sides, Seen polls side

/-- The first poll of a run finds nothing noted, as a launch clears the watchdog's account. -/
theorem digest_fresh (hsides : run.command_sides ≠ [])
    (hdog : d.watchdog = { watchdog_armed := false, active_sides := [] }) : Digest d [] run := by
  have hunseen : ∀ side, ¬ Seen [] side := fun side h => by
    obtain ⟨status, hstatus, -⟩ := h
    exact absurd hstatus List.not_mem_nil
  constructor
  · intro side _
    rw [hdog]
    exact iff_of_false List.not_mem_nil (hunseen side)
  · rw [hdog]
    refine iff_of_false Bool.false_ne_true fun hall => ?_
    obtain ⟨side, hside⟩ := List.exists_mem_of_ne_nil _ hsides
    exact hunseen side (hall side hside)

/-- A poll that stops nothing keeps the digest: a side is noted once some poll has found it active,
and all noted arm it. -/
theorem digest_noted {status : String → Status} (h : Digest d polls run)
    (hactive : d'.watchdog.active_sides =
      note_sides status run.command_sides d.watchdog.active_sides)
    (harmed : d'.watchdog.watchdog_armed = (d.watchdog.watchdog_armed ||
      run.command_sides.all (· ∈ d'.watchdog.active_sides))) :
    Digest d' (polls ++ [status]) run := by
  have hnoted : ∀ side ∈ run.command_sides,
      side ∈ d'.watchdog.active_sides ↔ Seen (polls ++ [status]) side := by
    intro side hside
    rw [hactive, mem_note_sides, seen_append, h.active side hside]
    exact or_congr_right (and_iff_right hside)
  refine ⟨hnoted, ?_⟩
  rw [harmed, Bool.or_eq_true, h.armed, List.all_eq_true]
  constructor
  · rintro (hall | hall) side hside
    · exact seen_append.2 (.inl (hall side hside))
    · exact (hnoted side hside).1 (by simpa using hall side hside)
  · intro hall
    refine .inr fun side hside => ?_
    simpa using (hnoted side hside).2 (hall side hside)

theorem serves_exec {ev : Event} (h : Serves cfg d ev d') : (exec (cfg.handle ev) d).2 = d' := by
  rw [h.2]

/-- The run invariant: the watchdog's two fields are the digest of the polls since the run was
launched. -/
theorem watched_digest (h : Watched cfg d polls) : ∀ run, Polled d run → Digest d polls run := by
  induction h with
  | init arms cameras => exact fun run hrun => nomatch hrun.on
  | @step d d' polls ev h hserves ih =>
    intro run hpolled
    by_cases hpoll : ∃ status, ev = .watch_arm_dropout status
    · obtain ⟨status, rfl⟩ := hpoll
      by_cases hcounts : ∃ run, Polled d run
      · obtain ⟨run', hrun'⟩ := hcounts
        have hdone := Ensures.of_exec (watch_arm_dropout_polled hrun' status) hserves.2
        obtain ⟨-, ⟨-, hstop⟩ | ⟨-, hlife, hactive, harmed⟩⟩ := hdone
        · -- a run that is being stopped is not polled any more
          obtain ⟨stopped, state, hspec, -, hall⟩ := handle_stop_spec d.toLifecycle
          have hon : stopped = some run := by
            have hon := hpolled.on
            rw [show d'.run = d'.toLifecycle.run from rfl, hstop, hspec] at hon
            exact hon
          have hunstopped := hpolled.unstopped
          rw [hall run hon] at hunstopped
          exact absurd hunstopped (by simp)
        · have hsame : run' = run := by
            have hon := hpolled.on
            rw [show d'.run = d'.toLifecycle.run from rfl, hlife] at hon
            exact Option.some.inj (hrun'.on.symm.trans hon)
          subst hsame
          have hseq : d'.state.run_seq = d.state.run_seq := by
            rw [show d'.state = d'.toLifecycle.state from rfl, hlife]
          rw [record, if_pos hseq]
          exact digest_noted (ih run' hrun') hactive harmed
      · have hidle := watch_arm_dropout_idle (fun run hrun => hcounts ⟨run, hrun⟩) status
        have hsame : d' = d := (Ensures.of_exec hidle hserves.2).2
        exact absurd ⟨run, hsame ▸ hpolled⟩ hcounts
    · have hattends := attends_handle cfg d ev fun status heq => hpoll ⟨status, heq⟩
      rw [serves_exec hserves] at hattends
      rcases hattends with ⟨hseq, hdog, hrun⟩ | ⟨hseq, hdog⟩
      · have hrecord : record d d' ev polls = polls := by
          rw [record, if_pos hseq, polled_of_ne fun status heq => hpoll ⟨status, heq⟩,
            List.append_nil]
        have hbefore := ih run
          ⟨hrun run hpolled.on hpolled.unstopped, hpolled.unstopped, hpolled.sides⟩
        rw [hrecord]
        exact ⟨by rw [hdog]; exact hbefore.active, by rw [hdog]; exact hbefore.armed⟩
      · rw [record, if_neg hseq.ne']
        exact digest_fresh hpolled.sides hdog

/-- What a stop does to a run that is not being stopped. -/
theorem handle_stop_unstopped {c : Lifecycle} (hrun : c.run = some run)
    (hunstopped : run.stopping = false) :
    c.handle_stop.run = some { run with stopping := true, stop_event := true } ∧
      c.handle_stop.state.state = .saving := by
  have hstop : ∀ c : Lifecycle, c.run = some run →
      c.stop_run.run = some { run with stopping := true, stop_event := true } ∧
        c.stop_run.state.state = .saving := by
    intro c hrun
    unfold Lifecycle.stop_run
    rw [hrun]
    dsimp only
    rw [if_neg (by simp [hunstopped])]
    exact ⟨rfl, rfl⟩
  unfold Lifecycle.handle_stop
  split
  · exact hstop c.clear_pending hrun
  · exact hstop c hrun

/-- **The dropout watchdog.** At any poll of a run that commands some side, after any events: the
poll goes through; it does nothing to a run that is being stopped; and it stops a run that is not
exactly when every commanded side was active in some poll before this one and some commanded side
is not active now. -/
theorem watch_arm_dropout_stops (cfg : Config) (d : SessionDaemon)
    (polls : List (String → Status)) (run : ActiveRun) (status : String → Status)
    (h : Watched cfg d polls) (hrun : d.run = some run) (hsides : run.command_sides ≠ []) :
    ∃ d', exec (cfg.handle (.watch_arm_dropout status)) d = (.ok (), d') ∧
      (run.stopping = true → d' = d) ∧
      (run.stopping = false →
        ((∀ side ∈ run.command_sides, Seen polls side) ∧
            (∃ side ∈ run.command_sides, control_active (status side) = false) →
          d'.run = some { run with stopping := true, stop_event := true } ∧
            d'.state.state = .saving) ∧
        (¬ ((∀ side ∈ run.command_sides, Seen polls side) ∧
            ∃ side ∈ run.command_sides, control_active (status side) = false) →
          d'.run = some run ∧ d'.state = d.state)) := by
  by_cases hstopping : run.stopping = true
  · have hnone : ∀ run', ¬ Polled d run' := by
      intro run' hrun'
      have hsame : run' = run := Option.some.inj (hrun'.on.symm.trans hrun)
      have hunstopped := hrun'.unstopped
      rw [hsame, hstopping] at hunstopped
      exact absurd hunstopped (by simp)
    have hidle := watch_arm_dropout_idle hnone status
    unfold Ensures at hidle
    refine ⟨d, Prod.ext hidle.1 hidle.2, fun _ => rfl, fun hcon => ?_⟩
    rw [hstopping] at hcon
    exact absurd hcon (by simp)
  · have hpolled : Polled d run := ⟨hrun, Bool.eq_false_iff.2 hstopping, hsides⟩
    have hdigest := watched_digest h run hpolled
    have hdone := watch_arm_dropout_polled hpolled status
    unfold Ensures at hdone
    refine ⟨(exec (watch_arm_dropout status) d).2, Prod.ext hdone.1 rfl,
      fun hcon => absurd hcon hstopping, fun _ => ?_⟩
    -- what the watchdog remembers is what the polls have shown
    have hdropped : (∃ side ∈ run.command_sides, Dropped d status side) ↔
        (∀ side ∈ run.command_sides, Seen polls side) ∧
          ∃ side ∈ run.command_sides, control_active (status side) = false := by
      constructor
      · rintro ⟨side, hside, harmed, -, hinactive⟩
        exact ⟨hdigest.armed.1 harmed, side, hside, hinactive⟩
      · rintro ⟨hall, side, hside, hinactive⟩
        exact ⟨side, hside, hdigest.armed.2 hall,
          (hdigest.active side hside).2 (hall side hside), hinactive⟩
    obtain ⟨-, ⟨hsome, hstop⟩ | ⟨hnone, hlife, -⟩⟩ := hdone
    · refine ⟨fun _ => ?_, fun hcon => absurd (hdropped.1 hsome) hcon⟩
      show (exec _ d).2.toLifecycle.run = _ ∧ (exec _ d).2.toLifecycle.state.state = _
      rw [hstop]
      exact handle_stop_unstopped hrun hpolled.unstopped
    · refine ⟨fun hcon => ?_, fun _ => ?_⟩
      · obtain ⟨side, hside, hside'⟩ := hdropped.2 hcon
        exact absurd hside' (hnone side hside)
      · show (exec _ d).2.toLifecycle.run = _ ∧ (exec _ d).2.toLifecycle.state = _
        rw [hlife]
        exact ⟨hrun, rfl⟩

end Run

/-! ## A collection run of the one-arm session -/

/-- Launched, and polled once with the arm in control. -/
def left_polled : SessionDaemon :=
  left_session.after (.init [left_arm] []) [left_command "start" 0 false energized,
    .watch_arm_dropout fun _ => left_status true]

/-- The arm's run was started and polled once, with its side in control. -/
theorem watched_left_polled : Watched left_session left_polled [fun _ => left_status true] := by
  have hinit : Watched left_session (.init [left_arm] []) [] := .init [left_arm] []
  have hstart := hinit.step (left_command "start" 0 false energized)
    (serves_after rfl (by decide +kernel))
  have hpoll := hstart.step (.watch_arm_dropout fun _ => left_status true)
    (serves_after (by decide +kernel) (by decide +kernel))
  rwa [record, if_pos (by decide +kernel), record, if_neg (by decide +kernel)] at hpoll

/-- The side drops out of control after it was seen in it: the next poll goes through, and what it
does to the run is as the theorem says. -/
theorem watch_arm_dropout_stops_left :
    ∃ run, Watched left_session left_polled [fun _ => left_status true] ∧
      left_polled.run = some run ∧ run.command_sides ≠ [] ∧
      ∃ d', exec (left_session.handle (.watch_arm_dropout fun _ => left_status false)) left_polled =
          (.ok (), d') ∧
        (run.stopping = true → d' = left_polled) ∧
        (run.stopping = false →
          ((∀ side ∈ run.command_sides, Seen [fun _ => left_status true] side) ∧
              (∃ side ∈ run.command_sides, control_active (left_status false) = false) →
            d'.run = some { run with stopping := true, stop_event := true } ∧
              d'.state.state = .saving) ∧
          (¬ ((∀ side ∈ run.command_sides, Seen [fun _ => left_status true] side) ∧
              ∃ side ∈ run.command_sides, control_active (left_status false) = false) →
            d'.run = some run ∧ d'.state = left_polled.state)) := by
  have hsome : left_polled.run.isSome = true := by decide +kernel
  obtain ⟨run, hrun⟩ := Option.isSome_iff_exists.1 hsome
  have hsides : (left_polled.run.map ActiveRun.command_sides) = some ["left"] := by decide +kernel
  have hne : run.command_sides ≠ [] := by
    rw [hrun] at hsides
    rw [Option.some.inj hsides]
    exact List.cons_ne_nil _ _
  exact ⟨run, watched_left_polled, hrun, hne, watch_arm_dropout_stops left_session left_polled
    [fun _ => left_status true] run (fun _ => left_status false) watched_left_polled hrun hne⟩

end DualFlexivControl.Daemon
