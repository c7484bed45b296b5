/-
Every outcome as an alert: `RunRegistry.take_alert` of `dashboard/runner.py`.

The daemon numbers its runs from 1 and leaves the newest outcome in `session.json`; the
dashboard polls it and returns an outcome whose number is above the newest it has returned,
`_seen_seq`. That cursor belongs to the dashboard and outlives the daemon, and nothing sets it
back: a reset clears the history only. So an outcome of a later daemon is returned only if its
number happens to be above all those returned before, of whatever daemon ([`Poll.Ahead`]).

What no order of events breaks is that the numbers returned increase: no outcome is returned
twice, and every alert leaves its one record.
-/
import DualFlexivControl.Daemon.Mirror

set_option autoImplicit false

namespace DualFlexivControl.Dashboard

open Daemon
open Session (Phase)

/-! ## What the dashboard reads -/

/-- `session.json`, as far as an alert depends on it. -/
structure SessionFile where
  pid : ℕ
  run_id : String
  rig : String
  heartbeat_ts : ℚ
  state : SessionState

/-- `SessionView.state`: the daemon's own state, or one of the two client-side ones. -/
inductive ViewState
  | down
  | starting
  | daemon (state : Mode)
  deriving DecidableEq

/-- `SessionView`, as far as an alert depends on it. -/
structure SessionView where
  state : ViewState
  run_id : Option String
  rig : Option String
  last_outcome : Option Outcome

/-- `_HEARTBEAT_STALE_S` -/
def HEARTBEAT_STALE_S : ℚ := 6

/-- `SessionManager.view`; `proc` is the process the manager holds, if that is alive. A file of
another process is not read. -/
def view (proc : Option ℕ) (raw : Option SessionFile) (now : ℚ) : SessionView :=
  match proc, raw with
  | none, _ => ⟨.down, none, none, none⟩
  | some _, none => ⟨.starting, none, none, none⟩
  | some pid, some raw =>
    if raw.pid = pid then
      let fresh := now - raw.heartbeat_ts < HEARTBEAT_STALE_S
      ⟨if fresh then .daemon raw.state.state else .starting, some raw.run_id, some raw.rig,
        raw.state.last_outcome⟩
    else ⟨.starting, none, none, none⟩

/-! ## The registry -/

/-- `_OK_OUTCOMES` -/
def OK_OUTCOMES : List OutcomeKind := [.saved, .finished, .stopped]

/-- The text `classify_outcome` gives an outcome. -/
def detail (outcome : Outcome) : String :=
  match outcome.outcome, outcome.phase with
  | .saved, _ => "collection stopped — episode saved to the dataset."
  | .stopped, .skill => "skill replay stopped."
  | .stopped, _ => "eval stopped."
  | .finished, .collection => "collection finished (target episodes reached)."
  | .finished, .skill => "skill replay finished."
  | .finished, .eval => "eval finished (rollout horizon reached)."
  | .stopped_error, _ =>
    s!"run stopped but exited abnormally (code {outcome.exitcode}); " ++
      "a collection episode may not have saved."
  | .crashed, .skill =>
    s!"skill replay failed (exit code {outcome.exitcode}) — e.g. the arm never " ++
      "reached the skill's start pose (E-stop/fault/safety halt), or a source failed."
  | .crashed, _ =>
    s!"run stopped on its own (exit code {outcome.exitcode}) — a source likely failed " ++
      "(e.g. a camera, the FACTR server, or the policy server)."

/-- `RunRecord` -/
structure RunRecord where
  run_id : String
  task : Json
  phase : Phase
  rig : String
  started_wall : String
  status : OutcomeKind

/-- `kind` of an alert. -/
inductive AlertKind
  | info
  | error
  deriving DecidableEq, Repr

/-- What `take_alert` returns. -/
structure Alert where
  kind : AlertKind
  phase : Phase
  outcome : OutcomeKind
  run_id : String
  detail : String
  tail : Option String

/-- `RunRegistry` -/
structure RunRegistry where
  history : List RunRecord
  seen_seq : ℕ

/-- The alert of an outcome. -/
def alert_of (outcome : Outcome) (log_tail : Option String) : Alert :=
  let ok := OK_OUTCOMES.contains outcome.outcome
  { kind := if ok then .info else .error
    phase := outcome.phase
    outcome := outcome.outcome
    run_id := toString outcome.run_seq
    detail := detail outcome
    tail := if ok then none else log_tail }

/-- The record of an outcome. -/
def record_of (view : SessionView) (outcome : Outcome) (wall : String) : RunRecord where
  run_id := view.run_id.getD "?" ++ "#" ++ toString outcome.run_seq
  task := outcome.task
  phase := outcome.phase
  rig := view.rig.getD "?"
  started_wall := wall
  status := outcome.outcome

/-- `take_alert` -/
def RunRegistry.take_alert (registry : RunRegistry) (view : SessionView) (wall : String)
    (log_tail : Option String) : Option Alert × RunRegistry :=
  match view.last_outcome with
  | none => (none, registry)
  | some outcome =>
    if outcome.run_seq ≤ registry.seen_seq then (none, registry)
    else
      (some (alert_of outcome log_tail),
        ⟨registry.history ++ [record_of view outcome wall], outcome.run_seq⟩)

/-- `reset`: the stop it sends an active run is the daemon's to handle. -/
def RunRegistry.reset (registry : RunRegistry) : RunRegistry := { registry with history := [] }

/-! ## Daemons and polls -/

/-- A daemon's lifetime. -/
structure Life where
  number : ℕ
  pid : ℕ
  run_id : String
  rig : String
  cfg : Config
  daemon : SessionDaemon
  alive : Bool

/-- What the daemon writes. -/
def Life.file (life : Life) (now : ℚ) : SessionFile :=
  ⟨life.pid, life.run_id, life.rig, now, life.daemon.state⟩

/-- One poll: the daemon of the time, the outcome in the file and the number of the daemon that
wrote it, what was returned, and the history before and after. `surfaced` are the outcomes that
earlier polls returned. -/
structure Poll where
  current : ℕ
  found : Option (ℕ × Outcome)
  surfaced : List (ℕ × Outcome)
  log_tail : Option String
  returned : Option Alert
  before : List RunRecord
  after : List RunRecord

/-- The dashboard, its newest daemon and the file, which says who wrote it. `held` is whether
the manager still holds the daemon's process. -/
structure System where
  life : Option Life
  lives : ℕ
  held : Bool
  file : Option (ℕ × SessionFile)
  registry : RunRegistry
  surfaced : List (ℕ × Outcome)
  polls : List Poll

/-- Before the first daemon. -/
def System.init : System := ⟨none, 0, false, none, ⟨[], 0⟩, [], []⟩

/-- The process the manager sees: held, and alive. -/
def System.proc (sys : System) : Option ℕ :=
  if sys.held then sys.life.bind fun life => if life.alive then some life.pid else none else none

/-- The view of a moment. -/
def System.view (sys : System) (now : ℚ) : SessionView :=
  Dashboard.view sys.proc (sys.file.map Prod.snd) now

/-- The outcome a poll finds, and whose it is. -/
def System.found (sys : System) (now : ℚ) : Option (ℕ × Outcome) :=
  (sys.view now).last_outcome.bind fun outcome => sys.file.map fun file => (file.1, outcome)

/-- One poll. -/
def System.poll (sys : System) (now : ℚ) (wall : String) (log_tail : Option String) : System :=
  let out := sys.registry.take_alert (sys.view now) wall log_tail
  let poll : Poll := {
    current := sys.lives
    found := sys.found now
    surfaced := sys.surfaced
    log_tail := log_tail
    returned := out.1
    before := sys.registry.history
    after := out.2.history }
  { sys with
    registry := out.2
    surfaced := if out.1.isSome then sys.surfaced ++ (sys.found now).toList else sys.surfaced
    polls := sys.polls ++ [poll] }

/-- What happens: a daemon is spawned when there is none, serves, writes or removes its file and
exits; the manager lets go of it; the dashboard polls and resets. -/
inductive Step (sys : System) : System → Prop
  | spawn (pid : ℕ) (run_id rig : String) (cfg : Config) (arms : List ArmUnit)
      (cameras : List CameraUnit) : (∀ life, sys.life = some life → life.alive = false) →
      Step sys { sys with
        life := some ⟨sys.lives + 1, pid, run_id, rig, cfg, .init arms cameras, true⟩
        lives := sys.lives + 1
        held := true }
  | serve (life : Life) (d' : SessionDaemon) : sys.life = some life → life.alive = true →
      Runs life.cfg life.daemon d' → Step sys { sys with life := some { life with daemon := d' } }
  | write (life : Life) (now : ℚ) : sys.life = some life → life.alive = true →
      Step sys { sys with file := some (life.number, life.file now) }
  | remove (life : Life) : sys.life = some life → life.alive = true →
      Step sys { sys with file := none }
  | exit (life : Life) : sys.life = some life →
      Step sys { sys with life := some { life with alive := false } }
  | release : Step sys { sys with held := false }
  | poll (now : ℚ) (wall : String) (log_tail : Option String) :
      Step sys (sys.poll now wall log_tail)
  | reset : Step sys { sys with registry := sys.registry.reset }

/-- The states of a dashboard's lifetime. -/
inductive Reaches : System → Prop
  | init : Reaches .init
  | step {sys sys' : System} : Reaches sys → Step sys sys' → Reaches sys'

/-! ## What alerts promise -/

/-- The poll finds an outcome of the current daemon that no earlier poll returned. -/
def Poll.New (p : Poll) (outcome : Outcome) : Prop :=
  p.found = some (p.current, outcome) ∧
    ∀ s ∈ p.surfaced, s.1 = p.current → s.2.run_seq ≠ outcome.run_seq

/-- A new outcome is returned. -/
def Poll.Returns (p : Poll) : Prop :=
  ∀ outcome, p.New outcome → p.returned = some (alert_of outcome p.log_tail)

/-- A new outcome's number is above those of every earlier daemon's outcomes that were
returned. -/
def Poll.Ahead (p : Poll) : Prop :=
  ∀ outcome, p.New outcome → ∀ s ∈ p.surfaced, s.1 < p.current → s.2.run_seq < outcome.run_seq

/-- One record for an alert, and none without. -/
def Poll.Recorded (p : Poll) : Prop :=
  ∃ records, p.after = p.before ++ records ∧ records.length = p.returned.toList.length

/-- Every outcome is surfaced exactly once. -/
structure Surfaced (sys : System) : Prop where
  returned : ∀ p ∈ sys.polls, p.Returns
  once : (sys.surfaced.map fun s => (s.1, s.2.run_seq)).Nodup
  recorded : ∀ p ∈ sys.polls, p.Recorded

/-! ## One poll -/

section Polls

variable {sys : System} {now : ℚ}

/-- Whatever a poll finds is in the file, under the daemon that wrote it and as its newest outcome.
-/
theorem file_of_found {n : ℕ} {outcome : Outcome} (h : sys.found now = some (n, outcome)) :
    (sys.view now).last_outcome = some outcome ∧
      ∃ file, sys.file = some (n, file) ∧ file.state.last_outcome = some outcome := by
  unfold System.found at h
  obtain ⟨outcome', hview, h⟩ := Option.bind_eq_some_iff.1 h
  obtain ⟨⟨n', file⟩, hfile, h⟩ := Option.map_eq_some_iff.1 h
  obtain ⟨rfl, rfl⟩ := Prod.mk.inj h
  refine ⟨hview, file, hfile, ?_⟩
  unfold System.view Dashboard.view at hview
  rw [hfile] at hview
  cases hproc : sys.proc with
  | none =>
    rw [hproc] at hview
    exact nomatch hview
  | some pid =>
    rw [hproc] at hview
    dsimp only [Option.map] at hview
    split at hview
    · exact hview
    · exact nomatch hview

/-- A view with an outcome is the file's own: a missing or unreadable file is seen as a session
without one. -/
theorem found_of_view {outcome : Outcome} (h : (sys.view now).last_outcome = some outcome) :
    ∃ n, sys.found now = some (n, outcome) := by
  have hfile : ∃ file, sys.file = some file := by
    cases hfile : sys.file with
    | some file => exact ⟨file, rfl⟩
    | none =>
      unfold System.view Dashboard.view at h
      rw [hfile] at h
      cases hproc : sys.proc with
      | none =>
        rw [hproc] at h
        exact nomatch h
      | some pid =>
        rw [hproc] at h
        exact nomatch h
  obtain ⟨file, hfile⟩ := hfile
  refine ⟨file.1, ?_⟩
  unfold System.found
  rw [h, hfile]
  rfl

/-- A poll returns the outcome it sees if its number is above the cursor. -/
theorem take_alert_cases (sys : System) (now : ℚ) (wall : String) (log_tail : Option String) :
    (sys.registry.take_alert (sys.view now) wall log_tail = (none, sys.registry) ∧
      ∀ n outcome, sys.found now = some (n, outcome) →
        outcome.run_seq ≤ sys.registry.seen_seq) ∨
    ∃ n outcome record, sys.found now = some (n, outcome) ∧
      sys.registry.seen_seq < outcome.run_seq ∧
      sys.registry.take_alert (sys.view now) wall log_tail =
        (some (alert_of outcome log_tail),
          ⟨sys.registry.history ++ [record], outcome.run_seq⟩) := by
  unfold RunRegistry.take_alert
  cases hview : (sys.view now).last_outcome with
  | none =>
    refine .inl ⟨rfl, fun n outcome hfound => ?_⟩
    rw [(file_of_found hfound).1] at hview
    exact nomatch hview
  | some outcome =>
    dsimp only
    by_cases hseen : outcome.run_seq ≤ sys.registry.seen_seq
    · rw [if_pos hseen]
      refine .inl ⟨rfl, fun n outcome' hfound => ?_⟩
      rw [(file_of_found hfound).1] at hview
      rwa [Option.some.inj hview]
    · rw [if_neg hseen]
      obtain ⟨n, hfound⟩ := found_of_view hview
      exact .inr ⟨n, outcome, _, hfound, Nat.lt_of_not_le hseen, rfl⟩

end Polls

/-! ## The books -/

/-- What holds of a daemon: its number is the newest, and its lifecycle is in order. -/
structure Life.Newest (life : Life) (lives : ℕ) : Prop where
  number : life.number = lives
  daemon : Inv life.daemon.toLifecycle

/-- The outcome in the file: numbered from 1, not beyond its daemon's, and not below what was
returned of that daemon. -/
structure FileOutcome (newest : Option Life) (lives : ℕ) (surfaced : List (ℕ × Outcome))
    (n : ℕ) (outcome : Outcome) : Prop where
  author : n ≤ lives
  positive : 1 ≤ outcome.run_seq
  within : n = lives → ∀ life, newest = some life →
    outcome.run_seq ≤ life.daemon.outcomes.length
  above : n = lives → ∀ s ∈ surfaced, s.1 = n → s.2.run_seq ≤ outcome.run_seq

/-- The cursor is the greatest number returned, and the numbers returned increase. -/
structure Books (sys : System) : Prop where
  newest : ∀ life, sys.life = some life → life.Newest sys.lives
  file : ∀ n file outcome, sys.file = some (n, file) →
    file.state.last_outcome = some outcome →
      FileOutcome sys.life sys.lives sys.surfaced n outcome
  author : ∀ s ∈ sys.surfaced, s.1 ≤ sys.lives
  within : ∀ s ∈ sys.surfaced, s.1 = sys.lives → ∀ life, sys.life = some life →
    s.2.run_seq ≤ life.daemon.outcomes.length
  cursor : ∀ s ∈ sys.surfaced, s.2.run_seq ≤ sys.registry.seen_seq
  reached : sys.registry.seen_seq = 0 ∨
    ∃ s ∈ sys.surfaced, s.2.run_seq = sys.registry.seen_seq
  increasing : sys.surfaced.Pairwise fun s t => s.2.run_seq < t.2.run_seq
  polls : ∀ p ∈ sys.polls, p.Recorded ∧ (p.Returns ↔ p.Ahead)

section Books

variable {sys sys' : System}

theorem books_init : Books .init where
  newest := fun _ h => nomatch h
  file := fun _ _ _ h => nomatch h
  author := fun _ h => absurd h List.not_mem_nil
  within := fun _ h => absurd h List.not_mem_nil
  cursor := fun _ h => absurd h List.not_mem_nil
  reached := .inl rfl
  increasing := List.Pairwise.nil
  polls := fun _ h => absurd h List.not_mem_nil

/-- A new daemon has returned nothing yet, and the file is an older one's. -/
theorem Books.spawn (h : Books sys) (pid : ℕ) (run_id rig : String) (cfg : Config)
    (arms : List ArmUnit) (cameras : List CameraUnit) :
    Books { sys with
      life := some ⟨sys.lives + 1, pid, run_id, rig, cfg, .init arms cameras, true⟩
      lives := sys.lives + 1
      held := true } where
  newest := by
    rintro life heq
    obtain rfl := Option.some.inj heq
    exact ⟨rfl, inv_init arms cameras⟩
  file := by
    intro n file outcome hfile hlast
    have hold := h.file n file outcome hfile hlast
    have hne : n ≠ sys.lives + 1 := Nat.ne_of_lt (Nat.lt_succ_of_le hold.author)
    exact ⟨Nat.le_succ_of_le hold.author, hold.positive, fun heq => absurd heq hne,
      fun heq => absurd heq hne⟩
  author := fun s hs => Nat.le_succ_of_le (h.author s hs)
  within := fun s hs heq => absurd heq (Nat.ne_of_lt (Nat.lt_succ_of_le (h.author s hs)))
  cursor := h.cursor
  reached := h.reached
  increasing := h.increasing
  polls := h.polls

/-- The daemon moves on: its outcomes only grow, and what the dashboard has returned of them stays
where it was. -/
theorem Books.life (h : Books sys) {life life' : Life} (hlife : sys.life = some life)
    (hnumber : life'.number = life.number) (hinv : Inv life'.daemon.toLifecycle)
    (hgrow : life.daemon.outcomes.length ≤ life'.daemon.outcomes.length) :
    Books { sys with life := some life' } where
  newest := by
    rintro _ heq
    obtain rfl := Option.some.inj heq
    exact ⟨hnumber.trans (h.newest life hlife).number, hinv⟩
  file := by
    intro n file outcome hfile hlast
    have hold := h.file n file outcome hfile hlast
    refine ⟨hold.author, hold.positive, ?_, hold.above⟩
    rintro hn _ heq
    obtain rfl := Option.some.inj heq
    exact (hold.within hn life hlife).trans hgrow
  author := h.author
  within := by
    rintro s hs hn _ heq
    obtain rfl := Option.some.inj heq
    exact (h.within s hs hn life hlife).trans hgrow
  cursor := h.cursor
  reached := h.reached
  increasing := h.increasing
  polls := h.polls

/-- What the daemon writes is its newest outcome, so the file is never ahead of the daemon. -/
theorem Books.write (h : Books sys) {life : Life} (hlife : sys.life = some life) (now : ℚ) :
    Books { sys with file := some (life.number, life.file now) } where
  newest := h.newest
  file := by
    rintro n file outcome hfile hlast
    obtain ⟨rfl, rfl⟩ := Prod.mk.inj (Option.some.inj hfile)
    have hnewest := h.newest life hlife
    have hseq := hnewest.daemon.ledger.run_seq_last_outcome hlast
    refine ⟨Nat.le_of_eq hnewest.number, ?_, ?_, ?_⟩
    · -- there is an outcome, so there is a first one
      have hlast' : life.daemon.outcomes.getLast? = some outcome :=
        hnewest.daemon.ledger.last_outcome.symm.trans hlast
      rw [hseq]
      exact List.length_pos_of_mem (List.mem_of_getLast? hlast')
    · rintro - _ heq
      obtain rfl := Option.some.inj (hlife.symm.trans heq)
      exact Nat.le_of_eq hseq
    · intro hn s hs hsn
      rw [hseq]
      exact h.within s hs (hsn.trans hn) life hlife
  author := h.author
  within := h.within
  cursor := h.cursor
  reached := h.reached
  increasing := h.increasing
  polls := h.polls

/-- What a poll returns and records: an outcome exactly where its number is above all that polls
have returned before. -/
theorem poll_spec (h : Books sys) (now : ℚ) (wall : String) (log_tail : Option String) :
    ∀ p ∈ (sys.poll now wall log_tail).polls, p.Recorded ∧ (p.Returns ↔ p.Ahead) := by
  intro p hp
  rcases List.mem_append.1 hp with hp | hp
  · exact h.polls p hp
  obtain rfl := List.mem_singleton.1 hp
  rcases take_alert_cases sys now wall log_tail with
    ⟨hout, hseen⟩ | ⟨n, outcome, record, hfound, hseen, hout⟩
  · rw [hout]
    refine ⟨⟨[], (List.append_nil _).symm, rfl⟩, ?_, ?_⟩
    · -- returning nothing, it returns every new outcome only if there is none
      intro hreturns outcome hnew
      exact nomatch hreturns outcome hnew
    · intro hahead outcome hnew
      obtain ⟨hfound, hunsurfaced⟩ := hnew
      dsimp only at hfound hunsurfaced
      have hle := hseen _ _ hfound
      obtain ⟨-, file, hfile, hlast⟩ := file_of_found hfound
      have hin := h.file _ _ _ hfile hlast
      exfalso
      rcases h.reached with hzero | ⟨s, hs, heq⟩
      · have hpositive := hin.positive
        omega
      · -- the outcome at the cursor is an earlier daemon's, or the one that was found
        rcases Nat.lt_or_eq_of_le (h.author s hs) with hlt | hcurrent
        · have habove := hahead outcome ⟨hfound, hunsurfaced⟩ s hs hlt
          omega
        · have hbelow := hin.above rfl s hs hcurrent
          have hne := hunsurfaced s hs hcurrent
          omega
  · rw [hout]
    refine ⟨⟨[record], rfl, rfl⟩, ?_, ?_⟩
    · intro _ outcome' hnew s hs _
      obtain ⟨hfound', -⟩ := hnew
      dsimp only at hfound' hs
      rw [hfound] at hfound'
      obtain ⟨-, rfl⟩ := Prod.mk.inj (Option.some.inj hfound')
      exact Nat.lt_of_le_of_lt (h.cursor s hs) hseen
    · intro _ outcome' hnew
      obtain ⟨hfound', -⟩ := hnew
      dsimp only at hfound'
      rw [hfound] at hfound'
      obtain ⟨-, rfl⟩ := Prod.mk.inj (Option.some.inj hfound')
      rfl

/-- A poll moves the cursor to what it returns, and otherwise leaves it, so the cursor is the
largest number that was returned. -/
theorem Books.poll (h : Books sys) (now : ℚ) (wall : String) (log_tail : Option String) :
    Books (sys.poll now wall log_tail) := by
  have hpolls := poll_spec h now wall log_tail
  unfold System.poll at hpolls ⊢
  rcases take_alert_cases sys now wall log_tail with
    ⟨hout, -⟩ | ⟨n, outcome, record, hfound, hseen, hout⟩
  · rw [hout] at hpolls ⊢
    exact ⟨h.newest, h.file, h.author, h.within, h.cursor, h.reached, h.increasing, hpolls⟩
  · obtain ⟨-, file, hfile, hlast⟩ := file_of_found hfound
    have hin := h.file n file outcome hfile hlast
    rw [hout] at hpolls ⊢
    simp only [Option.isSome_some, if_true, hfound, Option.toList_some] at hpolls ⊢
    refine ⟨h.newest, ?_, ?_, ?_, ?_, ?_, ?_, hpolls⟩
    · intro n' file' outcome' hfile' hlast'
      have hold := h.file n' file' outcome' hfile' hlast'
      refine ⟨hold.author, hold.positive, hold.within, ?_⟩
      intro hn' s hs hsn
      rcases List.mem_append.1 hs with hs | hs
      · exact hold.above hn' s hs hsn
      · -- the returned outcome is the one in the file
        obtain rfl := List.mem_singleton.1 hs
        obtain ⟨-, rfl⟩ := Prod.mk.inj (Option.some.inj (hfile.symm.trans hfile'))
        exact Nat.le_of_eq (congrArg Outcome.run_seq (Option.some.inj (hlast.symm.trans hlast')))
    · intro s hs
      rcases List.mem_append.1 hs with hs | hs
      · exact h.author s hs
      · obtain rfl := List.mem_singleton.1 hs
        exact hin.author
    · intro s hs hsn
      rcases List.mem_append.1 hs with hs | hs
      · exact h.within s hs hsn
      · obtain rfl := List.mem_singleton.1 hs
        exact hin.within hsn
    · intro s hs
      rcases List.mem_append.1 hs with hs | hs
      · exact (h.cursor s hs).trans (Nat.le_of_lt hseen)
      · obtain rfl := List.mem_singleton.1 hs
        exact Nat.le_refl _
    · exact .inr ⟨(n, outcome), List.mem_append_right _ (List.mem_singleton_self _), rfl⟩
    · refine List.pairwise_append.2 ⟨h.increasing, List.pairwise_singleton .., ?_⟩
      intro s hs t ht
      obtain rfl := List.mem_singleton.1 ht
      exact Nat.lt_of_le_of_lt (h.cursor s hs) hseen

theorem Books.step (h : Books sys) (hstep : Step sys sys') : Books sys' := by
  cases hstep with
  | spawn pid run_id rig cfg arms cameras _ => exact h.spawn pid run_id rig cfg arms cameras
  | serve life d' hlife _ hruns =>
    exact h.life hlife rfl (hruns.inv (h.newest life hlife).daemon) hruns.outcomes
  | write life now hlife _ => exact h.write hlife now
  | remove life _ _ =>
    exact ⟨h.newest, (fun _ _ _ hfile => nomatch hfile), h.author, h.within, h.cursor, h.reached,
      h.increasing, h.polls⟩
  | exit life hlife => exact h.life hlife rfl (h.newest life hlife).daemon (Nat.le_refl _)
  | release =>
    exact ⟨h.newest, h.file, h.author, h.within, h.cursor, h.reached, h.increasing, h.polls⟩
  | poll now wall log_tail => exact h.poll now wall log_tail
  | reset =>
    exact ⟨h.newest, h.file, h.author, h.within, h.cursor, h.reached, h.increasing, h.polls⟩

theorem Reaches.books (h : Reaches sys) : Books sys := by
  induction h with
  | init => exact books_init
  | step _ hstep ih => exact ih.step hstep

end Books

/-! ## The alerts -/

/-- Every outcome is surfaced exactly once in exactly the runs in which each poll's new outcome
is numbered above all that earlier daemons had returned. -/
theorem outcomes_surface_iff {sys : System} (h : Reaches sys) :
    Surfaced sys ↔ ∀ p ∈ sys.polls, p.Ahead := by
  have hbooks := h.books
  constructor
  · intro hsurfaced p hp
    exact (hbooks.polls p hp).2.1 (hsurfaced.returned p hp)
  · intro hahead
    refine ⟨fun p hp => (hbooks.polls p hp).2.2 (hahead p hp), ?_,
      fun p hp => (hbooks.polls p hp).1⟩
    refine (List.pairwise_map.2 (hbooks.increasing.imp ?_) :)
    intro s t hlt heq
    exact Nat.ne_of_lt hlt (congrArg Prod.snd heq)

/-! ## One run a daemon -/

/-- A daemon that has reaped one collection run. -/
def one_run : SessionDaemon :=
  left_session.after (.init [left_arm] [])
    [left_command "start" 0 false energized, .consumer_exit 0 0, .reap_consumer]

/-- A new daemon, once it has reaped a run and written its file. -/
def System.one_run (sys : System) (pid : ℕ) : System :=
  let life : Life := ⟨sys.lives + 1, pid, "run", "left", left_session, Dashboard.one_run, true⟩
  { sys with
    life := some life
    lives := sys.lives + 1
    held := true
    file := some (sys.lives + 1, life.file 0) }

/-- Its outcome is polled, and the daemon exits. -/
def System.one_alert (sys : System) (pid : ℕ) : System :=
  let polled := (sys.one_run pid).poll 1 "" none
  { polled with life := polled.life.map fun life => { life with alive := false } }

theorem Reaches.one_run {sys : System} (h : Reaches sys)
    (hdown : ∀ life, sys.life = some life → life.alive = false) (pid : ℕ) :
    Reaches (sys.one_run pid) := by
  have hruns : Runs left_session (.init [left_arm] []) Dashboard.one_run :=
    runs_after (by decide +kernel)
  have hspawned := h.step (.spawn pid "run" "left" left_session [left_arm] [] hdown)
  have hserved := hspawned.step (.serve _ _ rfl rfl hruns)
  exact hserved.step (Step.write
    ⟨sys.lives + 1, pid, "run", "left", left_session, Dashboard.one_run, true⟩ 0 rfl rfl)

theorem Reaches.one_alert {sys : System} (h : Reaches sys)
    (hdown : ∀ life, sys.life = some life → life.alive = false) (pid : ℕ) :
    Reaches (sys.one_alert pid) :=
  ((h.one_run hdown pid).step (.poll 1 "" none)).step (.exit _ rfl)

theorem one_run_outcome :
    ∃ outcome, one_run.state.last_outcome = some outcome ∧ outcome.run_seq = 1 := by
  have hseq : one_run.state.last_outcome.map Outcome.run_seq = some 1 := by decide +kernel
  exact Option.map_eq_some_iff.1 hseq

/-- The first daemon's outcome is new, and it is returned. -/
theorem first_outcome_surfaces :
    ((System.init.one_alert 1).polls.map fun p => p.returned.isSome) = [true] ∧
      (Surfaced (System.init.one_alert 1) ↔ ∀ p ∈ (System.init.one_alert 1).polls, p.Ahead) := by
  refine ⟨by decide +kernel, ?_⟩
  exact outcomes_surface_iff (Reaches.init.one_alert (fun _ h => nomatch h) 1)

/-- The first outcome of the second daemon has number 1 as well, and is not returned. -/
theorem second_daemon_unheard :
    ∃ sys, Reaches sys ∧ ¬ Surfaced sys := by
  have hfirst := Reaches.init.one_alert (fun _ h => nomatch h) 1
  have hdown : ∀ life, (System.init.one_alert 1).life = some life → life.alive = false := by
    intro life hlife
    rw [← Option.some.inj hlife]
  refine ⟨(System.init.one_alert 1).one_alert 2, hfirst.one_alert hdown 2, ?_⟩
  intro hsurfaced
  obtain ⟨outcome, hlast, hseq⟩ := one_run_outcome
  have hpoll : ∃ p ∈ ((System.init.one_alert 1).one_alert 2).polls,
      p.current = 2 ∧ p.found = some (2, outcome) ∧ p.surfaced = [(1, outcome)] ∧
        p.returned = none := by
    refine ⟨_, List.mem_append_right _ (List.mem_singleton_self _), rfl, ?_, ?_, ?_⟩
    all_goals simp [System.one_alert, System.one_run, System.poll, System.found, System.view,
      view, System.proc, RunRegistry.take_alert, Life.file, System.init, hlast, hseq]
  obtain ⟨p, hp, hcurrent, hfound, hbefore, hreturned⟩ := hpoll
  have hnew : p.New outcome := by
    refine ⟨by rw [hfound, hcurrent], ?_⟩
    intro s hs hs2
    rw [hbefore, List.mem_singleton] at hs
    rw [hs, hcurrent] at hs2
    exact absurd (show 1 = 2 from hs2) (by decide)
  have halert := hsurfaced.returned p hp outcome hnew
  rw [hreturned] at halert
  exact nomatch halert

end DualFlexivControl.Dashboard
