/-
The dashboard's hold on the session daemon: `SessionManager.ensure` and what it calls
(`dashboard/session.py`).

The manager holds at most one daemon process. It learns of that process's death only when
`ensure` is called again, and of its state only through `session.json`. So the world around it
has both clocks, the process, the file, and on the side what the manager does not keep: the
newest file its process has written, the lifetimes of its processes since the crash-loop brake
was last re-armed, and all spawns.

A call of `ensure` takes time: `lag` until it looks at the backoff, and `took` until the new
process runs. Reading the file and starting a process may fail.
-/
import Mathlib.Algebra.Order.Field.Rat
import DualFlexivControl.Lib.Runs
import DualFlexivControl.Dashboard.Alerts

set_option autoImplicit false

namespace DualFlexivControl.Dashboard

open Daemon (Mode)

/-- `RUN_STATES` -/
def RUN_STATES : List Mode := [.collection, .eval, .skill, .saving]

/-- `SessionView.run_active` -/
def SessionView.run_active (v : SessionView) : Bool :=
  match v.state with
  | .daemon state => RUN_STATES.contains state
  | .down => false
  | .starting => false

/-- `_RESPAWN_BACKOFF_S` -/
def RESPAWN_BACKOFF_S : ℚ := 10

/-- `_EARLY_DEATH_S` -/
def EARLY_DEATH_S : ℚ := 30

/-- `_MAX_EARLY_DEATHS` -/
def MAX_EARLY_DEATHS : ℕ := 3

/-- `SessionManager` -/
structure SessionManager where
  proc : Option ℕ
  rig : Option String
  sim : Option Bool
  spawned_at : ℚ
  early_deaths : ℕ
  last_exit_code : Option ℤ
  gave_up : Bool
  deriving DecidableEq

/-- A process of the manager: when it was spawned, when it died, and when `ensure` noticed. -/
structure Lifetime where
  spawned_at : ℚ
  died_at : Option ℚ
  noticed_at : Option ℚ
  deriving DecidableEq

/-- One spawn, and whether the manager made it without a change of target. -/
structure Spawn where
  time : ℚ
  automatic : Bool
  deriving DecidableEq

/-- The manager, both clocks, its process's exit code once that is dead, and `session.json`. The
process's newest write, the lifetimes since the last re-arm (newest first) and the spawns (newest
first) are on the side. -/
structure World where
  manager : SessionManager
  now : ℚ
  wall : ℚ
  exited : Option ℤ
  file : Option SessionFile
  newest : Option SessionFile
  era : List Lifetime
  spawns : List Spawn

/-- One call of `ensure`. -/
structure Call where
  rig : Option String
  sim : Bool
  readable : Bool
  lag : ℚ
  took : ℚ
  popen : Option ℕ
  deriving DecidableEq

/-- What a call did: whether it shut the daemon down, and the process it started. -/
structure Acts where
  shut : Bool
  spawned : Option ℕ
  deriving DecidableEq

namespace World

variable (w : World)

/-- `self._proc is not None and self._proc.poll() is None` -/
def alive : Bool := w.manager.proc.isSome && w.exited.isNone

/-- Time passes on the monotonic clock. -/
def elapse (d : ℚ) : World := { w with now := w.now + d }

/-- The newest lifetime's death is noticed. -/
def notice (now : ℚ) : List Lifetime → List Lifetime
  | [] => []
  | life :: rest => { life with noticed_at := some now } :: rest

/-- The newest lifetime ends. -/
def bury (now : ℚ) : List Lifetime → List Lifetime
  | [] => []
  | life :: rest => { life with died_at := some now } :: rest

/-- `early_deaths` after a death that is noticed at this uptime. -/
def count_death (early_deaths : ℕ) (uptime : ℚ) : ℕ :=
  if uptime < EARLY_DEATH_S then early_deaths + 1 else 1

/-- `_harvest_exit_locked` -/
def harvest_exit : World :=
  match w.manager.proc with
  | none => w
  | some _ =>
    let early_deaths := count_death w.manager.early_deaths (w.now - w.manager.spawned_at)
    { w with
      manager := { w.manager with
        proc := none, last_exit_code := w.exited, early_deaths := early_deaths,
        gave_up := w.manager.gave_up || decide (MAX_EARLY_DEATHS ≤ early_deaths) }
      era := notice w.now w.era }

/-- `_rearm_locked` -/
def rearm : World :=
  { w with
    manager := { w.manager with early_deaths := 0, last_exit_code := none, gave_up := false }
    era := [] }

/-- `_spawn_locked`, which raises where no process can be started. -/
def spawn (call : Call) (automatic : Bool) : World :=
  match call.popen with
  | none => w
  | some pid =>
    { w with
      manager := { w.manager with
        proc := some pid, rig := call.rig, sim := some call.sim, spawned_at := w.now }
      exited := none
      newest := none
      era := ⟨w.now, none, none⟩ :: w.era
      spawns := ⟨w.now, automatic⟩ :: w.spawns }

/-- `_shutdown_locked` -/
def shutdown : World := { w with manager := { w.manager with proc := none } }

/-- The daemon already runs with this target. -/
def same_target (call : Call) : Prop :=
  (call.rig, some call.sim) = (w.manager.rig, w.manager.sim)

instance (call : Call) : Decidable (w.same_target call) := inferInstanceAs (Decidable (_ = _))

/-- `view()`, as `ensure` sees it. -/
def seen (readable : Bool) : SessionView :=
  view (if w.alive then w.manager.proc else none) (if readable then w.file else none) w.wall

/-- `ensure` -/
def ensure (call : Call) : World × Acts :=
  if w.alive = true ∧ w.same_target call then (w, ⟨false, none⟩)
  else if w.alive = true then
    if (w.seen call.readable).run_active = true then (w, ⟨false, none⟩)
    else ((w.shutdown.rearm.elapse call.took).spawn call false, ⟨true, call.popen⟩)
  else
    if ¬ w.same_target call then
      ((w.harvest_exit.rearm.elapse call.took).spawn call false, ⟨false, call.popen⟩)
    else if w.harvest_exit.manager.gave_up = true then (w.harvest_exit, ⟨false, none⟩)
    else if w.now + call.lag - w.manager.spawned_at < RESPAWN_BACKOFF_S then
      (w.harvest_exit.elapse call.lag, ⟨false, none⟩)
    else (((w.harvest_exit.elapse call.lag).elapse call.took).spawn call true, ⟨false, call.popen⟩)

theorem alive_iff {w : World} :
    w.alive = true ↔ (∃ pid, w.manager.proc = some pid) ∧ w.exited = none := by
  unfold alive
  rw [Bool.and_eq_true, Option.isSome_iff_exists, Option.isNone_iff_eq_none]

theorem harvest_fields (w : World) : w.harvest_exit.manager.proc = none ∧
    w.harvest_exit.now = w.now ∧ w.harvest_exit.manager.spawned_at = w.manager.spawned_at ∧
    w.harvest_exit.era.length = w.era.length := by
  unfold World.harvest_exit
  cases hproc : w.manager.proc with
  | none => exact ⟨hproc, rfl, rfl, rfl⟩
  | some pid =>
    refine ⟨rfl, rfl, rfl, ?_⟩
    cases hera : w.era with
    | nil => rfl
    | cons life rest => rfl

/-- What one call of `ensure` may do: nothing, shut down an idle daemon for another target, start
one for another target, or meet the death of its daemon and then give up, wait or spawn again. -/
theorem ensure_cases {P : World → Prop} {w : World} (call : Call) (hkeep : P w)
    (hreplace : P ((w.shutdown.rearm.elapse call.took).spawn call false))
    (hretarget : P ((w.harvest_exit.rearm.elapse call.took).spawn call false))
    (hgave : P w.harvest_exit) (hwait : P (w.harvest_exit.elapse call.lag))
    (hrespawn : w.harvest_exit.manager.gave_up = false →
      RESPAWN_BACKOFF_S ≤ w.now + call.lag - w.manager.spawned_at →
      P (((w.harvest_exit.elapse call.lag).elapse call.took).spawn call true)) :
    P (w.ensure call).1 := by
  unfold ensure
  by_cases hsame : w.alive = true ∧ w.same_target call
  · rw [if_pos hsame]
    exact hkeep
  · rw [if_neg hsame]
    by_cases halive : w.alive = true
    · rw [if_pos halive]
      by_cases hactive : (w.seen call.readable).run_active = true
      · rw [if_pos hactive]
        exact hkeep
      · rw [if_neg hactive]
        exact hreplace
    · rw [if_neg halive]
      by_cases htarget : w.same_target call
      · rw [if_neg (not_not.2 htarget)]
        by_cases hgave_up : w.harvest_exit.manager.gave_up = true
        · rw [if_pos hgave_up]
          exact hgave
        · rw [if_neg hgave_up]
          by_cases hsoon : w.now + call.lag - w.manager.spawned_at < RESPAWN_BACKOFF_S
          · rw [if_pos hsoon]
            exact hwait
          · rw [if_neg hsoon]
            exact hrespawn (Bool.eq_false_of_not_eq_true hgave_up) (not_lt.1 hsoon)
      · rw [if_pos htarget]
        exact hretarget

end World

/-! ## Runs -/

/-- What happens around the manager: time passes, its daemon writes `session.json` or dies, another
process replaces or removes the file, and the dashboard calls `ensure` or `shutdown`. -/
inductive Event
  | tick (d wall : ℚ)
  | write (run_id rig : String) (heartbeat_ts : ℚ) (state : Daemon.SessionState)
  | replace (file : Option SessionFile)
  | die (code : ℤ)
  | ensure (call : Call)
  | shutdown

/-- The file the manager's process writes. -/
def World.written (w : World) (run_id rig : String) (heartbeat_ts : ℚ)
    (state : Daemon.SessionState) : Option SessionFile :=
  w.manager.proc.map fun pid => ⟨pid, run_id, rig, heartbeat_ts, state⟩

def World.step (w : World) : Event → World
  | .tick d wall => { w with now := w.now + d, wall := wall }
  | .write run_id rig heartbeat_ts state =>
    { w with
      file := w.written run_id rig heartbeat_ts state
      newest := w.written run_id rig heartbeat_ts state }
  | .replace file => { w with file := file }
  | .die code => { w with exited := some code, era := World.bury w.now w.era }
  | .ensure call => (w.ensure call).1
  | .shutdown => w.shutdown.rearm

/-- What can happen: the clock does not go back, a dead process does nothing, and no other process
has the number of a live one. -/
def World.Valid (w : World) : Event → Prop
  | .tick d _ => 0 ≤ d
  | .write _ _ _ _ => w.alive = true
  | .replace file => ∀ raw, file = some raw → w.alive = true → w.manager.proc ≠ some raw.pid
  | .die _ => w.alive = true
  | .ensure call => 0 ≤ call.lag ∧ 0 ≤ call.took
  | .shutdown => True

/-- A new manager, at any time and next to any file. -/
structure World.Initial (w : World) : Prop where
  manager : w.manager = ⟨none, none, none, 0, 0, none, false⟩
  newest : w.newest = none
  era : w.era = []
  spawns : w.spawns = []

def new_world : World :=
  ⟨⟨none, none, none, 0, 0, none, false⟩, 0, 0, none, none, none, [], []⟩

theorem initial_new_world : new_world.Initial := ⟨rfl, rfl, rfl, rfl⟩

/-- The world after some events. -/
def World.run (w : World) (events : List Event) : World := Runs.run World.step w events

def World.Valid_run (w : World) (events : List Event) : Prop :=
  Runs.Valid World.step World.Valid w events

/-- Every call of `ensure` in a run, in the world it is made in. -/
def World.Each_call (w : World) (events : List Event) (p : World → Call → Prop) : Prop :=
  Runs.Each World.step Event.ensure w events p

end DualFlexivControl.Dashboard
