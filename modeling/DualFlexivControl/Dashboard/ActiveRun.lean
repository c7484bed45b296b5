/-
Whether `ensure` may restart a daemon with a run.

A restart to another target is refused while `view()` shows a run. But the view shows the state
in `session.json` only while the heartbeat in it is fresh; an older one makes it `starting`, and
that is no run. A daemon that is busy in a handler for longer than that is shut down, run or no
run ([`Current`] says when it is not).

The file itself may also be gone or another process's; then the view has nothing to show either.
-/
import Mathlib.Tactic.NormNum
import DualFlexivControl.Dashboard.Manager

set_option autoImplicit false

namespace DualFlexivControl.Dashboard

open Daemon (Mode)

/-! ## What the view shows -/

/-- The manager's process is alive, and the newest `session.json` it wrote reports a run. -/
def World.RunReported (w : World) : Prop :=
  w.alive = true ∧ ∃ raw, w.newest = some raw ∧ RUN_STATES.contains raw.state.state = true

/-- `ensure` neither shuts the daemon down nor spawns another one. -/
def World.Spares (w : World) (call : Call) : Prop :=
  w.RunReported → (w.ensure call).2 = ⟨false, none⟩

/-- A call with another target reads that newest `session.json`, and finds its heartbeat fresh. -/
def World.Current (w : World) (call : Call) : Prop :=
  w.RunReported → ¬ w.same_target call → call.readable = true ∧ w.file = w.newest ∧
    ∀ raw, w.newest = some raw → w.wall - raw.heartbeat_ts < HEARTBEAT_STALE_S

/-- The newest write is the process's own, and a file under its number is that write. -/
structure World.Filed (w : World) : Prop where
  own : ∀ raw, w.newest = some raw → w.manager.proc = some raw.pid ∨ w.manager.proc = none
  file : ∀ raw raw', w.alive = true → w.newest = some raw → w.file = some raw' →
    w.manager.proc = some raw'.pid → raw' = raw

/-- The view shows a run when the file is the live process's own, fresh, and reports one. -/
theorem World.seen_run_active {w : World} {readable : Bool} (halive : w.alive = true) :
    (w.seen readable).run_active = true ↔ ∃ raw, readable = true ∧ w.file = some raw ∧
      w.manager.proc = some raw.pid ∧ w.wall - raw.heartbeat_ts < HEARTBEAT_STALE_S ∧
      RUN_STATES.contains raw.state.state = true := by
  obtain ⟨⟨pid, hpid⟩, _⟩ := World.alive_iff.1 halive
  unfold World.seen
  rw [if_pos halive, hpid]
  -- unreadable, absent, of another process or stale: the view shows no run
  cases readable with
  | false =>
    constructor
    · intro h
      exact absurd h Bool.false_ne_true
    · rintro ⟨raw, h, _⟩
      exact absurd h Bool.false_ne_true
  | true =>
    rw [if_pos rfl]
    cases hfile : w.file with
    | none =>
      constructor
      · intro h
        exact absurd h Bool.false_ne_true
      · rintro ⟨raw, _, h, _⟩
        exact absurd h (by simp)
    | some raw =>
      unfold view
      dsimp only
      by_cases hraw : raw.pid = pid
      · rw [if_pos hraw]
        unfold SessionView.run_active
        by_cases hfresh : w.wall - raw.heartbeat_ts < HEARTBEAT_STALE_S
        · rw [if_pos hfresh]
          constructor
          · intro h
            exact ⟨raw, rfl, rfl, by rw [hraw], hfresh, h⟩
          · rintro ⟨raw', _, heq, _, _, h⟩
            rw [Option.some.inj heq]
            exact h
        · rw [if_neg hfresh]
          constructor
          · intro h
            exact absurd h (by simp)
          · rintro ⟨raw', _, heq, _, h, _⟩
            rw [Option.some.inj heq] at hfresh
            exact absurd h hfresh
      · rw [if_neg hraw]
        constructor
        · intro h
          exact absurd h Bool.false_ne_true
        · rintro ⟨raw', _, heq, hpid', _⟩
          rw [Option.some.inj heq] at hraw
          exact absurd (Option.some.inj hpid').symm hraw

/-! ## What is on file -/

theorem World.Initial.filed {w : World} (h : w.Initial) : w.Filed where
  own raw hraw := by
    rw [h.newest] at hraw
    exact absurd hraw (by simp)
  file raw raw' _ hraw := by
    rw [h.newest] at hraw
    exact absurd hraw (by simp)

/-- A manager without a process has nothing to answer for. -/
theorem World.filed_of_none {w : World} (hproc : w.manager.proc = none) : w.Filed where
  own raw _ := Or.inr hproc
  file raw raw' halive := by
    obtain ⟨⟨pid, hpid⟩, _⟩ := World.alive_iff.1 halive
    rw [hproc] at hpid
    exact absurd hpid (by simp)

/-- A spawned process has written nothing yet. -/
theorem World.filed_spawn {w : World} (call : Call) (automatic : Bool)
    (hproc : w.manager.proc = none) : (w.spawn call automatic).Filed := by
  unfold World.spawn
  cases call.popen with
  | none => exact World.filed_of_none hproc
  | some pid =>
    exact ⟨fun raw h => absurd h (by simp), fun raw raw' _ h => absurd h (by simp)⟩

theorem World.filed_ensure {w : World} (call : Call) (h : w.Filed) : (w.ensure call).1.Filed := by
  obtain ⟨hnone, -⟩ := w.harvest_fields
  exact World.ensure_cases call h (World.filed_spawn call false rfl)
    (World.filed_spawn call false hnone) (World.filed_of_none hnone) (World.filed_of_none hnone)
    fun _ _ => World.filed_spawn call true hnone

theorem World.filed_step (w : World) (e : Event) (hvalid : w.Valid e) (h : w.Filed) :
    (w.step e).Filed := by
  cases e with
  | tick d wall => exact ⟨h.own, h.file⟩
  | write run_id rig heartbeat_ts state =>
    obtain ⟨⟨pid, hpid⟩, _⟩ := World.alive_iff.1 hvalid
    constructor
    · intro raw hraw
      left
      have hwritten : w.written run_id rig heartbeat_ts state = some raw := hraw
      unfold World.written at hwritten
      rw [hpid] at hwritten
      rw [← Option.some.inj hwritten]
      exact hpid
    · intro raw raw' _ hraw hraw' _
      exact Option.some.inj (hraw'.symm.trans hraw)
  | replace file =>
    refine ⟨h.own, ?_⟩
    intro raw raw' halive _ hraw' hpid
    exact absurd hpid (hvalid raw' hraw' halive)
  | die code =>
    refine ⟨h.own, ?_⟩
    intro raw raw' halive
    obtain ⟨_, hexited⟩ := World.alive_iff.1 halive
    exact absurd hexited (by simp [World.step])
  | ensure call => exact World.filed_ensure call h
  | shutdown => exact World.filed_of_none rfl

/-! ## The refusal -/

/-- A run is spared exactly when the view is current: the call goes by the file, so a missing or
stale one lets it touch a daemon with a run. -/
theorem World.spares_iff {w : World} (h : w.Filed) (call : Call) :
    w.Spares call ↔ w.Current call := by
  unfold World.Spares World.Current
  refine forall_congr' fun hrun => ?_
  obtain ⟨halive, raw, hnewest, hstate⟩ := hrun
  have hproc : w.manager.proc = some raw.pid := by
    obtain ⟨⟨pid, hpid⟩, _⟩ := World.alive_iff.1 halive
    rcases h.own raw hnewest with hown | hnone
    · exact hown
    · rw [hpid] at hnone
      exact absurd hnone (by simp)
  unfold World.ensure
  by_cases htarget : w.same_target call
  · rw [if_pos ⟨halive, htarget⟩]
    exact ⟨fun _ hne => absurd htarget hne, fun _ => rfl⟩
  · rw [if_neg (fun hand => htarget hand.2), if_pos halive]
    constructor
    · intro hspared _
      by_cases hactive : (w.seen call.readable).run_active = true
      · obtain ⟨raw', hreadable, hfile, hpid, hfresh, _⟩ := (World.seen_run_active halive).1 hactive
        have hsame := h.file raw raw' halive hnewest hfile hpid
        subst hsame
        refine ⟨hreadable, hfile.trans hnewest.symm, ?_⟩
        intro raw'' hraw''
        rw [← Option.some.inj (hnewest.symm.trans hraw'')]
        exact hfresh
      · rw [if_neg hactive] at hspared
        injection hspared with hshut
        exact absurd hshut (by decide)
    · intro hcurrent
      obtain ⟨hreadable, hfile, hfresh⟩ := hcurrent htarget
      have hactive : (w.seen call.readable).run_active = true :=
        (World.seen_run_active halive).2 ⟨raw, hreadable, hfile.trans hnewest, hproc,
          hfresh raw hnewest, hstate⟩
      rw [if_pos hactive]

/-- In every run of the dashboard and its daemons, no call of `ensure` touches a daemon with a run
exactly when every call that could finds the daemon's newest `session.json`, and it fresh. -/
theorem ensure_spares_runs_iff {w : World} (hinitial : w.Initial) {events : List Event}
    (hvalid : w.Valid_run events) :
    w.Each_call events World.Spares ↔ w.Each_call events World.Current :=
  Runs.each_iff World.filed_step (fun _ call _ h => World.spares_iff h call) hinitial.filed hvalid

/-! ## A busy daemon -/

/-- A collection that the daemon reports once, before it is busy for a while. -/
def busy_collection (busy_s : ℚ) : List Event :=
  [.ensure ⟨some "bimanual", false, true, 0, 0, some 7⟩,
    .write "run" "bimanual" 0 ⟨.collection, none, some .collection, 1, some 0, none, none⟩,
    .tick busy_s busy_s]

def other_rig : Call := ⟨some "single", false, true, 0, 0, some 8⟩

theorem valid_busy_collection {busy_s : ℚ} (h : 0 ≤ busy_s) :
    new_world.Valid_run (busy_collection busy_s ++ [Event.ensure other_rig]) :=
  ⟨⟨le_refl 0, le_refl 0⟩, rfl, h, ⟨le_refl 0, le_refl 0⟩, trivial⟩

/-- Whatever the daemon was busy with, the dashboard has a process with a run. -/
theorem run_reported_busy (busy_s : ℚ) :
    (new_world.run (busy_collection busy_s)).RunReported := ⟨rfl, _, rfl, rfl⟩

/-- A call for another rig three seconds after the last heartbeat: the general equivalence at this
run. -/
theorem spares_busy_iff :
    new_world.Each_call (busy_collection 3 ++ [Event.ensure other_rig]) World.Spares ↔
      new_world.Each_call (busy_collection 3 ++ [Event.ensure other_rig]) World.Current :=
  ensure_spares_runs_iff initial_new_world (valid_busy_collection (by norm_num))

/-- After seven seconds without a heartbeat a switch of the rig shuts a collection down. -/
theorem stale_heartbeat_restarts : ¬ ∀ (w : World) (events : List Event), w.Initial →
    w.Valid_run events → w.Each_call events World.Spares := by
  intro h
  have hvalid := valid_busy_collection (show (0 : ℚ) ≤ 7 by norm_num)
  have hspares := h new_world _ initial_new_world hvalid (busy_collection 7) other_rig [] rfl
  have hfiled := Runs.run_induct World.filed_step (busy_collection 7) new_world
    initial_new_world.filed hvalid.left
  obtain ⟨-, -, hfresh⟩ := (World.spares_iff hfiled other_rig).1 hspares
    (run_reported_busy 7) (fun hsame => absurd hsame (by decide))
  have hage := hfresh _ rfl
  exact absurd hage (by norm_num [HEARTBEAT_STALE_S, Runs.run, World.step, busy_collection])

end DualFlexivControl.Dashboard
