/-
`FactrServerSupervisor`: who owns the FACTR-Server processes.

The supervisor holds one handle per unit (a teleop per leader arm, and the API relay) and
moves between four states. It is supposed to own whatever it spawned: a live process that
no handle names is an energised leader arm nobody will ever stop. [`Owned`] says so, and
[`Owns`] is the part of it that also holds inside a handler, between two units of a loop.

Everything keeps it except one exit: `_spawn_all` sets `RUNNING` after its loop over the
units, so an `OSError` from a later unit leaves the earlier ones running in a state that
takes nothing to be running. That exit is the condition of the main result,
[`SpawnsWhole`].

Processes die whenever they like. A handler polls its units one after another, so every
visit of a unit is preceded by a group of deaths that the handler's [`Beat`] lists; the
clock and the outcomes of the spawns are in the beat as well.
-/
import DualFlexivControl.Lib.Effects
import Mathlib.Algebra.Order.Field.Rat
import Mathlib.Data.List.Nodup
import Mathlib.Data.List.Range

set_option autoImplicit false

namespace DualFlexivControl.Factr

open Effect

/-! ## Units and processes -/

/-- The supervisor's states. -/
inductive SupervisorState where
  | OFF
  | COUNTDOWN
  | RUNNING
  | STOPPING
  deriving DecidableEq

/-- What a unit runs: the teleop of a side, or the API relay. -/
inductive Kind where
  | teleop (side : String)
  | api
  deriving DecidableEq

/-- `_ServerUnit`. A `Popen` object is the number of the process it is a handle of. -/
structure ServerUnit where
  kind : Kind
  proc : Option ℕ
  spawned_at : ℚ
  announced_down : Bool
  deriving DecidableEq

/-- The signals the supervisor sends. -/
inductive Signal where
  | SIGINT
  | SIGTERM
  | SIGKILL
  deriving DecidableEq

/-- A spawned process: the unit it was spawned for, whether it is alive, the signals it
was sent. `over_live` is a mark that no code reads: the unit's handle was alive when the
process was spawned. -/
structure Proc where
  unit : ℕ
  alive : Bool
  signals : List Signal
  over_live : Bool
  deriving DecidableEq

/-- The fields of `FactrLaunchCfg` the supervisor's states depend on. -/
structure LaunchCfg where
  calib_delay_s : ℚ
  stop_grace_s : ℚ

/-- The supervisor, and the processes it has spawned so far, numbered by their place. -/
structure Supervisor where
  units : List ServerUnit
  state : SupervisorState
  deadline : Option ℚ
  terminated : Bool
  procs : List Proc
  deriving DecidableEq

/-- A unit that was never spawned. -/
def ServerUnit.new (kind : Kind) : ServerUnit := ⟨kind, none, 0, false⟩

/-- `__init__`: a teleop for each side, then the relay. -/
def Supervisor.init (sides : List String) : Supervisor where
  units := sides.map (fun side => .new (.teleop side)) ++ [.new .api]
  state := .OFF
  deadline := none
  terminated := false
  procs := []

/-- The exceptions a handler may let through. -/
inductive Exc where
  | os_error
  /-- `now >= None`. -/
  | type_error
  deriving DecidableEq

/-- How a `_spawn_unit` ends. -/
inductive SpawnResult where
  | spawned
  /-- An `OSError` of `makedirs`, of opening the log or of `Popen`: there is no process. -/
  | refused
  /-- An `OSError` of closing the log, after `Popen` has returned. -/
  | unclosed
  deriving DecidableEq

/-- What a handler sees of the world. -/
structure Beat where
  /-- `time.monotonic()`. -/
  now : ℚ
  /-- The processes that have died by the time the handler visits a unit. -/
  dies : ℕ → List ℕ
  /-- The processes `fuser -k` kills, and whether it can be run. -/
  fuser : List ℕ × Except Exc Unit
  /-- How the spawn of a unit ends, and the clock after it. -/
  spawn : ℕ → SpawnResult
  spawned_at : ℕ → ℚ

/-- The supervisor's programs. -/
abbrev Handler := Effect Exc Supervisor Unit

section Processes

/-- Some processes die. -/
def Supervisor.reap (dead : List ℕ) (s : Supervisor) : Supervisor :=
  { s with
    procs := s.procs.mapIdx fun pid p => if pid ∈ dead then { p with alive := false } else p }

/-- `unit.alive()`. -/
def Supervisor.alive (s : Supervisor) (i : ℕ) : Bool :=
  ((s.units[i]?.bind ServerUnit.proc).bind fun pid => s.procs[pid]?).any Proc.alive

/-- `unit.proc.send_signal(sig)`. -/
def Supervisor.send_signal (sig : Signal) (i : ℕ) (s : Supervisor) : Supervisor :=
  match s.units[i]?.bind ServerUnit.proc with
  | none => s
  | some pid =>
    { s with
      procs := s.procs.modify pid fun p =>
        { p with signals := p.signals ++ [sig], alive := p.alive && sig ≠ .SIGKILL } }

/-- Write to one unit. -/
def Supervisor.set_unit (f : ServerUnit → ServerUnit) (i : ℕ) (s : Supervisor) : Supervisor :=
  { s with units := s.units.modify i f }

/-- `unit.proc = subprocess.Popen(...)`. -/
def Supervisor.popen (i : ℕ) (s : Supervisor) : Supervisor :=
  { s with
    units := s.units.modify i fun u => { u with proc := some s.procs.length }
    procs := s.procs ++ [⟨i, true, [], s.alive i⟩] }

end Processes

/-! ## Spawning -/

/-- `_to_off`. -/
def to_off (s : Supervisor) : Supervisor :=
  { s with
    units := s.units.map fun u => { u with proc := none, announced_down := false }
    state := .OFF
    deadline := none
    terminated := false }

/-- `_free_api_ports`. -/
def free_api_ports (e : Beat) : Handler := do
  update (Supervisor.reap e.fuser.1)
  call e.fuser.2

/-- `_spawn_unit`. -/
def spawn_unit (e : Beat) (i : ℕ) : Handler :=
  match e.spawn i with
  | .refused => throw .os_error
  | .unclosed => do
    update (Supervisor.popen i)
    throw .os_error
  | .spawned => do
    update (Supervisor.popen i)
    update (Supervisor.set_unit
      (fun u => { u with spawned_at := e.spawned_at i, announced_down := false }) i)

/-- The loop of `_spawn_all`. -/
def spawn_units (e : Beat) : List ℕ → Handler
  | [] => pure ()
  | i :: is => do
    update (Supervisor.reap (e.dies i))
    spawn_unit e i
    spawn_units e is

/-- `_spawn_all`. -/
def spawn_all (e : Beat) : Handler := do
  free_api_ports e
  let s ← get
  spawn_units e (List.range s.units.length)
  update fun s => { s with state := .RUNNING, deadline := none }

/-! ## Commands -/

/-- `request_start`. -/
def request_start (cfg : LaunchCfg) (now : ℚ) (s : Supervisor) : Supervisor :=
  match s.state with
  | .COUNTDOWN | .STOPPING | .RUNNING => s
  | .OFF => { s with state := .COUNTDOWN, deadline := some (now + max 0 cfg.calib_delay_s) }

/-- `start_now`. -/
def start_now (e : Beat) : Handler := do
  let s ← get
  if s.state = .OFF then spawn_all e else pure ()

/-- A loop over the units that polls each, and does `f` to those that are alive. -/
def for_alive (e : Beat) (f : ℕ → Supervisor → Supervisor) :
    List ℕ → Supervisor → Supervisor
  | [], s => s
  | i :: is, s =>
    let s := s.reap (e.dies i)
    for_alive e f is (if s.alive i then f i s else s)

/-- `request_stop`. -/
def request_stop (cfg : LaunchCfg) (e : Beat) (s : Supervisor) : Supervisor :=
  match s.state with
  | .COUNTDOWN => to_off s
  | .OFF | .STOPPING => s
  | .RUNNING =>
    { for_alive e (Supervisor.send_signal .SIGINT) (List.range s.units.length) s with
      state := .STOPPING
      terminated := false
      deadline := some (e.now + cfg.stop_grace_s) }

/-! ## Supervision -/

/-- How often a dead API relay is respawned. -/
def API_RESPAWN_S : ℚ := 10

/-- The window after SIGTERM. -/
def TERM_GRACE_S : ℚ := 2

/-- What `shutdown` waits beyond the two graces. -/
def SHUTDOWN_SLACK_S : ℚ := 5

/-- `_tend_running` at one unit. -/
def tend_running_unit (e : Beat) (i : ℕ) : Handler := do
  update (Supervisor.reap (e.dies i))
  let s ← get
  if s.alive i then
    update (Supervisor.set_unit (fun u => { u with announced_down := false }) i)
  else do
    update (Supervisor.set_unit (fun u => { u with announced_down := true }) i)
    match s.units[i]? with
    | some u =>
      -- a dead teleop is only reported
      if u.kind = .api ∧ e.now - u.spawned_at ≥ API_RESPAWN_S then spawn_unit e i else pure ()
    | none => pure ()

/-- `_tend_running`. -/
def tend_running (e : Beat) : List ℕ → Handler
  | [] => pure ()
  | i :: is => do
    tend_running_unit e i
    tend_running e is

/-- `[u for u in self.units if u.alive()]`. -/
def alive_units (e : Beat) : List ℕ → Supervisor → List ℕ × Supervisor
  | [], s => ([], s)
  | i :: is, s =>
    let s := s.reap (e.dies i)
    let rest := alive_units e is s
    (if s.alive i then i :: rest.1 else rest.1, rest.2)

/-- A signal to each of some units. -/
def send_all (sig : Signal) : List ℕ → Supervisor → Supervisor
  | [], s => s
  | i :: is, s => send_all sig is (s.send_signal sig i)

/-- `_tend_stopping`, after the deadline check. -/
def escalate (now : ℚ) (alive : List ℕ) (s : Supervisor) : Supervisor :=
  if s.terminated then to_off (send_all .SIGKILL alive s)
  else
    send_all .SIGTERM alive
      { s with terminated := true, deadline := some (now + TERM_GRACE_S) }

/-- `_tend_stopping`. -/
def tend_stopping (e : Beat) : Handler := do
  let s ← get
  let (alive, s') := alive_units e (List.range s.units.length) s
  update fun _ => s'
  if alive = [] then update to_off
  else
    match s'.deadline with
    | none => throw .type_error
    | some deadline => if e.now < deadline then pure () else update (escalate e.now alive)

/-- `tend`. -/
def tend (e : Beat) : Handler := do
  let s ← get
  match s.state with
  | .COUNTDOWN =>
    match s.deadline with
    | none => throw .type_error
    | some deadline => if e.now ≥ deadline then spawn_all e else pure ()
  | .RUNNING => tend_running e (List.range s.units.length)
  | .STOPPING => tend_stopping e
  | .OFF => pure ()

/-- The loop of `shutdown`, with the clock each round reads first; where the rounds end,
the clock has passed `cap`. -/
def shutdown_loop (cap : ℚ) : List (ℚ × Beat) → Handler
  | [] => pure ()
  | (clock, e) :: rounds => do
    let s ← get
    if s.state = .STOPPING ∧ clock < cap then do
      tend e
      shutdown_loop cap rounds
    else pure ()

/-- `shutdown` of a supervisor that is stopping: wait, then kill what is left. -/
def shutdown_stopping (cfg : LaunchCfg) (e : Beat) (rounds : List (ℚ × Beat)) : Handler := do
  shutdown_loop (e.now + cfg.stop_grace_s + TERM_GRACE_S + SHUTDOWN_SLACK_S) rounds
  let s ← get
  if s.state = .STOPPING then
    update fun s =>
      to_off (for_alive e (Supervisor.send_signal .SIGKILL) (List.range s.units.length) s)
  else pure ()

/-- `shutdown`; `request_stop` and the last loop have their own beats. -/
def shutdown (cfg : LaunchCfg) (stop kill : Beat) (rounds : List (ℚ × Beat)) : Handler := do
  let s ← get
  match s.state with
  | .COUNTDOWN => update to_off
  | .OFF => pure ()
  | .RUNNING => do
    update (request_stop cfg stop)
    shutdown_stopping cfg kill rounds
  | .STOPPING => shutdown_stopping cfg kill rounds

/-! ## Runs -/

/-- Everything that can happen to the supervisor. -/
inductive Event where
  | request_start (now : ℚ)
  | start_now (e : Beat)
  | request_stop (e : Beat)
  | tend (e : Beat)
  | shutdown (stop kill : Beat) (rounds : List (ℚ × Beat))
  | die (dead : List ℕ)

/-- The program of an event. -/
def handle (cfg : LaunchCfg) : Event → Handler
  | .request_start now => update (request_start cfg now)
  | .start_now e => start_now e
  | .request_stop e => update (request_stop cfg e)
  | .tend e => tend e
  | .shutdown stop kill rounds => shutdown cfg stop kill rounds
  | .die dead => update (Supervisor.reap dead)

/-- The supervisor after an event, whether the event's handler returned or raised. -/
def after (cfg : LaunchCfg) (s : Supervisor) (event : Event) : Supervisor :=
  (exec (handle cfg event) s).2

/-- The part of ownership that holds inside the handlers too. -/
structure Owns (s : Supervisor) : Prop where
  /-- A live process is the current handle of its unit. -/
  current : ∀ (pid : ℕ) (p : Proc), s.procs[pid]? = some p → p.alive = true →
    ∃ u, s.units[p.unit]? = some u ∧ u.proc = some pid
  /-- No unit was spawned over a live handle. -/
  not_over : ∀ p ∈ s.procs, p.over_live = false
  /-- A unit's handle is a process spawned for it. -/
  handle : ∀ (i : ℕ) (u : ServerUnit) (pid : ℕ), s.units[i]? = some u → u.proc = some pid →
    ∃ p, s.procs[pid]? = some p ∧ p.unit = i

/-- The supervisor owns every process it spawned. -/
structure Owned (s : Supervisor) : Prop extends Owns s where
  /-- Nothing is alive in `OFF` and `COUNTDOWN`. -/
  quiet : s.state = .OFF ∨ s.state = .COUNTDOWN → ∀ p ∈ s.procs, p.alive = false

/-- Nothing is alive. -/
def Quiet (s : Supervisor) : Prop := ∀ p ∈ s.procs, p.alive = false

section Alive

variable {s : Supervisor} {i : ℕ}

/-- A unit is alive when it has a handle and the process of that handle lives. -/
theorem alive_iff : s.alive i = true ↔ ∃ u pid p, s.units[i]? = some u ∧ u.proc = some pid ∧
    s.procs[pid]? = some p ∧ p.alive = true := by
  unfold Supervisor.alive
  simp only [Option.any_eq_true, Option.bind_eq_some_iff]
  constructor
  · rintro ⟨p, ⟨pid, ⟨u, hu, hproc⟩, hp⟩, halive⟩
    exact ⟨u, pid, p, hu, hproc, hp, halive⟩
  · rintro ⟨u, pid, p, hu, hproc, hp, halive⟩
    exact ⟨p, ⟨pid, ⟨u, hu, hproc⟩, hp⟩, halive⟩

/-- A live process shows when its unit is polled. -/
theorem Owns.alive_of_live (h : Owns s) {pid : ℕ} {p : Proc} (hp : s.procs[pid]? = some p)
    (halive : p.alive = true) : s.alive p.unit = true := by
  obtain ⟨u, hu, hproc⟩ := h.current pid p hp halive
  exact alive_iff.mpr ⟨u, pid, p, hu, hproc, hp, halive⟩

/-- If no unit is alive then no process is, because a process that lives is the handle of its unit.
-/
theorem Owns.quiet_of (h : Owns s) (hdead : ∀ i < s.units.length, s.alive i = false) :
    Quiet s := by
  intro p hp
  obtain ⟨pid, hpid⟩ := List.mem_iff_getElem?.mp hp
  by_contra hne
  have halive : p.alive = true := by simpa using hne
  obtain ⟨u, hu, -⟩ := h.current pid p hpid halive
  have hlt : p.unit < s.units.length := (List.getElem?_eq_some_iff.mp hu).1
  have hpoll := h.alive_of_live hpid halive
  rw [hdead p.unit hlt] at hpoll
  exact absurd hpoll (by decide)

/-- Where no process lives no unit is alive. -/
theorem Quiet.alive (h : Quiet s) (i : ℕ) : s.alive i = false := by
  by_contra hne
  obtain ⟨_, _, p, _, _, hp, halive⟩ := alive_iff.mp (by simpa using hne)
  rw [h p (List.mem_iff_getElem?.mpr ⟨_, hp⟩)] at halive
  exact absurd halive (by decide)

end Alive

/-! ## Steps after which only fewer processes are alive -/

/-- `s'` has the handles, the state and the processes of `s`; some may have died, and some
may have been sent signals. -/
structure Fades (s s' : Supervisor) : Prop where
  handles : ∀ i : ℕ, s'.units[i]?.map ServerUnit.proc = s.units[i]?.map ServerUnit.proc
  state : s'.state = s.state
  marks : ∀ pid : ℕ, s'.procs[pid]?.map (fun p => (p.unit, p.over_live)) =
    s.procs[pid]?.map fun p => (p.unit, p.over_live)
  alive : ∀ (pid : ℕ) (p p' : Proc), s.procs[pid]? = some p → s'.procs[pid]? = some p' →
    p'.alive = true → p.alive = true

namespace Fades

variable {s s' s'' : Supervisor}

/-- Nothing happened, and nobody died. -/
theorem refl (s : Supervisor) : Fades s s where
  handles _ := rfl
  state := rfl
  marks _ := rfl
  alive pid p p' hp hp' := by
    rw [hp] at hp'
    cases hp'
    exact id

/-- A process of the later state was a process of the earlier one. -/
theorem proc (h : Fades s s') {pid : ℕ} {p' : Proc} (hp' : s'.procs[pid]? = some p') :
    ∃ p, s.procs[pid]? = some p ∧ p.unit = p'.unit ∧ p.over_live = p'.over_live ∧
      (p'.alive = true → p.alive = true) := by
  have hmarks := h.marks pid
  rw [hp', Option.map_some] at hmarks
  obtain ⟨p, hp, heq⟩ := Option.map_eq_some_iff.mp hmarks.symm
  obtain ⟨hunit, hover⟩ := Prod.mk.inj heq
  exact ⟨p, hp, hunit, hover, h.alive pid p p' hp hp'⟩

/-- And the other way round. -/
theorem proc' (h : Fades s s') {pid : ℕ} {p : Proc} (hp : s.procs[pid]? = some p) :
    ∃ p', s'.procs[pid]? = some p' ∧ p'.unit = p.unit := by
  have hmarks := h.marks pid
  rw [hp, Option.map_some] at hmarks
  obtain ⟨p', hp', heq⟩ := Option.map_eq_some_iff.mp hmarks
  exact ⟨p', hp', (Prod.mk.inj heq).1⟩

/-- A unit after the step is one from before, with the same handle. -/
theorem unit (h : Fades s s') {i : ℕ} {u' : ServerUnit} (hu' : s'.units[i]? = some u') :
    ∃ u, s.units[i]? = some u ∧ u.proc = u'.proc := by
  have hhandle := h.handles i
  rw [hu', Option.map_some] at hhandle
  exact Option.map_eq_some_iff.mp hhandle.symm

/-- A unit from before is still there, with the same handle. -/
theorem unit' (h : Fades s s') {i : ℕ} {u : ServerUnit} (hu : s.units[i]? = some u) :
    ∃ u', s'.units[i]? = some u' ∧ u'.proc = u.proc := by
  have hhandle := h.handles i
  rw [hu, Option.map_some] at hhandle
  exact Option.map_eq_some_iff.mp hhandle

/-- Fading composes: handles and marks are kept by both, and who is alive at the end was alive in
between. -/
theorem trans (h : Fades s s') (h' : Fades s' s'') : Fades s s'' where
  handles i := (h'.handles i).trans (h.handles i)
  state := h'.state.trans h.state
  marks pid := (h'.marks pid).trans (h.marks pid)
  alive pid p p'' hp hp'' halive := by
    obtain ⟨p', hp', -, -, hmono⟩ := h'.proc hp''
    exact h.alive pid p p' hp hp' (hmono halive)

/-- The units are the same in number. -/
theorem length (h : Fades s s') : s'.units.length = s.units.length := by
  have hiff : ∀ i, i < s'.units.length ↔ i < s.units.length := by
    intro i
    have hsome := congrArg Option.isSome (h.handles i)
    rw [Option.isSome_map, Option.isSome_map, Bool.eq_iff_iff] at hsome
    simpa [isSome_getElem?] using hsome
  have h₁ := hiff s.units.length
  have h₂ := hiff s'.units.length
  omega

/-- What was dead stays dead. -/
theorem dead (h : Fades s s') {i : ℕ} (hdead : s.alive i = false) : s'.alive i = false := by
  by_contra hne
  obtain ⟨u', pid, p', hu', hproc', hp', halive'⟩ := alive_iff.mp (by simpa using hne)
  obtain ⟨u, hu, hproc⟩ := h.unit hu'
  obtain ⟨p, hp, -, -, hmono⟩ := h.proc hp'
  rw [alive_iff.mpr ⟨u, pid, p, hu, hproc.trans hproc', hp, hmono halive'⟩] at hdead
  exact absurd hdead (by decide)

/-- Silence is kept, since fading brings nobody to life. -/
theorem quiet (h : Fades s s') (hquiet : Quiet s) : Quiet s' := by
  intro p' hmem
  obtain ⟨pid, hp'⟩ := List.mem_iff_getElem?.mp hmem
  obtain ⟨p, hp, -, -, hmono⟩ := h.proc hp'
  by_contra hne
  have halive := hmono (by simpa using hne)
  rw [hquiet p (List.mem_iff_getElem?.mpr ⟨_, hp⟩)] at halive
  exact absurd halive (by decide)

/-- Ownership only asks about processes that live, and fading has fewer of these, with the handles
as they were. -/
theorem owns (h : Fades s s') (ho : Owns s) : Owns s' where
  current pid p' hp' halive' := by
    obtain ⟨p, hp, hunit, -, hmono⟩ := h.proc hp'
    obtain ⟨u, hu, hproc⟩ := ho.current pid p hp (hmono halive')
    obtain ⟨u', hu', hproc'⟩ := h.unit' hu
    exact ⟨u', hunit ▸ hu', hproc'.trans hproc⟩
  not_over p' hmem := by
    obtain ⟨pid, hp'⟩ := List.mem_iff_getElem?.mp hmem
    obtain ⟨p, hp, -, hover, -⟩ := h.proc hp'
    rw [← hover]
    exact ho.not_over p (List.mem_iff_getElem?.mpr ⟨_, hp⟩)
  handle i u' pid hu' hproc' := by
    obtain ⟨u, hu, hproc⟩ := h.unit hu'
    obtain ⟨p, hp, hunit⟩ := ho.handle i u pid hu (hproc.trans hproc')
    obtain ⟨p', hp', hunit'⟩ := h.proc' hp
    exact ⟨p', hp', hunit'.trans hunit⟩

/-- Full ownership is kept as well, because the state is the same and silence in it is kept. -/
theorem owned (h : Fades s s') (ho : Owned s) : Owned s' where
  toOwns := h.owns ho.toOwns
  quiet hstate := h.quiet (ho.quiet (h.state ▸ hstate))

end Fades

section FadingSteps

variable {s : Supervisor}

/-- Processes die and the handles keep naming them: `poll` reports a death and leaves the `Popen`
object in place. -/
theorem fades_reap (dead : List ℕ) (s : Supervisor) : Fades s (s.reap dead) where
  handles _ := rfl
  state := rfl
  marks pid := by
    unfold Supervisor.reap
    rw [List.getElem?_mapIdx, Option.map_map]
    congr 1
    funext p
    by_cases hpid : pid ∈ dead <;> simp [hpid]
  alive pid p p' hp hp' halive := by
    unfold Supervisor.reap at hp'
    rw [List.getElem?_mapIdx, hp, Option.map_some, Option.some.injEq] at hp'
    by_cases hpid : pid ∈ dead
    · simp [← hp', hpid] at halive
    · simpa [← hp', hpid] using halive

/-- A unit's fields other than its handle may change freely, such as the time it was spawned at or
whether it was announced as down. -/
theorem fades_set_unit {f : ServerUnit → ServerUnit} (hf : ∀ u, (f u).proc = u.proc) (i : ℕ)
    (s : Supervisor) : Fades s (s.set_unit f i) where
  handles j := by
    unfold Supervisor.set_unit
    rw [List.getElem?_modify, Option.map_eq_map, Option.map_map]
    congr 1
    funext u
    by_cases hij : i = j <;> simp [hij, hf]
  state := rfl
  marks _ := rfl
  alive := (Fades.refl s).alive

/-- A signal is recorded with the process, which may die of it or not. -/
theorem fades_send_signal (sig : Signal) (i : ℕ) (s : Supervisor) :
    Fades s (s.send_signal sig i) := by
  unfold Supervisor.send_signal
  cases s.units[i]?.bind ServerUnit.proc with
  | none => exact Fades.refl s
  | some target =>
    exact {
      handles := fun _ => rfl
      state := rfl
      marks := fun pid => by
        rw [List.getElem?_modify, Option.map_eq_map, Option.map_map]
        congr 1
        funext p
        by_cases hpid : target = pid <;> simp [hpid]
      alive := fun pid p p' hp hp' halive => by
        rw [List.getElem?_modify, hp, Option.map_eq_map, Option.map_some, Option.some.injEq] at hp'
        by_cases hpid : target = pid
        · simp only [hpid, if_true] at hp'
          rw [← hp'] at halive
          exact (Bool.and_eq_true_iff.mp halive).1
        · simpa [← hp', hpid] using halive }

/-- After a SIGKILL the unit is dead: nothing survives it, and no other signal has this certainty.
-/
theorem alive_send_kill (i : ℕ) (s : Supervisor) : (s.send_signal .SIGKILL i).alive i = false := by
  by_contra hne
  obtain ⟨u, pid, p, hu, hproc, hp, halive⟩ := alive_iff.mp (by simpa using hne)
  -- The process alive afterwards would be the one the signal went to.
  have hbind : s.units[i]?.bind ServerUnit.proc = some pid := by
    obtain ⟨u₀, hu₀, hproc₀⟩ := (fades_send_signal .SIGKILL i s).unit hu
    rw [hu₀, Option.bind_some, hproc₀, hproc]
  unfold Supervisor.send_signal at hp
  rw [hbind] at hp
  simp only [List.getElem?_modify, if_true, Option.map_eq_map, Option.map_eq_some_iff] at hp
  obtain ⟨p₀, -, rfl⟩ := hp
  simp at halive

/-- Signalling several units in a row is fading, one unit after the other. -/
theorem fades_send_all (sig : Signal) (is : List ℕ) (s : Supervisor) :
    Fades s (send_all sig is s) := by
  induction is generalizing s with
  | nil => exact Fades.refl s
  | cons i is ih => exact (fades_send_signal sig i s).trans (ih _)

/-- What was killed is dead at the end. -/
theorem alive_kill_all {is : List ℕ} {i : ℕ} (hi : i ∈ is) (s : Supervisor) :
    (send_all .SIGKILL is s).alive i = false := by
  induction is generalizing s with
  | nil => exact absurd hi List.not_mem_nil
  | cons j is ih =>
    rcases List.mem_cons.mp hi with rfl | hi
    · exact (fades_send_all .SIGKILL is _).dead (alive_send_kill i s)
    · exact ih hi _

/-- A loop that polls each unit and fades it where it is alive fades the whole, dead units being
found on the way. -/
theorem fades_for_alive {e : Beat} {f : ℕ → Supervisor → Supervisor}
    (hf : ∀ i s, Fades s (f i s)) (is : List ℕ) (s : Supervisor) :
    Fades s (for_alive e f is s) := by
  induction is generalizing s with
  | nil => exact Fades.refl s
  | cons i is ih =>
    refine (fades_reap (e.dies i) s).trans (Fades.trans ?_ (ih _))
    split
    · exact hf i _
    · exact Fades.refl _

/-- Killing whatever a poll finds alive leaves nothing alive: a unit is dead at the poll already, or
of the signal. -/
theorem alive_for_alive_kill {e : Beat} {is : List ℕ} {i : ℕ} (hi : i ∈ is) (s : Supervisor) :
    (for_alive e (Supervisor.send_signal .SIGKILL) is s).alive i = false := by
  induction is generalizing s with
  | nil => exact absurd hi List.not_mem_nil
  | cons j is ih =>
    rcases List.mem_cons.mp hi with rfl | hi
    -- Killed at its turn, or found dead by the poll before it.
    · refine (fades_for_alive (fades_send_signal .SIGKILL) is _).dead ?_
      split
      · exact alive_send_kill i _
      · exact Bool.eq_false_iff.mpr ‹_›
    · exact ih hi _

/-- Listing the units that are alive polls them, which is when dead processes are noticed. -/
theorem fades_alive_units {e : Beat} (is : List ℕ) (s : Supervisor) :
    Fades s (alive_units e is s).2 := by
  induction is generalizing s with
  | nil => exact Fades.refl s
  | cons i is ih => exact (fades_reap (e.dies i) s).trans (ih _)

/-- A unit that is not listed was dead when it was polled, and is dead since. -/
theorem alive_units_not_mem {e : Beat} {is : List ℕ} {i : ℕ} (hi : i ∈ is)
    (hlist : i ∉ (alive_units e is s).1) : (alive_units e is s).2.alive i = false := by
  induction is generalizing s with
  | nil => exact absurd hi List.not_mem_nil
  | cons j is ih =>
    simp only [alive_units] at hlist ⊢
    by_cases hmem : i ∈ is
    · refine ih hmem fun hin => hlist ?_
      split
      · exact List.mem_cons_of_mem j hin
      · exact hin
    -- Polled dead at its turn, and the polls after it revive nobody.
    · have hij : i = j := (List.mem_cons.mp hi).resolve_right hmem
      refine (fades_alive_units is _).dead ?_
      by_contra halive
      have halive_j : (s.reap (e.dies j)).alive j = true := by simpa [hij] using halive
      exact hlist (by simp [hij, halive_j])

end FadingSteps

/-! ## Spawning -/

section Spawning

variable {s : Supervisor} {e : Beat} {i : ℕ}

/-- A spawn for a unit whose handle is dead keeps ownership: the new process becomes the handle, and
nobody alive is lost by it. -/
theorem Owns.popen (h : Owns s) (hdead : s.alive i = false) (hi : i < s.units.length) :
    Owns (s.popen i) where
  current pid p hp halive := by
    obtain ⟨u, hu⟩ : ∃ u, s.units[i]? = some u := ⟨_, List.getElem?_eq_getElem hi⟩
    unfold Supervisor.popen at hp ⊢
    simp only [List.getElem?_modify, Option.map_eq_map] at hp ⊢
    by_cases hlt : pid < s.procs.length
    · rw [List.getElem?_append_left hlt] at hp
      obtain ⟨v, hv, hproc⟩ := h.current pid p hp halive
      -- the unit being spawned has no live process, so this is another one's
      have hne : i ≠ p.unit := by
        intro heq
        have hpoll := h.alive_of_live hp halive
        rw [← heq, hdead] at hpoll
        exact absurd hpoll (by decide)
      exact ⟨v, by simp [hv, hne], hproc⟩
    · rw [List.getElem?_append_right (by omega)] at hp
      rw [List.getElem?_singleton] at hp
      split at hp
      · rw [Option.some.injEq] at hp
        subst hp
        refine ⟨{ u with proc := some s.procs.length }, by simp [hu], ?_⟩
        rw [Option.some.injEq]
        omega
      · exact absurd hp (by simp)
  not_over p hp := by
    rcases List.mem_append.mp hp with hp | hp
    · exact h.not_over p hp
    · rw [List.mem_singleton.mp hp]
      exact hdead
  handle j u pid hu hproc := by
    unfold Supervisor.popen at hu ⊢
    simp only [List.getElem?_modify, Option.map_eq_map, Option.map_eq_some_iff] at hu
    obtain ⟨v, hv, rfl⟩ := hu
    by_cases hij : i = j
    · simp only [hij, if_true, Option.some.injEq] at hproc
      exact ⟨⟨j, true, [], s.alive j⟩, by simp [← hproc, hij], rfl⟩
    · rw [if_neg hij] at hproc
      obtain ⟨p, hp, hunit⟩ := h.handle j v pid hv hproc
      -- The handle of another unit keeps pointing where it did: the new process comes last.
      have hlt : pid < s.procs.length := (List.getElem?_eq_some_iff.mp hp).1
      exact ⟨p, by simp [List.getElem?_append_left hlt, hp], hunit⟩

/-- The other units are as alive as before, as their handles name processes that were there before
the spawn. -/
theorem Owns.popen_dead (h : Owns s) {j : ℕ} (hij : i ≠ j) (hdead : s.alive j = false) :
    (s.popen i).alive j = false := by
  by_contra hne
  obtain ⟨u, pid, p, hu, hproc, hp, halive⟩ := alive_iff.mp (by simpa using hne)
  unfold Supervisor.popen at hu hp
  simp only [List.getElem?_modify, if_neg hij, Option.map_eq_map, Option.map_id'] at hu
  obtain ⟨q, hq, -⟩ := h.handle j u pid hu hproc
  have hlt : pid < s.procs.length := (List.getElem?_eq_some_iff.mp hq).1
  rw [List.getElem?_append_left hlt] at hp
  rw [alive_iff.mpr ⟨u, pid, p, hu, hproc, hp, halive⟩] at hdead
  exact absurd hdead (by decide)

/-- Spawning appends a process and leaves the number of units. -/
@[simp] theorem popen_length : (s.popen i).units.length = s.units.length := by
  simp [Supervisor.popen]

/-- What `_spawn_unit` writes after the `Popen`. -/
theorem fades_spawned (e : Beat) (i : ℕ) (s : Supervisor) :
    Fades s (s.set_unit
      (fun u => { u with spawned_at := e.spawned_at i, announced_down := false }) i) := by
  apply fades_set_unit
  intro u
  rfl

/-- A successful `_spawn_unit` has spawned its process, taken the time and forgotten that the unit
was down. -/
theorem ensures_spawned (h : e.spawn i = .spawned) {Q : Except Exc Unit → Supervisor → Prop} :
    Ensures (spawn_unit e i) s Q ↔ Q (.ok ()) ((s.popen i).set_unit
      (fun u => { u with spawned_at := e.spawned_at i, announced_down := false }) i) := by
  unfold spawn_unit
  rw [h]
  exact Iff.rfl

/-- However a spawn for a dead unit ends, ownership is kept: it spawned and took the handle, or
raised before there was a process. -/
theorem spawn_unit_owns (h : Owns s) (hdead : s.alive i = false) (hi : i < s.units.length) :
    Ensures (spawn_unit e i) s fun _ s' =>
      Owns s' ∧ s'.state = s.state ∧ s'.units.length = s.units.length := by
  have hpopen := h.popen hdead hi
  have hset := fades_spawned e i (s.popen i)
  unfold spawn_unit
  cases e.spawn i with
  | refused => exact ⟨h, rfl, rfl⟩
  -- `Popen` has returned and the `close` of the log raises: the process is there and owned.
  | unclosed => exact ⟨hpopen, rfl, popen_length⟩
  | spawned => exact ⟨hset.owns hpopen, rfl, hset.length.trans popen_length⟩

/-- A loop in which every spawn succeeds comes through and keeps ownership, by induction on the
units, which are distinct and dead. -/
theorem spawn_units_owns {is : List ℕ} (h : Owns s) (hnodup : is.Nodup)
    (hlt : ∀ i ∈ is, i < s.units.length) (hdead : ∀ i ∈ is, s.alive i = false)
    (hspawn : ∀ i ∈ is, e.spawn i = .spawned) :
    Ensures (spawn_units e is) s fun r s' => r = .ok () ∧ Owns s' := by
  induction is generalizing s with
  | nil => exact ⟨rfl, h⟩
  | cons i is ih =>
    have hreap := fades_reap (e.dies i) s
    have hhead : (s.reap (e.dies i)).alive i = false := hreap.dead (hdead i (by simp))
    have howns := (hreap.owns h).popen hhead (by rw [hreap.length]; exact hlt i (by simp))
    have hset := fades_spawned e i ((s.reap (e.dies i)).popen i)
    rw [List.nodup_cons] at hnodup
    unfold spawn_units
    simp only [ensures_bind, ensures_update, ensures_spawned (hspawn i (List.mem_cons_self))]
    -- the rest runs from a state in which only the spawned unit is new
    refine ih (hset.owns howns) hnodup.2 ?_ ?_ fun j hj => hspawn j (List.mem_cons_of_mem i hj)
    · intro j hj
      rw [hset.length, popen_length, hreap.length]
      exact hlt j (List.mem_cons_of_mem i hj)
    · intro j hj
      have hij : i ≠ j := fun heq => hnodup.1 (heq ▸ hj)
      exact hset.dead ((hreap.owns h).popen_dead hij
        (hreap.dead (hdead j (List.mem_cons_of_mem i hj))))

/-- An `OSError` in `_spawn_all` comes before the first process. -/
def WholeSpawn (units : ℕ) (e : Beat) : Prop :=
  (∃ err, e.fuser.2 = .error err) ∨ e.spawn 0 = .refused ∨ ∀ i < units, e.spawn i = .spawned

/-- `_spawn_all` from a quiet state keeps ownership if it fails before its first process or not at
all; only then is no process left without a handle. -/
theorem spawn_all_owned (h : Owned s) (hquiet : Quiet s) (hwhole : WholeSpawn s.units.length e) :
    Ensures (spawn_all e) s fun _ s' => Owned s' := by
  have hfuser := fades_reap e.fuser.1 s
  have howned := hfuser.owned h
  unfold spawn_all free_api_ports
  rw [ensures_bind, ensures_bind, ensures_update]
  rw [(returns_call (r := e.fuser.2)).ensures_iff]
  cases hports : e.fuser.2 with
  | error err => exact howned
  | ok u =>
    show Ensures (get >>= fun s => _) (s.reap e.fuser.1) _
    rw [ensures_get_bind]
    rcases hwhole with ⟨err, herr⟩ | hrefused | hspawned
    · rw [hports] at herr
      exact absurd herr (by simp)
    · -- the first unit already raises
      cases hn : (s.reap e.fuser.1).units.length with
      | zero =>
        rw [List.range_zero]
        exact { howned.toOwns with quiet := fun _ => hfuser.quiet hquiet }
      | succ n =>
        rw [List.range_succ_eq_map]
        unfold spawn_units spawn_unit
        rw [hrefused]
        exact (fades_reap (e.dies 0) _).owned howned
    · have hloop := @spawn_units_owns (s.reap e.fuser.1) e
        (List.range (s.reap e.fuser.1).units.length) howned.toOwns List.nodup_range
        (fun i hi => List.mem_range.mp hi) (fun i _ => (hfuser.quiet hquiet).alive i)
        (fun i hi => hspawned i (by rw [← hfuser.length]; exact List.mem_range.mp hi))
      refine hloop.bind ?_ ?_
      · rintro - s' ⟨-, howns⟩
        exact { howns with quiet := fun hstate => by rcases hstate with h | h <;> cases h }
      · rintro err s' ⟨herr, -⟩
        cases herr

end Spawning

/-! ## Stopping and supervising -/

section Handlers

variable {s : Supervisor} {cfg : LaunchCfg} {e : Beat}

/-- Handles may be forgotten once nothing is alive: what is lost with them are the names of dead
processes. -/
theorem to_off_owned (h : Owns s) (hquiet : Quiet s) : Owned (to_off s) where
  current pid p hp halive := by
    rw [hquiet p (List.mem_iff_getElem?.mpr ⟨pid, hp⟩)] at halive
    exact absurd halive (by decide)
  not_over := h.not_over
  handle i u pid hu hproc := by
    unfold to_off at hu
    simp only [List.getElem?_map, Option.map_eq_some_iff] at hu
    obtain ⟨v, -, rfl⟩ := hu
    exact absurd hproc (by simp)
  quiet _ := hquiet

/-- A state in which something may be alive. -/
theorem Owned.of_busy (h : Owns s) (hstate : s.state = .RUNNING ∨ s.state = .STOPPING) :
    Owned s where
  toOwns := h
  quiet hoff := by
    rcases hstate with hs | hs <;> rcases hoff with ho | ho <;> rw [hs] at ho <;> cases ho

/-- Requesting a start begins a countdown, in which as in `OFF` nobody lives. -/
theorem request_start_owned (now : ℚ) (h : Owned s) : Owned (request_start cfg now s) := by
  unfold request_start
  cases hstate : s.state with
  | OFF => exact { h.toOwns with quiet := fun _ => h.quiet (.inl hstate) }
  | _ => exact h

/-- Requesting a stop signals the units and waits for them, or leaves a countdown in which nobody
lives. -/
theorem request_stop_owned (h : Owned s) : Owned (request_stop cfg e s) := by
  unfold request_stop
  cases hstate : s.state with
  | OFF => exact h
  | STOPPING => exact h
  -- Nothing has been spawned yet, so there is nothing to forget.
  | COUNTDOWN => exact to_off_owned h.toOwns (h.quiet (.inr hstate))
  | RUNNING =>
    have hfades := @fades_for_alive e _ (fades_send_signal .SIGINT) (List.range s.units.length) s
    exact Owned.of_busy { hfades.owns h.toOwns with } (.inr rfl)

/-- Announcing that a unit is down is a note in its fields. -/
theorem fades_announced (down : Bool) (i : ℕ) (s : Supervisor) :
    Fades s (s.set_unit (fun u => { u with announced_down := down }) i) := by
  apply fades_set_unit
  intro u
  rfl

/-- One unit of a running supervisor: only a dead relay is respawned. -/
theorem tend_running_unit_owns {i : ℕ} (hi : i < s.units.length) (h : Owns s) :
    Ensures (tend_running_unit e i) s fun _ s' =>
      Owns s' ∧ s'.state = s.state ∧ s'.units.length = s.units.length := by
  have hreap := fades_reap (e.dies i) s
  have howns := hreap.owns h
  unfold tend_running_unit
  simp only [ensures_bind, ensures_update, ensures_get]
  split
  · have hset := fades_announced false i (s.reap (e.dies i))
    exact ⟨hset.owns howns, rfl, hset.length.trans hreap.length⟩
  · have hdead : (s.reap (e.dies i)).alive i = false := Bool.eq_false_iff.mpr ‹_›
    have hset := fades_announced true i (s.reap (e.dies i))
    have hlength := hset.length.trans hreap.length
    simp only [ensures_bind, ensures_update]
    split
    · split
      · have hspawn := @spawn_unit_owns _ e i (hset.owns howns) (hset.dead hdead)
          (by rw [hlength]; exact hi)
        rw [hlength] at hspawn
        exact hspawn
      · exact ⟨hset.owns howns, rfl, hlength⟩
    · exact ⟨hset.owns howns, rfl, hlength⟩

/-- The whole loop keeps ownership, also when a respawn raises: it raises at a unit that is dead
already, and the others keep their handles. -/
theorem tend_running_owns {is : List ℕ} (his : ∀ i ∈ is, i < s.units.length) (h : Owns s) :
    Ensures (tend_running e is) s fun _ s' => Owns s' ∧ s'.state = s.state := by
  induction is generalizing s with
  | nil => exact ⟨h, rfl⟩
  | cons i is ih =>
    have hunit := @tend_running_unit_owns s e i (his i List.mem_cons_self) h
    unfold tend_running
    -- A respawn that raises ends the loop, in a state that still owns its processes.
    refine hunit.bind ?_ fun err s' hs' => ⟨hs'.1, hs'.2.1⟩
    rintro - s' ⟨howns, hstate, hlength⟩
    rw [← hstate]
    exact ih (fun j hj => by rw [hlength]; exact his j (List.mem_cons_of_mem i hj)) howns

/-- Whoever was not listed is dead already, and the listed ones are killed. -/
theorem escalate_owned {alive : List ℕ} (now : ℚ) (h : Owns s) (hstate : s.state = .STOPPING)
    (hlist : ∀ i < s.units.length, i ∉ alive → s.alive i = false) :
    Owned (escalate now alive s) := by
  unfold escalate
  split
  · have hkill := fades_send_all .SIGKILL alive s
    refine to_off_owned (hkill.owns h) ((hkill.owns h).quiet_of ?_)
    intro i hi
    rw [hkill.length] at hi
    -- Everything a poll found alive is killed, and the rest was dead already.
    by_cases hmem : i ∈ alive
    · exact alive_kill_all hmem s
    · exact hkill.dead (hlist i hi hmem)
  · have hterm := fades_send_all .SIGTERM alive
      { s with terminated := true, deadline := some (now + TERM_GRACE_S) }
    exact Owned.of_busy (hterm.owns { h with }) (.inr (hterm.state.trans hstate))

/-- While stopping, handles are dropped only when nobody was found alive, so nobody is lost by it.
-/
theorem tend_stopping_owned (h : Owned s) (hstate : s.state = .STOPPING) :
    Ensures (tend_stopping e) s fun _ s' => Owned s' := by
  have hpoll := @fades_alive_units e (List.range s.units.length) s
  have hlist : ∀ i < (alive_units e (List.range s.units.length) s).2.units.length,
      i ∉ (alive_units e (List.range s.units.length) s).1 →
      (alive_units e (List.range s.units.length) s).2.alive i = false := by
    intro i hi
    rw [hpoll.length] at hi
    exact alive_units_not_mem (List.mem_range.mpr hi)
  have howned := hpoll.owned h
  have hstopping := hpoll.state.trans hstate
  unfold tend_stopping
  simp only [ensures_bind, ensures_update, ensures_get]
  generalize alive_units e (List.range s.units.length) s = polled at *
  split
  · rename_i hnone
    -- No unit was found alive, which is when the handles may go.
    refine to_off_owned howned.toOwns (howned.quiet_of fun i hi => hlist i hi ?_)
    rw [hnone]
    exact List.not_mem_nil
  · split
    · exact howned
    · split
      · exact howned
      · exact escalate_owned e.now howned.toOwns hstopping hlist

end Handlers

/-! ## The run -/

/-- The beat of the `_spawn_all` an event comes to. -/
def spawns_all (s : Supervisor) : Event → Option Beat
  | .start_now e => if s.state = .OFF then some e else none
  | .tend e => if s.state = .COUNTDOWN ∧ s.deadline.any (· ≤ e.now) then some e else none
  | _ => none

/-- If the event comes to a `_spawn_all`, an `OSError` there comes before the first
process. -/
def SpawnsWhole (s : Supervisor) (event : Event) : Prop :=
  ∀ e, spawns_all s event = some e → WholeSpawn s.units.length e

section Run

variable {s : Supervisor} {cfg : LaunchCfg} {e : Beat}

/-- A `tend` keeps ownership in each of the states, if no spawning in it is broken off in the
middle. -/
theorem tend_owned (h : Owned s) (hwhole : SpawnsWhole s (.tend e)) :
    Ensures (tend e) s fun _ s' => Owned s' := by
  unfold tend
  simp only [ensures_bind, ensures_get]
  cases hstate : s.state with
  | OFF => exact h
  | STOPPING => exact tend_stopping_owned h hstate
  | RUNNING =>
    have hloop := @tend_running_owns s e (List.range s.units.length)
      (fun i hi => List.mem_range.mp hi) h.toOwns
    unfold Ensures at hloop ⊢
    exact Owned.of_busy hloop.1 (.inl (hloop.2.trans hstate))
  | COUNTDOWN =>
    cases hdeadline : s.deadline with
    | none => exact h
    | some deadline =>
      simp only
      split
      · refine spawn_all_owned h (h.quiet (.inr hstate)) (hwhole e (if_pos ⟨hstate, ?_⟩))
        simpa [hdeadline] using ‹e.now ≥ deadline›
      · exact h

/-- An immediate start keeps ownership if its spawning is not broken off in the middle. -/
theorem start_now_owned (h : Owned s) (hwhole : SpawnsWhole s (.start_now e)) :
    Ensures (start_now e) s fun _ s' => Owned s' := by
  unfold start_now
  simp only [ensures_bind, ensures_get]
  split
  · exact spawn_all_owned h (h.quiet (.inl ‹_›)) (hwhole e (if_pos ‹_›))
  · exact h

/-- The rounds of a shutdown never spawn: the supervisor is stopping in each of them. -/
theorem shutdown_loop_owned {cap : ℚ} (rounds : List (ℚ × Beat)) (h : Owned s) :
    Ensures (shutdown_loop cap rounds) s fun _ s' => Owned s' := by
  induction rounds generalizing s with
  | nil => exact h
  | cons round rounds ih =>
    unfold shutdown_loop
    simp only [ensures_bind, ensures_get]
    split
    · rename_i hcond
      have hround := @tend_owned s round.2 h fun e he => by simp [spawns_all, hcond.1] at he
      exact hround.bind (fun _ s' hs' => ih hs') fun _ _ hs' => hs'
    · exact h

/-- A shutdown that waits and then kills leaves `OFF` with nobody alive. -/
theorem shutdown_stopping_owned {rounds : List (ℚ × Beat)} (h : Owned s) :
    Ensures (shutdown_stopping cfg e rounds) s fun _ s' => Owned s' := by
  have hloop := @shutdown_loop_owned s
    (e.now + cfg.stop_grace_s + TERM_GRACE_S + SHUTDOWN_SLACK_S) rounds h
  unfold shutdown_stopping
  refine hloop.bind ?_ fun _ _ hs' => hs'
  intro _ s' hs'
  simp only [ensures_bind, ensures_get]
  -- Past the rounds' deadline the units that are left are killed before they are forgotten.
  split
  · have hkill := @fades_for_alive e _ (fades_send_signal .SIGKILL)
      (List.range s'.units.length) s'
    have howns := hkill.owns hs'.toOwns
    refine to_off_owned howns (howns.quiet_of ?_)
    intro i hi
    rw [hkill.length] at hi
    exact alive_for_alive_kill (List.mem_range.mpr hi) s'
  · exact hs'

/-- One event keeps full ownership, whether its handler returns or raises, provided that no spawning
of all units is broken off in the middle. -/
theorem after_owned {event : Event} (h : Owned s) (hwhole : SpawnsWhole s event) :
    Owned (after cfg s event) := by
  cases event with
  | request_start now => exact request_start_owned now h
  | start_now e => exact start_now_owned h hwhole
  | request_stop e => exact request_stop_owned h
  | tend e => exact tend_owned h hwhole
  | die dead => exact (fades_reap dead s).owned h
  | shutdown stop kill rounds =>
    show Ensures (shutdown cfg stop kill rounds) s fun _ s' => Owned s'
    unfold shutdown
    simp only [ensures_bind, ensures_get]
    cases hstate : s.state with
    | OFF => exact h
    | COUNTDOWN => exact to_off_owned h.toOwns (h.quiet (.inr hstate))
    | RUNNING => exact shutdown_stopping_owned (request_stop_owned h)
    | STOPPING => exact shutdown_stopping_owned h

/-- The supervisor that was just built has spawned nobody, so there is nobody whom it could have
lost. -/
theorem init_owned (sides : List String) : Owned (.init sides) where
  current pid p hp := by simp [Supervisor.init] at hp
  not_over p hp := by simp [Supervisor.init] at hp
  handle i u pid hu hproc := by
    have hmem : u ∈ (Supervisor.init sides).units := List.mem_iff_getElem?.mpr ⟨i, hu⟩
    have hnone : u.proc = none := by
      rcases List.mem_append.mp hmem with hmem | hmem
      · obtain ⟨side, -, rfl⟩ := List.mem_map.mp hmem
        rfl
      · rw [List.mem_singleton.mp hmem]
        rfl
    rw [hnone] at hproc
    cases hproc
  quiet _ p hp := by simp [Supervisor.init] at hp

/-- The supervisor after a sequence of events. -/
def run (cfg : LaunchCfg) (sides : List String) (events : List Event) : Supervisor :=
  events.foldl (after cfg) (.init sides)

/-- What a supervisor that owns its processes promises: a process that is alive is the
current handle of its unit, none was spawned over a live handle, and in `OFF` and
`COUNTDOWN` none is alive. -/
structure OwnsAllAlive (s : Supervisor) : Prop where
  current : ∀ (pid : ℕ) (p : Proc), s.procs[pid]? = some p → p.alive = true →
    ∃ u, s.units[p.unit]? = some u ∧ u.proc = some pid
  not_over : ∀ p ∈ s.procs, p.over_live = false
  quiet : s.state = .OFF ∨ s.state = .COUNTDOWN → ∀ p ∈ s.procs, p.alive = false

/-- A run up to one event more is the run before and that event, which is the step of the induction
below. -/
theorem run_take_succ (cfg : LaunchCfg) (sides : List String) (events : List Event) (k : ℕ) :
    run cfg sides (events.take (k + 1)) =
      events[k]?.toList.foldl (after cfg) (run cfg sides (events.take k)) := by
  unfold run
  rw [List.take_add_one, List.foldl_append]

/-- Over every run, with deaths at any moment and any clock: as long as an `OSError` in
`_spawn_all` never comes after a process of it, the supervisor owns every process it
spawned, after every event. -/
theorem run_owns_all_alive (cfg : LaunchCfg) (sides : List String) (events : List Event)
    (hwhole : ∀ (k : ℕ) (event : Event), events[k]? = some event →
      SpawnsWhole (run cfg sides (events.take k)) event) (k : ℕ) :
    OwnsAllAlive (run cfg sides (events.take k)) := by
  have howned : Owned (run cfg sides (events.take k)) := by
    induction k with
    | zero =>
      rw [List.take_zero]
      exact init_owned sides
    | succ k ih =>
      rw [run_take_succ]
      cases hevent : events[k]? with
      | none => exact ih
      | some event => exact after_owned ih (hwhole k event hevent)
  exact ⟨howned.current, howned.not_over, howned.quiet⟩

/-- A beat in which nothing dies and the spawns end as given. -/
def quiet_beat (spawn : ℕ → SpawnResult) : Beat := ⟨0, fun _ => [], ([], .ok ()), spawn, fun _ => 0⟩

/-- A launch refused at its first unit, one that succeeds, and a teleop that dies. -/
theorem relaunch_owns_all_alive :
    ∃ events : List Event,
      OwnsAllAlive (run ⟨25, 10⟩ ["left", "right"] (events.take 3)) ∧
      (run ⟨25, 10⟩ ["left", "right"] (events.take 3)).procs.map Proc.alive =
        [true, false, true] := by
  refine ⟨[.start_now (quiet_beat fun _ => .refused), .start_now (quiet_beat fun _ => .spawned),
    .die [1]], run_owns_all_alive _ _ _ ?_ 3, by decide⟩
  intro k event hevent e he
  match k with
  | 0 =>
    cases hevent
    cases he
    exact .inr (.inl rfl)
  | 1 =>
    cases hevent
    cases he
    exact .inr (.inr fun _ _ => rfl)
  | 2 =>
    cases hevent
    cases he
  | k + 3 => cases hevent

/-- A launch that fails at the second unit, after the first one was spawned. -/
def half_launch : Event :=
  .start_now (quiet_beat fun i => if i = 1 then .refused else .spawned)

/-- A launch that succeeds. -/
def full_launch : Event := .start_now (quiet_beat fun _ => .spawned)

/-- The launch fails at the right teleop: the supervisor is `OFF` with the left one alive.
The next launch spawns over it, and then nobody has a handle of it. -/
theorem half_launch_orphans :
    ¬ OwnsAllAlive (run ⟨25, 10⟩ ["left", "right"] [half_launch]) ∧
    ¬ OwnsAllAlive (run ⟨25, 10⟩ ["left", "right"] [half_launch, full_launch]) ∧
    (run ⟨25, 10⟩ ["left", "right"] [half_launch]).state = .OFF ∧
    (run ⟨25, 10⟩ ["left", "right"] [half_launch]).procs = [⟨0, true, [], false⟩] ∧
    (run ⟨25, 10⟩ ["left", "right"] [half_launch, full_launch]).procs =
      [⟨0, true, [], false⟩, ⟨0, true, [], true⟩, ⟨1, true, [], false⟩, ⟨2, true, [], false⟩] ∧
    (run ⟨25, 10⟩ ["left", "right"] [half_launch, full_launch]).units.map ServerUnit.proc =
      [some 1, some 2, some 3] := by
  refine ⟨fun h => ?_, fun h => ?_, by decide, by decide, by decide, by decide⟩
  · have hdead := h.quiet (.inl (by decide)) ⟨0, true, [], false⟩ (by decide)
    exact absurd hdead (by decide)
  · have hover := h.not_over ⟨0, true, [], true⟩ (by decide)
    exact absurd hover (by decide)

end Run

end DualFlexivControl.Factr
