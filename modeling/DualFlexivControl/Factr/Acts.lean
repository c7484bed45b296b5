/-
The acts of a FACTR supervisor one at a time, and the signals each of them sends.

An act spawns, or sends SIGINT to what is running, or sends another signal to what is left of a
stop that is due ([`Does`]); and so does every beginning of one, should the daemon be killed in
the middle. The supervisors are those of `Launch`; a blocking `shutdown` is taken apart into
acts. Every signal goes into a log with its time, and the supervisor's own signals come in
order there: SIGINT, and then nothing else for `stop_grace_s` ([`Logged`]).
-/
import DualFlexivControl.Factr.Launch
import DualFlexivControl.Lib.ProgramOrder
import Mathlib.Tactic.Linarith

set_option autoImplicit false

namespace DualFlexivControl.Factr.SigintFirst

open Effect ProgramOrder

/-! ## Acts -/

/-- What a daemon does with its supervisor. A `shutdown` is taken apart: a `request_stop`, the
`tend`s of its loop and the last kill. -/
inductive Act where
  | request_start (now : ℚ)
  | start_now (e : Beat)
  | request_stop (e : Beat)
  | tend (e : Beat)
  | kill (e : Beat)

/-- When: the clock as `tend` reads it at its start, and `request_stop` after its signals. -/
def Act.now : Act → ℚ
  | .request_start now => now
  | .start_now e => e.now
  | .request_stop e => e.now
  | .tend e => e.now
  | .kill e => e.now

/-- The end of `shutdown`, past its cap. -/
def kill_rest (e : Beat) (s : Supervisor) : Supervisor :=
  if s.state = .STOPPING then
    to_off (for_alive e (Supervisor.send_signal .SIGKILL) (List.range s.units.length) s)
  else s

/-- The program of an act. -/
def Act.program (cfg : LaunchCfg) : Act → Handler
  | .request_start now => update (Factr.request_start cfg now)
  | .start_now e => Factr.start_now e
  | .request_stop e => update (Factr.request_stop cfg e)
  | .tend e => Factr.tend e
  | .kill e => update (kill_rest e)

/-- `_spawn_all` as far as its `k`-th unit. -/
def spawn_some (e : Beat) (k : ℕ) : Handler := do
  free_api_ports e
  spawn_units e (List.range k)

/-- `_tend_stopping` as far as its `k`-th signal. -/
def stop_some (e : Beat) (k : ℕ) (s : Supervisor) : Supervisor :=
  let (alive, s') := alive_units e (List.range s.units.length) s
  match s'.deadline with
  | none => s'
  | some deadline =>
    if e.now < deadline then s'
    else if s'.terminated then send_all .SIGKILL (alive.take k) s'
    else send_all .SIGTERM (alive.take k) s'

/-- What a daemon that is killed in the middle of an act has done of it, up to the `k`-th unit. -/
def Act.cut (k : ℕ) (s : Supervisor) : Act → Supervisor
  | .request_start _ => s
  | .start_now e => if s.state = .OFF then (exec (spawn_some e k) s).2 else s
  | .request_stop e =>
    if s.state = .RUNNING then for_alive e (Supervisor.send_signal .SIGINT) (List.range k) s
    else s
  | .tend e =>
    match s.state with
    | .COUNTDOWN => if s.deadline.any (· ≤ e.now) then (exec (spawn_some e k) s).2 else s
    | .RUNNING => (exec (tend_running e (List.range k)) s).2
    | .STOPPING => stop_some e k s
    | .OFF => s
  | .kill e =>
    if s.state = .STOPPING then for_alive e (Supervisor.send_signal .SIGKILL) (List.range k) s
    else s

/-- An explicit start: a command that is accepted in `OFF`. -/
def Act.is_start (s : Supervisor) : Act → Bool
  | .request_start _ => s.state = .OFF
  | .start_now _ => s.state = .OFF
  | _ => false

/-- The processes that `fuser -k` reaches, if the act comes to `_spawn_all`. -/
def Act.freed (s : Supervisor) : Act → List ℕ
  | .start_now e => if s.state = .OFF then e.fuser.1 else []
  | .tend e => if s.state = .COUNTDOWN ∧ s.deadline.any (· ≤ e.now) then e.fuser.1 else []
  | _ => []

/-! ## The log -/

/-- Who sends a signal. -/
inductive Origin where
  | supervisor
  | fuser
  | sweep
  deriving DecidableEq

/-- A signal to a process, when it was sent, whether the process was still alive, and by whom. -/
structure Sent where
  pid : ℕ
  signal : Signal
  time : ℚ
  live : Bool
  origin : Origin
  deriving DecidableEq

/-- The signals a process has been sent. -/
def sigs (s : Supervisor) (pid : ℕ) : List Signal := ((s.procs[pid]?).map Proc.signals).getD []

/-- Is a process alive? -/
def live (s : Supervisor) (pid : ℕ) : Bool := (s.procs[pid]?).any Proc.alive

/-- The signals that were sent on the way from one state to another. -/
def sends (t : ℚ) (s s' : Supervisor) : List Sent :=
  (List.range s'.procs.length).flatMap fun pid =>
    ((sigs s' pid).drop (sigs s pid).length).map fun signal =>
      ⟨pid, signal, t, live s pid, .supervisor⟩

/-- The SIGKILLs of `fuser -k`. -/
def fuser_kills (t : ℚ) (s : Supervisor) (pids : List ℕ) : List Sent :=
  (pids.filter (live s)).map fun pid => ⟨pid, .SIGKILL, t, true, .fuser⟩

/-- What an act adds to the log. -/
def Act.sent (a : Act) (s s' : Supervisor) : List Sent :=
  fuser_kills a.now s (a.freed s) ++ sends a.now s s'

/-! ## Units, processes and what they were sent -/

/-- The kind of a unit. -/
def kind_of (s : Supervisor) (i : ℕ) : Option Kind := (s.units[i]?).map ServerUnit.kind

/-- The unit a process was spawned for. -/
def unit_of (s : Supervisor) (pid : ℕ) : Option ℕ := (s.procs[pid]?).map Proc.unit

/-- A leader process. -/
def Teleop (s : Supervisor) (pid : ℕ) : Prop :=
  ∃ i side, unit_of s pid = some i ∧ kind_of s i = some (.teleop side)

/-- A process that is still alive, and was sent SIGINT long enough before. -/
def Asked (grace : ℚ) (before : List Sent) (x : Sent) : Prop :=
  x.live = true ∧
    ∃ y ∈ before, y.pid = x.pid ∧ y.signal = .SIGINT ∧ y.time + grace ≤ x.time

/-! ## A shutdown, taken apart -/

/-- The acts of a daemon in `shutdown`, one after the other while it is stopping. -/
inductive Closes (cfg : LaunchCfg) (s : Supervisor) : Supervisor → Prop
  | refl : Closes cfg s s
  | step {s' : Supervisor} (a : Act) (e : Beat) : Closes cfg s s' → s'.state = .STOPPING →
      a = .tend e ∨ a = .kill e → Closes cfg s (exec (a.program cfg) s').2

section Shutdown

variable {cfg : LaunchCfg} {s s' : Supervisor}

/-- Every round of the loop is a `tend` of a supervisor that is still stopping, so the loop only
adds acts of the allowed kind to those before it. -/
theorem Closes.loop (cap : ℚ) (rounds : List (ℚ × Beat)) (h : Closes cfg s s') :
    Ensures (shutdown_loop cap rounds) s' fun _ s'' => Closes cfg s s'' := by
  induction rounds generalizing s' with
  | nil => exact h
  | cons round rounds ih =>
    unfold shutdown_loop
    rw [ensures_get_bind]
    split
    · next hcond =>
      have hround : Ensures (Factr.tend round.2) s' fun _ s'' => Closes cfg s s'' :=
        h.step (.tend round.2) round.2 hcond.1 (.inl rfl)
      exact hround.bind (fun _ s'' h'' => ih h'') fun _ _ h'' => h''
    · exact h

/-- The blocking `shutdown` is a stop, unless one has been requested, and such acts. -/
theorem shutdown_closes (stop kill : Beat) (rounds : List (ℚ × Beat)) (s : Supervisor) :
    Ensures (shutdown cfg stop kill rounds) s fun _ s' =>
      Closes cfg s s' ∨ Closes cfg (Factr.request_stop cfg stop s) s' := by
  have hclosing : ∀ s₁ : Supervisor, Ensures (shutdown_stopping cfg kill rounds) s₁
      fun _ s' => Closes cfg s₁ s' := by
    intro s₁
    have hstart : Closes cfg s₁ s₁ := .refl
    have hloop := hstart.loop
      (kill.now + cfg.stop_grace_s + TERM_GRACE_S + SHUTDOWN_SLACK_S) rounds
    unfold shutdown_stopping
    refine hloop.bind ?_ fun _ _ h => h
    intro _ s' h
    rw [ensures_get_bind]
    split
    · next hstate =>
      have hkill := h.step (.kill kill) kill hstate (.inr rfl)
      have heq : (exec ((Act.kill kill).program cfg) s').2 = to_off (for_alive kill
          (Supervisor.send_signal .SIGKILL) (List.range s'.units.length) s') := by
        show kill_rest kill s' = _
        unfold kill_rest
        rw [if_pos hstate]
      rw [heq] at hkill
      exact hkill
    · exact h
  unfold shutdown
  rw [ensures_get_bind]
  cases hstate : s.state with
  | OFF => exact .inl .refl
  | COUNTDOWN =>
    right
    have heq : Factr.request_stop cfg stop s = to_off s := by
      unfold Factr.request_stop
      rw [hstate]
    rw [heq]
    exact .refl
  | RUNNING => exact .inr (hclosing (Factr.request_stop cfg stop s))
  | STOPPING => exact .inl (hclosing s)

end Shutdown

/-! ## Steps that send nothing -/

/-- A unit's handle. -/
def Holds (s : Supervisor) (i pid : ℕ) : Prop := s.units[i]?.bind ServerUnit.proc = some pid

section Basics

variable {s s' : Supervisor} {i pid : ℕ}

/-- `alive` looks at the process that the unit's handle names; a unit without a handle is not alive,
whatever else runs. -/
theorem alive_iff_holds : s.alive i = true ↔ ∃ pid, Holds s i pid ∧ live s pid = true := by
  unfold Supervisor.alive Holds live
  cases s.units[i]?.bind ServerUnit.proc <;> simp

/-- A unit has one handle, so if the unit is alive then the process of whichever handle we know is
the one that lives. -/
theorem live_of_holds (h : s.alive i = true) (hpid : Holds s i pid) : live s pid = true := by
  obtain ⟨pid', hpid', hlive⟩ := alive_iff_holds.1 h
  rwa [Option.some.inj (hpid.symm.trans hpid')]

/-- Only a process that was spawned can be alive; past the end of the list there is nothing to look
at. -/
theorem lt_of_live (h : live s pid = true) : pid < s.procs.length := by
  by_contra hlt
  unfold live at h
  rw [List.getElem?_eq_none (by omega)] at h
  exact absurd h (by simp)

/-- The unit of a process through the list of all units, which is what a step is known to keep. -/
theorem unit_of_eq : unit_of s pid = (s.procs.map Proc.unit)[pid]? := by
  unfold unit_of
  rw [List.getElem?_map]

/-- The kind of a unit through the list of all kinds, which no step of a supervisor changes. -/
theorem kind_of_eq : kind_of s i = (s.units.map ServerUnit.kind)[i]? := by
  unfold kind_of
  rw [List.getElem?_map]

/-- Handles depend on the units' `proc` alone: a step that leaves it there leaves the handles,
whatever it does to the processes. -/
theorem holds_congr (h : s'.units[i]?.map ServerUnit.proc = s.units[i]?.map ServerUnit.proc) :
    Holds s' i pid ↔ Holds s i pid := by
  have hbind : ∀ o : Option ServerUnit, o.bind ServerUnit.proc = (o.map ServerUnit.proc).join := by
    intro o
    cases o <;> rfl
  unfold Holds
  rw [hbind, hbind, h]

end Basics

/-- Processes may die and come into being, each for one of the units `is`; none is sent
anything. -/
structure Spawns (is : List ℕ) (s s' : Supervisor) : Prop where
  sigs : ∀ pid, sigs s' pid = [] ∨ sigs s' pid = SigintFirst.sigs s pid
  kinds : s'.units.map ServerUnit.kind = s.units.map ServerUnit.kind
  units : ∃ us : List ℕ, us.Sublist is ∧
    s'.procs.map Proc.unit = s.procs.map Proc.unit ++ us

namespace Spawns

variable {s s' s'' : Supervisor} {is js : List ℕ}

/-- Nothing but other fields changes. -/
theorem of_eq (hprocs : s'.procs = s.procs)
    (hkinds : s'.units.map ServerUnit.kind = s.units.map ServerUnit.kind) : Spawns [] s s' where
  sigs pid := by
    right
    unfold SigintFirst.sigs
    rw [hprocs]
  kinds := hkinds
  units := ⟨[], List.Sublist.refl [], by rw [hprocs, List.append_nil]⟩

/-- Doing nothing spawns nothing and keeps what every process has been sent. -/
theorem refl (s : Supervisor) : Spawns [] s s := of_eq rfl rfl

/-- One after the other: what is spawned is the first's and then the second's, and a process that
was sent nothing in both was sent nothing. -/
theorem trans (h : Spawns is s s') (h' : Spawns js s' s'') : Spawns (is ++ js) s s'' where
  sigs pid := by
    rcases h'.sigs pid with hnil | heq
    · exact .inl hnil
    · rw [heq]
      exact h.sigs pid
  kinds := h'.kinds.trans h.kinds
  units := by
    obtain ⟨us, hus, heq⟩ := h.units
    obtain ⟨us', hus', heq'⟩ := h'.units
    exact ⟨us ++ us', hus.append hus', by rw [heq', heq, List.append_assoc]⟩

/-- Some of the units may have got no process, so a longer list of units is allowed as well. -/
theorem mono (h : Spawns is s s') (hsub : is.Sublist js) : Spawns js s s' :=
  ⟨h.sigs, h.kinds, h.units.imp fun _ hus => ⟨hus.1.trans hsub, hus.2⟩⟩

end Spawns

section Spawning

variable {s : Supervisor} {e : Beat} {i : ℕ}

/-- Reaping marks processes as dead; neither the signals they were sent nor the units they belong to
change with it. -/
theorem spawns_reap (dead : List ℕ) (s : Supervisor) : Spawns [] s (s.reap dead) where
  sigs pid := by
    right
    unfold sigs Supervisor.reap
    rw [List.getElem?_mapIdx, Option.map_map]
    congr 2
    funext p
    by_cases hpid : pid ∈ dead <;> simp [hpid]
  kinds := rfl
  units := by
    refine ⟨[], List.Sublist.refl [], ?_⟩
    unfold Supervisor.reap
    apply List.ext_getElem?
    intro pid
    rw [List.append_nil, List.getElem?_map, List.getElem?_map, List.getElem?_mapIdx,
      Option.map_map]
    congr 1
    funext p
    by_cases hpid : pid ∈ dead <;> simp [hpid]

/-- What happens to a single unit changes its handle or its counters; its kind is fixed when the
supervisor is built. -/
theorem kinds_modify {f : ServerUnit → ServerUnit} (hf : ∀ u, (f u).kind = u.kind)
    (units : List ServerUnit) (i : ℕ) :
    (units.modify i f).map ServerUnit.kind = units.map ServerUnit.kind := by
  apply List.ext_getElem?
  intro j
  rw [List.getElem?_map, List.getElem?_map, List.getElem?_modify, Option.map_eq_map,
    Option.map_map]
  congr 1
  funext u
  by_cases hij : i = j <;> simp [hij, hf]

/-- A unit's fields other than its kind may change without a process coming into being or being
signalled. -/
theorem spawns_set_unit {f : ServerUnit → ServerUnit} (hf : ∀ u, (f u).kind = u.kind) (i : ℕ)
    (s : Supervisor) : Spawns [] s (s.set_unit f i) :=
  .of_eq rfl (kinds_modify hf s.units i)

/-- A `Popen` appends a process for the unit, which nobody has signalled yet, and leaves all others
as they are. -/
theorem spawns_popen (i : ℕ) (s : Supervisor) : Spawns [i] s (s.popen i) where
  sigs pid := by
    unfold sigs Supervisor.popen
    rcases Nat.lt_or_ge pid s.procs.length with hlt | hge
    · rw [List.getElem?_append_left hlt]
      exact .inr rfl
    · rw [List.getElem?_append_right hge, List.getElem?_singleton]
      left
      split <;> rfl
  kinds := by
    unfold Supervisor.popen
    apply kinds_modify
    exact fun _ => rfl
  units := ⟨[i], List.Sublist.refl [i], by simp [Supervisor.popen]⟩

/-- However a spawn ends, it is of this unit. -/
theorem spawn_unit_spawns : Ensures (spawn_unit e i) s fun _ s' =>
    Spawns [i] s s' ∧ s'.state = s.state := by
  unfold spawn_unit
  cases e.spawn i with
  | refused => exact ⟨(Spawns.refl s).mono (List.nil_sublist _), rfl⟩
  | unclosed => exact ⟨spawns_popen i s, rfl⟩
  | spawned =>
    refine ⟨(spawns_popen i s).trans (spawns_set_unit ?_ i _), rfl⟩
    exact fun _ => rfl

/-- By induction on the units: each spawns at most its own process, and an `OSError` in the middle
keeps what was spawned before. -/
theorem spawn_units_spawns (is : List ℕ) : Ensures (spawn_units e is) s fun _ s' =>
    Spawns is s s' ∧ s'.state = s.state := by
  induction is generalizing s with
  | nil => exact ⟨Spawns.refl s, rfl⟩
  | cons i is ih =>
    have hreap := spawns_reap (e.dies i) s
    unfold spawn_units
    simp only [ensures_bind, ensures_update]
    rw [← ensures_bind]
    refine (@spawn_unit_spawns (s.reap (e.dies i)) e i).bind ?_ ?_
    · rintro - s' ⟨hunit, hstate⟩
      exact (@ih s').imp fun _ _ h => ⟨(hreap.trans hunit).trans h.1, h.2.trans hstate⟩
    · rintro err s' ⟨hunit, hstate⟩
      exact ⟨(hreap.trans hunit).mono (List.cons_sublist_cons.2 (List.nil_sublist _)), hstate⟩

/-- `_spawn_all` up to some unit: an exception leaves the state as it was. -/
theorem spawn_some_spawns (k : ℕ) : Ensures (spawn_some e k) s fun _ s' =>
    Spawns (List.range k) s s' ∧ s'.state = s.state := by
  have hfuser := spawns_reap e.fuser.1 s
  unfold spawn_some free_api_ports
  rw [ensures_bind, ensures_bind, ensures_update, (returns_call (r := e.fuser.2)).ensures_iff]
  cases e.fuser.2 with
  | error err => exact ⟨hfuser.mono (List.nil_sublist _), rfl⟩
  | ok _ =>
    exact (@spawn_units_spawns (s.reap e.fuser.1) e (List.range k)).imp fun _ _ h =>
      ⟨hfuser.trans h.1, h.2⟩

/-- `_spawn_all` spawns each unit at most once, and ends in `RUNNING` or by an exception. -/
theorem spawn_all_spawns : Ensures (spawn_all e) s fun r s' =>
    Spawns (List.range s.units.length) s s' ∧
      (s'.state = .RUNNING ∨ s'.state = s.state ∧ ∃ err, r = .error err) := by
  have hfuser := spawns_reap e.fuser.1 s
  unfold spawn_all free_api_ports
  rw [ensures_bind, ensures_bind, ensures_update, (returns_call (r := e.fuser.2)).ensures_iff]
  cases e.fuser.2 with
  | error err => exact ⟨hfuser.mono (List.nil_sublist _), .inr ⟨rfl, err, rfl⟩⟩
  | ok _ =>
    show Ensures (get >>= fun s' => _) (s.reap e.fuser.1) _
    rw [ensures_get_bind]
    refine (@spawn_units_spawns (s.reap e.fuser.1) e (List.range s.units.length)).bind ?_ ?_
    · rintro - s' ⟨hunits, -⟩
      have hall := hfuser.trans hunits
      exact ⟨⟨hall.sigs, hall.kinds, hall.units⟩, .inl rfl⟩
    · rintro err s' ⟨hunits, hstate⟩
      exact ⟨hfuser.trans hunits, .inr ⟨hstate, err, rfl⟩⟩

/-- The units of the relay. -/
def apis (s : Supervisor) (is : List ℕ) : List ℕ := is.filter fun i => kind_of s i = some .api

/-- Kinds are compared unit by unit once the lists of them are known to agree. -/
theorem kind_of_congr {s' : Supervisor} (h : s'.units.map ServerUnit.kind =
    s.units.map ServerUnit.kind) (i : ℕ) : kind_of s' i = kind_of s i := by
  rw [kind_of_eq, kind_of_eq, h]

/-- One unit of a running supervisor: a dead API server is spawned again when its respawn time has
come, and a teleop never is. -/
theorem tend_running_unit_spawns : Ensures (tend_running_unit e i) s fun _ s' =>
    Spawns (apis s [i]) s s' ∧ s'.state = s.state := by
  have hreap := spawns_reap (e.dies i) s
  have hset : ∀ down, Spawns [] s ((s.reap (e.dies i)).set_unit
      (fun u => { u with announced_down := down }) i) := by
    intro down
    refine hreap.trans (spawns_set_unit ?_ i _)
    exact fun _ => rfl
  unfold tend_running_unit
  simp only [ensures_bind, ensures_update, ensures_get]
  split
  · exact ⟨(hset false).mono (List.nil_sublist _), rfl⟩
  simp only [ensures_bind, ensures_update]
  split
  · next u hu =>
    split
    · next hcond =>
      have hapi : kind_of s i = some .api := by
        have hkind : kind_of (s.reap (e.dies i)) i = some u.kind := by
          unfold kind_of
          rw [hu, Option.map_some]
        rw [← hcond.1, ← hkind]
        rfl
      refine (@spawn_unit_spawns _ e i).imp ?_
      rintro - s' ⟨hspawn, hstate⟩
      have hapis : apis s [i] = [i] := by simp [apis, hapi]
      rw [hapis]
      exact ⟨(hset true).trans hspawn, hstate⟩
    · exact ⟨(hset true).mono (List.nil_sublist _), rfl⟩
  · exact ⟨(hset true).mono (List.nil_sublist _), rfl⟩

/-- While running, only the API servers among the units are spawned again, and the state stays what
it is. -/
theorem tend_running_spawns (is : List ℕ) : Ensures (tend_running e is) s fun _ s' =>
    Spawns (apis s is) s s' ∧ s'.state = s.state := by
  induction is generalizing s with
  | nil => exact ⟨Spawns.refl s, rfl⟩
  | cons i is ih =>
    have hsplit : apis s (i :: is) = apis s [i] ++ apis s is := by
      unfold apis
      rw [← List.filter_append]
      rfl
    unfold tend_running
    rw [hsplit]
    refine (@tend_running_unit_spawns s e i).bind ?_ ?_
    · rintro - s' ⟨hunit, hstate⟩
      have hapis : apis s' is = apis s is := by
        unfold apis
        simp only [kind_of_congr hunit.kinds]
      refine (@ih s').imp ?_
      rintro - s'' ⟨hrest, hstate'⟩
      rw [hapis] at hrest
      exact ⟨hunit.trans hrest, hstate'.trans hstate⟩
    · rintro err s' ⟨hunit, hstate⟩
      exact ⟨hunit.mono (List.sublist_append_left _ _), hstate⟩

end Spawning

/-! ## Steps that send a signal -/

/-- Some of the live processes that units hold are sent `sig`; nothing is spawned. -/
structure Signals (sig : Signal) (s s' : Supervisor) : Prop where
  sent : ∀ pid, ∃ n, sigs s' pid = sigs s pid ++ List.replicate n sig ∧
    (0 < n → ∃ i, s.alive i = true ∧ Holds s i pid)
  kinds : s'.units.map ServerUnit.kind = s.units.map ServerUnit.kind
  units : s'.procs.map Proc.unit = s.procs.map Proc.unit

/-- The same with the handles and the state as they were, from a start `s₀` on. -/
structure Delivers (sig : Signal) (s₀ s : Supervisor) : Prop extends Fades s₀ s, Signals sig s₀ s

section Delivering

variable {sig : Signal} {s₀ s s' : Supervisor} {e : Beat} {i : ℕ} {is : List ℕ}

/-- Where processes only die, each remains the process of the unit it was spawned for. -/
theorem fades_units (h : Fades s s') : s'.procs.map Proc.unit = s.procs.map Proc.unit := by
  apply List.ext_getElem?
  intro pid
  have hmarks := congrArg (Option.map Prod.fst) (h.marks pid)
  rw [Option.map_map, Option.map_map] at hmarks
  rw [List.getElem?_map, List.getElem?_map]
  exact hmarks

/-- A unit that is alive after processes have died was alive before, since its handle is still the
same one. -/
theorem Fades.alive_of (h : Fades s s') (halive : s'.alive i = true) : s.alive i = true := by
  by_contra hdead
  rw [h.dead (Bool.eq_false_iff.2 hdead)] at halive
  exact absurd halive (by decide)

namespace Delivers

/-- Delivering nothing, for the loop that has not come to a unit yet. -/
theorem refl (sig : Signal) (s : Supervisor) : Delivers sig s s where
  toFades := .refl s
  sent _ := ⟨0, by simp, fun h => absurd h (by decide)⟩
  kinds := rfl
  units := rfl

/-- In between the signals some processes may be found dead; what the others were sent is not
touched. -/
theorem reap (h : Delivers sig s₀ s) (dead : List ℕ) : Delivers sig s₀ (s.reap dead) where
  toFades := h.toFades.trans (fades_reap dead s)
  sent pid := by
    obtain ⟨n, hn, hheld⟩ := h.sent pid
    have hsame : sigs (s.reap dead) pid = sigs s pid := by
      unfold sigs Supervisor.reap
      rw [List.getElem?_mapIdx, Option.map_map]
      congr 2
      funext p
      by_cases hpid : pid ∈ dead <;> simp [hpid]
    exact ⟨n, hsame.trans hn, hheld⟩
  kinds := h.kinds
  units := fades_units (h.toFades.trans (fades_reap dead s))

end Delivers

/-- A signal is appended for the process the unit holds. -/
theorem sigs_send_signal {pid : ℕ} (hpid : Holds s i pid) (hlt : pid < s.procs.length) :
    sigs (s.send_signal sig i) pid = sigs s pid ++ [sig] := by
  unfold Holds at hpid
  unfold sigs Supervisor.send_signal
  rw [hpid]
  simp [List.getElem?_eq_getElem hlt]

/-- A signal goes to the process that the unit's handle names and is recorded with no other. -/
theorem sigs_send_signal_ne {pid : ℕ} (hpid : ¬ Holds s i pid) :
    sigs (s.send_signal sig i) pid = sigs s pid := by
  unfold Holds at hpid
  unfold Supervisor.send_signal
  cases hheld : s.units[i]?.bind ServerUnit.proc with
  | none => rfl
  | some target =>
    have hne : target ≠ pid := fun heq => hpid (by rw [hheld, heq])
    unfold sigs
    simp [hne]

/-- Sending a signal leaves the units: handles are only dropped on the way to `OFF`. -/
theorem send_signal_units (sig : Signal) (i : ℕ) (s : Supervisor) :
    (s.send_signal sig i).units = s.units := by
  unfold Supervisor.send_signal
  cases s.units[i]?.bind ServerUnit.proc <;> rfl

/-- The next unit of the loop: it was alive when the loop began, so its process is among those that
may get the signal. -/
theorem Delivers.send (h : Delivers sig s₀ s) (halive : s₀.alive i = true) :
    Delivers sig s₀ (s.send_signal sig i) where
  toFades := h.toFades.trans (fades_send_signal sig i s)
  sent pid := by
    obtain ⟨n, hn, hheld⟩ := h.sent pid
    by_cases hpid : Holds s i pid
    · have hpid₀ : Holds s₀ i pid := (holds_congr (h.handles i)).1 hpid
      have hlength : s.procs.length = s₀.procs.length := by
        simpa using congrArg List.length h.units
      have hlt : pid < s.procs.length := hlength ▸ lt_of_live (live_of_holds halive hpid₀)
      refine ⟨n + 1, ?_, fun _ => ⟨i, halive, hpid₀⟩⟩
      rw [sigs_send_signal hpid hlt, hn, List.append_assoc, List.replicate_succ']
    · exact ⟨n, (sigs_send_signal_ne hpid).trans hn, hheld⟩
  kinds := by rw [send_signal_units, h.kinds]
  units := fades_units (h.toFades.trans (fades_send_signal sig i s))

/-- A loop over units sends the one signal to those it finds alive when it comes to them, and
nothing to the rest. -/
theorem Delivers.for_alive (h : Delivers sig s₀ s) (is : List ℕ) :
    Delivers sig s₀ (for_alive e (Supervisor.send_signal sig) is s) := by
  induction is generalizing s with
  | nil => exact h
  | cons i is ih =>
    have hreap := h.reap (e.dies i)
    apply ih
    split
    · exact hreap.send (Fades.alive_of hreap.toFades ‹_›)
    · exact hreap

/-- The same for units that were found alive before the loop, as `_tend_stopping` does it. -/
theorem Delivers.send_all (h : Delivers sig s₀ s) (his : ∀ i ∈ is, s₀.alive i = true) :
    Delivers sig s₀ (send_all sig is s) := by
  induction is generalizing s with
  | nil => exact h
  | cons i is ih =>
    exact ih (h.send (his i List.mem_cons_self)) fun j hj => his j (List.mem_cons_of_mem i hj)

/-- What a poll finds alive was alive before it, since polling only marks processes as dead; the
signals sent so far stay as they are. -/
theorem Delivers.alive_units (h : Delivers sig s₀ s) (is : List ℕ) :
    Delivers sig s₀ (alive_units e is s).2 ∧
      ∀ i ∈ (alive_units e is s).1, s₀.alive i = true := by
  induction is generalizing s with
  | nil => exact ⟨h, fun i hi => absurd hi List.not_mem_nil⟩
  | cons i is ih =>
    have hreap := h.reap (e.dies i)
    obtain ⟨hrest, halive⟩ := ih hreap
    refine ⟨hrest, ?_⟩
    intro j hj
    unfold Factr.alive_units at hj
    dsimp only at hj
    split at hj
    · rcases List.mem_cons.1 hj with rfl | hj
      · exact Fades.alive_of hreap.toFades ‹_›
      · exact halive j hj
    · exact halive j hj

/-- A signal that has been sent stays sent. -/
theorem Delivers.mem_sigs (h : Delivers sig s₀ s) {sig' : Signal} {pid : ℕ}
    (hmem : sig' ∈ sigs s₀ pid) : sig' ∈ sigs s pid := by
  obtain ⟨n, hn, -⟩ := h.sent pid
  rw [hn]
  exact List.mem_append_left _ hmem

/-- Whoever is alive after the loop has been sent the signal: the loop found it alive when it came
to it, and sent. -/
theorem mem_sigs_for_alive {pid : ℕ} (hi : i ∈ is)
    (halive : (for_alive e (Supervisor.send_signal sig) is s).alive i = true)
    (hpid : Holds s i pid) :
    sig ∈ sigs (for_alive e (Supervisor.send_signal sig) is s) pid := by
  induction is generalizing s with
  | nil => exact absurd hi List.not_mem_nil
  | cons j is ih =>
    have hreap := fades_reap (e.dies j) s
    have hsend : Fades (s.reap (e.dies j)) (if (s.reap (e.dies j)).alive j = true
        then (s.reap (e.dies j)).send_signal sig j else s.reap (e.dies j)) := by
      split
      · exact fades_send_signal sig j _
      · exact .refl _
    by_cases hmem : i ∈ is
    · exact ih hmem halive ((holds_congr ((hreap.trans hsend).handles i)).2 hpid)
    obtain rfl : i = j := (List.mem_cons.1 hi).resolve_right hmem
    have hrest := (Delivers.refl sig (if (s.reap (e.dies i)).alive i = true
      then (s.reap (e.dies i)).send_signal sig i else s.reap (e.dies i))).for_alive (e := e) is
    -- it was alive at its turn, for it is alive at the end
    have hturn : (s.reap (e.dies i)).alive i = true :=
      Fades.alive_of (hsend.trans hrest.toFades) halive
    have hpid' : Holds (s.reap (e.dies i)) i pid := hpid
    have hlt := lt_of_live (live_of_holds hturn hpid')
    apply hrest.mem_sigs
    rw [if_pos hturn, sigs_send_signal hpid' hlt]
    exact List.mem_append_right _ List.mem_cons_self

end Delivering

/-! ## What an act does -/

/-- An act that may spawn teleops: an explicit start, or the end of the countdown of one. -/
def Act.launches (s : Supervisor) (a : Act) : Prop :=
  a.is_start s = true ∨ s.state = .COUNTDOWN ∧ ∃ e, a = .tend e

/-- The time for more than a SIGINT: past the deadline, or past the cap of `shutdown`. -/
def Act.due (s : Supervisor) : Act → Prop
  | .tend e => ∃ deadline, s.deadline = some deadline ∧ deadline ≤ e.now
  | .kill _ => True
  | _ => False

/-- An act spawns, or sends the SIGINTs of a stop, or another signal of a stop that is due; and it
does only one of these. -/
inductive Does (s : Supervisor) (a : Act) (s' : Supervisor) : Prop
  | spawns (is : List ℕ) : is.Nodup →
      (∀ i ∈ is, (∃ side, kind_of s i = some (.teleop side)) → a.launches s) →
      Spawns is s s' → Does s a s'
  | asks (e : Beat) : a = .request_stop e → s.state = .RUNNING → Signals .SIGINT s s' → Does s a s'
  | forces (sig : Signal) : sig ≠ .SIGINT → a.freed s = [] → s.state = .STOPPING → a.due s →
      Signals sig s s' → Does s a s'

section Does

variable {s s' : Supervisor} {a : Act} {e : Beat}

/-- Nothing is spawned and nothing sent. -/
theorem Does.quiet (h : Spawns [] s s') : Does s a s' :=
  .spawns [] List.nodup_nil (fun _ hi => absurd hi List.not_mem_nil) h

/-- A spawning act: its units are distinct, as each comes once in the supervisor's list, and it
sends nothing. -/
theorem Does.launch {is : List ℕ} (hnodup : is.Nodup) (hlaunch : a.launches s)
    (h : Spawns is s s') : Does s a s' :=
  .spawns is hnodup (fun _ _ _ => hlaunch) h

/-- A running supervisor launches only relays. -/
theorem Does.relays {is : List ℕ} (hnodup : is.Nodup) (h : Spawns (apis s is) s s') :
    Does s a s' := by
  refine .spawns _ (hnodup.filter _) ?_ h
  rintro i hi ⟨side, hside⟩
  have hapi := (List.mem_filter.1 hi).2
  rw [hside] at hapi
  exact absurd hapi (by simp)

/-- Other fields may change as well: what was sent, and to processes of which units, does not depend
on them. -/
theorem Signals.congr {sig : Signal} {t : Supervisor} (h : Signals sig s t)
    (hprocs : s'.procs = t.procs)
    (hkinds : s'.units.map ServerUnit.kind = t.units.map ServerUnit.kind) : Signals sig s s' where
  sent pid := by
    obtain ⟨n, hn, hheld⟩ := h.sent pid
    refine ⟨n, ?_, hheld⟩
    rw [← hn]
    unfold sigs
    rw [hprocs]
  kinds := hkinds.trans h.kinds
  units := by rw [hprocs, h.units]

/-- Going to `OFF` drops handles and deadlines and keeps the kinds, so leaders remain leaders. -/
theorem kinds_to_off (s : Supervisor) :
    (to_off s).units.map ServerUnit.kind = s.units.map ServerUnit.kind := by
  unfold to_off
  rw [List.map_map]
  rfl

/-- What has been sent on the way to an escalation: SIGTERM or SIGKILL to units that were alive, and
never a SIGINT. -/
theorem escalate_signals (alive : List ℕ) (now : ℚ) {t : Supervisor}
    (hpoll : ∀ sig, Delivers sig s t) (halive : ∀ i ∈ alive, s.alive i = true) :
    ∃ sig, sig ≠ .SIGINT ∧ Signals sig s (escalate now alive t) := by
  unfold escalate
  split
  · have hkill := (hpoll .SIGKILL).send_all halive
    exact ⟨.SIGKILL, by decide, hkill.toSignals.congr rfl (kinds_to_off _)⟩
  · have hbase : Delivers .SIGTERM s { t with
        terminated := true, deadline := some (now + TERM_GRACE_S) } :=
      { hpoll .SIGTERM with }
    exact ⟨.SIGTERM, by decide, (hbase.send_all halive).toSignals⟩

/-- A poll sends nothing and leaves the deadline. -/
theorem alive_units_spawns (is : List ℕ) (s : Supervisor) :
    Spawns [] s (alive_units e is s).2 ∧ (alive_units e is s).2.deadline = s.deadline := by
  induction is generalizing s with
  | nil => exact ⟨.refl s, rfl⟩
  | cons i is ih =>
    obtain ⟨hrest, hdeadline⟩ := ih (s.reap (e.dies i))
    exact ⟨(spawns_reap (e.dies i) s).trans hrest, hdeadline⟩

/-- A `tend` while stopping signals only what it finds alive, and only once the deadline has passed.
-/
theorem tend_stopping_does (hstate : s.state = .STOPPING) :
    Does s (.tend e) (exec (tend_stopping e) s).2 := by
  have hpoll := fun sig =>
    (Delivers.refl sig s).alive_units (e := e) (List.range s.units.length)
  have hfreed : (Act.tend e).freed s = [] := by simp [Act.freed, hstate]
  obtain ⟨hquiet, hdeadline⟩ := @alive_units_spawns e (List.range s.units.length) s
  show Ensures (tend_stopping e) s fun _ s' => Does s (.tend e) s'
  unfold tend_stopping
  simp only [ensures_bind, ensures_update, ensures_get]
  generalize alive_units e (List.range s.units.length) s = polled at *
  split
  · refine .quiet (hquiet.trans (.of_eq rfl (kinds_to_off _)))
  · split
    · exact .quiet hquiet
    · next deadline hsome =>
      split
      · exact .quiet hquiet
      · next hpast =>
        obtain ⟨sig, hne, hsig⟩ := escalate_signals polled.1 e.now (fun sig => (hpoll sig).1)
          (hpoll .SIGINT).2
        exact .forces sig hne hfreed hstate ⟨deadline, hdeadline ▸ hsome, not_lt.1 hpast⟩ hsig

/-- A start spawns one process for each unit at most, and stops at the first that fails. -/
theorem spawn_all_does (hlaunch : a.launches s) : Does s a (exec (spawn_all e) s).2 := by
  have hspawn : Ensures (spawn_all e) s fun _ s' => Spawns (List.range s.units.length) s s' :=
    spawn_all_spawns.imp fun _ _ h => h.1
  exact .launch List.nodup_range hlaunch hspawn

/-- A stop sends SIGINT to the units that are alive and sets the deadline from the clock after its
signals. -/
theorem request_stop_does (cfg : LaunchCfg) :
    Does s (.request_stop e) (Factr.request_stop cfg e s) := by
  unfold Factr.request_stop
  cases hstate : s.state with
  | OFF => exact .quiet (.refl s)
  | STOPPING => exact .quiet (.refl s)
  | COUNTDOWN => exact .quiet (.of_eq rfl (kinds_to_off s))
  | RUNNING =>
    have hask := (Delivers.refl .SIGINT s).for_alive (e := e) (List.range s.units.length)
    exact .asks e rfl hstate (hask.toSignals.congr rfl rfl)

/-- The last kill of a shutdown forces what is left, in `STOPPING` only, where nothing can be sent
that is not due. -/
theorem kill_rest_does : Does s (.kill e) (kill_rest e s) := by
  unfold kill_rest
  split
  · next hstate =>
    have hkill := (Delivers.refl .SIGKILL s).for_alive (e := e) (List.range s.units.length)
    exact .forces .SIGKILL (by decide) rfl hstate trivial
      (hkill.toSignals.congr rfl (kinds_to_off _))
  · exact .quiet (.refl s)

/-- Every act does what its kind allows, whatever its program's outcome: the case distinction over
the acts, each by its own lemma. -/
theorem program_does (cfg : LaunchCfg) (a : Act) : Does s a (exec (a.program cfg) s).2 := by
  cases a with
  | request_start now =>
    apply Does.quiet
    show Spawns [] s (Factr.request_start cfg now s)
    unfold Factr.request_start
    cases s.state <;> exact .of_eq rfl rfl
  | start_now e =>
    show Ensures (Factr.start_now e) s fun _ s' => Does s (.start_now e) s'
    unfold Factr.start_now
    simp only [ensures_bind, ensures_get]
    split
    · next hstate => exact spawn_all_does (.inl (by simp [Act.is_start, hstate]))
    · exact .quiet (.refl s)
  | request_stop e => exact request_stop_does cfg
  | tend e =>
    show Ensures (Factr.tend e) s fun _ s' => Does s (.tend e) s'
    unfold Factr.tend
    simp only [ensures_bind, ensures_get]
    cases hstate : s.state with
    | OFF => exact .quiet (.refl s)
    | STOPPING => exact tend_stopping_does hstate
    | RUNNING =>
      have hspawn : Ensures (tend_running e (List.range s.units.length)) s fun _ s' =>
          Spawns (apis s (List.range s.units.length)) s s' :=
        (tend_running_spawns _).imp fun _ _ h => h.1
      exact .relays List.nodup_range hspawn
    | COUNTDOWN =>
      cases s.deadline with
      | none => exact .quiet (.refl s)
      | some deadline =>
        dsimp only
        split
        · exact spawn_all_does (.inr ⟨hstate, e, rfl⟩)
        · exact .quiet (.refl s)
  | kill e => exact kill_rest_does

/-- And so does every beginning of one, as far as a daemon that is killed in the middle got with its
spawning or its signals. -/
theorem cut_does (k : ℕ) (a : Act) : Does s a (a.cut k s) := by
  have hspawn : ∀ e, Spawns (List.range k) s (exec (spawn_some e k) s).2 := by
    intro e
    have h : Ensures (spawn_some e k) s fun _ s' => Spawns (List.range k) s s' :=
      (spawn_some_spawns k).imp fun _ _ h => h.1
    exact h
  unfold Act.cut
  cases a with
  | request_start now => exact .quiet (.refl s)
  | start_now e =>
    dsimp only
    split
    · next hstate =>
      exact .launch List.nodup_range (.inl (by simp [Act.is_start, hstate])) (hspawn e)
    · exact .quiet (.refl s)
  | request_stop e =>
    dsimp only
    split
    · next hstate =>
      exact .asks e rfl hstate ((Delivers.refl .SIGINT s).for_alive _).toSignals
    · exact .quiet (.refl s)
  | tend e =>
    dsimp only
    cases hstate : s.state with
    | OFF => exact .quiet (.refl s)
    | STOPPING =>
      -- polling finds who is alive, and what is cut off is the sending to the rest
      have hpoll := fun sig =>
        (Delivers.refl sig s).alive_units (e := e) (List.range s.units.length)
      obtain ⟨hquiet, hdeadline⟩ := @alive_units_spawns e (List.range s.units.length) s
      have hfreed : (Act.tend e).freed s = [] := by simp [Act.freed, hstate]
      dsimp only
      unfold stop_some
      dsimp only
      generalize alive_units e (List.range s.units.length) s = polled at *
      split
      · exact .quiet hquiet
      next deadline hsome =>
      split
      · exact .quiet hquiet
      next hpast =>
      have hdue : (Act.tend e).due s := ⟨deadline, hdeadline ▸ hsome, not_lt.1 hpast⟩
      have halive : ∀ i ∈ polled.1.take k, s.alive i = true :=
        fun i hi => (hpoll .SIGINT).2 i (List.mem_of_mem_take hi)
      split
      · exact .forces .SIGKILL (by decide) hfreed hstate hdue
          ((hpoll .SIGKILL).1.send_all halive).toSignals
      · exact .forces .SIGTERM (by decide) hfreed hstate hdue
          ((hpoll .SIGTERM).1.send_all halive).toSignals
    | RUNNING =>
      have hrelays : Ensures (tend_running e (List.range k)) s fun _ s' =>
          Spawns (apis s (List.range k)) s s' := (tend_running_spawns _).imp fun _ _ h => h.1
      exact .relays List.nodup_range hrelays
    | COUNTDOWN =>
      dsimp only
      split
      · exact .launch List.nodup_range (.inr ⟨hstate, e, rfl⟩) (hspawn e)
      · exact .quiet (.refl s)
  | kill e =>
    dsimp only
    split
    · next hstate =>
      exact .forces .SIGKILL (by decide) rfl hstate trivial
        ((Delivers.refl .SIGKILL s).for_alive _).toSignals
    · exact .quiet (.refl s)

end Does

/-! ## The log of an act -/

section Log

variable {s s' : Supervisor} {a : Act} {t clock grace : ℚ} {sent : List Sent} {x : Sent}

/-- An entry of the log is read back: its time and liveness are those of the step, and its signal is
one the step added. -/
theorem mem_sends (h : x ∈ sends t s s') : x.time = t ∧ x.live = live s x.pid ∧
    x.origin = .supervisor ∧ x.signal ∈ (sigs s' x.pid).drop (sigs s x.pid).length := by
  unfold sends at h
  obtain ⟨pid, -, hpid⟩ := List.mem_flatMap.1 h
  obtain ⟨signal, hsignal, rfl⟩ := List.mem_map.1 hpid
  exact ⟨rfl, rfl, rfl, hsignal⟩

/-- Every signal that is new is in the log, with the process, the time and whether the process lived
when the step began. -/
theorem sends_mem {pid : ℕ} {signal : Signal}
    (h : signal ∈ (sigs s' pid).drop (sigs s pid).length) :
    (⟨pid, signal, t, live s pid, .supervisor⟩ : Sent) ∈ sends t s s' := by
  have hlt : pid < s'.procs.length := by
    by_contra hlt
    have hnil : sigs s' pid = [] := by
      unfold sigs
      rw [List.getElem?_eq_none (by omega)]
      rfl
    rw [hnil, List.drop_nil] at h
    exact absurd h List.not_mem_nil
  unfold sends
  exact List.mem_flatMap.2 ⟨pid, List.mem_range.2 hlt, List.mem_map.2 ⟨signal, h, rfl⟩⟩

/-- The entries of `fuser -k` are SIGKILLs at the time of the start and are marked as its own. -/
theorem mem_fuser_kills {pids : List ℕ} (h : x ∈ fuser_kills t s pids) :
    x.time = t ∧ x.signal = .SIGKILL ∧ x.origin = .fuser := by
  unfold fuser_kills at h
  obtain ⟨pid, -, rfl⟩ := List.mem_map.1 h
  exact ⟨rfl, rfl, rfl⟩

/-- A step that only spawns adds no entry to the log, as new processes begin without signals. -/
theorem Spawns.sends_eq {is : List ℕ} (h : Spawns is s s') (t : ℚ) : sends t s s' = [] := by
  rw [List.eq_nil_iff_forall_not_mem]
  intro x hx
  obtain ⟨-, -, -, hsignal⟩ := mem_sends hx
  rcases h.sigs x.pid with hsame | hsame <;> rw [hsame] at hsignal
  · rw [List.drop_nil] at hsignal
    exact absurd hsignal List.not_mem_nil
  · rw [List.drop_length] at hsignal
    exact absurd hsignal List.not_mem_nil

/-- The new signals are all the same, and to processes that were alive and held. -/
theorem Signals.mem_sends {sig : Signal} (h : Signals sig s s') (hx : x ∈ sends t s s') :
    x.signal = sig ∧ ∃ i, s.alive i = true ∧ Holds s i x.pid := by
  obtain ⟨-, -, -, hsignal⟩ := SigintFirst.mem_sends hx
  obtain ⟨n, hn, hheld⟩ := h.sent x.pid
  rw [hn, List.drop_left] at hsignal
  obtain ⟨hpos, heq⟩ := List.mem_replicate.1 hsignal
  exact ⟨heq, hheld (Nat.pos_of_ne_zero hpos)⟩

/-- The log up to now: what it says of when, that it leaves nothing out, and that the
supervisor's own signals come in order. -/
structure Logged (clock grace : ℚ) (s : Supervisor) (sent : List Sent) : Prop where
  times : ∀ x ∈ sent, x.time ≤ clock
  logged : ∀ (pid : ℕ) (signal : Signal), signal ∈ sigs s pid →
    ∃ x ∈ sent, x.pid = pid ∧ x.signal = signal
  backed : Backed (fun before x => x.origin = .supervisor → x.signal ≠ .SIGINT →
    Asked grace before x) sent

/-- The processes that a stop may still signal were sent SIGINT in time. -/
def Ripe (t grace : ℚ) (s : Supervisor) (sent : List Sent) : Prop :=
  ∀ i pid, s.alive i = true → Holds s i pid →
    ∃ y ∈ sent, y.pid = pid ∧ y.signal = .SIGINT ∧ y.time + grace ≤ t

/-- Entries that are not the supervisor's are nobody's concern here. -/
theorem Logged.others (h : Logged clock grace s sent) {log : List Sent}
    (htimes : ∀ x ∈ log, x.time ≤ clock) (horigin : ∀ x ∈ log, x.origin ≠ .supervisor) :
    Logged clock grace s (sent ++ log) where
  times x hx := (List.mem_append.1 hx).elim (h.times x) (htimes x)
  logged pid signal hmem := by
    obtain ⟨x, hx, hpid⟩ := h.logged pid signal hmem
    exact ⟨x, List.mem_append_left _ hx, hpid⟩
  backed := h.backed.append fun _ x hx hsup => absurd hsup (horigin x hx)

/-- The log stays in order while time passes, because its entries only have to lie in the past. -/
theorem Logged.later (h : Logged clock grace s sent) (ht : clock ≤ t) :
    Logged t grace s sent :=
  ⟨fun x hx => (h.times x hx).trans ht, h.logged, h.backed⟩

/-- What was not sent more is not missing in the log. -/
theorem Logged.fewer (h : Logged clock grace s sent)
    (hsigs : ∀ (pid : ℕ), ∀ signal ∈ sigs s' pid, signal ∈ sigs s pid) :
    Logged clock grace s' sent :=
  ⟨h.times, fun pid signal hmem => h.logged pid signal (hsigs pid signal hmem), h.backed⟩

/-- After spawning, a process has at most the signals it had, so an entry that was in the log covers
them. -/
theorem Spawns.fewer {is : List ℕ} (h : Spawns is s s') (pid : ℕ) :
    ∀ signal ∈ SigintFirst.sigs s' pid, signal ∈ SigintFirst.sigs s pid := by
  intro signal hmem
  rcases h.sigs pid with hsame | hsame <;> rw [hsame] at hmem
  · exact absurd hmem List.not_mem_nil
  · exact hmem

/-- One signal to whoever was held, which has to be due unless it is SIGINT. -/
theorem Logged.signals (h : Logged t grace s sent) {sig : Signal} (hsig : Signals sig s s')
    (hripe : sig ≠ .SIGINT → Ripe t grace s sent) :
    Logged t grace s' (sent ++ sends t s s') where
  times x hx := by
    rcases List.mem_append.1 hx with hx | hx
    · exact h.times x hx
    · exact (mem_sends hx).1.le
  logged pid signal hmem := by
    obtain ⟨n, hn, -⟩ := hsig.sent pid
    rw [hn] at hmem
    rcases List.mem_append.1 hmem with hold | hnew
    · obtain ⟨x, hx, hpid⟩ := h.logged pid signal hold
      exact ⟨x, List.mem_append_left _ hx, hpid⟩
    · have hdrop : signal ∈ (sigs s' pid).drop (sigs s pid).length := by
        rw [hn, List.drop_left]
        exact hnew
      exact ⟨_, List.mem_append_right _ (sends_mem hdrop), rfl, rfl⟩
  backed := by
    apply h.backed.append
    rintro before x hx - hne
    obtain ⟨htime, hlive, -, -⟩ := mem_sends hx
    obtain ⟨heq, i, halive, hholds⟩ := hsig.mem_sends hx
    obtain ⟨y, hy, hpid, hint, hgrace⟩ := hripe (heq ▸ hne) i x.pid halive hholds
    exact ⟨hlive.trans (live_of_holds halive hholds), y, List.mem_append_left _ hy, hpid, hint,
      htime ▸ hgrace⟩

/-- An act keeps the log, whichever it is and however much of it is done. -/
theorem Logged.does (h : Logged clock grace s sent) (hclock : clock ≤ a.now)
    (does : Does s a s') (hripe : a.due s → s.state = .STOPPING → Ripe a.now grace s sent) :
    Logged a.now grace s' (sent ++ a.sent s s') := by
  have hnow := h.later hclock
  have hfuser : Logged a.now grace s (sent ++ fuser_kills a.now s (a.freed s)) := by
    apply hnow.others
    · exact fun x hx => (mem_fuser_kills hx).1.le
    · intro x hx hsup
      rw [(mem_fuser_kills hx).2.2] at hsup
      exact absurd hsup (by decide)
  unfold Act.sent
  cases does with
  | spawns is _ _ hspawns =>
    rw [hspawns.sends_eq, List.append_nil]
    exact hfuser.fewer hspawns.fewer
  | asks e ha hstate hsig =>
    subst ha
    exact hnow.signals hsig fun hne => absurd rfl hne
  | forces sig hne hfreed hstate hdue hsig =>
    have hnil : fuser_kills a.now s (a.freed s) = [] := by
      rw [hfreed]
      rfl
    rw [hnil, List.nil_append]
    exact hnow.signals hsig fun _ => hripe hdue hstate

/-- SIGINT is sent by the stop of a running supervisor only, which is why every other act leaves the
order of the log alone. -/
theorem Does.no_sigint (does : Does s a s')
    (hstop : s.state = .RUNNING → ∀ e, a ≠ .request_stop e) :
    ∀ x ∈ a.sent s s', x.signal ≠ .SIGINT := by
  intro x hx
  unfold Act.sent at hx
  rcases List.mem_append.1 hx with hx | hx
  · rw [(mem_fuser_kills hx).2.1]
    decide
  · cases does with
    | spawns is _ _ hspawns =>
      rw [hspawns.sends_eq] at hx
      exact absurd hx List.not_mem_nil
    | asks e ha hrunning hsig => exact absurd ha (hstop hrunning e)
    | forces sig hne hfreed hstopping hdue hsig =>
      rw [(hsig.mem_sends hx).1]
      exact hne

end Log

/-! ## While a supervisor is stopping -/

/-- Whoever is left has been sent SIGINT, and the deadline leaves time for it. -/
structure Stopping (grace : ℚ) (s : Supervisor) (sent : List Sent) : Prop where
  asked : ∀ (i pid : ℕ), s.alive i = true → Holds s i pid → .SIGINT ∈ sigs s pid
  due : ∃ deadline, s.deadline = some deadline ∧
    ∀ x ∈ sent, x.signal = .SIGINT → x.time + grace ≤ deadline

/-- Nobody comes back, nothing is unsent, and the deadline only moves on. -/
structure Waits (s s' : Supervisor) : Prop where
  alive : ∀ i, s'.alive i = true → s.alive i = true
  holds : ∀ i pid, Holds s' i pid → Holds s i pid
  sigs : ∀ pid, ∀ signal ∈ sigs s pid, signal ∈ SigintFirst.sigs s' pid
  deadline : ∀ d, s.deadline = some d → ∃ d', s'.deadline = some d' ∧ d ≤ d'

section Stops

variable {s s' : Supervisor} {a : Act} {e : Beat} {cfg : LaunchCfg} {grace clock : ℚ}
  {sent new : List Sent}

/-- A supervisor that does nothing has not shortened the grace of anybody. -/
theorem Waits.refl (s : Supervisor) : Waits s s :=
  ⟨fun _ => id, fun _ _ => id, fun _ _ => id, fun d hd => ⟨d, hd, le_rfl⟩⟩

/-- A signal shortens nothing where the deadline is kept or moved on: those alive afterwards were
alive before. -/
theorem Delivers.waits {sig : Signal} (h : Delivers sig s s')
    (hdeadline : ∀ d, s.deadline = some d → ∃ d', s'.deadline = some d' ∧ d ≤ d') :
    Waits s s' where
  alive _ := Fades.alive_of h.toFades
  holds i _ := (holds_congr (h.handles i)).1
  sigs _ _ := h.mem_sigs
  deadline := hdeadline

/-- That everybody who is alive was asked in time survives a step that revives nobody and brings no
deadline nearer. -/
theorem Stopping.waits (h : Stopping grace s sent) (hwaits : Waits s s') :
    Stopping grace s' sent where
  asked i pid halive hholds :=
    hwaits.sigs pid _ (h.asked i pid (hwaits.alive i halive) (hwaits.holds i pid hholds))
  due := by
    obtain ⟨d, hd, hdue⟩ := h.due
    obtain ⟨d', hd', hle⟩ := hwaits.deadline d hd
    exact ⟨d', hd', fun x hx hint => (hdue x hx hint).trans hle⟩

/-- The log goes on without another SIGINT, so the one that everybody alive was sent remains the
last of its kind. -/
theorem Stopping.append (h : Stopping grace s sent) (hnew : ∀ x ∈ new, x.signal ≠ .SIGINT) :
    Stopping grace s (sent ++ new) where
  asked := h.asked
  due := by
    obtain ⟨d, hd, hdue⟩ := h.due
    refine ⟨d, hd, ?_⟩
    intro x hx hint
    rcases List.mem_append.1 hx with hx | hx
    · exact hdue x hx hint
    · exact absurd hint (hnew x hx)

/-- A stop has just been requested: every unit that is still alive was sent SIGINT by it, and the
deadline counts from the clock after that. -/
theorem request_stop_stopping (hlog : Logged e.now cfg.stop_grace_s
    (Factr.request_stop cfg e s) sent) (hstate : s.state = .RUNNING) :
    Stopping cfg.stop_grace_s (Factr.request_stop cfg e s) sent := by
  have htimes := hlog.times
  unfold Factr.request_stop
  rw [hstate]
  refine ⟨?_, e.now + cfg.stop_grace_s, rfl, ?_⟩
  · intro i pid halive hholds
    have hask := (Delivers.refl .SIGINT s).for_alive (e := e) (List.range s.units.length)
    have hi : i < s.units.length := by
      by_contra hge
      have hpid := (holds_congr (hask.handles i)).1 hholds
      unfold Holds at hpid
      rw [List.getElem?_eq_none (by omega)] at hpid
      exact absurd hpid (by simp)
    exact mem_sigs_for_alive (List.mem_range.2 hi) halive
      ((holds_congr (hask.handles i)).1 hholds)
  · intro x hx _
    have hx' := htimes x hx
    linarith

/-- Signalling a list of units touches neither the deadline nor the state, which `_tend_stopping`
sets by itself. -/
theorem send_all_keeps (sig : Signal) (is : List ℕ) (s : Supervisor) :
    (send_all sig is s).deadline = s.deadline ∧ (send_all sig is s).state = s.state := by
  induction is generalizing s with
  | nil => exact ⟨rfl, rfl⟩
  | cons i is ih =>
    have hsend : (s.send_signal sig i).deadline = s.deadline ∧
        (s.send_signal sig i).state = s.state := by
      unfold Supervisor.send_signal
      cases s.units[i]?.bind ServerUnit.proc <;> exact ⟨rfl, rfl⟩
    obtain ⟨hdeadline, hstate⟩ := ih (s.send_signal sig i)
    exact ⟨hdeadline.trans hsend.1, hstate.trans hsend.2⟩

/-- A `tend` ends a stop, when it finds nobody alive, or goes on with it and brings the deadline of
nobody nearer. -/
theorem tend_stopping_waits (hstate : s.state = .STOPPING) : Ensures (tend_stopping e) s
    fun _ s' => s'.state = .OFF ∨ s'.state = .STOPPING ∧ Waits s s' := by
  have hpoll := fun sig =>
    (Delivers.refl sig s).alive_units (e := e) (List.range s.units.length)
  have hdeadline := (@alive_units_spawns e (List.range s.units.length) s).2
  unfold tend_stopping
  simp only [ensures_bind, ensures_update, ensures_get]
  generalize alive_units e (List.range s.units.length) s = polled at *
  have hstopping : polled.2.state = .STOPPING := (hpoll .SIGINT).1.state.trans hstate
  have hwaits : Waits s polled.2 :=
    (hpoll .SIGINT).1.waits fun d hd => ⟨d, hdeadline.trans hd, le_rfl⟩
  split
  · exact .inl rfl
  split
  · exact .inr ⟨hstopping, hwaits⟩
  next deadline hsome =>
  split
  · exact .inr ⟨hstopping, hwaits⟩
  next hpast =>
  show (escalate e.now polled.1 polled.2).state = .OFF ∨
    (escalate e.now polled.1 polled.2).state = .STOPPING ∧
      Waits s (escalate e.now polled.1 polled.2)
  unfold escalate
  split
  · exact .inl rfl
  right
  have hbase : Delivers .SIGTERM s { polled.2 with
      terminated := true, deadline := some (e.now + TERM_GRACE_S) } :=
    { (hpoll .SIGTERM).1 with }
  obtain ⟨hkeep, hkeep'⟩ := send_all_keeps .SIGTERM polled.1
    { polled.2 with terminated := true, deadline := some (e.now + TERM_GRACE_S) }
  refine ⟨hkeep'.trans hstopping, (hbase.send_all (hpoll .SIGTERM).2).waits fun d hd => ?_⟩
  have hd' : d = deadline := Option.some.inj ((hdeadline.trans hd).symm.trans hsome)
  have hnow := not_lt.1 hpast
  refine ⟨e.now + TERM_GRACE_S, hkeep, ?_⟩
  unfold TERM_GRACE_S
  linarith

/-- Where an act leaves the supervisor. -/
inductive Moves (s : Supervisor) (a : Act) (r : Except Exc Unit) (s' : Supervisor) : Prop
  | same : s' = s → Moves s a r s'
  | counting (now : ℚ) : a = .request_start now → s.state = .OFF → s'.state = .COUNTDOWN →
      s'.procs = s.procs → Moves s a r s'
  | stopping (e : Beat) : a = .request_stop e → s.state = .RUNNING → Moves s a r s'
  | waiting : s.state = .STOPPING → s'.state = .STOPPING → Waits s s' → Moves s a r s'
  | settled : s'.state = .OFF ∨ s'.state = .RUNNING → Moves s a r s'
  | failed (e : Beat) (err : Exc) : a = .tend e → r = .error err → s'.state = .COUNTDOWN →
      Moves s a r s'

/-- A `tend` goes by the state it finds: spawning when a countdown is over, respawning while
running, escalating while stopping. -/
theorem tend_moves : Ensures (Factr.tend e) s (Moves s (.tend e)) := by
  unfold Factr.tend
  rw [ensures_get_bind]
  cases hstate : s.state with
  | OFF => exact .same rfl
  | STOPPING =>
    refine (tend_stopping_waits hstate).imp ?_
    rintro r s' (hoff | ⟨hstopping, hwaits⟩)
    · exact .settled (.inl hoff)
    · exact .waiting hstate hstopping hwaits
  | RUNNING =>
    exact (tend_running_spawns _).imp fun _ _ h => .settled (.inr (h.2.trans hstate))
  | COUNTDOWN =>
    cases s.deadline with
    | none => exact .same rfl
    | some deadline =>
      dsimp only
      split
      · refine spawn_all_spawns.imp ?_
        rintro r s' ⟨-, hrunning | ⟨hsame, err, herr⟩⟩
        · exact .settled (.inr hrunning)
        · exact .failed e err rfl herr (hsame.trans hstate)
      · exact .same rfl

/-- Every act moves the supervisor as its kind allows, whichever outcome its program has. -/
theorem program_moves (cfg : LaunchCfg) (s : Supervisor) (a : Act) :
    Ensures (a.program cfg) s (Moves s a) := by
  cases a with
  | request_start now =>
    show Moves s _ _ (Factr.request_start cfg now s)
    unfold Factr.request_start
    cases hstate : s.state with
    | OFF => exact .counting now rfl hstate rfl rfl
    | _ => exact .same rfl
  -- a launch succeeds as a whole, or it leaves the state as it was
  | start_now e =>
    show Ensures (Factr.start_now e) s _
    unfold Factr.start_now
    rw [ensures_get_bind]
    split
    · next hstate =>
      refine spawn_all_spawns.imp ?_
      rintro r s' ⟨-, hrunning | ⟨hsame, -⟩⟩
      · exact .settled (.inr hrunning)
      · exact .settled (.inl (hsame.trans hstate))
    · exact .same rfl
  -- while servers run SIGINT is sent; in a countdown there is nobody to send it to
  | request_stop e =>
    cases hstate : s.state with
    | RUNNING => exact .stopping e rfl hstate
    | COUNTDOWN =>
      refine .settled (.inl ?_)
      show (Factr.request_stop cfg e s).state = .OFF
      unfold Factr.request_stop
      rw [hstate]
      rfl
    | _ =>
      refine .same ?_
      show Factr.request_stop cfg e s = s
      unfold Factr.request_stop
      rw [hstate]
  | tend e => exact tend_moves
  | kill e =>
    show Moves s _ _ (kill_rest e s)
    unfold kill_rest
    split
    · exact .settled (.inl rfl)
    · exact .same rfl

end Stops

end DualFlexivControl.Factr.SigintFirst
