/-
SIGINT comes first: daemons, their successors, and the FACTR-Server processes.

Only SIGINT makes a teleop de-energise its servos. The supervisor sends it to every live unit,
sets a deadline `stop_grace_s` later, and goes on to SIGTERM and SIGKILL once the deadline has
passed; `shutdown` does the same and waits in between. It respawns nothing but the relay, so
that a teleop is spawned at most once for each explicit start.

A daemon that dies leaves its teleops behind. They carry its tag, and the orphan sweep of the
next daemon sends them SIGTERM. Whether they were ever sent SIGINT depends on what the dead
daemon was doing; likewise for `fuser -k`, should a teleop hold a port of the relay. So these
two are the condition of the main result, [`Guarded`].
-/
import DualFlexivControl.Factr.Acts
import DualFlexivControl.Processes.Orphans

set_option autoImplicit false

namespace DualFlexivControl.Factr.SigintFirst

open Effect ProgramOrder DualFlexivControl.Processes.Orphans

/-! ## Daemons -/

/-- Where a daemon is: in its loop, in `_teardown`, in `shutdown` with its cap, or gone. -/
inductive Phase where
  | serving
  | tearing_down
  | closing (cap : ℚ)
  | gone
  deriving DecidableEq

/-- A process's entry in the books: the explicit start it belongs to, and its number. -/
structure Birth where
  start : ℕ
  os_pid : ℕ
  deriving DecidableEq

/-- A daemon with its supervisor: the explicit starts so far, the books of the processes it has
spawned, the log of what they were sent, and what its orphan sweep has found. -/
structure Daemon where
  pid : ℕ
  cfg : LaunchCfg
  sup : Supervisor
  phase : Phase
  starts : ℕ
  births : List Birth
  sent : List Sent
  found : List ℕ

/-- A daemon that boots. -/
def Daemon.new (pid : ℕ) (cfg : LaunchCfg) (sides : List String) : Daemon :=
  ⟨pid, cfg, .init sides, .serving, 0, [], [], []⟩

/-- The loop takes commands and tends; `_teardown` requests a stop; `shutdown` tends while the
supervisor is stopping, and kills past its cap. -/
def Daemon.permits (d : Daemon) : Act → Prop
  | .request_start _ => d.phase = .serving
  | .start_now _ => d.phase = .serving
  | .request_stop _ => d.phase = .serving ∨ d.phase = .tearing_down
  | .tend _ => d.phase = .serving ∨ ∃ cap, d.phase = .closing cap ∧ d.sup.state = .STOPPING
  | .kill e => ∃ cap, d.phase = .closing cap ∧ cap ≤ e.now

/-- An exception of `tend` ends the loop, or the daemon. That of `start_now` is caught. -/
def Phase.next (phase : Phase) : Act → Except Exc Unit → Phase
  | .tend _, .error _ => if phase = .serving then .tearing_down else .gone
  | _, _ => phase

/-- The daemon after an act that leaves its supervisor in `s'`. -/
def Daemon.after (d : Daemon) (a : Act) (s' : Supervisor) (phase : Phase) (os_pids : List ℕ) :
    Daemon :=
  let starts := if a.is_start d.sup then d.starts + 1 else d.starts
  { d with
    sup := s'
    phase := phase
    starts := starts
    births := d.births ++ os_pids.map fun os_pid => ⟨starts, os_pid⟩
    sent := d.sent ++ a.sent d.sup s' }

/-- An act. -/
def Daemon.act (d : Daemon) (a : Act) (os_pids : List ℕ) : Daemon :=
  let out := exec (a.program d.cfg) d.sup
  d.after a out.2 (d.phase.next a out.1) os_pids

/-- An act that the daemon's death cuts short. -/
def Daemon.interrupted (d : Daemon) (a : Act) (k : ℕ) (os_pids : List ℕ) : Daemon :=
  d.after a (a.cut k d.sup) .gone os_pids

/-- `os.kill` of a process, past its supervisor. -/
def os_kill (signal : Signal) (pid : ℕ) (s : Supervisor) : Supervisor :=
  { s with
    procs := s.procs.modify pid fun p =>
      { p with signals := p.signals ++ [signal], alive := p.alive && signal ≠ .SIGKILL } }

/-- A signal of somebody's orphan sweep. -/
def Daemon.swept (d : Daemon) (now : ℚ) (pid : ℕ) (signal : Signal) : Daemon :=
  { d with
    sup := os_kill signal pid d.sup
    sent := d.sent ++ [⟨pid, signal, now, live d.sup pid, .sweep⟩] }

/-! ## Runs -/

/-- All daemons there have been, and the clock. -/
structure World where
  daemons : List Daemon
  clock : ℚ

/-- `pid_alive`: of a daemon, or of any other process. -/
def World.pid_alive (w : World) (others : ℕ → Bool) (pid : ℕ) : Bool :=
  pid != 0 && (others pid || w.daemons.any fun d => d.phase != .gone && d.pid == pid)

/-- What happens. -/
inductive Step (w : World) : World → Prop
  | boot (pid : ℕ) (cfg : LaunchCfg) (sides : List String) : 0 < pid →
      (∀ d ∈ w.daemons, d.phase ≠ .gone → d.pid ≠ pid) →
      Step w { w with daemons := w.daemons ++ [.new pid cfg sides] }
  | act (i : ℕ) (d : Daemon) (a : Act) (os_pids : List ℕ) : w.daemons[i]? = some d →
      d.permits a → w.clock ≤ a.now →
      d.sup.procs.length + os_pids.length = (d.act a os_pids).sup.procs.length →
      Step w ⟨w.daemons.set i (d.act a os_pids), a.now⟩
  | interrupt (i : ℕ) (d : Daemon) (a : Act) (k : ℕ) (os_pids : List ℕ) :
      w.daemons[i]? = some d → d.permits a → w.clock ≤ a.now → k ≤ d.sup.units.length →
      d.sup.procs.length + os_pids.length = (d.interrupted a k os_pids).sup.procs.length →
      Step w ⟨w.daemons.set i (d.interrupted a k os_pids), a.now⟩
  | tear_down (i : ℕ) (d : Daemon) : w.daemons[i]? = some d → d.phase = .serving →
      Step w { w with daemons := w.daemons.set i { d with phase := .tearing_down } }
  | shut_down (i : ℕ) (d : Daemon) (now : ℚ) : w.daemons[i]? = some d →
      d.phase = .tearing_down → d.sup.state = .STOPPING → w.clock ≤ now →
      Step w ⟨w.daemons.set i { d with
        phase := .closing (now + d.cfg.stop_grace_s + TERM_GRACE_S + SHUTDOWN_SLACK_S) }, now⟩
  | exit (i : ℕ) (d : Daemon) : w.daemons[i]? = some d →
      Step w { w with daemons := w.daemons.set i { d with phase := .gone } }
  | die (i : ℕ) (d : Daemon) (dead : List ℕ) : w.daemons[i]? = some d →
      Step w { w with daemons := w.daemons.set i { d with sup := d.sup.reap dead } }
  | begin_sweep (j : ℕ) (sweeper : Daemon) : w.daemons[j]? = some sweeper →
      sweeper.phase ≠ .gone →
      Step w { w with daemons := w.daemons.set j { sweeper with found := [] } }
  | scan (j : ℕ) (sweeper : Daemon) (i : ℕ) (d : Daemon) (pid : ℕ) (b : Birth)
      (cmdline : List String) (others : ℕ → Bool) : w.daemons[j]? = some sweeper →
      sweeper.phase ≠ .gone → w.daemons[i]? = some d → d.births[pid]? = some b →
      live d.sup pid = true →
      -- spawned with `os.environ` of its daemon, and so with its tag
      classify_orphan ⟨b.os_pid, some (toString d.pid), cmdline, []⟩ sweeper.pid
        (w.pid_alive others) = some (some .tagged) →
      Step w { w with
        daemons := w.daemons.set j { sweeper with found := b.os_pid :: sweeper.found } }
  | sweep (j : ℕ) (sweeper : Daemon) (i : ℕ) (d : Daemon) (pid : ℕ) (b : Birth) (signal : Signal)
      (now : ℚ) : w.daemons[j]? = some sweeper → sweeper.phase ≠ .gone →
      w.daemons[i]? = some d → d.births[pid]? = some b → b.os_pid ∈ sweeper.found →
      live d.sup pid = true → signal ≠ .SIGINT → w.clock ≤ now →
      Step w ⟨w.daemons.set i (d.swept now pid signal), now⟩

/-- The runs. -/
inductive Reaches : World → Prop
  | init (clock : ℚ) : Reaches ⟨[], clock⟩
  | step {w w' : World} : Reaches w → Step w w' → Reaches w'

/-! ## What is asked of them -/

/-- Leader processes are sent SIGTERM and SIGKILL only when SIGINT has had its time, and are
spawned again only by another explicit start. -/
structure StopsGently (w : World) : Prop where
  stop : ∀ d ∈ w.daemons, Backed (fun before x => Teleop d.sup x.pid → x.signal ≠ .SIGINT →
    Asked d.cfg.stop_grace_s before x) d.sent
  start : ∀ d ∈ w.daemons, ∀ (pid pid' : ℕ) (b b' : Birth), pid < pid' →
    unit_of d.sup pid = unit_of d.sup pid' → Teleop d.sup pid →
    d.births[pid]? = some b → d.births[pid']? = some b' → b.start < b'.start

/-- Wherever a sweep or `fuser -k` reaches a leader process, it had been sent SIGINT by then. -/
def Guarded (w : World) : Prop :=
  ∀ d ∈ w.daemons, Backed (fun before x => Teleop d.sup x.pid → x.signal ≠ .SIGINT →
    x.origin ≠ .supervisor → Asked d.cfg.stop_grace_s before x) d.sent

/-! ## The books -/

/-- The books are complete, no entry is ahead of its time, and two entries of a teleop are of
different starts. -/
structure Born (s : Supervisor) (starts : ℕ) (births : List Birth) : Prop where
  length : births.length = s.procs.length
  started : ∀ b ∈ births, b.start ≤ starts
  fresh : ∀ (pid pid' : ℕ) (b b' : Birth), pid < pid' → unit_of s pid = unit_of s pid' →
    Teleop s pid → births[pid]? = some b → births[pid']? = some b' → b.start < b'.start

section Books

variable {s s' : Supervisor} {a : Act} {starts starts' : ℕ} {births : List Birth}
  {us os_pids : List ℕ}

theorem unit_of_append (hunits : s'.procs.map Proc.unit = s.procs.map Proc.unit ++ us) {pid : ℕ}
    (hlt : pid < s.procs.length) : unit_of s' pid = unit_of s pid := by
  rw [unit_of_eq, unit_of_eq, hunits, List.getElem?_append_left (by rwa [List.length_map])]

theorem unit_of_new (hunits : s'.procs.map Proc.unit = s.procs.map Proc.unit ++ us) {pid : ℕ}
    (hge : s.procs.length ≤ pid) : unit_of s' pid = us[pid - s.procs.length]? := by
  rw [unit_of_eq, hunits, List.getElem?_append_right (by rwa [List.length_map]),
    List.length_map]

/-- No new processes: the births that are on record remain those of all processes, each for its own
unit. -/
theorem Born.same (h : Born s starts births)
    (hkinds : s'.units.map ServerUnit.kind = s.units.map ServerUnit.kind)
    (hunits : s'.procs.map Proc.unit = s.procs.map Proc.unit) : Born s' starts births where
  length := by
    have hlength := congrArg List.length hunits
    rw [List.length_map, List.length_map] at hlength
    exact h.length.trans hlength.symm
  started := h.started
  fresh pid pid' b b' hlt hsame hteleop := by
    have hunit : ∀ q, unit_of s' q = unit_of s q := fun q => by rw [unit_of_eq, unit_of_eq, hunits]
    obtain ⟨i, side, hi, hkind⟩ := hteleop
    rw [hunit] at hi
    rw [kind_of_congr hkinds] at hkind
    rw [hunit, hunit] at hsame
    exact h.fresh pid pid' b b' hlt hsame ⟨i, side, hi, hkind⟩

/-- New processes of units that are all different, and of no teleop of the same start. -/
theorem Born.grow (h : Born s starts births)
    (hkinds : s'.units.map ServerUnit.kind = s.units.map ServerUnit.kind)
    (hunits : s'.procs.map Proc.unit = s.procs.map Proc.unit ++ us) (hnodup : us.Nodup)
    (hle : starts ≤ starts')
    (hlaunch : ∀ i ∈ us, (∃ side, kind_of s i = some (.teleop side)) →
      ∀ b ∈ births, b.start < starts')
    (hos : os_pids.length = us.length) :
    Born s' starts' (births ++ os_pids.map fun os_pid => ⟨starts', os_pid⟩) where
  length := by
    have hlength := congrArg List.length hunits
    simp only [List.length_append, List.length_map] at hlength ⊢
    rw [h.length, hlength, hos]
  started b hb := by
    rcases List.mem_append.1 hb with hb | hb
    · exact (h.started b hb).trans hle
    · obtain ⟨os_pid, -, rfl⟩ := List.mem_map.1 hb
      exact le_rfl
  fresh pid pid' b b' hlt hsame hteleop hb hb' := by
    have hnew : ∀ {q : ℕ} {c : Birth}, births.length ≤ q →
        (births ++ os_pids.map fun os_pid => (⟨starts', os_pid⟩ : Birth))[q]? = some c →
        c.start = starts' := by
      intro q c hq hc
      rw [List.getElem?_append_right hq, List.getElem?_map] at hc
      obtain ⟨os_pid, -, rfl⟩ := Option.map_eq_some_iff.1 hc
      rfl
    obtain ⟨i, side, hi, hkind⟩ := hteleop
    rw [kind_of_congr hkinds] at hkind
    rcases Nat.lt_or_ge pid births.length with hold | hge
    · rw [List.getElem?_append_left hold] at hb
      have hunit := unit_of_append hunits (h.length ▸ hold)
      rcases Nat.lt_or_ge pid' births.length with hold' | hge'
      · -- both are old
        rw [List.getElem?_append_left hold'] at hb'
        have hunit' := unit_of_append hunits (h.length ▸ hold')
        rw [hunit, hunit'] at hsame
        exact h.fresh pid pid' b b' hlt hsame ⟨i, side, hunit ▸ hi, hkind⟩ hb hb'
      · -- the teleop is launched again
        rw [hnew hge' hb']
        rw [hsame, unit_of_new hunits (h.length ▸ hge')] at hi
        exact hlaunch i (List.mem_of_getElem? hi) ⟨side, hkind⟩ b (List.mem_of_getElem? hb)
    · -- one launch spawns no unit twice
      exfalso
      rw [h.length] at hge
      have hi' := hsame.symm.trans hi
      rw [unit_of_new hunits hge] at hi
      rw [unit_of_new hunits (by omega)] at hi'
      have heq := (List.getElem?_inj (List.getElem?_eq_some_iff.1 hi).1 hnodup).1
        (hi.trans hi'.symm)
      omega

/-- An act keeps the books: the processes it spawned are entered under the current start, and no
earlier start has one of a leader's units after them. -/
theorem Born.does (h : Born s starts births) (does : Does s a s') (hle : starts ≤ starts')
    (hlaunch : a.launches s → ∀ b ∈ births, b.start < starts')
    (hos : s.procs.length + os_pids.length = s'.procs.length) :
    Born s' starts' (births ++ os_pids.map fun os_pid => ⟨starts', os_pid⟩) := by
  have hsame : ∀ {sig : Signal}, Signals sig s s' →
      Born s' starts' (births ++ os_pids.map fun os_pid => ⟨starts', os_pid⟩) := by
    intro sig hsig
    have hlength := congrArg List.length hsig.units
    simp only [List.length_map] at hlength
    exact h.grow hsig.kinds (by rw [hsig.units, List.append_nil]) List.nodup_nil hle
      (fun i hi => absurd hi List.not_mem_nil) (by rw [List.length_nil]; omega)
  cases does with
  | spawns is hnodup hteleop hspawns =>
    obtain ⟨us, hsub, hunits⟩ := hspawns.units
    have hlength := congrArg List.length hunits
    simp only [List.length_append, List.length_map] at hlength
    exact h.grow hspawns.kinds hunits (hsub.nodup hnodup) hle
      (fun i hi hkind => hlaunch (hteleop i (hsub.subset hi) hkind)) (by omega)
  | asks e _ _ hsig => exact hsame hsig
  | forces sig _ _ _ _ hsig => exact hsame hsig

end Books

/-! ## The invariant of a daemon -/

/-- The log and the books are in order; a stop under way has its SIGINTs and its times; and a
countdown has not yet spawned anything. -/
structure Inv (clock : ℚ) (d : Daemon) : Prop where
  log : Logged clock d.cfg.stop_grace_s d.sup d.sent
  born : Born d.sup d.starts d.births
  stopping : d.phase ≠ .gone → d.sup.state = .STOPPING → Stopping d.cfg.stop_grace_s d.sup d.sent
  closing : ∀ cap, d.phase = .closing cap → ∀ x ∈ d.sent, x.signal = .SIGINT →
    x.time + d.cfg.stop_grace_s ≤ cap
  counting : d.phase = .serving → d.sup.state = .COUNTDOWN → ∀ b ∈ d.births, b.start < d.starts

section Daemons

variable {d : Daemon} {a : Act} {clock : ℚ} {s' : Supervisor} {phase : Phase}
  {os_pids : List ℕ}

theorem Inv.later {clock' : ℚ} (inv : Inv clock d) (h : clock ≤ clock') : Inv clock' d :=
  { inv with log := inv.log.later h }

/-- The dead do nothing. -/
theorem not_gone (hpermits : d.permits a) : d.phase ≠ .gone := by
  intro hgone
  cases a <;> simp [Daemon.permits, hgone] at hpermits

/-- When an act that is permitted is due, every process left was sent SIGINT in time. -/
theorem Inv.ripe (inv : Inv clock d) (hpermits : d.permits a) (hdue : a.due d.sup)
    (hstate : d.sup.state = .STOPPING) : Ripe a.now d.cfg.stop_grace_s d.sup d.sent := by
  have hstopping := inv.stopping (not_gone hpermits) hstate
  intro i pid halive hholds
  obtain ⟨x, hx, hpid, hint⟩ := inv.log.logged pid .SIGINT (hstopping.asked i pid halive hholds)
  refine ⟨x, hx, hpid, hint, ?_⟩
  cases a with
  | tend e =>
    obtain ⟨deadline, hdeadline, hnow⟩ := hdue
    obtain ⟨d', hd', htime⟩ := hstopping.due
    obtain rfl : d' = deadline := Option.some.inj (hd'.symm.trans hdeadline)
    exact (htime x hx hint).trans hnow
  | kill e =>
    obtain ⟨cap, hcap, hnow⟩ := hpermits
    exact (inv.closing cap hcap x hx hint).trans hnow
  | _ => exact absurd hdue id

/-- A launch is of a new start: everybody on record was born under an earlier one, whether the start
was asked for or its countdown ran out. -/
theorem Inv.launch (inv : Inv clock d) (hpermits : d.permits a) (hlaunch : a.launches d.sup) :
    ∀ b ∈ d.births, b.start < if a.is_start d.sup then d.starts + 1 else d.starts := by
  intro b hb
  have hle := inv.born.started b hb
  rcases hlaunch with hstart | ⟨hcountdown, e, rfl⟩
  · rw [if_pos hstart]
    omega
  · rcases hpermits with hserving | ⟨cap, -, hstopping⟩
    · exact inv.counting hserving hcountdown b hb
    · exact absurd (hcountdown.symm.trans hstopping) (by decide)

/-- Log and books after an act, or after a part of one. -/
theorem Inv.after (inv : Inv clock d) (hpermits : d.permits a) (hclock : clock ≤ a.now)
    (does : Does d.sup a s') (hos : d.sup.procs.length + os_pids.length = s'.procs.length) :
    Logged a.now d.cfg.stop_grace_s s' (d.after a s' phase os_pids).sent ∧
      Born s' (d.after a s' phase os_pids).starts (d.after a s' phase os_pids).births := by
  refine ⟨inv.log.does hclock does (inv.ripe hpermits), ?_⟩
  have hle : d.starts ≤ if a.is_start d.sup then d.starts + 1 else d.starts := by
    split <;> omega
  exact inv.born.does does hle (inv.launch hpermits) hos

/-- After an act the daemon is where it was, unless a `tend` has raised. -/
theorem next_eq {r : Except Exc Unit} (h : phase.next a r ≠ .gone)
    (h' : phase.next a r ≠ .tearing_down) : phase.next a r = phase := by
  unfold Phase.next at h h' ⊢
  split
  · next e err =>
    dsimp only at h h'
    split at h
    · next hserving =>
      rw [if_pos hserving] at h'
      exact absurd rfl h'
    · exact absurd rfl h
  · rfl

/-- A permitted act keeps the invariant: the log's order by what the act does, the births by whom it
spawns, and the stop by its state. -/
theorem Inv.act (inv : Inv clock d) (hpermits : d.permits a) (hclock : clock ≤ a.now)
    (hos : d.sup.procs.length + os_pids.length = (d.act a os_pids).sup.procs.length) :
    Inv a.now (d.act a os_pids) := by
  have does : Does d.sup a (d.act a os_pids).sup := program_does d.cfg a
  have moves : Moves d.sup a (exec (a.program d.cfg) d.sup).1 (d.act a os_pids).sup :=
    program_moves d.cfg d.sup a
  obtain ⟨hlog, hborn⟩ : Logged a.now d.cfg.stop_grace_s (d.act a os_pids).sup
      (d.act a os_pids).sent ∧ Born (d.act a os_pids).sup (d.act a os_pids).starts
      (d.act a os_pids).births := inv.after hpermits hclock does hos
  refine ⟨hlog, hborn, ?_, ?_, ?_⟩
  · -- whoever is stopping was sent SIGINT in this act, or stays in the wait it was in
    intro _ hstate
    have go_on : d.sup.state = .STOPPING → Waits d.sup (d.act a os_pids).sup →
        Stopping d.cfg.stop_grace_s (d.act a os_pids).sup (d.act a os_pids).sent := by
      intro hstopping hwaits
      apply ((inv.stopping (not_gone hpermits) hstopping).waits hwaits).append
      exact does.no_sigint fun hrunning => absurd (hstopping.symm.trans hrunning) (by decide)
    cases moves with
    | same heq => exact go_on (heq ▸ hstate) (heq ▸ .refl d.sup)
    | counting now _ _ hcountdown _ => exact absurd (hstate.symm.trans hcountdown) (by decide)
    | stopping e ha hrunning =>
      subst ha
      exact request_stop_stopping hlog hrunning
    | waiting hstopping _ hwaits => exact go_on hstopping hwaits
    | settled hsettled =>
      rcases hsettled with h | h <;> exact absurd (hstate.symm.trans h) (by decide)
    | failed e err _ _ hcountdown => exact absurd (hstate.symm.trans hcountdown) (by decide)
  · -- the loop of a shutdown sends no SIGINT, so all of them are older
    intro cap hcap x hx hint
    have hphase : d.phase = .closing cap := by
      have hnext : d.phase.next a (exec (a.program d.cfg) d.sup).1 = .closing cap := hcap
      have hsame := next_eq (by rw [hnext]; simp) (by rw [hnext]; simp)
      exact hsame.symm.trans hnext
    rcases List.mem_append.1 hx with hx | hx
    · exact inv.closing cap hphase x hx hint
    · -- `shutdown` itself sends SIGINT only before its loop
      have hno : ∀ e, a ≠ .request_stop e := by
        rintro e rfl
        simp [Daemon.permits, hphase] at hpermits
      exact absurd hint (does.no_sigint (fun _ => hno) x hx)
  · -- a countdown has spawned nothing yet, so every birth belongs to an earlier start
    intro hserving hcountdown
    have hnext : d.phase.next a (exec (a.program d.cfg) d.sup).1 = .serving := hserving
    have hphase : d.phase = .serving := by
      have hsame := next_eq (by rw [hnext]; simp) (by rw [hnext]; simp)
      exact hsame.symm.trans hnext
    have hborn_none : (d.act a os_pids).sup.procs = d.sup.procs →
        (d.act a os_pids).births = d.births := by
      intro hprocs
      rw [hprocs] at hos
      have hnil : os_pids = [] := List.eq_nil_of_length_eq_zero (by omega)
      rw [hnil]
      exact List.append_nil _
    cases moves with
    | same heq =>
      rw [heq] at hcountdown
      have hstart : a.is_start d.sup = false := by
        cases a <;> simp [Act.is_start, hcountdown]
      intro b hb
      rw [hborn_none (by rw [heq])] at hb
      have hlt := inv.counting hphase hcountdown b hb
      show b.start < if a.is_start d.sup then d.starts + 1 else d.starts
      rwa [hstart]
    | counting now ha hoff _ hprocs =>
      have hstart : a.is_start d.sup = true := by
        rw [ha]
        simp [Act.is_start, hoff]
      intro b hb
      rw [hborn_none hprocs] at hb
      have hle := inv.born.started b hb
      show b.start < if a.is_start d.sup then d.starts + 1 else d.starts
      rw [if_pos hstart]
      omega
    | stopping e ha hrunning =>
      subst ha
      have hstopping : (Factr.request_stop d.cfg e d.sup).state = .COUNTDOWN := hcountdown
      unfold Factr.request_stop at hstopping
      rw [hrunning] at hstopping
      exact absurd hstopping (by simp)
    | waiting _ hstopping _ => exact absurd (hcountdown.symm.trans hstopping) (by decide)
    | settled hsettled =>
      rcases hsettled with h | h <;> exact absurd (hcountdown.symm.trans h) (by decide)
    | failed e err ha herr _ =>
      rw [herr, ha] at hnext
      simp [Phase.next, hphase] at hnext

/-- An act that is cut short leaves log and books in order, and nobody to go on. -/
theorem Inv.interrupted {k : ℕ} (inv : Inv clock d) (hpermits : d.permits a)
    (hclock : clock ≤ a.now)
    (hos : d.sup.procs.length + os_pids.length = (d.interrupted a k os_pids).sup.procs.length) :
    Inv a.now (d.interrupted a k os_pids) := by
  obtain ⟨hlog, hborn⟩ : Logged a.now d.cfg.stop_grace_s (d.interrupted a k os_pids).sup
      (d.interrupted a k os_pids).sent ∧ Born (d.interrupted a k os_pids).sup
      (d.interrupted a k os_pids).starts (d.interrupted a k os_pids).births :=
    inv.after hpermits hclock (cut_does k a) hos
  refine ⟨hlog, hborn, fun hgone => absurd rfl hgone, fun cap hcap => ?_, fun hserving => ?_⟩
  · exact absurd hcap (by simp [Daemon.interrupted, Daemon.after])
  · exact absurd hserving (by simp [Daemon.interrupted, Daemon.after])

/-- Some processes die. -/
theorem Inv.die (inv : Inv clock d) (dead : List ℕ) :
    Inv clock { d with sup := d.sup.reap dead } := by
  have hreap := spawns_reap dead d.sup
  have hpoll := (Delivers.refl .SIGINT d.sup).reap dead
  refine ⟨inv.log.fewer hreap.fewer, inv.born.same hreap.kinds hpoll.units, ?_, inv.closing,
    inv.counting⟩
  intro hgone hstate
  exact (inv.stopping hgone hstate).waits (hpoll.waits fun d' hd' => ⟨d', hd', le_rfl⟩)

section Sweeps

variable {s : Supervisor} {signal : Signal} {pid : ℕ}

theorem fades_os_kill (signal : Signal) (pid : ℕ) (s : Supervisor) :
    Fades s (os_kill signal pid s) where
  handles _ := rfl
  state := rfl
  marks q := by
    unfold os_kill
    rw [List.getElem?_modify, Option.map_eq_map, Option.map_map]
    congr 1
    funext p
    by_cases hq : pid = q <;> simp [hq]
  alive q p p' hp hp' halive := by
    unfold os_kill at hp'
    rw [List.getElem?_modify, hp, Option.map_eq_map, Option.map_some, Option.some.injEq] at hp'
    by_cases hq : pid = q
    · simp only [hq, if_true] at hp'
      rw [← hp'] at halive
      exact (Bool.and_eq_true_iff.mp halive).1
    · simpa [← hp', hq] using halive

/-- A signal from outside reaches one process, which has then been sent one signal more, or none if
it is not there. -/
theorem sigs_os_kill (q : ℕ) : sigs (os_kill signal pid s) q = sigs s q ∨
    q = pid ∧ sigs (os_kill signal pid s) q = sigs s q ++ [signal] := by
  unfold sigs os_kill
  rw [List.getElem?_modify, Option.map_eq_map, Option.map_map]
  cases s.procs[q]? with
  | none => exact .inl rfl
  | some p =>
    by_cases hq : pid = q
    · exact .inr ⟨hq.symm, by simp [hq]⟩
    · exact .inl (by simp [hq])

/-- A sweep's signal is not the supervisor's: it is logged as the sweep's own and changes neither
state nor births. -/
theorem Inv.swept {now : ℚ} (inv : Inv clock d) (hsignal : signal ≠ .SIGINT)
    (hnow : clock ≤ now) : Inv now (d.swept now pid signal) := by
  -- one signal from outside, to one process, and never SIGINT
  have hfades := fades_os_kill signal pid d.sup
  have hnew : ∀ x ∈ [(⟨pid, signal, now, live d.sup pid, .sweep⟩ : Sent)],
      x.time = now ∧ x.signal = signal ∧ x.origin = .sweep := by
    intro x hx
    rw [List.mem_singleton.1 hx]
    exact ⟨rfl, rfl, rfl⟩
  have hlog := (inv.log.later hnow).others (fun x hx => (hnew x hx).1.le)
    fun x hx => by rw [(hnew x hx).2.2]; decide
  have hborn : Born (os_kill signal pid d.sup) d.starts d.births :=
    inv.born.same rfl (fades_units hfades)
  refine ⟨⟨hlog.times, ?_, hlog.backed⟩, hborn, ?_, ?_, inv.counting⟩
  · intro q sig hmem
    have hq := @sigs_os_kill d.sup signal pid q
    rcases hq with hsame | ⟨rfl, happend⟩
    · exact hlog.logged q sig (hsame ▸ hmem)
    · have hmem' : sig ∈ sigs d.sup q ++ [signal] := happend ▸ hmem
      rcases List.mem_append.1 hmem' with hold | hlast
      · exact hlog.logged q sig hold
      · rw [List.mem_singleton.1 hlast]
        exact ⟨_, List.mem_append_right _ List.mem_cons_self, rfl, rfl⟩
  · intro hgone hstate
    have hwaits : Waits d.sup (os_kill signal pid d.sup) := by
      refine ⟨fun i => Fades.alive_of hfades, fun i q => (holds_congr (hfades.handles i)).1, ?_,
        fun d' hd' => ⟨d', hd', le_rfl⟩⟩
      intro q sig hmem
      rcases @sigs_os_kill d.sup signal pid q with hsame | ⟨-, happend⟩
      · rwa [hsame]
      · rw [happend]
        exact List.mem_append_left _ hmem
    apply ((inv.stopping hgone hstate).waits hwaits).append
    intro x hx
    rw [(hnew x hx).2.1]
    exact hsignal
  · intro cap hcap x hx hint
    rcases List.mem_append.1 hx with hx | hx
    · exact inv.closing cap hcap x hx hint
    · rw [(hnew x hx).2.1] at hint
      exact absurd hint hsignal

end Sweeps

/-- A daemon that boots has nothing to account for: no process, no signal, no start. -/
theorem Inv.new (pid : ℕ) (cfg : LaunchCfg) (sides : List String) :
    Inv clock (.new pid cfg sides) := by
  have hnil : ∀ q, sigs (Supervisor.init sides) q = [] := by
    intro q
    unfold sigs Supervisor.init
    rw [List.getElem?_nil]
    rfl
  refine ⟨⟨?_, ?_, backed_nil⟩, ⟨rfl, ?_, ?_⟩, ?_, ?_, ?_⟩
  · exact fun x hx => absurd hx List.not_mem_nil
  · intro q signal hmem
    have hmem' : signal ∈ sigs (Supervisor.init sides) q := hmem
    rw [hnil] at hmem'
    exact absurd hmem' List.not_mem_nil
  · exact fun b hb => absurd hb List.not_mem_nil
  · intro q q' b b' _ _ _ hb _
    exact absurd (List.mem_of_getElem? hb) List.not_mem_nil
  · exact fun _ hstate => absurd hstate (by simp [Daemon.new, Supervisor.init])
  · exact fun cap hcap => absurd hcap (by simp [Daemon.new])
  · exact fun _ hstate => absurd hstate (by simp [Daemon.new, Supervisor.init])

end Daemons

/-! ## The run -/

section Run

variable {w w' : World}

/-- One daemon changes, and the clock moves on. -/
theorem inv_set {clock : ℚ} {i : ℕ} {d' : Daemon} (inv : ∀ d ∈ w.daemons, Inv w.clock d)
    (hclock : w.clock ≤ clock) (h : Inv clock d') :
    ∀ d ∈ w.daemons.set i d', Inv clock d := by
  intro d hd
  rcases List.mem_or_eq_of_mem_set hd with hd | rfl
  · exact (inv d hd).later hclock
  · exact h

theorem Step.inv (step : Step w w') (inv : ∀ d ∈ w.daemons, Inv w.clock d) :
    ∀ d ∈ w'.daemons, Inv w'.clock d := by
  have at' : ∀ {i : ℕ} {d : Daemon}, w.daemons[i]? = some d → Inv w.clock d :=
    fun hd => inv _ (List.mem_of_getElem? hd)
  cases step with
  -- a new daemon has done nothing, and the others stay
  | boot pid cfg sides _ _ =>
    intro d hd
    rcases List.mem_append.1 hd with hd | hd
    · exact inv d hd
    · rw [List.mem_singleton.1 hd]
      exact .new pid cfg sides
  | act i d a os_pids hd hpermits hclock hos =>
    exact inv_set inv hclock ((at' hd).act hpermits hclock hos)
  | interrupt i d a k os_pids hd hpermits hclock _ hos =>
    exact inv_set inv hclock ((at' hd).interrupted hpermits hclock hos)
  -- the teardown asks the supervisor to stop, and it is not counting any more
  | tear_down i d hd hserving =>
    apply inv_set inv le_rfl
    have h := at' hd
    refine ⟨h.log, h.born, fun _ => h.stopping (by simp [hserving]), fun cap hcap => ?_,
      fun hphase => ?_⟩
    · exact absurd hcap (by simp)
    · exact absurd hphase (by simp)
  -- the cap of the loop is at least one grace after anything sent so far
  | shut_down i d now hd htearing hstate hclock =>
    apply inv_set inv hclock
    have h := (at' hd).later hclock
    refine ⟨h.log, h.born, fun _ => h.stopping (by simp [htearing]), ?_, fun hphase => ?_⟩
    · rintro cap hcap x hx -
      obtain rfl := Phase.closing.inj hcap
      have htime := h.log.times x hx
      show x.time + d.cfg.stop_grace_s ≤ _
      unfold TERM_GRACE_S SHUTDOWN_SLACK_S
      linarith
    · exact absurd hphase (by simp)
  | exit i d hd =>
    apply inv_set inv le_rfl
    have h := at' hd
    refine ⟨h.log, h.born, fun hgone => absurd rfl hgone, fun cap hcap => ?_, fun hphase => ?_⟩
    · exact absurd hcap (by simp)
    · exact absurd hphase (by simp)
  | die i d dead hd => exact inv_set inv le_rfl ((at' hd).die dead)
  | begin_sweep j sweeper hd _ => exact inv_set inv le_rfl { at' hd with }
  | scan j sweeper i d pid b cmdline others hd _ _ _ _ _ =>
    exact inv_set inv le_rfl { at' hd with }
  | sweep j sweeper i d pid b signal now _ _ hd _ _ _ hsignal hclock =>
    exact inv_set inv hclock ((at' hd).swept hsignal hclock)

theorem Reaches.inv (run : Reaches w) : ∀ d ∈ w.daemons, Inv w.clock d := by
  induction run with
  | init clock => exact fun d hd => absurd hd List.not_mem_nil
  | step _ step ih => exact step.inv ih

/-- Over every run of any daemons: leader processes are stopped by SIGINT first, with its time,
and spawned again only by another explicit start, if and only if no orphan sweep and no
`fuser -k` ever signals one that had not been sent SIGINT that long before. -/
theorem sigint_first_iff (run : Reaches w) : StopsGently w ↔ Guarded w := by
  have inv := run.inv
  constructor
  · intro h d hd
    exact (h.stop d hd).imp fun before x hx hteleop hne _ => hx hteleop hne
  · intro guard
    refine ⟨?_, ?_⟩
    · intro d hd before x after hsplit hteleop hne
      by_cases horigin : x.origin = .supervisor
      · exact (inv d hd).log.backed before x after hsplit horigin hne
      · exact guard d hd before x after hsplit hteleop hne horigin
    · exact fun d hd => (inv d hd).born.fresh

end Run

/-! ## Two daemons -/

/-- A supervisor of the left leader, launched by the boot of its daemon. -/
def booted : Daemon :=
  (Daemon.new 10 ⟨25, 10⟩ ["left"]).act (.start_now (quiet_beat fun _ => .spawned)) [11, 12]

/-- The next daemon. -/
def successor : Daemon := .new 20 ⟨25, 10⟩ ["left"]

/-- A beat at which nothing happens but the clock. -/
def beat_at (now : ℚ) : Beat := ⟨now, fun _ => [], ([], .ok ()), fun _ => .spawned, fun _ => now⟩

theorem booted_reaches : Reaches ⟨[booted], 0⟩ := by
  have h0 := (Reaches.init 0).step (.boot 10 ⟨25, 10⟩ ["left"] (by decide)
    fun d hd => absurd hd List.not_mem_nil)
  exact h0.step (.act 0 _ (.start_now (quiet_beat fun _ => .spawned)) [11, 12] rfl rfl le_rfl
    (by decide))

/-- The daemon dies, the next one boots, and its sweep sends the left teleop SIGTERM. -/
theorem orphan_swept {d : Daemon} {clock now : ℚ} (run : Reaches ⟨[d], clock⟩) (hpid : d.pid = 10)
    (hbirth : d.births[0]? = some ⟨1, 11⟩) (hlive : live d.sup 0 = true) (hnow : clock ≤ now) :
    Reaches ⟨[Daemon.swept { d with phase := .gone } now 0 .SIGTERM,
      { successor with found := [11] }], now⟩ := by
  have hexit := run.step (.exit 0 d rfl)
  have hboot := hexit.step (.boot 20 ⟨25, 10⟩ ["left"] (by decide) fun d' hd' hgone =>
    absurd (by rw [List.mem_singleton.1 hd']) hgone)
  have horphan : classify_orphan ⟨11, some (toString d.pid), [], []⟩ successor.pid
      (World.pid_alive ⟨[{ d with phase := .gone }, successor], clock⟩ fun _ => false) =
        some (some .tagged) := by
    rw [hpid]
    rfl
  have hscan := hboot.step (.scan 1 successor 0 { d with phase := .gone } 0 ⟨1, 11⟩ []
    (fun _ => false) rfl (by decide) rfl hbirth hlive horphan)
  exact hscan.step (.sweep 1 { successor with found := [11] } 0 { d with phase := .gone } 0 ⟨1, 11⟩
    .SIGTERM now rfl (by simp [successor, Daemon.new]) rfl hbirth List.mem_cons_self hlive
    (by decide) hnow)

/-- The same daemon after a stop that the left teleop and the relay sit out. -/
def stopped : Daemon :=
  (booted.act (.request_stop (beat_at 5)) []).act (.tend (beat_at 16)) []

theorem stopped_reaches : Reaches ⟨[stopped], 16⟩ := by
  have h1 := booted_reaches.step (.act 0 booted (.request_stop (beat_at 5)) [] rfl
    (.inl rfl) (by decide) (by decide))
  exact h1.step (.act 0 _ (.tend (beat_at 16)) [] rfl (.inl rfl) (by decide) (by decide +kernel))

/-- A teleop that has sat out its SIGINT may be swept: the sweep's signals come after the grace, so
the law is kept. -/
theorem stopped_swept_gently : StopsGently ⟨[Daemon.swept { stopped with phase := .gone } 20 0
    .SIGTERM, { successor with found := [11] }], 20⟩ := by
  have hlive : live stopped.sup 0 = true := by decide +kernel
  refine (sigint_first_iff (orphan_swept stopped_reaches rfl rfl hlive (by decide))).2 ?_
  intro d hd
  rcases List.mem_cons.1 hd with rfl | hd
  · have hsent : stopped.sent = [⟨0, .SIGINT, 5, true, .supervisor⟩,
        ⟨1, .SIGINT, 5, true, .supervisor⟩, ⟨0, .SIGTERM, 16, true, .supervisor⟩,
        ⟨1, .SIGTERM, 16, true, .supervisor⟩] := by decide +kernel
    have hown : ∀ x ∈ stopped.sent, x.origin = .supervisor := by
      rw [hsent]
      decide
    show Backed _ (stopped.sent ++ [⟨0, .SIGTERM, 20, live stopped.sup 0, .sweep⟩])
    apply Backed.append
    · intro before x after hsplit _ _ horigin
      exact absurd (hown x (hsplit ▸ List.mem_append_right _ List.mem_cons_self)) horigin
    · intro before x hx _ _ _
      rw [List.mem_singleton.1 hx]
      refine ⟨hlive, ⟨0, .SIGINT, 5, true, .supervisor⟩, ?_, rfl, rfl, by decide +kernel⟩
      rw [hsent]
      exact List.mem_append_left _ List.mem_cons_self
  · rw [List.mem_singleton.1 hd]
    exact backed_nil

/-- A teleop that was never sent SIGINT is swept as well. -/
theorem booted_swept_roughly :
    ¬ ∀ w : World, Reaches w → StopsGently w := by
  intro claim
  have h := claim _ (orphan_swept booted_reaches rfl rfl rfl (by decide : (0 : ℚ) ≤ 1))
  obtain ⟨-, y, hy, -⟩ := h.stop _ List.mem_cons_self [] ⟨0, .SIGTERM, 1, true, .sweep⟩ [] rfl
    ⟨0, "left", rfl, rfl⟩ (by decide)
  exact absurd hy List.not_mem_nil

end DualFlexivControl.Factr.SigintFirst
