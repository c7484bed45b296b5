/-
The orphan sweep of `orphans.py`, on a machine where supervisors and dashboards come and go.

A supervisor stamps its process number into the environment its children are spawned with. A
sweep signals the processes whose stamp names no live process and, at boot, those without a
stamp that look like spawn children and map only segments of dead supervisors; then it reclaims
the segments and run directories whose names carry a dead process number. It takes its time:
between any two of its steps the rest of the machine goes on, and a process number may pass on.

The stamp is proof, and so are the names. The look of a process is not: the viewer of a live
dashboard has no stamp, is a spawn child, and goes on mapping what it was reading when the
supervisor of that run died ([`Guarded`]).
-/
import DualFlexivControl.Processes.RunNames
import Mathlib.Data.List.Basic
import Mathlib.Data.List.Dedup
import Mathlib.Data.List.Perm.Basic
import Mathlib.Data.List.Sort

set_option autoImplicit false

namespace DualFlexivControl.Processes.Orphans

open DualFlexivControl.Streams

/-! ## Classification -/

/-- Why a process is an orphan. -/
inductive Reason where
  | tagged
  | legacy
  deriving DecidableEq, Repr

/-- `ProcRecord`. -/
structure ProcRecord where
  pid : ℕ
  tag : Option String
  cmdline : List String
  mapped_creators : List ℕ
  deriving DecidableEq, Repr

/-- `s in arg`. -/
def contains (s : List Char) : List Char → Bool
  | [] => s.isPrefixOf []
  | c :: cs => s.isPrefixOf (c :: cs) || contains s cs

/-- An mp `spawn_main` child, by its command line. -/
def spawn_main (cmdline : List String) : Bool :=
  cmdline.any fun arg => contains "spawn_main".toList arg.toList

/-- `classify_orphan`; `none` is the `ValueError` of a tag that `int` cannot read. -/
def classify_orphan (record : ProcRecord) (self_pid : ℕ) (alive : ℕ → Bool) :
    Option (Option Reason) :=
  if record.pid = self_pid then some none
  else match record.tag with
    | some tag =>
      if isdigit tag = false then some none
      else (int tag).map fun supervisor => if alive supervisor then none else some .tagged
    | none =>
      if spawn_main record.cmdline = false then some none
      else if record.mapped_creators = [] then some none
      else if record.mapped_creators.any alive then some none
      else some (some .legacy)

/-! ## The machine -/

/-- What a process is. Only daemons and one-shot runs are supervisors. -/
inductive Role where
  | daemon
  | oneshot
  | dashboard
  | child
  | other
  deriving DecidableEq, Repr

/-- Tags its environment, and sweeps or creates runs. -/
def Role.supervisor : Role → Bool
  | .daemon => true
  | .oneshot => true
  | _ => false

/-- A process: who spawned it (nobody here, for one started from a terminal), the tag it was
executed with and the one it passes on, its command line and the segments it maps. -/
structure Proc where
  pid : ℕ
  user : ℕ
  role : Role
  parent : Option ℕ
  environ : Option String
  env : Option String
  cmdline : List String
  mapped : List String
  alive : Bool
  deriving DecidableEq, Repr

/-- A run: its supervisor, and what `make_run_id` made of it. -/
structure Run where
  creator : ℕ
  pid : ℕ
  uuid : Hex8
  runtime_dir : String

def Run.run_id (r : Run) : String := make_run_id r.pid r.uuid

/-- A stream of a run: a segment, or the manifest that names it. -/
structure Published where
  run : Run
  stream : String

/-- Its segment's name, also after another run's segment has taken it. -/
def Published.shm_name (s : Published) : String := shm_name_for s.run.run_id s.stream

/-- What a sweep has found: the record, why, and which process it was read of. -/
structure Found where
  record : ProcRecord
  reason : Reason
  process : ℕ
  deriving DecidableEq, Repr

/-- How far a sweep is. -/
inductive Stage where
  | scan (entries : List ℕ) (orphans : List Found)
  | term (todo killed : List Found)
  | wait (remaining : List Found)
  | kill (remaining : List Found)
  | shm (names : List String)
  | run_dirs (entries : List String)
  | done
  deriving DecidableEq, Repr

/-- `sweep`, called by a daemon. -/
structure Sweep where
  caller : ℕ
  runtime_dir : String
  keep_run_ids : List String
  include_legacy : Bool
  stage : Stage
  deriving DecidableEq, Repr

/-- The processes ever started, the runs ever created, what is in `/dev/shm` and in the runtime
directories, and the sweeps. -/
structure Machine where
  procs : List Proc
  runs : List Run
  segments : List Published
  run_dirs : List Run
  manifests : List Published
  sweeps : List Sweep

/-- Before the first process. -/
def Machine.init : Machine := ⟨[], [], [], [], [], []⟩

namespace Machine

variable (m : Machine)

/-- Is this process alive? -/
def alive_at (i : ℕ) : Bool :=
  match m.procs[i]? with
  | some p => p.alive
  | none => false

/-- Is the one that spawned it? A terminal is taken to be. -/
def parent_alive (i : ℕ) : Bool :=
  match m.procs[i]? with
  | some p =>
    match p.parent with
    | some s => m.alive_at s
    | none => true
  | none => false

/-- `pid_alive`. -/
def pid_alive (pid : ℕ) : Bool := pid != 0 && m.procs.any fun p => p.alive && p.pid == pid

/-- The live process with this number. -/
def lookup (pid : ℕ) : Option ℕ := m.procs.findIdx? fun p => p.alive && p.pid == pid

/-- The creators of the segments in a memory map, each once. -/
def creators (mapped : List String) : List ℕ :=
  ((mapped.filterMap shm_re).map Groups.pid).dedup.insertionSort (· ≤ ·)

/-- `_read_proc_record`, of a process of the same user; and which process that is. -/
def read_proc_record (caller pid : ℕ) : Option (ℕ × ProcRecord) := do
  let q ← m.lookup pid
  let p ← m.procs[q]?
  let c ← m.procs[caller]?
  if p.user = c.user then some (q, ⟨pid, p.environ, p.cmdline, creators p.mapped⟩) else none

/-- `os.kill(pid, …)`: the process it reaches, if there is one that may be signalled. -/
def kill (caller pid : ℕ) : Option ℕ := do
  let q ← m.lookup pid
  let p ← m.procs[q]?
  let c ← m.procs[caller]?
  if p.user = c.user ∨ c.user = 0 then some q else none

/-- A process changes. -/
def set (i : ℕ) (p : Proc) : Machine := { m with procs := m.procs.set i p }

/-- `unlink`, by name. -/
def unlink (names : List String) : Machine :=
  { m with segments := m.segments.filter fun s => !names.contains s.shm_name }

/-- The manifests in a run directory. -/
def manifests_in (runtime_dir run_id : String) : List Published :=
  m.manifests.filter fun s => s.run.runtime_dir == runtime_dir && s.run.run_id == run_id

/-- `cleanup_run`: the segments the manifests name, and the directory. -/
def cleanup_run (runtime_dir run_id : String) : Machine :=
  { m.unlink ((m.manifests_in runtime_dir run_id).map Published.shm_name) with
    run_dirs := m.run_dirs.filter fun r => !(r.runtime_dir == runtime_dir && r.run_id == run_id)
    manifests := m.manifests.filter fun s =>
      !(s.run.runtime_dir == runtime_dir && s.run.run_id == run_id) }

end Machine

/-! ## The sweep -/

/-- What a step does that concerns others. -/
inductive Event where
  | silent
  | scan (sw : Sweep) (q : ℕ)
  | signal (sw : Sweep) (f : Found) (q : ℕ)
  | unlink (sw : Sweep) (name : String)
  | cleanup (sw : Sweep) (run_id : String)

/-- What it does to shared memory and the runtime directories. -/
def Machine.apply (m : Machine) : Event → Machine
  | .unlink _ name => m.unlink [name]
  | .cleanup sw run_id => m.cleanup_run sw.runtime_dir run_id
  | _ => m

namespace Sweep

variable (sw : Sweep) (m : Machine)

/-- `os.getpid()`. -/
def self_pid : ℕ :=
  match m.procs[sw.caller]? with
  | some p => p.pid
  | none => 0

/-- What `find_orphans` makes of a classification; an exception ends the sweep. -/
def add (entries : List ℕ) (orphans : List Found) (record : ProcRecord) (q : ℕ) :
    Option (Option Reason) → Stage
  | none => .done
  | some none => .scan entries orphans
  | some (some reason) =>
    if reason = .legacy ∧ sw.include_legacy = false then .scan entries orphans
    else .scan entries (orphans ++ [⟨record, reason, q⟩])

/-- One entry of `/proc` in `find_orphans`. -/
def scan (pid : ℕ) (entries : List ℕ) (orphans : List Found) : Event × Stage :=
  match m.read_proc_record sw.caller pid with
  | none => (.silent, .scan entries orphans)
  | some (q, record) =>
    (.scan sw q, sw.add entries orphans record q
      (classify_orphan record (sw.self_pid m) m.pid_alive))

/-- One signal of `kill_orphans`. -/
def signal (f : Found) : Event :=
  match m.kill sw.caller f.record.pid with
  | some q => .signal sw f q
  | none => .silent

/-- Who is waited for after a SIGTERM: those it got through to. -/
def killed (f : Found) (killed : List Found) : List Found :=
  if (m.kill sw.caller f.record.pid).isSome then killed ++ [f] else killed

/-- One name of `sweep_stale_shm`. -/
def unlink (name : String) : Event :=
  match shm_re name with
  | some g =>
    if g.run_id ∈ sw.keep_run_ids ∨ m.pid_alive g.pid = true then .silent
    else .unlink sw name
  | none => .silent

/-- One entry of `sweep_stale_run_dirs`. -/
def cleanup (entry : String) : Event :=
  match run_dir_re entry with
  | some g =>
    if entry ∈ sw.keep_run_ids ∨ m.pid_alive g.pid = true then .silent
    else if (m.run_dirs.any fun r => r.runtime_dir == sw.runtime_dir && r.run_id == entry) = true
    then .cleanup sw entry
    else .silent
  | none => .silent

end Sweep

/-- One step of a sweep. Directories list their entries in any order, the grace may be over at
any time, the unlinking of a segment may be denied, and an exception ends the sweep. -/
inductive Advance (m : Machine) (sw : Sweep) : Event → Stage → Prop
  | scan (pid : ℕ) (entries : List ℕ) (orphans : List Found) :
      sw.stage = .scan (pid :: entries) orphans →
      Advance m sw (sw.scan m pid entries orphans).1 (sw.scan m pid entries orphans).2
  | scanned (orphans : List Found) : sw.stage = .scan [] orphans →
      Advance m sw .silent (.term orphans [])
  | term (f : Found) (todo killed : List Found) : sw.stage = .term (f :: todo) killed →
      Advance m sw (sw.signal m f) (.term todo (sw.killed m f killed))
  | termed (killed : List Found) : sw.stage = .term [] killed →
      Advance m sw .silent (.wait killed)
  | poll (remaining : List Found) : sw.stage = .wait remaining →
      Advance m sw .silent (.wait (remaining.filter fun f => m.pid_alive f.record.pid))
  | waited (remaining : List Found) : sw.stage = .wait remaining →
      Advance m sw .silent (.kill remaining)
  | kill (f : Found) (remaining : List Found) : sw.stage = .kill (f :: remaining) →
      Advance m sw (sw.signal m f) (.kill remaining)
  | killed (names : List String) : sw.stage = .kill [] →
      names.Perm (m.segments.map Published.shm_name) → Advance m sw .silent (.shm names)
  | unlink (name : String) (names : List String) : sw.stage = .shm (name :: names) →
      Advance m sw (sw.unlink m name) (.shm names)
  | denied (name : String) (names : List String) : sw.stage = .shm (name :: names) →
      Advance m sw .silent (.shm names)
  | unlinked (entries : List String) : sw.stage = .shm [] →
      entries.Perm ((m.run_dirs.filter fun r => r.runtime_dir == sw.runtime_dir).map Run.run_id) →
      Advance m sw .silent (.run_dirs entries)
  | cleanup (entry : String) (entries : List String) : sw.stage = .run_dirs (entry :: entries) →
      Advance m sw (sw.cleanup m entry) (.run_dirs entries)
  | finished : sw.stage = .run_dirs [] → Advance m sw .silent .done
  | failed : Advance m sw .silent .done

/-! ## Runs of the machine -/

/-- Supervisors spawn children once they are tagged; a dashboard spawns viewers and daemons. -/
def Proc.spawns (p : Proc) (role : Role) : Prop :=
  p.role.supervisor = true ∧ p.env ≠ none ∧ role = .child ∨
    p.role = .dashboard ∧ (role = .child ∨ role = .daemon)

/-- A supervisor and its children create and publish the streams of its runs. -/
def Proc.works_for (i : ℕ) (p : Proc) (r : Run) : Prop :=
  i = r.creator ∨ p.parent = some r.creator

/-- A process number that is free. -/
def Machine.free (m : Machine) (pid : ℕ) : Prop :=
  0 < pid ∧ ∀ p ∈ m.procs, p.alive = true → p.pid ≠ pid

/-- What happens, one step of one process at a time. -/
inductive Step (m : Machine) : Event → Machine → Prop
  | launch (pid user : ℕ) (role : Role) (cmdline : List String) : m.free pid → role ≠ .child →
      Step m .silent
        { m with procs := m.procs ++ [⟨pid, user, role, none, none, none, cmdline, [], true⟩] }
  | spawn (i : ℕ) (p : Proc) (pid : ℕ) (role : Role) (cmdline : List String) :
      m.procs[i]? = some p → p.alive = true → p.spawns role → m.free pid →
      Step m .silent { m with
        procs := m.procs ++ [⟨pid, p.user, role, some i, p.env, p.env, cmdline, [], true⟩] }
  | tag_supervisor (i : ℕ) (p : Proc) : m.procs[i]? = some p → p.alive = true →
      p.role.supervisor = true → Step m .silent (m.set i { p with env := some (toString p.pid) })
  | create_run (i : ℕ) (p : Proc) (uuid : Hex8) (runtime_dir : String) : m.procs[i]? = some p →
      p.alive = true → p.role.supervisor = true →
      Step m .silent { m with runs := m.runs ++ [⟨i, p.pid, uuid, runtime_dir⟩] }
  | create (i : ℕ) (p : Proc) (s : Published) : m.procs[i]? = some p → p.alive = true →
      s.run ∈ m.runs → p.works_for i s.run → s.shm_name ∉ m.segments.map Published.shm_name →
      Step m .silent { m.set i { p with mapped := s.shm_name :: p.mapped } with
        segments := m.segments ++ [s] }
  | publish (i : ℕ) (p : Proc) (s : Published) : m.procs[i]? = some p → p.alive = true →
      s.run ∈ m.runs → p.works_for i s.run →
      Step m .silent { m with
        run_dirs := m.run_dirs ++ [s.run]
        manifests := m.manifests ++ [s] }
  | attach (i : ℕ) (p : Proc) (name : String) : m.procs[i]? = some p → p.alive = true →
      name ∈ m.segments.map Published.shm_name →
      Step m .silent (m.set i { p with mapped := name :: p.mapped })
  | detach (i : ℕ) (p : Proc) (name : String) : m.procs[i]? = some p → p.alive = true →
      Step m .silent (m.set i { p with mapped := p.mapped.erase name })
  | retire (i : ℕ) (p : Proc) (s : Published) : m.procs[i]? = some p → p.alive = true →
      p.works_for i s.run → Step m .silent { m.unlink [s.shm_name] with
        manifests := m.manifests.filter fun x => x.shm_name != s.shm_name }
  | tear_down (i : ℕ) (p : Proc) (r : Run) : m.procs[i]? = some p → p.alive = true →
      r.creator = i → Step m .silent (m.cleanup_run r.runtime_dir r.run_id)
  | die (i : ℕ) (p : Proc) : m.procs[i]? = some p → p.alive = true →
      Step m .silent (m.set i { p with alive := false })
  | begin_sweep (i : ℕ) (p : Proc) (runtime_dir : String) (keep_run_ids : List String)
      (include_legacy : Bool) (entries : List ℕ) : m.procs[i]? = some p → p.alive = true →
      p.role = .daemon → p.env ≠ none →
      entries.Perm ((m.procs.filter fun p => p.alive).map Proc.pid) →
      Step m .silent { m with
        sweeps := m.sweeps ++ [⟨i, runtime_dir, keep_run_ids, include_legacy, .scan entries []⟩] }
  | sweep (k : ℕ) (sw : Sweep) (e : Event) (stage : Stage) : m.sweeps[k]? = some sw →
      m.alive_at sw.caller = true → Advance m sw e stage →
      Step m e { m.apply e with sweeps := m.sweeps.set k { sw with stage := stage } }

/-- The states of the machine. -/
inductive Reaches : Machine → Prop
  | init : Reaches .init
  | step {m m' : Machine} {e : Event} : Reaches m → Step m e m' → Reaches m'

/-! ## What a sweep may touch -/

/-- The process that spawned it is gone. -/
def Machine.Orphaned (m : Machine) (q : ℕ) : Prop :=
  ∃ p s sp, m.procs[q]? = some p ∧ p.parent = some s ∧ m.procs[s]? = some sp ∧ sp.alive = false

/-- The supervisor that created a run is gone, and the run is not to be kept. -/
def Machine.Abandoned (m : Machine) (keep_run_ids : List String) (r : Run) : Prop :=
  m.alive_at r.creator = false ∧ r.run_id ∉ keep_run_ids

/-- The sweep whose doing an event is. -/
def Event.sweep : Event → Option Sweep
  | .silent => none
  | .scan sw _ => some sw
  | .signal sw _ _ => some sw
  | .unlink sw _ => some sw
  | .cleanup sw _ => some sw

/-- A sweep's step takes away only segments and run directories of abandoned runs. -/
structure SparesData (m : Machine) (e : Event) : Prop where
  segments : ∀ sw, e.sweep = some sw → ∀ s ∈ m.segments, s ∉ (m.apply e).segments →
    m.Abandoned sw.keep_run_ids s.run
  run_dirs : ∀ sw, e.sweep = some sw → ∀ r ∈ m.run_dirs, r ∉ (m.apply e).run_dirs →
    m.Abandoned sw.keep_run_ids r

/-- And signals only orphans. -/
structure Safe (m : Machine) (e : Event) : Prop extends SparesData m e where
  signal : ∀ sw f q, e = .signal sw f q → m.Orphaned q

/-- Without a tag, a spawn child, and all it maps was made by the dead. -/
def Machine.Lookalike (m : Machine) (q : ℕ) : Prop :=
  ∃ p, m.procs[q]? = some p ∧ p.environ = none ∧ spawn_main p.cmdline = true ∧
    Machine.creators p.mapped ≠ [] ∧ ∀ c ∈ Machine.creators p.mapped, m.pid_alive c = false

/-- A process that a legacy sweep reads and that looks like an orphan is one; and a number that
is signalled is still that of the process that was found, or has passed to another orphan. -/
def Guarded (m : Machine) : Event → Prop
  | .scan sw q => sw.include_legacy = true → m.Lookalike q → m.Orphaned q
  | .signal _ f q => q ≠ f.process → m.Orphaned q
  | _ => True

/-- The states that guarded steps lead to. -/
inductive Guided : Machine → Prop
  | init : Guided .init
  | step {m m' : Machine} {e : Event} : Guided m → Step m e m' → Guarded m e → Guided m'

/-! ## What the classification proves -/

section Classification

variable {record : ProcRecord} {self_pid : ℕ} {alive : ℕ → Bool} {reason : Reason}

/-- A classification follows the tag, and the look only where there is no tag. -/
theorem classify_orphan_cases (h : classify_orphan record self_pid alive = some (some reason)) :
    reason = .tagged ∧ (∃ tag supervisor, record.tag = some tag ∧ int tag = some supervisor ∧
      alive supervisor = false) ∨
    reason = .legacy ∧ record.tag = none ∧ spawn_main record.cmdline = true ∧
      record.mapped_creators ≠ [] ∧ record.mapped_creators.any alive = false := by
  unfold classify_orphan at h
  split at h
  · exact absurd h (by simp)
  split at h
  · next tag htag =>
    left
    split at h
    · exact absurd h (by simp)
    obtain ⟨supervisor, hint, hreason⟩ := Option.map_eq_some_iff.1 h
    split at hreason
    · exact absurd hreason (by simp)
    · next hdead =>
      exact ⟨(Option.some.inj hreason).symm, tag, supervisor, htag, hint,
        Bool.eq_false_iff.2 hdead⟩
  · next htag =>
    right
    split at h
    · exact absurd h (by simp)
    next hspawn =>
    split at h
    · exact absurd h (by simp)
    next hmapped =>
    split at h
    · exact absurd h (by simp)
    next halive =>
    exact ⟨(Option.some.inj (Option.some.inj h)).symm, htag, by simpa using hspawn, hmapped,
      Bool.eq_false_iff.2 halive⟩

end Classification

namespace Machine

variable {m : Machine} {caller pid q : ℕ}

/-- `os.kill(pid, 0)` says that nobody lives under a pid only if no process of that pid is alive. -/
theorem pid_alive_eq_false (hpid : 0 < pid) (h : m.pid_alive pid = false) {i : ℕ} {p : Proc}
    (hp : m.procs[i]? = some p) (heq : p.pid = pid) : p.alive = false := by
  unfold pid_alive at h
  rw [Bool.and_eq_false_iff] at h
  rcases h with h | h
  · simp only [bne_eq_false_iff_eq] at h
    omega
  · have hany := List.any_eq_false.1 h p (List.mem_of_getElem? hp)
    simpa [heq] using hany

/-- What a lookup finds is alive and has the number. -/
theorem lookup_eq_some (h : m.lookup pid = some q) :
    ∃ p, m.procs[q]? = some p ∧ p.alive = true ∧ p.pid = pid := by
  unfold lookup at h
  obtain ⟨hlt, hp, -⟩ := List.findIdx?_eq_some_iff_getElem.1 h
  rw [Bool.and_eq_true, beq_iff_eq] at hp
  exact ⟨m.procs[q], List.getElem?_eq_getElem hlt, hp.1, hp.2⟩

/-- A record is that of the process it is read of: its environment, its command line and the
creators of the segments it maps. -/
theorem read_proc_record_eq_some {record : ProcRecord}
    (h : m.read_proc_record caller pid = some (q, record)) :
    ∃ p, m.procs[q]? = some p ∧ record = ⟨pid, p.environ, p.cmdline, creators p.mapped⟩ := by
  unfold read_proc_record at h
  simp only [Option.bind_eq_bind, Option.bind_eq_some_iff] at h
  obtain ⟨q', -, p, hp, c, -, h⟩ := h
  split at h
  · obtain ⟨rfl, rfl⟩ := Prod.mk.inj (Option.some.inj h)
    exact ⟨p, hp, rfl⟩
  · exact absurd h (by simp)

end Machine

/-! ## What always holds -/

/-- Processes are added, and die; their numbers and parents stay. -/
def Later (procs procs' : List Proc) : Prop :=
  ∀ (i : ℕ) (p : Proc), procs[i]? = some p → ∃ p' : Proc, procs'[i]? = some p' ∧
    p'.pid = p.pid ∧ p'.parent = p.parent ∧ (p'.alive = true → p.alive = true)

/-- Nobody came, nobody went. -/
theorem Later.refl (procs : List Proc) : Later procs procs :=
  fun _ p hp => ⟨p, hp, rfl, rfl, id⟩

/-- A process that is spawned comes at the end of the list and leaves the places of the others. -/
theorem Later.append (procs : List Proc) (p : Proc) : Later procs (procs ++ [p]) := by
  intro i p' hp'
  have hlt : i < procs.length := (List.getElem?_eq_some_iff.1 hp').1
  exact ⟨p', by rw [List.getElem?_append_left hlt, hp'], rfl, rfl, id⟩

/-- One process may change what it is doing, or die, but keeps its pid and its parent and does not
come back. -/
theorem Later.set {procs : List Proc} {i : ℕ} {p p' : Proc} (hp : procs[i]? = some p)
    (hpid : p'.pid = p.pid) (hparent : p'.parent = p.parent)
    (halive : p'.alive = true → p.alive = true) : Later procs (procs.set i p') := by
  intro j a ha
  by_cases hij : i = j
  · subst hij
    obtain rfl : p = a := Option.some.inj (hp.symm.trans ha)
    exact ⟨p', List.getElem?_set_self (List.getElem?_eq_some_iff.1 hp).1, hpid, hparent, halive⟩
  · exact ⟨a, by rw [List.getElem?_set_ne hij, ha], rfl, rfl, id⟩

/-- An orphan stays one: the process that spawned it is dead and does not come back, and its own
parent is fixed. -/
theorem Machine.Orphaned.later {m m' : Machine} {q : ℕ} (h : m.Orphaned q)
    (hlater : Later m.procs m'.procs) : m'.Orphaned q := by
  obtain ⟨p, s, sp, hp, hs, hsp, hdead⟩ := h
  obtain ⟨p', hp', -, hparent, -⟩ := hlater q p hp
  obtain ⟨sp', hsp', -, -, halive⟩ := hlater s sp hsp
  refine ⟨p', s, sp', hp', hparent.trans hs, hsp', ?_⟩
  rw [Bool.eq_false_iff]
  intro hlive
  rw [halive hlive] at hdead
  exact absurd hdead (by simp)

/-- The stamp of a process: none, or of the process that spawned it. -/
def Stamped (procs : List Proc) (p : Proc) : Prop :=
  ∀ tag, p.environ = some tag →
    ∃ s sp, p.parent = some s ∧ procs[s]? = some sp ∧ tag = toString sp.pid

/-- What a process passes on: nothing, or its own number. -/
def Proc.Stamps (p : Proc) : Prop :=
  p.role = .child ∨ p.env = none ∨ p.role.supervisor = true ∧ p.env = some (toString p.pid)

/-- Numbers, stamps and names are right, whatever happens. -/
structure Inv (m : Machine) : Prop where
  pids : ∀ p ∈ m.procs, 0 < p.pid
  stamps : ∀ p ∈ m.procs, p.Stamps
  stamped : ∀ p ∈ m.procs, Stamped m.procs p
  runs : ∀ r ∈ m.runs, ∃ p, m.procs[r.creator]? = some p ∧ p.pid = r.pid
  segments : ∀ s ∈ m.segments, s.run ∈ m.runs
  run_dirs : ∀ r ∈ m.run_dirs, r ∈ m.runs
  manifests : ∀ s ∈ m.manifests, s.run ∈ m.runs

/-- A process that carries its creator's stamp carries it on: its environment is fixed at `exec`,
and the creator's place is kept. -/
theorem Stamped.later {procs procs' : List Proc} {p p' : Proc} (h : Stamped procs p)
    (hlater : Later procs procs') (henviron : p'.environ = p.environ)
    (hparent : p'.parent = p.parent) : Stamped procs' p' := by
  intro tag htag
  obtain ⟨s, sp, hs, hsp, rfl⟩ := h tag (henviron.symm.trans htag)
  obtain ⟨sp', hsp', hpid, -, -⟩ := hlater s sp hsp
  exact ⟨s, sp', hparent.trans hs, hsp', by rw [hpid]⟩

namespace Inv

variable {m : Machine} {i : ℕ} {p p' : Proc}

/-- A machine nobody has done anything on has no runs, no processes and no data. -/
theorem init : Inv .init := by
  constructor <;> intro x hx <;> exact absurd hx (by simp [Machine.init])

/-- Each run is still that of the process which created it, though that one may have died meanwhile.
-/
theorem runs_later {procs : List Proc} (inv : Inv m) (hlater : Later m.procs procs) :
    ∀ r ∈ m.runs, ∃ p, procs[r.creator]? = some p ∧ p.pid = r.pid := by
  intro r hr
  obtain ⟨p, hp, hpid⟩ := inv.runs r hr
  obtain ⟨p', hp', hpid', -, -⟩ := hlater r.creator p hp
  exact ⟨p', hp', hpid'.trans hpid⟩

/-- A new process keeps the books if its pid is positive, its stamp is the pid of the process that
spawned it, and what it passes on is its own pid or nothing. -/
theorem append (inv : Inv m) (hpid : 0 < p.pid) (hstamps : p.Stamps)
    (hstamped : Stamped m.procs p) : Inv { m with procs := m.procs ++ [p] } := by
  have hlater := Later.append m.procs p
  refine ⟨?_, ?_, ?_, inv.runs_later hlater, inv.segments, inv.run_dirs, inv.manifests⟩
  · intro a ha
    rcases List.mem_append.1 ha with ha | ha
    · exact inv.pids a ha
    · rwa [List.mem_singleton.1 ha]
  · intro a ha
    rcases List.mem_append.1 ha with ha | ha
    · exact inv.stamps a ha
    · rwa [List.mem_singleton.1 ha]
  · intro a ha
    rcases List.mem_append.1 ha with ha | ha
    · exact (inv.stamped a ha).later hlater rfl rfl
    · rw [List.mem_singleton.1 ha]
      exact hstamped.later hlater rfl rfl

/-- A process changes, but not its number, its parent and its stamp. -/
theorem set (inv : Inv m) (hp : m.procs[i]? = some p) (hpid : p'.pid = p.pid)
    (hparent : p'.parent = p.parent) (halive : p'.alive = true → p.alive = true)
    (henviron : p'.environ = p.environ) (hstamps : p'.Stamps) : Inv (m.set i p') := by
  have hlater : Later m.procs (m.set i p').procs := Later.set hp hpid hparent halive
  have hmem : p ∈ m.procs := List.mem_of_getElem? hp
  refine ⟨?_, ?_, ?_, inv.runs_later hlater, inv.segments, inv.run_dirs, inv.manifests⟩
  · intro a ha
    rcases List.mem_or_eq_of_mem_set ha with ha | rfl
    · exact inv.pids a ha
    · rw [hpid]
      exact inv.pids p hmem
  · intro a ha
    rcases List.mem_or_eq_of_mem_set ha with ha | rfl
    · exact inv.stamps a ha
    · exact hstamps
  · intro a ha
    rcases List.mem_or_eq_of_mem_set ha with ha | rfl
    · exact (inv.stamped a ha).later hlater rfl rfl
    · exact (inv.stamped p hmem).later hlater henviron hparent

/-- Segments, directories and manifests are taken away. -/
theorem fewer (inv : Inv m) {segments manifests : List Published} {run_dirs : List Run}
    {sweeps : List Sweep} (hsegments : segments ⊆ m.segments) (hrun_dirs : run_dirs ⊆ m.run_dirs)
    (hmanifests : manifests ⊆ m.manifests) :
    Inv ⟨m.procs, m.runs, segments, run_dirs, manifests, sweeps⟩ :=
  ⟨inv.pids, inv.stamps, inv.stamped, inv.runs, fun s hs => inv.segments s (hsegments hs),
    fun r hr => inv.run_dirs r (hrun_dirs hr), fun s hs => inv.manifests s (hmanifests hs)⟩

/-- A new run keeps the books: it is listed with the place and the pid of the process that created
it. -/
theorem create_run (inv : Inv m) (hp : m.procs[i]? = some p) (uuid : Hex8) (dir : String) :
    Inv { m with runs := m.runs ++ [⟨i, p.pid, uuid, dir⟩] } := by
  refine ⟨inv.pids, inv.stamps, inv.stamped, ?_, ?_, ?_, ?_⟩
  · intro r hr
    rcases List.mem_append.1 hr with hr | hr
    · exact inv.runs r hr
    · rw [List.mem_singleton.1 hr]
      exact ⟨p, hp, rfl⟩
  · exact fun s hs => List.mem_append_left _ (inv.segments s hs)
  · exact fun r hr => List.mem_append_left _ (inv.run_dirs r hr)
  · exact fun s hs => List.mem_append_left _ (inv.manifests s hs)

/-- A segment. -/
theorem create (inv : Inv m) {s : Published} (hrun : s.run ∈ m.runs) :
    Inv { m with segments := m.segments ++ [s] } := by
  refine ⟨inv.pids, inv.stamps, inv.stamped, inv.runs, ?_, inv.run_dirs, inv.manifests⟩
  intro a ha
  rcases List.mem_append.1 ha with ha | ha
  · exact inv.segments a ha
  · rwa [List.mem_singleton.1 ha]

/-- A manifest, and the directory it is in, keep the books as long as they are those of a run that
was created. -/
theorem publish (inv : Inv m) {s : Published} (hrun : s.run ∈ m.runs) :
    Inv { m with
      run_dirs := m.run_dirs ++ [s.run]
      manifests := m.manifests ++ [s] } := by
  refine ⟨inv.pids, inv.stamps, inv.stamped, inv.runs, inv.segments, ?_, ?_⟩
  · intro r hr
    rcases List.mem_append.1 hr with hr | hr
    · exact inv.run_dirs r hr
    · rwa [List.mem_singleton.1 hr]
  · intro a ha
    rcases List.mem_append.1 ha with ha | ha
    · exact inv.manifests a ha
    · rwa [List.mem_singleton.1 ha]

end Inv

namespace Machine

variable (m : Machine) (e : Event)

/-- Cleaning up only removes: no segment, run directory or manifest comes into being by it. -/
theorem cleanup_run_fewer (runtime_dir run_id : String) :
    (m.cleanup_run runtime_dir run_id).segments ⊆ m.segments ∧
      (m.cleanup_run runtime_dir run_id).run_dirs ⊆ m.run_dirs ∧
      (m.cleanup_run runtime_dir run_id).manifests ⊆ m.manifests :=
  ⟨List.filter_subset_self _, List.filter_subset_self _, List.filter_subset_self _⟩

/-- A sweep only takes away. -/
theorem apply_fewer : (m.apply e).segments ⊆ m.segments ∧
    (m.apply e).run_dirs ⊆ m.run_dirs ∧ (m.apply e).manifests ⊆ m.manifests := by
  cases e with
  | unlink sw name => exact ⟨List.filter_subset_self _, List.Subset.refl _, List.Subset.refl _⟩
  | cleanup sw run_id => exact m.cleanup_run_fewer sw.runtime_dir run_id
  | _ => exact ⟨List.Subset.refl _, List.Subset.refl _, List.Subset.refl _⟩

/-- What happens to data does not touch the list of processes; spawning and dying are steps of their
own. -/
@[simp] theorem apply_procs : (m.apply e).procs = m.procs := by cases e <;> rfl

end Machine

variable {m m' : Machine} {e : Event}

/-- Creating, publishing and removing keep the books of who owns what, one case for each event. -/
theorem Inv.apply (inv : Inv m) (e : Event) : Inv (m.apply e) := by
  obtain ⟨hsegments, hrun_dirs, hmanifests⟩ := m.apply_fewer e
  cases e with
  | silent => exact inv
  | scan sw q => exact inv
  | signal sw f q => exact inv
  | unlink sw name => exact inv.fewer hsegments hrun_dirs hmanifests
  | cleanup sw run_id => exact inv.fewer hsegments hrun_dirs hmanifests

/-- Processes only come and go: no step revives a dead one or changes what an old one was started
with. -/
theorem Step.later (step : Step m e m') : Later m.procs m'.procs := by
  cases step with
  | launch pid user role cmdline _ _ => exact Later.append _ _
  | spawn i p pid role cmdline _ _ _ _ => exact Later.append _ _
  | tag_supervisor i p hp _ _ => exact Later.set hp rfl rfl id
  | create i p s hp _ _ _ _ => exact Later.set hp rfl rfl id
  | attach i p name hp _ _ => exact Later.set hp rfl rfl id
  | detach i p name hp _ => exact Later.set hp rfl rfl id
  | die i p hp _ => exact Later.set hp rfl rfl fun h => absurd h (by simp)
  | sweep k sw e stage _ _ _ =>
    simp only [Machine.apply_procs]
    exact Later.refl _
  | _ => exact Later.refl _

/-- The invariant is kept by every step, one case for each: spawning, dying, running, publishing,
sweeping and what data does. -/
theorem Step.inv (step : Step m e m') (inv : Inv m) : Inv m' := by
  -- what keeps role, environment and pid keeps its stamps
  have same : ∀ {i : ℕ} {p p' : Proc}, m.procs[i]? = some p → p'.role = p.role →
      p'.env = p.env → p'.pid = p.pid → p'.Stamps := by
    intro i p p' hp hrole henv hpid
    have hstamps := inv.stamps p (List.mem_of_getElem? hp)
    unfold Proc.Stamps at hstamps ⊢
    rwa [hrole, henv, hpid]
  cases step with
  | launch pid user role cmdline hfree _ =>
    exact inv.append hfree.1 (.inr (.inl rfl)) fun tag htag => absurd htag (by simp)
  | spawn i p pid role cmdline hp halive hspawns hfree =>
    have hstamps := inv.stamps p (List.mem_of_getElem? hp)
    apply inv.append hfree.1
    · -- only a dashboard, which has no tag, spawns anything but children
      rcases hspawns with ⟨-, -, hrole⟩ | ⟨hdashboard, hrole⟩
      · exact .inl hrole
      · right; left
        rcases hstamps with h | h | ⟨h, -⟩
        · exact absurd (hdashboard.symm.trans h) (by simp)
        · exact h
        · rw [hdashboard] at h
          exact absurd h (by simp [Role.supervisor])
    · intro tag htag
      refine ⟨i, p, rfl, hp, ?_⟩
      -- what has a tag was spawned by a supervisor, whose own tag it inherits
      rcases hstamps with h | h | ⟨-, h⟩
      · rcases hspawns with ⟨hsup, -, -⟩ | ⟨hdashboard, -⟩
        · rw [h] at hsup
          exact absurd hsup (by simp [Role.supervisor])
        · exact absurd (hdashboard.symm.trans h) (by simp)
      · exact absurd (htag.symm.trans h) (by simp)
      · exact Option.some.inj (htag.symm.trans h)
  | tag_supervisor i p hp halive hsup =>
    exact inv.set hp rfl rfl id rfl (.inr (.inr ⟨hsup, rfl⟩))
  | create_run i p uuid runtime_dir hp _ _ => exact inv.create_run hp uuid runtime_dir
  | create i p s hp _ hrun _ _ =>
    have hset : Inv (m.set i { p with mapped := s.shm_name :: p.mapped }) :=
      inv.set hp rfl rfl id rfl (same hp rfl rfl rfl)
    exact hset.create hrun
  | publish i p s hp _ hrun _ => exact inv.publish hrun
  | attach i p name hp _ _ => exact inv.set hp rfl rfl id rfl (same hp rfl rfl rfl)
  | detach i p name hp _ => exact inv.set hp rfl rfl id rfl (same hp rfl rfl rfl)
  | retire i p s hp _ _ =>
    exact inv.fewer (List.filter_subset_self _) (List.Subset.refl _) (List.filter_subset_self _)
  | tear_down i p r hp _ _ =>
    obtain ⟨hsegments, hrun_dirs, hmanifests⟩ := m.cleanup_run_fewer r.runtime_dir r.run_id
    exact inv.fewer hsegments hrun_dirs hmanifests
  | die i p hp _ =>
    exact inv.set hp rfl rfl (fun h => absurd h (by simp)) rfl (same hp rfl rfl rfl)
  | begin_sweep i p runtime_dir keep_run_ids include_legacy entries _ _ _ _ _ =>
    exact inv.fewer (List.Subset.refl _) (List.Subset.refl _) (List.Subset.refl _)
  | sweep k sw e stage _ _ _ =>
    exact (inv.apply e).fewer (List.Subset.refl _) (List.Subset.refl _) (List.Subset.refl _)

/-- The books hold in every state of every run, whatever the processes and sweeps on it do. -/
theorem Reaches.inv (run : Reaches m) : Inv m := by
  induction run with
  | init => exact .init
  | step _ step ih => exact step.inv ih

/-- A run in which all steps meet the condition is a run. -/
theorem Guided.reaches (run : Guided m) : Reaches m := by
  induction run with
  | init => exact .init
  | step _ step _ ih => exact ih.step step

/-! ## Segments and run directories -/

/-- The sweep's pattern reads a segment's name back to the pid and the identifier that its run was
created with. -/
theorem Run.shm_re_shm_name (s : Published) :
    shm_re s.shm_name = some (groups_of s.run.pid s.run.uuid) :=
  shm_re_shm_name_for s.run.pid s.run.uuid s.stream

/-- A run whose process number is free has lost its supervisor. -/
theorem Inv.creator_dead (inv : Inv m) {r : Run} (hr : r ∈ m.runs)
    (h : m.pid_alive r.pid = false) : m.alive_at r.creator = false := by
  obtain ⟨p, hp, hpid⟩ := inv.runs r hr
  have hpos : 0 < r.pid := hpid ▸ inv.pids p (List.mem_of_getElem? hp)
  unfold Machine.alive_at
  rw [hp]
  exact Machine.pid_alive_eq_false hpos h hp hpid

/-- A name that is unlinked is stale: of no kept run, and of no live process number. -/
theorem Sweep.unlink_eq {sw sw' : Sweep} {name name' : String}
    (h : sw.unlink m name = .unlink sw' name') : sw' = sw ∧ name' = name ∧
      ∃ g, shm_re name = some g ∧ g.run_id ∉ sw.keep_run_ids ∧ m.pid_alive g.pid = false := by
  unfold Sweep.unlink at h
  split at h
  · next g hg =>
    split at h
    · exact absurd h (by simp)
    · next hstale =>
      rw [not_or, Bool.not_eq_true] at hstale
      injection h with hsw hname
      exact ⟨hsw.symm, hname.symm, g, hg, hstale⟩
  · exact absurd h (by simp)

/-- So is a directory that is cleaned up: it is a run's by its name, is not to be kept, and its
creator's pid has nobody alive. -/
theorem Sweep.cleanup_eq {sw sw' : Sweep} {entry entry' : String}
    (h : sw.cleanup m entry = .cleanup sw' entry') : sw' = sw ∧ entry' = entry ∧
      entry ∉ sw.keep_run_ids ∧ ∃ g, run_dir_re entry = some g ∧ m.pid_alive g.pid = false := by
  unfold Sweep.cleanup at h
  split at h
  · next g hg =>
    split at h
    · exact absurd h (by simp)
    next hstale =>
    split at h
    · rw [not_or, Bool.not_eq_true] at hstale
      injection h with hsw hentry
      exact ⟨hsw.symm, hentry.symm, hstale.1, g, hg, hstale.2⟩
    · exact absurd h (by simp)
  · exact absurd h (by simp)

/-- Every segment of a stale name is of an abandoned run. -/
theorem Inv.abandoned_of_name (inv : Inv m) {s : Published} {keep : List String} {g : Groups}
    (hs : s ∈ m.segments) (hg : shm_re s.shm_name = some g) (hkeep : g.run_id ∉ keep)
    (hdead : m.pid_alive g.pid = false) : m.Abandoned keep s.run := by
  obtain rfl : groups_of s.run.pid s.run.uuid = g :=
    Option.some.inj ((Run.shm_re_shm_name s).symm.trans hg)
  rw [groups_of_pid] at hdead
  rw [groups_of_run_id] at hkeep
  exact ⟨inv.creator_dead (inv.segments s hs) hdead, hkeep⟩

/-- Every run of a stale directory is abandoned. -/
theorem Inv.abandoned_of_entry (inv : Inv m) {r : Run} {keep : List String} {g : Groups}
    (hr : r ∈ m.runs) (hg : run_dir_re r.run_id = some g) (hkeep : r.run_id ∉ keep)
    (hdead : m.pid_alive g.pid = false) : m.Abandoned keep r := by
  obtain rfl : groups_of r.pid r.uuid = g :=
    Option.some.inj ((run_dir_re_make_run_id r.pid r.uuid).symm.trans hg)
  rw [groups_of_pid] at hdead
  exact ⟨inv.creator_dead hr hdead, hkeep⟩

/-- What `Machine.unlink` takes away has one of the names. -/
theorem Machine.shm_name_of_unlink {names : List String} {s : Published} (hs : s ∈ m.segments)
    (h : s ∉ (m.unlink names).segments) : s.shm_name ∈ names := by
  by_contra hname
  apply h
  unfold Machine.unlink
  rw [List.mem_filter]
  exact ⟨hs, by simpa using hname⟩

/-- Two streams whose segments go by one name are of one run. -/
theorem Published.run_id_eq {s t : Published} (h : s.shm_name = t.shm_name) :
    s.run.run_id = t.run.run_id := by
  have hg := congrArg shm_re h
  rw [Run.shm_re_shm_name, Run.shm_re_shm_name] at hg
  have hid := congrArg Groups.run_id (Option.some.inj hg)
  rwa [groups_of_run_id, groups_of_run_id] at hid

/-- A step that takes nothing away. -/
theorem SparesData.of_apply_eq (h : m.apply e = m) : SparesData m e := by
  constructor
  · intro sw _ s hs hgone
    rw [h] at hgone
    exact absurd hs hgone
  · intro sw _ r hr hgone
    rw [h] at hgone
    exact absurd hr hgone

/-- A sweep unlinks what it has found dead, so the data of a run whose creator is alive is spared.
-/
theorem Sweep.unlink_spares (inv : Inv m) (sw : Sweep) (name : String) :
    SparesData m (sw.unlink m name) := by
  cases h : sw.unlink m name with
  | unlink sw' name' =>
    obtain ⟨rfl, rfl, g, hg, hkeep, hdead⟩ := Sweep.unlink_eq h
    constructor
    · intro sw hsw s hs hgone
      obtain rfl : sw' = sw := Option.some.inj hsw
      obtain rfl : s.shm_name = name' := by simpa using Machine.shm_name_of_unlink hs hgone
      exact inv.abandoned_of_name hs hg hkeep hdead
    · intro sw _ r hr hgone
      exact absurd hr hgone
  | cleanup sw' entry' =>
    unfold Sweep.unlink at h
    split at h
    · split at h <;> exact absurd h (by simp)
    · exact absurd h (by simp)
  | _ => exact .of_apply_eq rfl

/-- A manifest of a stale directory names a segment of the same run. -/
theorem Sweep.cleanup_spares (inv : Inv m) (sw : Sweep) (entry : String) :
    SparesData m (sw.cleanup m entry) := by
  cases h : sw.cleanup m entry with
  | cleanup sw' entry' =>
    obtain ⟨rfl, rfl, hkeep, g, hg, hdead⟩ := Sweep.cleanup_eq h
    constructor
    · intro sw hsw s hs hgone
      obtain rfl : sw' = sw := Option.some.inj hsw
      have hname := Machine.shm_name_of_unlink hs hgone
      obtain ⟨t, ht, hts⟩ := List.mem_map.1 hname
      have hentry : t.run.run_id = entry' := by
        have hin := (List.mem_filter.1 ht).2
        rw [Bool.and_eq_true, beq_iff_eq, beq_iff_eq] at hin
        exact hin.2
      have hrun : s.run.run_id = entry' := (Published.run_id_eq hts.symm).trans hentry
      rw [← hrun] at hg hkeep
      exact inv.abandoned_of_entry (inv.segments s hs) hg hkeep hdead
    · intro sw hsw r hr hgone
      obtain rfl : sw' = sw := Option.some.inj hsw
      have hrun : r.run_id = entry' := by
        by_contra hne
        apply hgone
        unfold Machine.apply Machine.cleanup_run
        rw [List.mem_filter]
        exact ⟨hr, by simp [hne]⟩
      rw [← hrun] at hg hkeep
      exact inv.abandoned_of_entry (inv.run_dirs r hr) hg hkeep hdead
  | unlink sw' name' =>
    unfold Sweep.cleanup at h
    split at h
    · split at h
      · exact absurd h (by simp)
      · split at h <;> exact absurd h (by simp)
    · exact absurd h (by simp)
  | _ => exact .of_apply_eq rfl

/-- Reading `/proc` is silent: it notes the orphans in the sweep and does nothing to the machine. -/
theorem Sweep.scan_apply (sw : Sweep) (pid : ℕ) (entries : List ℕ) (orphans : List Found) :
    m.apply (sw.scan m pid entries orphans).1 = m := by
  unfold Sweep.scan
  split <;> rfl

/-- A signal takes no data away, and what the process that gets it does is a step of its own. -/
theorem Sweep.signal_apply (sw : Sweep) (f : Found) : m.apply (sw.signal m f) = m := by
  unfold Sweep.signal
  split <;> rfl

/-- No sweep takes away what is not abandoned, whichever of its stages the step belongs to; most of
them take nothing at all. -/
theorem Step.spares (step : Step m e m') (inv : Inv m) : SparesData m e := by
  cases step with
  | sweep k sw e stage _ _ advance =>
    cases advance with
    | scan pid entries orphans _ => exact .of_apply_eq (sw.scan_apply pid entries orphans)
    | term f todo killed _ => exact .of_apply_eq (sw.signal_apply f)
    | kill f remaining _ => exact .of_apply_eq (sw.signal_apply f)
    | unlink name names _ => exact sw.unlink_spares inv name
    | cleanup entry entries _ => exact sw.cleanup_spares inv entry
    | _ => exact .of_apply_eq rfl
  | _ => exact .of_apply_eq rfl

/-! ## Signals -/

/-- The processes a sweep is still to signal. -/
def Stage.found : Stage → List Found
  | .scan _ orphans => orphans
  | .term todo killed => todo ++ killed
  | .wait remaining => remaining
  | .kill remaining => remaining
  | _ => []

/-- The stamp of a dead supervisor is the stamp of an orphan. -/
theorem Inv.orphaned_of_tag (inv : Inv m) {q : ℕ} {p : Proc} {tag : String} {supervisor : ℕ}
    (hp : m.procs[q]? = some p) (htag : p.environ = some tag) (hint : int tag = some supervisor)
    (hdead : m.pid_alive supervisor = false) : m.Orphaned q := by
  obtain ⟨s, sp, hs, hsp, rfl⟩ := inv.stamped p (List.mem_of_getElem? hp) tag htag
  obtain rfl : sp.pid = supervisor := Option.some.inj ((int_toString sp.pid).symm.trans hint)
  have hpos := inv.pids sp (List.mem_of_getElem? hsp)
  exact ⟨p, s, sp, hp, hs, hsp, Machine.pid_alive_eq_false hpos hdead hsp rfl⟩

/-- What a scan adds was an orphan: a tagged process by its stamp, and an untagged one under the
condition that lookalikes are. -/
theorem Sweep.scan_found (inv : Inv m) (sw : Sweep) {pid : ℕ} {entries : List ℕ}
    {orphans : List Found} (guard : Guarded m (sw.scan m pid entries orphans).1) :
    ∀ f ∈ (sw.scan m pid entries orphans).2.found, f ∈ orphans ∨ m.Orphaned f.process := by
  unfold Sweep.scan at guard ⊢
  split
  · exact fun f hf => .inl hf
  next q record hread =>
  rw [hread] at guard
  obtain ⟨p, hp, hrecord⟩ := Machine.read_proc_record_eq_some hread
  dsimp only
  unfold Sweep.add
  split
  · exact fun f hf => absurd hf List.not_mem_nil
  · exact fun f hf => .inl hf
  next reason hclass =>
  split
  · exact fun f hf => .inl hf
  next hmode =>
  intro f hf
  rcases List.mem_append.1 hf with hf | hf
  · exact .inl hf
  right
  rw [List.mem_singleton.1 hf]
  subst hrecord
  rcases classify_orphan_cases hclass with ⟨-, tag, supervisor, htag, hint, hdead⟩ |
    ⟨rfl, htag, hspawn, hmapped, hdead⟩
  · exact inv.orphaned_of_tag hp htag hint hdead
  · have hlegacy : sw.include_legacy = true := by
      by_contra hlegacy
      exact hmode ⟨rfl, by simpa using hlegacy⟩
    have hcreators : ∀ c ∈ Machine.creators p.mapped, m.pid_alive c = false := by
      intro c hc
      simpa using List.any_eq_false.1 hdead c hc
    exact guard hlegacy ⟨p, hp, htag, hspawn, hmapped, hcreators⟩

/-- A sweep goes on with what it has found, and with orphans. -/
theorem Advance.found {sw : Sweep} {stage : Stage} (h : Advance m sw e stage) (inv : Inv m)
    (guard : Guarded m e) : ∀ f ∈ stage.found, f ∈ sw.stage.found ∨ m.Orphaned f.process := by
  cases h with
  | scan pid entries orphans hstage =>
    rw [hstage]
    exact sw.scan_found inv guard
  | scanned orphans hstage =>
    rw [hstage]
    intro f hf
    exact .inl (by simpa [Stage.found] using hf)
  | term f todo killed hstage =>
    rw [hstage]
    intro f' hf'
    left
    simp only [Stage.found, Sweep.killed, List.mem_append, List.cons_append, List.mem_cons]
      at hf' ⊢
    split at hf'
    · rw [List.mem_append, List.mem_singleton] at hf'
      tauto
    · tauto
  | termed killed hstage =>
    rw [hstage]
    exact fun f hf => .inl hf
  | poll remaining hstage =>
    rw [hstage]
    exact fun f hf => .inl (List.mem_of_mem_filter hf)
  | waited remaining hstage =>
    rw [hstage]
    exact fun f hf => .inl hf
  | kill f remaining hstage =>
    rw [hstage]
    exact fun f' hf' => .inl (List.mem_cons_of_mem f hf')
  | _ => exact fun f hf => absurd hf List.not_mem_nil

/-- What is signalled has been found: both rounds of signals go through the list that the scan has
made. -/
theorem Advance.signal_found {sw sw' : Sweep} {stage : Stage} {f : Found} {q : ℕ}
    (h : Advance m sw e stage) (he : e = .signal sw' f q) : f ∈ sw.stage.found := by
  have of_signal : ∀ {f' : Found}, sw.signal m f' = .signal sw' f q → f' = f := by
    intro f' hf'
    unfold Sweep.signal at hf'
    split at hf'
    · injection hf'
    · exact absurd hf' (by simp)
  cases h with
  | scan pid entries orphans _ =>
    unfold Sweep.scan at he
    split at he <;> exact absurd he (by simp)
  | term f' todo killed hstage =>
    rw [hstage, ← of_signal he]
    exact List.mem_append_left _ List.mem_cons_self
  | kill f' remaining hstage =>
    rw [hstage, ← of_signal he]
    exact List.mem_cons_self
  | unlink name names _ =>
    unfold Sweep.unlink at he
    split at he
    · split at he <;> exact absurd he (by simp)
    · exact absurd he (by simp)
  | cleanup entry entries _ =>
    unfold Sweep.cleanup at he
    split at he
    · split at he
      · exact absurd he (by simp)
      · split at he <;> exact absurd he (by simp)
    · exact absurd he (by simp)
  | _ => exact absurd he (by simp)

/-- Everything that has been found is an orphan. -/
def Sound (m : Machine) : Prop :=
  ∀ sw ∈ m.sweeps, ∀ f ∈ sw.stage.found, m.Orphaned f.process

/-- One step that meets the condition keeps what the sweeps under way have found true of the
processes they found it of. -/
theorem Step.sound (step : Step m e m') (inv : Inv m) (sound : Sound m) (guard : Guarded m e) :
    Sound m' := by
  have hlater := step.later
  cases step with
  | begin_sweep i p runtime_dir keep_run_ids include_legacy entries _ _ _ _ _ =>
    intro sw hsw f hf
    rcases List.mem_append.1 hsw with hsw | hsw
    · exact sound sw hsw f hf
    · rw [List.mem_singleton.1 hsw] at hf
      exact absurd hf List.not_mem_nil
  | sweep k sw e stage hk _ advance =>
    intro sw' hsw' f hf
    rcases List.mem_or_eq_of_mem_set hsw' with hsw' | rfl
    · exact (sound sw' hsw' f hf).later hlater
    · rcases advance.found inv guard f hf with hf | hf
      · exact (sound sw (List.mem_of_getElem? hk) f hf).later hlater
      · exact hf.later hlater
  | _ => exact fun sw hsw f hf => (sound sw hsw f hf).later hlater

/-- The same over a whole run of such steps. -/
theorem Guided.sound (run : Guided m) : Sound m := by
  induction run with
  | init => exact fun sw hsw => absurd hsw List.not_mem_nil
  | step run step guard ih => exact step.sound run.reaches.inv ih guard

/-- A step of sound sweeps that meets the condition signals only orphans and takes away only what is
abandoned. -/
theorem Step.safe (step : Step m e m') (inv : Inv m) (sound : Sound m) (guard : Guarded m e) :
    Safe m e := by
  refine ⟨step.spares inv, ?_⟩
  intro sw' f q he
  cases step with
  | sweep k sw e stage hk _ advance =>
    have hf := advance.signal_found he
    subst he
    by_cases hq : q = f.process
    · rw [hq]
      exact sound sw (List.mem_of_getElem? hk) f hf
    · exact guard hq
  | _ => exact absurd he (by simp)

/-- Names say which process made them. Whatever happens, a sweep takes away only what is
abandoned; and it signals only orphans as long as those that look like orphans to a legacy
sweep are, and no number it has found passes to a process that is none. -/
theorem sweep_spares_the_living (run : Reaches m) (step : Step m e m') :
    (∀ (pid : ℕ) (uuid : Hex8) (stream_name : String),
      (shm_re (shm_name_for (make_run_id pid uuid) stream_name)).map Groups.pid = some pid) ∧
    SparesData m e ∧ (Guided m → Guarded m e → Safe m e) := by
  refine ⟨?_, ?_, ?_⟩
  · intro pid uuid stream_name
    rw [shm_re_shm_name_for, Option.map_some, groups_of_pid]
  · exact step.spares run.inv
  · intro guided guard
    exact step.safe run.inv guided.sound guard

/-! ## A boot beside a dashboard -/

/-- The run of the daemon that is to die. -/
def boot_run : Run := ⟨1, 20, ⟨"deadbeef".toList, rfl, List.all_eq_true.1 rfl⟩, "/run"⟩

def boot_stream : Published := ⟨boot_run, "left/q"⟩

def spawn_cmdline : List String :=
  ["python", "-c", "from multiprocessing.spawn import spawn_main"]

/-- A dashboard with its viewer, a dead daemon with its node, and the next daemon. -/
def boot : Machine where
  procs :=
    [⟨10, 1000, .dashboard, none, none, none, ["dfc-dashboard"], [], true⟩,
     ⟨20, 1000, .daemon, none, none, some (toString 20), ["dfc-session"],
      [boot_stream.shm_name], false⟩,
     ⟨21, 1000, .child, some 1, some (toString 20), some (toString 20), spawn_cmdline, [], true⟩,
     ⟨30, 1000, .child, some 0, none, none, spawn_cmdline, [boot_stream.shm_name], true⟩,
     ⟨40, 1000, .daemon, none, none, some (toString 40), ["dfc-session"], [], true⟩]
  runs := [boot_run]
  segments := [boot_stream]
  run_dirs := []
  manifests := []
  sweeps := []

/-- The sweep of the next daemon. -/
def boot_sweep (include_legacy : Bool) (stage : Stage) : Sweep :=
  ⟨4, "/run", [], include_legacy, stage⟩

def boot_sweeping (include_legacy : Bool) (stage : Stage) : Machine :=
  { boot with sweeps := [boot_sweep include_legacy stage] }

/-- The viewer, as a legacy sweep finds it. -/
def found_viewer : Found := ⟨⟨30, none, spawn_cmdline, [20]⟩, .legacy, 3⟩

/-- The node, as any sweep finds it. -/
def found_node : Found := ⟨⟨21, some (toString 20), spawn_cmdline, []⟩, .tagged, 2⟩

/-- The machine of the example is reached by steps that meet the condition, so the general theorem
applies to it. -/
theorem boot_guided : Guided boot := by
  have h0 := Guided.init.step (.launch 10 1000 .dashboard ["dfc-dashboard"]
    ⟨by decide, fun p hp => absurd hp List.not_mem_nil⟩ (by decide)) trivial
  have h1 := h0.step (.launch 20 1000 .daemon ["dfc-session"] ⟨by decide, by decide⟩
    (by decide)) trivial
  have h2 := h1.step (.tag_supervisor 1 _ rfl rfl rfl) trivial
  have h3 := h2.step (.create_run 1 _ boot_run.uuid "/run" rfl rfl rfl) trivial
  have h4 := h3.step (.create 1 _ boot_stream rfl rfl List.mem_cons_self (.inl rfl)
    List.not_mem_nil) trivial
  have h5 := h4.step (.spawn 1 _ 21 .child spawn_cmdline rfl rfl
    (.inl ⟨rfl, Option.some_ne_none _, rfl⟩) ⟨by decide, by decide⟩) trivial
  have h6 := h5.step (.spawn 0 _ 30 .child spawn_cmdline rfl rfl (.inr ⟨rfl, .inl rfl⟩)
    ⟨by decide, by decide⟩) trivial
  have h7 := h6.step (.attach 3 _ boot_stream.shm_name rfl rfl List.mem_cons_self) trivial
  have h8 := h7.step (.die 1 _ rfl rfl) trivial
  have h9 := h8.step (.launch 40 1000 .daemon ["dfc-session"] ⟨by decide, by decide⟩
    (by decide)) trivial
  have h10 := h9.step (.tag_supervisor 4 _ rfl rfl rfl) trivial
  exact h10

/-- A step of the next daemon's sweep that changes nothing else. -/
theorem boot_advance {legacy : Bool} {stage stage' : Stage} {e : Event}
    (h : Advance (boot_sweeping legacy stage) (boot_sweep legacy stage) e stage')
    (he : (boot_sweeping legacy stage).apply e = boot_sweeping legacy stage) :
    Step (boot_sweeping legacy stage) e (boot_sweeping legacy stage') := by
  have hstep := Step.sweep 0 (boot_sweep legacy stage) e stage' rfl rfl h
  rw [he] at hstep
  exact hstep

/-- One scan of the next daemon's sweep, read off the record of the process and its classification,
as a step of the machine. -/
theorem boot_scan {legacy : Bool} {pid q : ℕ} {entries : List ℕ} {orphans : List Found}
    {record : ProcRecord} {reason : Option (Option Reason)}
    (hread : boot.read_proc_record 4 pid = some (q, record))
    (hclass : classify_orphan record 40 boot.pid_alive = reason) :
    Step (boot_sweeping legacy (.scan (pid :: entries) orphans))
      (.scan (boot_sweep legacy (.scan (pid :: entries) orphans)) q)
      (boot_sweeping legacy ((boot_sweep legacy .done).add entries orphans record q reason)) := by
  have hscan : (boot_sweep legacy (.scan (pid :: entries) orphans)).scan
      (boot_sweeping legacy (.scan (pid :: entries) orphans)) pid entries orphans =
        (.scan (boot_sweep legacy (.scan (pid :: entries) orphans)) q,
          (boot_sweep legacy .done).add entries orphans record q reason) := by
    rw [← hclass]
    unfold Sweep.scan
    have hread' : (boot_sweeping legacy (.scan (pid :: entries) orphans)).read_proc_record
      (boot_sweep legacy (.scan (pid :: entries) orphans)).caller pid = some (q, record) := hread
    rw [hread']
    rfl
  have hadvance := @Advance.scan (boot_sweeping legacy (.scan (pid :: entries) orphans))
    (boot_sweep legacy (.scan (pid :: entries) orphans)) pid entries orphans rfl
  rw [hscan] at hadvance
  exact boot_advance hadvance rfl

/-- What `/proc` says of the viewer, which outlived its session and is the one orphan of the
example. -/
theorem read_viewer : boot.read_proc_record 4 30 = some (3, found_viewer.record) := by
  have hre : shm_re boot_stream.shm_name = some (groups_of 20 boot_run.uuid) :=
    Run.shm_re_shm_name boot_stream
  have hcreators : Machine.creators [boot_stream.shm_name] = [20] := by
    simp [Machine.creators, hre]
  have h : boot.read_proc_record 4 30 =
      some (3, ⟨30, none, spawn_cmdline, Machine.creators [boot_stream.shm_name]⟩) := rfl
  rw [h, hcreators]
  rfl

/-- What `/proc` says of the dashboard, which has no stamp and is nobody's orphan. -/
theorem read_dashboard :
    boot.read_proc_record 4 10 = some (0, ⟨10, none, ["dfc-dashboard"], []⟩) := rfl

/-- What `/proc` says of the node, whose session is alive. -/
theorem read_node : boot.read_proc_record 4 21 = some (2, found_node.record) := rfl

/-- What `/proc` says of the daemon that sweeps; it must leave itself alone. -/
theorem read_self :
    boot.read_proc_record 4 40 = some (4, ⟨40, none, ["dfc-session"], []⟩) := rfl

/-- By its record the viewer is an orphan. -/
theorem classify_viewer :
    classify_orphan found_viewer.record 40 boot.pid_alive = some (some .legacy) := by decide

/-- So is the node. -/
theorem classify_node :
    classify_orphan found_node.record 40 boot.pid_alive = some (some .tagged) := by decide

/-- Without a stamp the dashboard is not classified as an orphan. -/
theorem classify_dashboard :
    classify_orphan ⟨10, none, ["dfc-dashboard"], []⟩ 40 boot.pid_alive = some none := by decide

/-- The sweeping daemon is skipped by its own pid. -/
theorem classify_self :
    classify_orphan ⟨40, none, ["dfc-session"], []⟩ 40 boot.pid_alive = some none := by decide

/-- The dashboard lives. -/
theorem viewer_not_orphaned (legacy : Bool) (stage : Stage) :
    ¬ (boot_sweeping legacy stage).Orphaned 3 := by
  rintro ⟨p, s, sp, hp, hs, hsp, hdead⟩
  obtain rfl := Option.some.inj hp
  obtain rfl := Option.some.inj hs
  obtain rfl := Option.some.inj hsp
  exact absurd hdead (by decide)

/-- The daemon starts its sweep over the four processes of the example. -/
theorem boot_begin (legacy : Bool) :
    Step boot .silent (boot_sweeping legacy (.scan [30, 10, 21, 40] [])) :=
  .begin_sweep 4 _ "/run" [] legacy [30, 10, 21, 40] rfl rfl rfl (Option.some_ne_none _)
    (by decide)

/-- A child of a dead supervisor is signalled in the mode that asks for the tag alone. -/
theorem node_is_orphaned :
    Safe (boot_sweeping false (.term [found_node] []))
      (.signal (boot_sweep false (.term [found_node] [])) found_node 2) := by
  have guard : ∀ (stage : Stage) (q : ℕ),
      Guarded (boot_sweeping false stage) (.scan (boot_sweep false stage) q) :=
    fun stage q h => absurd h Bool.false_ne_true
  have h0 := boot_guided.step (boot_begin false) trivial
  have h1 : Guided (boot_sweeping false (.scan [10, 21, 40] [])) :=
    h0.step (boot_scan read_viewer classify_viewer) (guard _ 3)
  have h2 : Guided (boot_sweeping false (.scan [21, 40] [])) :=
    h1.step (boot_scan read_dashboard classify_dashboard) (guard _ 0)
  have h3 : Guided (boot_sweeping false (.scan [40] [found_node])) :=
    h2.step (boot_scan read_node classify_node) (guard _ 2)
  have h4 : Guided (boot_sweeping false (.scan [] [found_node])) :=
    h3.step (boot_scan read_self classify_self) (guard _ 4)
  have h5 := h4.step (boot_advance (.scanned [found_node] rfl) rfl) trivial
  have hsweep := sweep_spares_the_living h5.reaches
    (boot_advance (.term found_node [] [] rfl) rfl)
  exact hsweep.2.2 h5 fun h => absurd rfl h

/-- A boot signals the viewer of a live dashboard: it has no stamp, looks like a spawned child, and
maps only what the dead daemon made. -/
theorem viewer_is_signalled :
    ¬ ∀ (m m' : Machine) (e : Event), Reaches m → Step m e m' → Safe m e := by
  intro claim
  have h0 := boot_guided.reaches.step (boot_begin true)
  have h1 : Reaches (boot_sweeping true (.scan [10, 21, 40] [found_viewer])) :=
    h0.step (boot_scan read_viewer classify_viewer)
  have h2 : Reaches (boot_sweeping true (.scan [21, 40] [found_viewer])) :=
    h1.step (boot_scan read_dashboard classify_dashboard)
  have h3 : Reaches (boot_sweeping true (.scan [40] [found_viewer, found_node])) :=
    h2.step (boot_scan read_node classify_node)
  have h4 : Reaches (boot_sweeping true (.scan [] [found_viewer, found_node])) :=
    h3.step (boot_scan read_self classify_self)
  have h5 := h4.step (boot_advance (.scanned [found_viewer, found_node] rfl) rfl)
  have hsafe := claim _ _ _ h5 (boot_advance (.term found_viewer [found_node] [] rfl) rfl)
  exact viewer_not_orphaned _ _ (hsafe.signal _ _ _ rfl)

end DualFlexivControl.Processes.Orphans
