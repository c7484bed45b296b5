/-
One session daemon per runtime dir: the ownership check of `session.py`'s `main`.

A booting daemon reads `session.json` and gives up if the process named in it is alive. It
writes its own name there only after it has swept the debris of dead supervisors and started
its hardware, and takes the file away before it exits. Between the check and the first write,
and between the removal and the exit, it is past the check and nobody can tell; and a process
that the booting user may not signal counts as dead.

So two daemons can be past the check, and which one's file a shutdown removes is then open. The
run record says when exactly: each ownership check must find every live daemon past its own
check serving, and signallable ([`Guarded`]). A file whose process number has been taken by
somebody else stops a boot too, which is safe.
-/
import Mathlib.Data.List.Basic

set_option autoImplicit false

namespace DualFlexivControl.Processes.Ownership

/-! ## Daemons -/

/-- How far a `dfc-session` process is: before its check, past it and on its way to the first
`session.json`, serving, with the file removed, or gone. -/
inductive Phase
  | booting
  | checked
  | tagged
  | swept
  | started
  | serving
  | removed
  | dead
  deriving DecidableEq, Repr

namespace Phase

/-- The process exists. -/
def alive (phase : Phase) : Bool := phase != .dead

/-- The process exists and has passed its ownership check. -/
def past : Phase → Bool
  | .booting => false
  | .dead => false
  | _ => true

/-- `tag_supervisor`, `orphan_sweep` and `start_hardware`, one after the other. -/
def boot_step : Phase → Option Phase
  | .checked => some .tagged
  | .tagged => some .swept
  | .swept => some .started
  | _ => none

end Phase

structure Daemon where
  pid : ℕ
  user : ℕ
  phase : Phase
  deriving DecidableEq, Repr

/-- Which user may signal whose processes. -/
structure Kernel where
  permits : ℕ → ℕ → Bool
  own : ∀ user, permits user user = true

/-- `session.json`: the process number in it, and which daemon wrote it. -/
structure StateFile where
  pid : ℕ
  author : ℕ
  deriving DecidableEq, Repr

/-- `_pid_alive`: signal 0 gets through. `others` are the processes that are no daemons. -/
def pid_alive (kernel : Kernel) (daemons : List Daemon) (others : ℕ → Bool) (user pid : ℕ) :
    Bool :=
  pid != 0 && (others pid ||
    daemons.any fun d => d.phase.alive && d.pid == pid && kernel.permits user d.user)

/-! ## The machine -/

/-- What an ownership check saw. -/
structure Check where
  daemons : List Daemon
  file : Option StateFile
  user : ℕ
  others : ℕ → Bool

/-- The check of `main`: does a live session own the runtime dir? -/
def Check.owned (kernel : Kernel) (c : Check) : Bool :=
  match c.file with
  | none => false
  | some file => pid_alive kernel c.daemons c.others c.user file.pid

/-- A runtime dir that is owned ends the boot. -/
def Check.next (kernel : Kernel) (c : Check) : Phase := if c.owned kernel then .dead else .checked

/-- Whose `session.json` a shutdown removed, and whether that daemon was alive. -/
structure Removal where
  remover : ℕ
  author : ℕ
  author_alive : Bool
  deriving DecidableEq, Repr

/-- The daemons of a runtime dir and its `session.json`; and the record of all daemons at all
times, of the checks and of the removals. -/
structure Machine where
  daemons : List Daemon
  file : Option StateFile
  history : List (List Daemon)
  checks : List Check
  removals : List Removal

/-- Before the first boot. -/
def Machine.init : Machine := ⟨[], none, [[]], [], []⟩

namespace Machine

variable (m : Machine)

/-- The daemons change. -/
def move (daemons : List Daemon) : Machine :=
  { m with daemons := daemons, history := m.history ++ [daemons] }

/-- One daemon gets to a phase. -/
def reach (i : ℕ) (d : Daemon) (phase : Phase) : Machine :=
  m.move (m.daemons.set i { d with phase := phase })

/-- `main` up to the check. -/
def check (kernel : Kernel) (i : ℕ) (d : Daemon) (others : ℕ → Bool) : Machine :=
  let c : Check := ⟨m.daemons, m.file, d.user, others⟩
  { m.reach i d (c.next kernel) with checks := m.checks ++ [c] }

/-- `state_file.write`: the file is replaced in one step. -/
def write (i : ℕ) (d : Daemon) : Machine :=
  { m.reach i d .serving with file := some ⟨d.pid, i⟩ }

/-- Is this daemon alive? -/
def author_alive (author : ℕ) : Bool :=
  match m.daemons[author]? with
  | some d => d.phase.alive
  | none => false

/-- `state_file.remove`, whoever wrote the file. -/
def remove (i : ℕ) (d : Daemon) : Machine :=
  { m.reach i d .removed with
    file := none
    removals := m.removals ++
      (m.file.map fun file => (⟨i, file.author, m.author_alive file.author⟩ : Removal)).toList }

end Machine

/-- What happens, one step of one process at a time. -/
inductive Step (kernel : Kernel) (m : Machine) : Machine → Prop
  | boot (pid user : ℕ) : 0 < pid → (∀ d ∈ m.daemons, d.phase.alive = true → d.pid ≠ pid) →
      Step kernel m (m.move (m.daemons ++ [⟨pid, user, .booting⟩]))
  | check (i : ℕ) (d : Daemon) (others : ℕ → Bool) : m.daemons[i]? = some d →
      d.phase = .booting → Step kernel m (m.check kernel i d others)
  | boot_step (i : ℕ) (d : Daemon) (phase : Phase) : m.daemons[i]? = some d →
      d.phase.boot_step = some phase → Step kernel m (m.reach i d phase)
  | write (i : ℕ) (d : Daemon) : m.daemons[i]? = some d →
      d.phase = .started ∨ d.phase = .serving → Step kernel m (m.write i d)
  | remove (i : ℕ) (d : Daemon) : m.daemons[i]? = some d → d.phase = .serving →
      Step kernel m (m.remove i d)
  | exit (i : ℕ) (d : Daemon) : m.daemons[i]? = some d → Step kernel m (m.reach i d .dead)

/-- The states of a runtime dir. -/
inductive Reaches (kernel : Kernel) : Machine → Prop
  | init : Reaches kernel .init
  | step {m m' : Machine} : Reaches kernel m → Step kernel m m' → Reaches kernel m'

/-! ## One session -/

/-- At most one live daemon is past its check. -/
def One (daemons : List Daemon) : Prop :=
  ∀ (i j : ℕ) (a b : Daemon), daemons[i]? = some a → daemons[j]? = some b →
    a.phase.past = true → b.phase.past = true → i = j

/-- At all times, and no shutdown removed another live daemon's file. -/
structure Exclusive (m : Machine) : Prop where
  one : ∀ daemons ∈ m.history, One daemons
  removals : ∀ r ∈ m.removals, r.author_alive = true → r.author = r.remover

/-- Every live daemon past its check is serving, under its name in the file, and may be
signalled; or the file names a live process that is not past a check. -/
def Guarded (kernel : Kernel) (c : Check) : Prop :=
  (∀ a ∈ c.daemons, a.phase.past = true →
    a.phase = .serving ∧ kernel.permits c.user a.user = true) ∨
  ∃ file, c.file = some file ∧ (c.others file.pid = true ∨
    ∃ b ∈ c.daemons, b.phase = .booting ∧ b.pid = file.pid ∧
      kernel.permits c.user b.user = true)

/-- What holds of the daemons and the file as long as the checks are guarded. -/
structure Inv (daemons : List Daemon) (file : Option StateFile) : Prop where
  pids : ∀ d ∈ daemons, 0 < d.pid
  file_pid : ∀ f, file = some f → 0 < f.pid
  one : One daemons
  serving : ∀ (i : ℕ) (d : Daemon), daemons[i]? = some d → d.phase = .serving →
    file = some ⟨d.pid, i⟩
  unwritten : ∀ (i : ℕ) (d : Daemon), daemons[i]? = some d → d.phase.past = true →
    d.phase ≠ .serving → ∀ f, file = some f → f.pid ≠ d.pid

/-! ## What a check finds -/

section Checks

variable {kernel : Kernel} {daemons : List Daemon} {file : Option StateFile} {user : ℕ}
  {others : ℕ → Bool}

theorem past_alive {phase : Phase} (h : phase.past = true) : phase.alive = true := by
  cases phase with
  | dead => exact nomatch h
  | _ => rfl

theorem booting_of_not_past {phase : Phase} (halive : phase.alive = true)
    (hpast : ¬ phase.past = true) : phase = .booting := by
  cases phase with
  | booting => rfl
  | dead => exact nomatch halive
  | _ => exact absurd rfl hpast

theorem pid_alive_iff {pid : ℕ} : pid_alive kernel daemons others user pid = true ↔
    pid ≠ 0 ∧ (others pid = true ∨ ∃ b ∈ daemons, b.phase.alive = true ∧ b.pid = pid ∧
      kernel.permits user b.user = true) := by
  simp [pid_alive, and_assoc]

theorem owned_iff : Check.owned kernel ⟨daemons, file, user, others⟩ = true ↔
    ∃ f, file = some f ∧ pid_alive kernel daemons others user f.pid = true := by
  cases file with
  | none => simp [Check.owned]
  | some f => simp [Check.owned]

/-- A guarded check that is passed finds no live daemon past its own. -/
theorem alone_of_passed (h : Inv daemons file)
    (hguarded : Guarded kernel ⟨daemons, file, user, others⟩)
    (hpassed : ¬ Check.owned kernel ⟨daemons, file, user, others⟩ = true) :
    ∀ a ∈ daemons, a.phase.past = false := by
  rw [owned_iff] at hpassed
  rcases hguarded with hserving | ⟨f, hfile, hnamed⟩
  · intro a ha
    by_contra hpast
    rw [Bool.not_eq_false] at hpast
    obtain ⟨hphase, hpermits⟩ := hserving a ha hpast
    obtain ⟨k, hk⟩ := List.getElem?_of_mem ha
    refine hpassed ⟨_, h.serving k a hk hphase,
      pid_alive_iff.2 ⟨Nat.ne_of_gt (h.pids a ha), ?_⟩⟩
    exact .inr ⟨a, ha, past_alive hpast, rfl, hpermits⟩
  · refine absurd ⟨f, hfile, pid_alive_iff.2 ⟨Nat.ne_of_gt (h.file_pid f hfile), ?_⟩⟩ hpassed
    rcases hnamed with hothers | ⟨b, hb, hbooting, hpid, hpermits⟩
    · exact .inl hothers
    · exact .inr ⟨b, hb, by rw [hbooting]; rfl, hpid, hpermits⟩

/-- A check that is not guarded is passed beside another daemon that is past its own. -/
theorem passed_of_unguarded (h : Inv daemons file)
    (hunguarded : ¬ Guarded kernel ⟨daemons, file, user, others⟩) :
    ¬ Check.owned kernel ⟨daemons, file, user, others⟩ = true ∧
      ∃ (k : ℕ) (a : Daemon), daemons[k]? = some a ∧ a.phase.past = true := by
  unfold Guarded at hunguarded
  rw [not_or] at hunguarded
  obtain ⟨hserving, hnamed⟩ := hunguarded
  simp only [not_forall] at hserving
  obtain ⟨a, ha, hpast, hhidden⟩ := hserving
  obtain ⟨k, hk⟩ := List.getElem?_of_mem ha
  refine ⟨?_, k, a, hk, hpast⟩
  rw [owned_iff]
  rintro ⟨f, hfile, halive⟩
  obtain ⟨-, hothers | ⟨b, hb, hbalive, hpid, hpermits⟩⟩ := pid_alive_iff.1 halive
  · exact hnamed ⟨f, hfile, .inl hothers⟩
  · by_cases hbpast : b.phase.past = true
    · -- the file names the one daemon past its check, which then is serving
      obtain ⟨j, hj⟩ := List.getElem?_of_mem hb
      obtain rfl := h.one k j a b hk hj hpast hbpast
      obtain rfl := Option.some.inj (hk.symm.trans hj)
      refine h.unwritten k a hk hpast ?_ f hfile hpid.symm
      exact fun hphase => hhidden ⟨hphase, hpermits⟩
    · exact hnamed ⟨f, hfile, .inr ⟨b, hb, booting_of_not_past hbalive hbpast, hpid, hpermits⟩⟩

end Checks

/-! ## Steps -/

section Steps

variable {kernel : Kernel} {daemons : List Daemon} {file : Option StateFile} {i : ℕ}
  {d : Daemon} {m m' : Machine}

theorem getElem?_set_cases {j : ℕ} {x : Daemon} (h : (daemons.set i d)[j]? = some x) :
    (j = i ∧ x = d) ∨ (j ≠ i ∧ daemons[j]? = some x) := by
  by_cases hij : i = j
  · subst hij
    rw [List.getElem?_set_self'] at h
    obtain ⟨_, _, rfl⟩ := Option.map_eq_some_iff.1 h
    exact .inl ⟨rfl, rfl⟩
  · rw [List.getElem?_set_ne hij] at h
    exact .inr ⟨Ne.symm hij, h⟩

theorem inv_init : Inv [] none where
  pids := fun _ hd => absurd hd List.not_mem_nil
  file_pid := fun _ hfile => nomatch hfile
  one := fun _ _ _ _ hi => nomatch hi
  serving := fun _ _ hi => nomatch hi
  unwritten := fun _ _ hi => nomatch hi

theorem Inv.pids_set (h : Inv daemons file) (hi : daemons[i]? = some d) (phase : Phase) :
    ∀ x ∈ daemons.set i { d with phase := phase }, 0 < x.pid := by
  intro x hx
  rcases List.mem_or_eq_of_mem_set hx with hx | rfl
  · exact h.pids x hx
  · exact h.pids d (List.mem_of_getElem? hi)

/-- Only the daemons past their checks count, so what happens to the others needs no look at the
file. -/
theorem Inv.of_past (h : Inv daemons file) {daemons' : List Daemon}
    (hpids : ∀ x ∈ daemons', 0 < x.pid)
    (hold : ∀ (j : ℕ) (x : Daemon), daemons'[j]? = some x → x.phase.past = true →
      daemons[j]? = some x) : Inv daemons' file where
  pids := hpids
  file_pid := h.file_pid
  one j k a b ha hb hapast hbpast :=
    h.one j k a b (hold j a ha hapast) (hold k b hb hbpast) hapast hbpast
  serving j x hx hphase := h.serving j x (hold j x hx (by rw [hphase]; rfl)) hphase
  unwritten j x hx hpast := h.unwritten j x (hold j x hx hpast) hpast

/-- A new process is not past its check, and has no part in who owns the session. -/
theorem Inv.boot (h : Inv daemons file) {pid user : ℕ} (hpid : 0 < pid) :
    Inv (daemons ++ [⟨pid, user, .booting⟩]) file := by
  refine h.of_past ?_ ?_
  · intro x hx
    rcases List.mem_append.1 hx with hx | hx
    · exact h.pids x hx
    · obtain rfl := List.mem_singleton.1 hx
      exact hpid
  · intro j x hx hpast
    by_cases hlt : j < daemons.length
    · rwa [List.getElem?_append_left hlt] at hx
    · rw [List.getElem?_append_right (Nat.not_lt.1 hlt)] at hx
      obtain rfl := List.mem_singleton.1 (List.mem_of_getElem? hx)
      exact nomatch hpast

/-- A process that is gone is not past its check. -/
theorem Inv.dead (h : Inv daemons file) (hi : daemons[i]? = some d) :
    Inv (daemons.set i { d with phase := .dead }) file := by
  refine h.of_past (h.pids_set hi _) ?_
  intro j x hx hpast
  rcases getElem?_set_cases hx with ⟨-, rfl⟩ | ⟨-, hx⟩
  · exact nomatch hpast
  · exact hx

/-- The one daemon past its check gets on, whatever it does to the file. -/
theorem Inv.reach (h : Inv daemons file) (hi : daemons[i]? = some d)
    (hd : d.phase.past = true ∨ ∀ a ∈ daemons, a.phase.past = false) {phase : Phase}
    {file' : Option StateFile} (hpid : ∀ f, file' = some f → 0 < f.pid)
    (hserving : phase = .serving → file' = some ⟨d.pid, i⟩)
    (hunwritten : phase ≠ .serving → ∀ f, file' = some f → f.pid ≠ d.pid) :
    Inv (daemons.set i { d with phase := phase }) file' := by
  have honly : ∀ (j : ℕ) (x : Daemon),
      (daemons.set i { d with phase := phase })[j]? = some x → x.phase.past = true →
      j = i ∧ x = { d with phase := phase } := by
    intro j x hx hxpast
    rcases getElem?_set_cases hx with hnew | ⟨hne, hx⟩
    · exact hnew
    · rcases hd with hd | hd
      · exact absurd (h.one j i x d hx hi hxpast hd) hne
      · rw [hd x (List.mem_of_getElem? hx)] at hxpast
        exact nomatch hxpast
  refine ⟨h.pids_set hi _, hpid, ?_, ?_, ?_⟩
  · intro j k a b ha hb hapast hbpast
    rw [(honly j a ha hapast).1, (honly k b hb hbpast).1]
  · intro j x hx hphase
    obtain ⟨rfl, rfl⟩ := honly j x hx (by rw [hphase]; rfl)
    exact hserving hphase
  · intro j x hx hxpast hne
    obtain ⟨-, rfl⟩ := honly j x hx hxpast
    exact hunwritten hne

/-- A guarded check is refused, or passed alone: it sees the owner if there is one, and nobody else
is between check and file. -/
theorem Inv.check (h : Inv daemons file) (hi : daemons[i]? = some d) {others : ℕ → Bool}
    (hguarded : Guarded kernel ⟨daemons, file, d.user, others⟩)
    (hbooting : d.phase = .booting) :
    Inv (daemons.set i { d with phase := Check.next kernel ⟨daemons, file, d.user, others⟩ })
      file := by
  unfold Check.next
  by_cases howned : Check.owned kernel ⟨daemons, file, d.user, others⟩ = true
  · rw [if_pos howned]
    exact h.dead hi
  · rw [if_neg howned]
    refine h.reach hi (.inr (alone_of_passed h hguarded howned)) h.file_pid nofun ?_
    -- a file with the daemon's own number would have stopped it
    intro _ f hfile heq
    refine howned (owned_iff.2 ⟨f, hfile, pid_alive_iff.2 ⟨Nat.ne_of_gt (h.file_pid f hfile), ?_⟩⟩)
    exact .inr ⟨d, List.mem_of_getElem? hi, by rw [hbooting]; rfl, heq.symm, kernel.own d.user⟩

theorem past_of_boot_step {phase phase' : Phase} (h : phase.boot_step = some phase') :
    phase.past = true ∧ phase ≠ .serving ∧ phase' ≠ .serving := by
  cases phase with
  | checked => obtain rfl := Option.some.inj h; exact ⟨rfl, nofun, nofun⟩
  | tagged => obtain rfl := Option.some.inj h; exact ⟨rfl, nofun, nofun⟩
  | swept => obtain rfl := Option.some.inj h; exact ⟨rfl, nofun, nofun⟩
  | _ => exact nomatch h

/-- One step of a run whose new check, if there is one, is guarded. -/
theorem Step.inv (hstep : Step kernel m m') (h : Inv m.daemons m.file)
    (hguarded : ∀ c ∈ m'.checks, Guarded kernel c) :
    Inv m'.daemons m'.file ∧ ∀ r ∈ m'.removals, r ∈ m.removals ∨ r.author = r.remover := by
  cases hstep with
  | boot pid user hpid _ => exact ⟨h.boot hpid, fun r hr => .inl hr⟩
  | check i d others hi hbooting =>
    refine ⟨h.check hi (hguarded _ ?_) hbooting, fun r hr => .inl hr⟩
    exact List.mem_append_right _ (List.mem_singleton_self _)
  | boot_step i d phase hi hphase =>
    obtain ⟨hpast, hne, hne'⟩ := past_of_boot_step hphase
    exact ⟨h.reach hi (.inl hpast) h.file_pid (fun heq => absurd heq hne')
      fun _ => h.unwritten i d hi hpast hne, fun r hr => .inl hr⟩
  | write i d hi hphase =>
    have hpast : d.phase.past = true := by
      rcases hphase with hphase | hphase
      · rw [hphase]; rfl
      · rw [hphase]; rfl
    refine ⟨h.reach hi (.inl hpast) ?_ (fun _ => rfl) fun hne => absurd rfl hne,
      fun r hr => .inl hr⟩
    intro f hf
    obtain rfl := Option.some.inj hf
    exact h.pids d (List.mem_of_getElem? hi)
  | remove i d hi hphase =>
    refine ⟨h.reach hi (.inl (by rw [hphase]; rfl)) nofun nofun nofun, ?_⟩
    intro r hr
    -- the file is the remover's own
    unfold Machine.remove at hr
    rw [h.serving i d hi hphase] at hr
    rcases List.mem_append.1 hr with hr | hr
    · exact .inl hr
    · obtain rfl := List.mem_singleton.1 hr
      exact .inr rfl
  | exit i d hi => exact ⟨h.dead hi, fun r hr => .inl hr⟩

theorem Step.history (hstep : Step kernel m m') : m'.history = m.history ++ [m'.daemons] := by
  cases hstep with
  | _ => rfl

/-- A step adds its check to the record, if it is one. -/
theorem Step.checks (hstep : Step kernel m m') : m'.checks = m.checks ∨
    ∃ i d others, m.daemons[i]? = some d ∧ d.phase = .booting ∧
      m'.daemons = m.daemons.set i
        { d with phase := Check.next kernel ⟨m.daemons, m.file, d.user, others⟩ } ∧
      m'.checks = m.checks ++ [⟨m.daemons, m.file, d.user, others⟩] := by
  cases hstep with
  | check i d others hi hbooting => exact .inr ⟨i, d, others, hi, hbooting, rfl, rfl⟩
  | _ => exact .inl rfl

theorem Step.earlier_checks (hstep : Step kernel m m') : ∀ c ∈ m.checks, c ∈ m'.checks := by
  intro c hc
  rcases hstep.checks with heq | ⟨i, d, others, -, -, -, heq⟩
  · rwa [heq]
  · rw [heq]
    exact List.mem_append_left _ hc

end Steps

/-! ## Runs -/

section Runs

variable {kernel : Kernel} {m : Machine}

/-- Guarded checks keep the daemons apart at all times, by induction on the steps of all of them. -/
theorem Reaches.exclusive (h : Reaches kernel m)
    (hguarded : ∀ c ∈ m.checks, Guarded kernel c) :
    Inv m.daemons m.file ∧ Exclusive m := by
  induction h with
  | init =>
    refine ⟨inv_init, ?_, fun _ hr => absurd hr List.not_mem_nil⟩
    intro daemons hdaemons
    obtain rfl := List.mem_singleton.1 hdaemons
    exact inv_init.one
  | step _ hstep ih =>
    obtain ⟨hinv, hexclusive⟩ := ih fun c hc => hguarded c (hstep.earlier_checks c hc)
    obtain ⟨hinv', hremovals⟩ := hstep.inv hinv hguarded
    refine ⟨hinv', ?_, ?_⟩
    · intro daemons hdaemons
      rw [hstep.history] at hdaemons
      rcases List.mem_append.1 hdaemons with hdaemons | hdaemons
      · exact hexclusive.one daemons hdaemons
      · obtain rfl := List.mem_singleton.1 hdaemons
        exact hinv'.one
    · intro r hr halive
      rcases hremovals r hr with hr | heq
      · exact hexclusive.removals r hr halive
      · exact heq

/-- Daemons that are apart at all times had their checks guarded: an unguarded one can be followed
by two sessions at once. -/
theorem Reaches.guarded (h : Reaches kernel m) (hone : ∀ daemons ∈ m.history, One daemons) :
    ∀ c ∈ m.checks, Guarded kernel c := by
  induction h with
  | init => exact fun c hc => absurd hc List.not_mem_nil
  | step hreach hstep ih =>
    rename_i m m'
    have hbefore : ∀ c ∈ m.checks, Guarded kernel c := by
      refine ih fun daemons hdaemons => hone daemons ?_
      rw [hstep.history]
      exact List.mem_append_left _ hdaemons
    rcases hstep.checks with heq | ⟨i, d, others, hi, hbooting, hafter, heq⟩
    · rwa [heq]
    · rw [heq]
      intro c hc
      rcases List.mem_append.1 hc with hc | hc
      · exact hbefore c hc
      obtain rfl := List.mem_singleton.1 hc
      by_contra hunguarded
      obtain ⟨hpassed, k, a, hk, hpast⟩ :=
        passed_of_unguarded (hreach.exclusive hbefore).1 hunguarded
      have hki : k ≠ i := by
        rintro rfl
        obtain rfl := Option.some.inj (hk.symm.trans hi)
        rw [hbooting] at hpast
        exact nomatch hpast
      -- the booting daemon gets past its check beside the other
      have htwo : One m'.daemons := by
        refine hone _ ?_
        rw [hstep.history]
        exact List.mem_append_right _ (List.mem_singleton_self _)
      rw [hafter, Check.next, if_neg hpassed] at htwo
      have hlt : i < m.daemons.length := (List.getElem?_eq_some_iff.1 hi).1
      refine hki (htwo k i a { d with phase := .checked } ?_ ?_ hpast rfl)
      · rwa [List.getElem?_set_ne (Ne.symm hki)]
      · exact List.getElem?_set_self hlt

/-- There is one session at all times, and no shutdown removes another's file, in exactly the
runs whose ownership checks are all guarded. -/
theorem one_session_iff (kernel : Kernel) {m : Machine} (h : Reaches kernel m) :
    Exclusive m ↔ ∀ c ∈ m.checks, Guarded kernel c :=
  ⟨fun hexclusive => h.guarded hexclusive.one, fun hguarded => (h.exclusive hguarded).2⟩

/-- One user's machine. -/
def one_user : Kernel := ⟨fun _ _ => true, fun _ => rfl⟩

/-- A daemon is spawned. -/
theorem Reaches.spawn (h : Reaches kernel m) (pid user : ℕ) (hpid : 0 < pid)
    (hfree : ∀ d ∈ m.daemons, d.phase.alive = true → d.pid ≠ pid) :
    Reaches kernel (m.move (m.daemons ++ [⟨pid, user, .booting⟩])) :=
  h.step (.boot pid user hpid hfree)

/-- A second daemon finds the first serving, and gives up; the general equivalence at this run. -/
theorem second_boot_refused :
    ∃ m, (m.checks.length = 2 ∧ m.daemons.map Daemon.phase = [.serving, .dead]) ∧
      (Exclusive m ↔ ∀ c ∈ m.checks, Guarded one_user c) := by
  have hinit : Reaches one_user .init := .init
  have hfirst := (hinit.spawn 1 0 (by decide) (by decide)).step
    (.check 0 _ (fun _ => false) rfl rfl)
  have hstarted := ((hfirst.step (.boot_step 0 _ _ rfl rfl)).step
    (.boot_step 0 _ _ rfl rfl)).step (.boot_step 0 _ _ rfl rfl)
  have hsecond := ((hstarted.step (.write 0 _ rfl (.inl rfl))).spawn 2 0 (by decide)
    (by decide)).step (.check 1 _ (fun _ => false) rfl rfl)
  exact ⟨_, by decide, one_session_iff one_user hsecond⟩

/-- Two daemons check before either has written, and the first to stop removes the other's
file. -/
theorem two_sessions :
    ∃ m, Reaches one_user m ∧ ¬ (∀ daemons ∈ m.history, One daemons) ∧
      (⟨0, 1, true⟩ : Removal) ∈ m.removals ∧ ¬ Exclusive m := by
  have hinit : Reaches one_user .init := .init
  have hchecked := (((hinit.spawn 1 0 (by decide) (by decide)).spawn 2 0 (by decide)
    (by decide)).step (.check 0 _ (fun _ => false) rfl rfl)).step
    (.check 1 _ (fun _ => false) rfl rfl)
  have hfirst := (((hchecked.step (.boot_step 0 _ _ rfl rfl)).step
    (.boot_step 0 _ _ rfl rfl)).step (.boot_step 0 _ _ rfl rfl)).step (.write 0 _ rfl (.inl rfl))
  have hsecond := (((hfirst.step (.boot_step 1 _ _ rfl rfl)).step
    (.boot_step 1 _ _ rfl rfl)).step (.boot_step 1 _ _ rfl rfl)).step (.write 1 _ rfl (.inl rfl))
  have hremoved := hsecond.step (.remove 0 _ rfl rfl)
  refine ⟨_, hremoved, ?_, by decide, ?_⟩
  · intro hone
    have htwo := hone [⟨1, 0, .serving⟩, ⟨2, 0, .serving⟩] (by decide)
    exact absurd (htwo 0 1 _ _ rfl rfl rfl rfl) (by decide)
  · intro hexclusive
    exact absurd (hexclusive.removals ⟨0, 1, true⟩ (by decide) rfl) (by decide)

end Runs

end DualFlexivControl.Processes.Ownership
