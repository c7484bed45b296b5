/-
The merged loop of `_control_session`: telemetry, faults, commands, setpoint, deadman.

One tick takes its time `t_ns` first and then looks, in this order, at the robot's fault
bit, at the command ring and at the setpoint mailbox. The setpoint is judged by its own
timestamp against `t_ns`. The branch worth the proof is the one that does not look at
it: when the read comes back empty the tick holds, on the grounds that an empty read is a
transient race with the writer.

It is one on a ring of two slots or more. To come back empty the writer has to lap each
of the four passes, so the mailbox has moved on by several setpoints during the read, all
but the first of them stamped after `t_ns`: whatever is newest now is not stale. On a
ring of one slot it need not be a race at all. A writer that died between invalidating
the slot and publishing leaves a mailbox that no pass can ever read, and the deadman
never fires.
-/
import DualFlexivControl.Flexiv.Bootstrap

set_option autoImplicit false

open Interleave Relation DualFlexivControl.Ring DualFlexivControl.Control

namespace DualFlexivControl.Flexiv

open Brain (Channels ChannelSpecs view_setpoint view_command)

variable {α : Type}

/-! ## A tick -/

/-- `deadman_ns` and `deadman_hard_ns`. `ControlChannelCfg` checks the milliseconds they
are computed from. -/
structure Deadman where
  soft_ns : ℤ
  hard_ns : ℤ
  soft_nonneg : 0 ≤ soft_ns
  soft_le_hard : soft_ns ≤ hard_ns

/-- What the setpoint part of a tick decides. -/
inductive Verdict (α : Type) where
  /-- `s.n == 0`: hold without looking at any age. -/
  | torn
  | hard_stop
  | soft_hold
  /-- Call `send_control` with this setpoint of this timestamp. -/
  | actuate (vec : List α) (t_ns : ℤ)

/-- Step (d) of the loop. -/
def judge_setpoint (cfg : Deadman) (t_ns : ℤ) (s : Samples α) : Verdict α :=
  match s.newest, s.newest_t_ns with
  | some vec, some newest_t_ns =>
    if cfg.hard_ns < t_ns - newest_t_ns then .hard_stop
    else if cfg.soft_ns < t_ns - newest_t_ns then .soft_hold
    else .actuate vec newest_t_ns
  | _, _ => .torn

/-- How a tick ends. -/
inductive Outcome (α : Type) where
  | robot_fault
  | stop_requested
  /-- A command row that cannot be decoded raises out of the loop. -/
  | bad_command
  | judged (v : Verdict α)
  /-- `send_control` raised `SafetyHalt`. -/
  | safety_halt (vec : List α) (t_ns : ℤ)

/-- Whether the loop is left at this tick; the `finally` then stops the robot. -/
def Outcome.exits : Outcome α → Bool
  | .judged .torn => false
  | .judged .soft_hold => false
  | .judged (.actuate _ _) => false
  | _ => true

/-- The setpoint `send_control` was called with, if it was. -/
def Outcome.issued : Outcome α → Option (List α × ℤ)
  | .judged (.actuate vec t_ns) => some (vec, t_ns)
  | .safety_halt vec t_ns => some (vec, t_ns)
  | _ => none

/-- One tick, from `b` at its first line to `b'`, when it is done looking at the channels.
Its time is the clock of `b`; actuation and sleep follow. `allow` says which reads of the mailbox
are considered, by the channels at their start and end. -/
inductive MergedTick (R : ChannelSpecs) (cfg : Deadman)
    (allow : Channels α ℚ → Channels α ℚ → Prop) (b : Channels α ℚ) (c : CommandCursor) :
    Channels α ℚ → CommandCursor → Outcome α → Prop where
  | fault {b' : Channels α ℚ} (hreach : ReflTransGen (Brain.Step R) b b') :
      MergedTick R cfg allow b c b' c .robot_fault
  | stop {b' : Channels α ℚ} {c' : CommandCursor} {d : Drained ℚ}
      (hdrain : Exec (Brain.Step R) view_command b (c.drain_new R.command) b' (d, c'))
      (hscan : scan_commands (d.rows.map Prod.fst) = some true) :
      MergedTick R cfg allow b c b' c' .stop_requested
  | raise {b' : Channels α ℚ} {c' : CommandCursor} {d : Drained ℚ}
      (hdrain : Exec (Brain.Step R) view_command b (c.drain_new R.command) b' (d, c'))
      (hscan : scan_commands (d.rows.map Prod.fst) = none) :
      MergedTick R cfg allow b c b' c' .bad_command
  | judge {b₁ b' : Channels α ℚ} {c' : CommandCursor} {d : Drained ℚ} {s : Samples α}
      (hdrain : Exec (Brain.Step R) view_command b (c.drain_new R.command) b₁ (d, c'))
      (hscan : scan_commands (d.rows.map Prod.fst) = some false)
      (hread : Exec (Brain.Step R) view_setpoint b₁ (latest R.setpoint) b' s)
      (hok : allow b₁ b') :
      MergedTick R cfg allow b c b' c' (.judged (judge_setpoint cfg b.clock s))
  /-- The same, where `send_control` refuses the setpoint. -/
  | halt {b₁ b' : Channels α ℚ} {c' : CommandCursor} {d : Drained ℚ} {s : Samples α}
      {vec : List α} {t_ns : ℤ}
      (hdrain : Exec (Brain.Step R) view_command b (c.drain_new R.command) b₁ (d, c'))
      (hscan : scan_commands (d.rows.map Prod.fst) = some false)
      (hread : Exec (Brain.Step R) view_setpoint b₁ (latest R.setpoint) b' s)
      (hok : allow b₁ b')
      (hsend : judge_setpoint cfg b.clock s = .actuate vec t_ns) :
      MergedTick R cfg allow b c b' c' (.safety_halt vec t_ns)

/-- The head of the loop: reached from a bootstrap by ticks that did not leave it, with
any time for actuation and sleep in between. The bootstrap move drains commands too, so the
cursor the loop starts with is any. -/
inductive LoopHead [Zero α] (R : ChannelSpecs) (cfg : Deadman)
    (allow : Channels α ℚ → Channels α ℚ → Prop) : Channels α ℚ → CommandCursor → Prop where
  | entered {b : Channels α ℚ} {c : CommandCursor} (s : Bootstrap R α)
      (hstart : ReflTransGen (Brain.Step R) s.read b) : LoopHead R cfg allow b c
  | again {b b' b'' : Channels α ℚ} {c c' : CommandCursor} {o : Outcome α}
      (hs : LoopHead R cfg allow b c) (htick : MergedTick R cfg allow b c b' c' o)
      (hgo : o.exits = false) (hsleep : ReflTransGen (Brain.Step R) b' b'') :
      LoopHead R cfg allow b'' c'

/-! ## The promise -/

/-- At time `t_ns`, the newest completely published setpoint is past the hard deadman. -/
def Stale (cfg : Deadman) (t_ns : ℤ) (b : Channels α ℚ) : Prop :=
  ∃ x, b.setpoint.log[published b.setpoint - 1]? = some x ∧ x.2 < t_ns - cfg.hard_ns

/-- A tick from `b` to `b'` keeps the deadman: if everything published when it has looked
at the mailbox is past the hard one it leaves the loop and sends nothing, and what it
sends is a published setpoint within the soft one. -/
structure DeadmanKept (cfg : Deadman) (b b' : Channels α ℚ) (o : Outcome α) : Prop where
  hard : Stale cfg b.clock b' → o.exits = true ∧ o.issued = none
  soft : ∀ vec t_ns, o.issued = some (vec, t_ns) → b.clock - t_ns ≤ cfg.soft_ns ∧
    ∃ g, g < published b'.setpoint ∧ b'.setpoint.log[g]? = some (vec, t_ns)

/-- The promise over every run. -/
def HardDeadman (α : Type) [Zero α] (R : ChannelSpecs) (cfg : Deadman) : Prop :=
  ∀ (b b' : Channels α ℚ) (c c' : CommandCursor) (o : Outcome α),
    LoopHead R cfg (fun _ _ => True) b c → MergedTick R cfg (fun _ _ => True) b c b' c' o →
    DeadmanKept cfg b b' o

/-- The mailbox can be read: it has two slots, or its only one is not being written
while it is looked at. -/
def Readable (R : ChannelSpecs) (b₁ b₂ : Channels α ℚ) : Prop :=
  2 ≤ R.setpoint.capacity ∨ begun R.setpoint b₂.setpoint ≤ published b₁.setpoint

/-! ## One read -/

/-- What the read of a tick can return, on a mailbox that is not empty. -/
theorem read_spec {R : ChannelSpecs} {b₁ b₂ : Channels α ℚ} {s : Samples α}
    (hinv : Inv R.setpoint b₁.setpoint) (hpos : 0 < published b₁.setpoint)
    (h : Exec (Brain.Step R) view_setpoint b₁ (latest R.setpoint) b₂ s) :
    (s = Samples.empty ∧ GaveUp R.setpoint read_retries b₁.setpoint b₂.setpoint) ∨
      ∃ g x, g < published b₂.setpoint ∧ b₂.setpoint.log[g]? = some x ∧
        s.newest = some x.1 ∧ s.newest_t_ns = some x.2 := by
  have h := Brain.exec_setpoint h
  rcases latest_spec hinv h with ⟨hs, hzero | hgave⟩ | ⟨m, x, ⟨hm, hm'⟩, hpm, hlog, -, hdata, ht⟩
  · omega
  · exact .inl ⟨hs, hgave⟩
  · have hle := (inv_reach (inv_reach hinv hm).1 hm').2.published_le
    refine .inr ⟨published m - 1, x, by omega, hlog, ?_, ?_⟩
    · rw [Samples.newest, hdata, List.getLast?_singleton]
    · rw [Samples.newest_t_ns, ht, List.getLast?_singleton]

/-- **An empty read is a race.** If a readable mailbox came back empty, what is newest at
the end was stamped after the read began. -/
theorem fresh_of_gaveUp {R : ChannelSpecs} {b₁ b₂ : Channels α ℚ}
    (hinv : Inv R.setpoint b₁.setpoint) (h₁₂ : ReflTransGen (Brain.Step R) b₁ b₂)
    (hok : Readable R b₁ b₂)
    (hgave : GaveUp R.setpoint read_retries b₁.setpoint b₂.setpoint) {x : List α × ℤ}
    (hx : b₂.setpoint.log[published b₂.setpoint - 1]? = some x) : b₁.clock ≤ x.2 := by
  obtain ⟨hinv₂, -⟩ := inv_reach hinv (Brain.reach_setpoint h₁₂)
  rcases hgave with h0 | ⟨hlap, -⟩
  · exact absurd h0 (by decide)
  · rcases hok with hcap | hquiet
    · -- four laps of at least two slots: the newest index is beyond the log of `b₁`
      have hbegun := hinv₂.bounds.2.2.1
      have hlen := hinv.log_length_le
      have hlate := Brain.late_reach h₁₂
      -- and everything beyond it was stamped by the clock of `b₁` or later
      apply hlate.sample (published b₂.setpoint - 1) x _ hx
      unfold read_retries at hlap
      omega
    · omega

theorem judge_setpoint_some {cfg : Deadman} {t_ns : ℤ} {s : Samples α} {x : List α × ℤ}
    (hvec : s.newest = some x.1) (ht : s.newest_t_ns = some x.2) :
    judge_setpoint cfg t_ns s =
      if cfg.hard_ns < t_ns - x.2 then .hard_stop
      else if cfg.soft_ns < t_ns - x.2 then .soft_hold else .actuate x.1 x.2 := by
  unfold judge_setpoint
  rw [hvec, ht]

/-- The setpoint part of a tick: on a readable mailbox a stale setpoint is a hard stop,
and a setpoint that is used is fresh. -/
theorem judge_kept {R : ChannelSpecs} {cfg : Deadman} {b b₁ b' : Channels α ℚ}
    {s : Samples α} (hinv : Inv R.setpoint b₁.setpoint) (htimed : Brain.Timed b')
    (hpos : 0 < published b₁.setpoint) (hclock : b.clock ≤ b₁.clock)
    (hread : Exec (Brain.Step R) view_setpoint b₁ (latest R.setpoint) b' s)
    (hok : Readable R b₁ b') :
    (Stale cfg b.clock b' → judge_setpoint cfg b.clock s = .hard_stop) ∧
      ∀ vec t_ns, judge_setpoint cfg b.clock s = .actuate vec t_ns →
        b.clock - t_ns ≤ cfg.soft_ns ∧
          ∃ g, g < published b'.setpoint ∧ b'.setpoint.log[g]? = some (vec, t_ns) := by
  have hhard := cfg.soft_nonneg.trans cfg.soft_le_hard
  -- an empty read holds without looking at any age: it has to be excluded or excused
  rcases read_spec hinv hpos hread with ⟨rfl, hgave⟩ | ⟨g, x, hg, hlog, hvec, ht⟩
  · constructor
    · rintro ⟨x, hx, hstale⟩
      have hfresh := fresh_of_gaveUp hinv hread.reach hok hgave hx
      omega
    · intro vec t_ns hact
      cases hact
  · rw [judge_setpoint_some hvec ht]
    constructor
    · rintro ⟨y, hy, hstale⟩
      -- what was read is no newer than what is newest at the end
      have hle : x.2 ≤ y.2 := htimed.stamp_le hlog hy (by omega)
      rw [if_pos (by omega)]
    · intro vec t_ns hact
      by_cases hh : cfg.hard_ns < b.clock - x.2
      · rw [if_pos hh] at hact
        cases hact
      · rw [if_neg hh] at hact
        by_cases hs : cfg.soft_ns < b.clock - x.2
        · rw [if_pos hs] at hact
          cases hact
        · rw [if_neg hs] at hact
          cases hact
          exact ⟨by omega, g, hg, hlog⟩

/-! ## Every tick of every run -/

theorem MergedTick.reach {R : ChannelSpecs} {cfg : Deadman}
    {allow : Channels α ℚ → Channels α ℚ → Prop} {b b' : Channels α ℚ} {c c' : CommandCursor}
    {o : Outcome α} (h : MergedTick R cfg allow b c b' c' o) :
    ReflTransGen (Brain.Step R) b b' := by
  cases h with
  | fault hreach => exact hreach
  | stop hdrain _ => exact hdrain.reach
  | raise hdrain _ => exact hdrain.reach
  | judge hdrain _ hread _ => exact hdrain.reach.trans hread.reach
  | halt hdrain _ hread _ _ => exact hdrain.reach.trans hread.reach

/-- The head of the loop is a state of the session's channels, with a setpoint in the
mailbox. -/
theorem loopHead_inv [Zero α] {R : ChannelSpecs} {cfg : Deadman}
    {allow : Channels α ℚ → Channels α ℚ → Prop} {b : Channels α ℚ} {c : CommandCursor}
    (h : LoopHead R cfg allow b c) : Brain.Reachable R b ∧ 0 < published b.setpoint := by
  induction h with
  | entered s hstart =>
    have hdrained := s.reachable_drained
    refine ⟨hdrained.tail (s.reads.reach.trans hstart), ?_⟩
    -- the bootstrap read a setpoint, so one was published
    obtain ⟨m, t, ⟨hm, hm'⟩, hpos, -⟩ := Bootstrap.target_spec (s := s) (.python hstart)
    have hinv := inv_of_reachable hdrained.setpoint
    have hle := (inv_reach (inv_reach hinv hm).1 hm').2.published_le
    omega
  | again _ htick _ hsleep ih =>
    have hreach := htick.reach.trans hsleep
    have hinv := inv_of_reachable ih.1.setpoint
    have hle := (inv_reach hinv (Brain.reach_setpoint hreach)).2.published_le
    exact ⟨ih.1.tail hreach, ih.2.trans_le hle⟩

/-- The setpoint part of a tick that starts from a state of the session. -/
theorem tick_kept [Zero α] {R : ChannelSpecs} {cfg : Deadman} {b b₁ b' : Channels α ℚ}
    {c c' : CommandCursor} {d : Drained ℚ} {s : Samples α} (hreach : Brain.Reachable R b)
    (hpos : 0 < published b.setpoint)
    (hdrain : Exec (Brain.Step R) view_command b (c.drain_new R.command) b₁ (d, c'))
    (hread : Exec (Brain.Step R) view_setpoint b₁ (latest R.setpoint) b' s)
    (hok : Readable R b₁ b') :
    (Stale cfg b.clock b' → judge_setpoint cfg b.clock s = .hard_stop) ∧
      ∀ vec t_ns, judge_setpoint cfg b.clock s = .actuate vec t_ns →
        b.clock - t_ns ≤ cfg.soft_ns ∧
          ∃ g, g < published b'.setpoint ∧ b'.setpoint.log[g]? = some (vec, t_ns) := by
  have hreach₁ := hreach.tail hdrain.reach
  have hgrow := (inv_reach (inv_of_reachable hreach.setpoint)
    (Brain.reach_setpoint hdrain.reach)).2
  have htimed := Brain.timed_of_reachable (hreach₁.tail hread.reach)
  exact judge_kept (inv_of_reachable hreach₁.setpoint) htimed
    (hpos.trans_le hgrow.published_le) (Brain.clock_le hdrain.reach) hread hok

/-- **The hard deadman**, in every run whose ticks find the mailbox readable. -/
theorem deadman_kept [Zero α] {R : ChannelSpecs} {cfg : Deadman} {b b' : Channels α ℚ}
    {c c' : CommandCursor} {o : Outcome α} (hrun : LoopHead R cfg (Readable R) b c)
    (htick : MergedTick R cfg (Readable R) b c b' c' o) : DeadmanKept cfg b b' o := by
  obtain ⟨hreach, hpos⟩ := loopHead_inv hrun
  cases htick with
  | fault _ => exact ⟨fun _ => ⟨rfl, rfl⟩, fun vec t_ns h => (by cases h)⟩
  | stop _ _ => exact ⟨fun _ => ⟨rfl, rfl⟩, fun vec t_ns h => (by cases h)⟩
  | raise _ _ => exact ⟨fun _ => ⟨rfl, rfl⟩, fun vec t_ns h => (by cases h)⟩
  | judge hdrain _ hread hok =>
    obtain ⟨hhard, hsoft⟩ := tick_kept hreach hpos hdrain hread hok
    refine ⟨fun hstale => ?_, fun vec t_ns hissued => hsoft vec t_ns ?_⟩
    · rw [hhard hstale]
      exact ⟨rfl, rfl⟩
    · -- only one verdict issues anything
      generalize judge_setpoint cfg b.clock _ = v at hissued
      cases v with
      | actuate vec' t' =>
        cases hissued
        rfl
      | torn => cases hissued
      | hard_stop => cases hissued
      | soft_hold => cases hissued
  | halt hdrain _ hread hok hsend =>
    obtain ⟨hhard, hsoft⟩ := tick_kept hreach hpos hdrain hread hok
    refine ⟨fun hstale => ?_, fun vec' t' hissued => ?_⟩
    · rw [hhard hstale] at hsend
      cases hsend
    · cases hissued
      exact hsoft _ _ hsend

/-! ## On concrete channels -/

/-- The default thresholds. -/
def default_deadman : Deadman := ⟨100000000, 500000000, by decide, by decide⟩

/-- Two slots and a brain that died between two posts: the first tick is a hard stop. -/
theorem deadman_kept_two_slots :
    Stale default_deadman late_session.read.clock late_session.read ∧
      DeadmanKept default_deadman late_session.read late_session.read
        (.judged (.hard_stop : Verdict ℚ)) := by
  have hhead : LoopHead demo_specs default_deadman (Readable demo_specs) late_session.read ⟨0⟩ :=
    .entered late_session .refl
  have htick : MergedTick demo_specs default_deadman (Readable demo_specs) late_session.read ⟨0⟩
      late_session.read ⟨0⟩ (.judged .hard_stop) :=
    .judge late_session.drains late_session.scanned late_session.reads (.inl le_rfl)
  exact ⟨⟨([0], 0), rfl, by decide⟩, deadman_kept hhead htick⟩

/-- A mailbox of one slot. -/
def one_slot_specs : ChannelSpecs := ⟨one_slot, two_slots⟩

/-- The setpoint `[0]` posted at time zero, and nothing on the command ring. -/
def one_slot_posted : Channels ℚ ℚ :=
  ⟨0, none, ((Producer.create : Producer ℚ).post one_slot [0] 0).getD .create, .create⟩

/-- Then a second `append` invalidates its slot, and the brain is killed. -/
def killed_mid_append (clock : ℤ) : Channels ℚ ℚ :=
  { one_slot_posted with
    clock := clock
    setpoint := (runActs (Producer.step one_slot) [.append [1] 0, .store]
      one_slot_posted.setpoint).getD .create }

theorem one_slot_posted_reachable : Brain.Reachable one_slot_specs one_slot_posted :=
  ⟨0, Brain.reach_post rfl (show runActs (Producer.step one_slot)
    (.append [0] 0 :: List.replicate 5 .store) .create = _ from rfl)⟩

theorem killed_mid_append_reach (clock : ℤ) (h : 0 ≤ clock) :
    ReflTransGen (Brain.Step one_slot_specs) one_slot_posted (killed_mid_append clock) := by
  have hpost : ReflTransGen (Brain.Step one_slot_specs) one_slot_posted (killed_mid_append 0) :=
    Brain.reach_post rfl (show runActs (Producer.step one_slot)
      (.append [1] 0 :: List.replicate 1 .store) one_slot_posted.setpoint = _ from rfl)
  exact hpost.tail (.wait clock h)

/-- The arm is bootstrapped at once. -/
def one_slot_session : Bootstrap one_slot_specs ℚ where
  opening := one_slot_posted
  attached := one_slot_posted
  polling := one_slot_posted
  drained := one_slot_posted
  read := one_slot_posted
  cursor := ⟨-1⟩
  consumer := ⟨⟨-1⟩, [], []⟩
  commands := ⟨[], none⟩
  cursor' := ⟨-1⟩
  samples := ⟨[[0]], [0], [0], false⟩
  first := [0]
  reachable := one_slot_posted_reachable
  attaches := exec_eval _ _
  awaits := .enabled .refl
  drains := exec_eval _ _
  scanned := scan_commands_nil
  reads := exec_eval _ _
  newest := newest_origin

/-- A quarter of an hour after the brain was killed in the middle of an append, a tick
of the loop finds nothing it can read, holds, and goes on. -/
theorem deadman_never_fires_one_slot : ¬ HardDeadman ℚ one_slot_specs default_deadman := by
  intro hdeadman
  have hhead : LoopHead one_slot_specs default_deadman (fun _ _ => True)
      (killed_mid_append 1000000000000) ⟨-1⟩ :=
    .entered one_slot_session (killed_mid_append_reach _ (by decide))
  have hdrain : Exec (Brain.Step one_slot_specs) view_command (killed_mid_append 1000000000000)
      (CommandCursor.drain_new two_slots ⟨-1⟩) (killed_mid_append 1000000000000)
      (⟨[], none⟩, ⟨-1⟩) := exec_eval _ _
  -- the only slot is stamped `-1` for good, so all four passes fail
  have hread : Exec (Brain.Step one_slot_specs) view_setpoint (killed_mid_append 1000000000000)
      (latest one_slot) (killed_mid_append 1000000000000) Samples.empty := exec_eval _ _
  have htick : MergedTick one_slot_specs default_deadman (fun _ _ => True)
      (killed_mid_append 1000000000000) ⟨-1⟩ (killed_mid_append 1000000000000) ⟨-1⟩
      (.judged .torn) := .judge hdrain rfl hread trivial
  have hstale : Stale default_deadman (killed_mid_append 1000000000000).clock
      (killed_mid_append 1000000000000) := ⟨([0], 0), rfl, by decide⟩
  have hexits := ((hdeadman _ _ _ _ _ hhead htick).hard hstale).1
  cases hexits

end DualFlexivControl.Flexiv
