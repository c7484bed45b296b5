/-
A control session up to its bootstrap move (`_control_session`, `_await_first_setpoint`
and the native `Run` before its loop).

The arm attaches its command cursor, enables the servos, and then polls: drain the
commands, look at the setpoint mailbox, until there is a setpoint. On the Python path
that setpoint is what MoveJ drives to; on the native path it only says that the
controller may be started, which reads the mailbox again and moves to what it finds.

There is no deadman here, and the cursor is deliberately blind to what was posted before
it existed. What the bootstrap does guarantee is proved in
[`Bootstrap.target_spec`] and [`Bootstrap.no_stop`]: the target is a completely
published setpoint, the newest one of a moment after the last look at the commands; and
no STOP that the cursor is responsible for had been posted by that look, except one the
command ring has overwritten.
-/
import DualFlexivControl.Brain.Channels
import DualFlexivControl.Control.Channel
import DualFlexivControl.Control.Message
import DualFlexivControl.Native.Setpoints

set_option autoImplicit false

open Interleave Relation DualFlexivControl.Ring DualFlexivControl.Control

namespace DualFlexivControl.Flexiv

open Brain (Channels ChannelSpecs view_setpoint view_command)

variable {α : Type}

/-! ## The session -/

/-- `_await_first_setpoint`: the channels and the cursor at the head of its loop, with
what has been drained so far. The first constructor covers everything between attaching
the cursor and the first iteration, the servo enable above all. -/
inductive Awaits (R : ChannelSpecs) (attached : Channels α ℚ) (cursor : CommandCursor) :
    Channels α ℚ → Consumer ℚ → Prop where
  | enabled {b : Channels α ℚ} (hwait : ReflTransGen (Brain.Step R) attached b) :
      Awaits R attached cursor b ⟨cursor, [], []⟩
  /-- No STOP, no setpoint yet: telemetry, a sleep, and again. -/
  | polled {b b₁ b₂ b₃ : Channels α ℚ} {s : Consumer ℚ} {d : Drained ℚ} {c' : CommandCursor}
      {first : Samples α} (hs : Awaits R attached cursor b s)
      (hdrain : Exec (Brain.Step R) view_command b (s.cursor.drain_new R.command) b₁ (d, c'))
      (hscan : scan_commands (d.rows.map Prod.fst) = some false)
      (hread : Exec (Brain.Step R) view_setpoint b₁ (latest R.setpoint) b₂ first)
      (hnone : first.newest = none) (hwait : ReflTransGen (Brain.Step R) b₂ b₃) :
      Awaits R attached cursor b₃ ⟨c', s.returned ++ d.rows, s.losses ++ d.lost.toList⟩

/-- A session that got its first setpoint: the channels when the arm began to attach,
when it had its cursor, at the head of the last iteration, after that iteration's drain,
and after its read. -/
structure Bootstrap (R : ChannelSpecs) (α : Type) [Zero α] where
  opening : Channels α ℚ
  attached : Channels α ℚ
  polling : Channels α ℚ
  drained : Channels α ℚ
  read : Channels α ℚ
  cursor : CommandCursor
  consumer : Consumer ℚ
  commands : Drained ℚ
  cursor' : CommandCursor
  samples : Samples α
  first : List α
  reachable : Brain.Reachable R opening
  attaches : Exec (Brain.Step R) view_command opening (CommandCursor.init R.command) attached
    cursor
  awaits : Awaits R attached cursor polling consumer
  drains : Exec (Brain.Step R) view_command polling (consumer.cursor.drain_new R.command) drained
    (commands, cursor')
  scanned : scan_commands (commands.rows.map Prod.fst) = some false
  reads : Exec (Brain.Step R) view_setpoint drained (latest R.setpoint) read samples
  newest : samples.newest = some first

variable [Zero α]

/-- The move starts: the channels at that moment and the setpoint it drives to. The
safety checks in between can only refuse it. -/
inductive MoveJ (R : ChannelSpecs) (s : Bootstrap R α) : Channels α ℚ → List α → Prop where
  /-- `start_control` moves to the setpoint the wait returned. -/
  | python {b : Channels α ℚ} (hwait : ReflTransGen (Brain.Step R) s.read b) :
      MoveJ R s b s.first
  /-- The native controller connects, enables, and reads the mailbox itself. -/
  | native {b₁ b₂ b : Channels α ℚ} {r : Native.Read α}
      (hspawn : ReflTransGen (Brain.Step R) s.read b₁)
      (hread : Exec (Brain.Step R) view_setpoint b₁ (Native.latest R.setpoint [] 0) b₂ r)
      (hok : r.ok = true) (hwait : ReflTransGen (Brain.Step R) b₂ b) : MoveJ R s b r.out

/-! ## The target -/

/-- A sample read on the way from `b` to `b'` was the newest of some moment in between. -/
def NewestBetween (R : ChannelSpecs) (b b' : Channels α ℚ) (target : List α) : Prop :=
  ∃ m t, Between (Ring.Step R.setpoint) b.setpoint m b'.setpoint ∧ 0 < published m ∧
    b'.setpoint.log[published m - 1]? = some (target, t)

omit [Zero α] in
theorem Awaits.reach {R : ChannelSpecs} {attached b : Channels α ℚ} {cursor : CommandCursor}
    {s : Consumer ℚ} (h : Awaits R attached cursor b s) :
    ReflTransGen (Brain.Step R) attached b := by
  induction h with
  | enabled hwait => exact hwait
  | polled _ hdrain _ hread _ hwait ih =>
    exact ih.trans (hdrain.reach.trans (hread.reach.trans hwait))

/-- The session up to its last drain is one run of the channels. -/
theorem Bootstrap.reachable_drained {R : ChannelSpecs} (s : Bootstrap R α) :
    Brain.Reachable R s.drained :=
  s.reachable.tail (s.attaches.reach.trans (s.awaits.reach.trans s.drains.reach))

/-- **The target.** Whatever path the session takes, the bootstrap moves to a completely
published setpoint, and to the newest one of a moment after the arm's last look at the
commands. -/
theorem Bootstrap.target_spec {R : ChannelSpecs} {s : Bootstrap R α} {b : Channels α ℚ}
    {target : List α} (h : MoveJ R s b target) : NewestBetween R s.drained b target := by
  have hinv := inv_of_reachable s.reachable_drained.setpoint
  cases h with
  | python hwait =>
    have hread := Brain.exec_setpoint s.reads
    have hwait := Brain.reach_setpoint hwait
    have hinv' := (inv_reach hinv hread.reach).1
    rcases latest_spec hinv hread with ⟨hempty, -⟩ | ⟨m, sample, ⟨hm, hm'⟩, hpos, hlog, -, hdata, -⟩
    · -- an empty read is not what ended the wait
      have hnewest := s.newest
      rw [hempty] at hnewest
      cases hnewest
    · have hnewest := s.newest
      rw [Samples.newest, hdata, List.getLast?_singleton] at hnewest
      refine ⟨m, sample.2, ⟨hm, hm'.trans hwait⟩, hpos, ?_⟩
      rw [← Option.some.inj hnewest]
      exact getElem?_of_grows (inv_reach hinv' hwait).2.log_grows hlog
  | native hspawn hread hok hwait =>
    have hspawn := Brain.reach_setpoint (s.reads.reach.trans hspawn)
    have hread := Brain.exec_setpoint hread
    have hwait := Brain.reach_setpoint hwait
    -- the native controller reads for itself, and goes on only with a whole setpoint
    have hinv₁ := (inv_reach hinv hspawn).1
    have hinv₂ := (inv_reach hinv₁ hread.reach).1
    rcases Native.latest_spec hinv₁ hread with ⟨-, -, m, ⟨hm, hm'⟩, hpos, hlog⟩ | ⟨hfail, -⟩
    · exact ⟨m, _, ⟨hspawn.trans hm, hm'.trans hwait⟩, hpos,
        getElem?_of_grows (inv_reach hinv₂ hwait).2.log_grows hlog⟩
    · rw [hok] at hfail
      cases hfail

/-! ## The commands -/

omit [Zero α] in
/-- The drains of the wait are a consumer's run on the command ring, and none of the
rows it returned was a STOP. -/
theorem awaits_consumes {R : ChannelSpecs} {attached b : Channels α ℚ} {cursor : CommandCursor}
    {s : Consumer ℚ} (h : Awaits R attached cursor b s) :
    (∃ q, Consumes R.command (fun _ _ => True) attached.command cursor q s ∧
      ReflTransGen (Ring.Step R.command) q b.command) ∧
      ∀ r ∈ s.returned, ¬ IsStop r.1 := by
  induction h with
  | enabled hwait =>
    refine ⟨⟨_, .created, Brain.reach_command hwait⟩, ?_⟩
    intro r hr
    cases hr
  | polled _ hdrain hscan hread _ hwait ih =>
    obtain ⟨⟨q, hq, hqb⟩, hnone⟩ := ih
    -- the time since the previous drain belongs to this one
    have hdrain := (Brain.exec_command hdrain).head hqb
    refine ⟨⟨_, .drained hq hdrain trivial, Brain.reach_command (hread.reach.trans hwait)⟩, ?_⟩
    intro r hr
    rcases List.mem_append.mp hr with hr | hr
    · exact hnone r hr
    · exact not_isStop_of_scan hscan (List.mem_map_of_mem hr)

/-- **The commands.** Of the commands posted between the creation of the cursor and the
last drain, none whose slot is still its own was a STOP. -/
theorem Bootstrap.no_stop {R : ChannelSpecs} (s : Bootstrap R α) :
    ∃ m, Between (Ring.Step R.command) s.opening.command m s.attached.command ∧
      ∀ i row t, published m ≤ i → i < published s.polling.command →
        begun R.command s.drained.command ≤ i + R.command.capacity →
        s.drained.command.log[i]? = some (row, t) → ¬ IsStop row := by
  have hinv := inv_of_reachable s.reachable.command
  obtain ⟨m, hm, hc⟩ := init_spec hinv (Brain.exec_command s.attaches)
  obtain ⟨hinvm, -⟩ := inv_reach hinv hm.1
  obtain ⟨hinv₁, hgrow₁⟩ := inv_reach hinvm hm.2
  have h₀ := tracks_created hinv₁ hgrow₁.published_le hc
  refine ⟨m, hm, fun i row t hlo hhi hheld hrow => ?_⟩
  obtain ⟨⟨q, hq, hqp⟩, hnone⟩ := awaits_consumes s.awaits
  have hdrain := Brain.exec_command s.drains
  have hpolling := (follows_of_consumes h₀ hq).mono hqp
  -- the last drain puts the cursor past everything posted before it
  have hsettled : published s.polling.command ≤ s.cursor'.next := by
    apply settles_of hpolling.inv hpolling.cursor_ge hpolling.next_le _ _ _ hdrain
    unfold read_retries
    omega
  -- so command `i` was returned, and every row returned was looked at
  have hdrained := hpolling.drain hdrain
  have hmem := hdrained.held i hlo (hhi.trans_le hsettled) hheld
  obtain ⟨r, hr, rfl⟩ := List.mem_map.mp hmem
  obtain ⟨t', ht'⟩ := hdrained.rows r hr
  rw [ht'] at hrow
  cases hrow
  rcases List.mem_append.mp hr with hr | hr
  · exact hnone r hr
  · exact not_isStop_of_scan s.scanned (List.mem_map_of_mem hr)

/-! ## The result, and what it leaves out -/

/-- The setpoint a move targets is not older than the hard deadman when it starts. -/
def FreshTarget (deadman_hard_ns : ℤ) (b : Channels α ℚ) (target : List α) : Prop :=
  ∃ g t, g < published b.setpoint ∧ b.setpoint.log[g]? = some (target, t) ∧
    b.clock - t ≤ deadman_hard_ns

/-- No STOP has been posted on the session's command channel. -/
def NoStopPosted (b : Channels α ℚ) : Prop :=
  ∀ i row t, i < published b.command → b.command.log[i]? = some (row, t) → ¬ IsStop row

/-- **The bootstrap move**, of either path, is to a completely published setpoint, the
newest one of a moment after the arm's last look at the commands; and of the commands
posted from the creation of the cursor up to that look, none whose slot is still its own
was a STOP. -/
theorem bootstrap_moves_to_published_setpoint {R : ChannelSpecs} {s : Bootstrap R α}
    {b : Channels α ℚ} {target : List α} (h : MoveJ R s b target) :
    NewestBetween R s.drained b target ∧
      ∃ m, Between (Ring.Step R.command) s.opening.command m s.attached.command ∧
        ∀ i row t, published m ≤ i → i < published s.polling.command →
          begun R.command s.drained.command ≤ i + R.command.capacity →
          s.drained.command.log[i]? = some (row, t) → ¬ IsStop row :=
  ⟨Bootstrap.target_spec h, s.no_stop⟩

/-- Two-slot rings of one word. -/
def demo_specs : ChannelSpecs := ⟨two_slots, two_slots⟩

/-- A brain that has posted the setpoint `[0]` at time zero and then a STOP, and is not
heard of again; ten seconds later. -/
def dead_brain (clock : ℤ) : Channels ℚ ℚ :=
  ⟨clock, none, ((Producer.create : Producer ℚ).post two_slots [0] 0).getD .create,
    ((Producer.create : Producer ℚ).post two_slots [2] 0).getD .create⟩

theorem dead_brain_reachable : Brain.Reachable demo_specs (dead_brain 0) := by
  have hsetpoint : ReflTransGen (Brain.Step demo_specs) (Channels.create 0 : Channels ℚ ℚ)
      { (Channels.create 0 : Channels ℚ ℚ) with setpoint := (dead_brain 0).setpoint } :=
    Brain.reach_post rfl (show runActs (Producer.step two_slots)
      (.append [0] 0 :: List.replicate 5 .store) .create = _ from rfl)
  have hcommand : ReflTransGen (Ring.Step two_slots) Producer.create (dead_brain 0).command :=
    runActs_reach (show runActs (Producer.step two_slots)
      (.append [2] 0 :: List.replicate 5 .store) .create = _ from rfl)
  exact ⟨0, hsetpoint.trans (Brain.reach_send hcommand)⟩

/-- A read that returned the setpoint `[0]` alone. -/
theorem newest_origin : (⟨[[0]], [0], [0], false⟩ : Samples ℚ).newest = some [0] := rfl

/-- The arm attaches to the channels of the dead brain, takes ten seconds to enable its
servos, and finds a setpoint. -/
def late_session : Bootstrap demo_specs ℚ where
  opening := dead_brain 0
  attached := dead_brain 0
  polling := dead_brain 10000000000
  drained := dead_brain 10000000000
  read := dead_brain 10000000000
  cursor := ⟨0⟩
  consumer := ⟨⟨0⟩, [], []⟩
  commands := ⟨[], none⟩
  cursor' := ⟨0⟩
  samples := ⟨[[0]], [0], [0], false⟩
  first := [0]
  reachable := dead_brain_reachable
  attaches := exec_eval _ _
  awaits := .enabled (.single (.wait 10000000000 (by decide)))
  drains := exec_eval _ _
  scanned := scan_commands_nil
  reads := exec_eval _ _
  newest := newest_origin

/-- The move it makes is to the setpoint of the ring. -/
theorem bootstrap_moves_to_published_setpoint_late :
    MoveJ demo_specs late_session late_session.read [0] ∧
      NewestBetween demo_specs late_session.drained late_session.read [0] := by
  have hmove : MoveJ demo_specs late_session late_session.read [0] := .python .refl
  exact ⟨hmove, (bootstrap_moves_to_published_setpoint hmove).1⟩

/-- But that setpoint is ten seconds old, and the brain had posted a STOP. -/
theorem bootstrap_without_deadman :
    (¬ ∀ (s : Bootstrap demo_specs ℚ) (b : Channels ℚ ℚ) (target : List ℚ),
      MoveJ demo_specs s b target → FreshTarget 500000000 b target) ∧
    ¬ ∀ (s : Bootstrap demo_specs ℚ) (b : Channels ℚ ℚ) (target : List ℚ),
      MoveJ demo_specs s b target → NoStopPosted b := by
  have hmove : MoveJ demo_specs late_session late_session.read [0] := .python .refl
  constructor
  · intro h
    obtain ⟨g, t, hg, hlog, hage⟩ := h _ _ _ hmove
    have hpub : published late_session.read.setpoint = 1 := rfl
    obtain rfl : g = 0 := by omega
    cases hlog
    exact absurd hage (by decide)
  · intro h
    refine h _ _ _ hmove 0 [2] 0 (by decide) rfl ⟨[], ?_⟩
    rw [show ([2] : List ℚ) = [((2 : ℤ) : ℚ)] from rfl]
    simp only [ControlCommand.decode, py_round_intCast]
    rfl

end DualFlexivControl.Flexiv
