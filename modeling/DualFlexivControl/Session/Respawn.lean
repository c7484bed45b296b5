/-
A respawned arm comes back idle -- if the drain found everything.

The daemon empties a dead arm's queue before it spawns the next node, but
`_drain_session_q` stops at the first `Empty`, and `Empty` says nothing about the feeder's
buffer. So a message put before a node's spawn is consumed by that node exactly if the
feeder was still holding it when the drain gave up. Everything else in the protocol is
sound: between the drain and the respawn nothing is put, because a reaped arm stays in
`arms_down` and a start that commands an arm in it is refused.

[`SideFresh`] is the invariant. It says of every side that what is queued, and what its
node executes, was put for that node; the last fields tie it to the place the daemon's
thread is at.
-/
import DualFlexivControl.Session.Protocol

set_option autoImplicit false

namespace DualFlexivControl.Session

variable {Side M : Type}

/-- When a drain gives up, the feeder has delivered everything. -/
def FeederIdle (s : State Side M) (act : Act Side M) : Prop :=
  ∀ due side reconnect, act = .daemon (.drain_empty due) → s.pc = .draining side reconnect →
    (s.sides side).queue.buffer = []

/-! ## The invariant -/

/-- The state of a side whose messages were all put for its present node. -/
structure SideFresh (pc : Pc Side M) (side : Side) (x : SideState M) : Prop where
  pending_gen : ∀ m ∈ x.queue.pending, m.gen = x.spawns
  session_gen : ∀ c, x.node = .session c → c.msg.gen = x.spawns
  reaped_dead : x.reaped = true → x.node = .dead
  /-- Between the drain and the respawn. -/
  reaped_quiet : x.reaped = true → (∀ reconnect, pc ≠ .draining side reconnect) →
    x.queue.pending = [] ∧ x.down = true
  draining_dead : ∀ reconnect, pc = .draining side reconnect → x.node = .dead
  awaiting_up : ∀ cmd remaining, pc = .starting cmd remaining → side ∈ remaining →
    x.down = false

/-- All sides are. -/
def Fresh (s : State Side M) : Prop := ∀ side, SideFresh s.pc side (s.sides side)

section Side

variable {pc pc' : Pc Side M} {side : Side} {x x' : SideState M}

/-- The daemon's thread moves on, away from this side, and what is known of the side stays. -/
theorem SideFresh.change_pc (h : SideFresh pc side x)
    (hd : ∀ reconnect, pc ≠ .draining side reconnect)
    (hd' : ∀ reconnect, pc' ≠ .draining side reconnect)
    (hup : ∀ cmd remaining, pc' = .starting cmd remaining → side ∈ remaining → x.down = false) :
    SideFresh pc' side x where
  pending_gen := h.pending_gen
  session_gen := h.session_gen
  reaped_dead := h.reaped_dead
  reaped_quiet hr _ := h.reaped_quiet hr hd
  draining_dead reconnect hpc := absurd hpc (hd' reconnect)
  awaiting_up := hup

/-- An arm's move: it executes what it polled, and polls only what is pending. -/
theorem SideFresh.arm_move (h : SideFresh pc side x) (halive : x.node ≠ .dead)
    (hmove : ArmMove x x') : SideFresh pc side x' := by
  have hreaped : x.reaped = false := by
    by_contra hr
    exact halive (h.reaped_dead (by simpa using hr))
  have hpc : ∀ reconnect, pc ≠ .draining side reconnect :=
    fun reconnect hpc => halive (h.draining_dead reconnect hpc)
  cases hmove with
  | publish b => exact { h with }
  | poll m q stage hget hstage =>
    have hpending := x.queue.pending_get hget
    exact {
      pending_gen := fun m' hm' => h.pending_gen m' (by simp [hpending, hm'])
      session_gen := fun c hc => by
        cases hc
        exact h.pending_gen m (by simp [hpending])
      reaped_dead := by simp [hreaped]
      reaped_quiet := by simp [hreaped]
      draining_dead := fun reconnect hd => absurd hd (hpc reconnect)
      awaiting_up := h.awaiting_up }
  | advance c next hnode hrun hlook =>
    exact { h with
      session_gen := fun c' hc' => by
        cases hc'
        exact h.session_gen c hnode
      reaped_dead := by simp [hreaped]
      draining_dead := fun reconnect hd => absurd hd (hpc reconnect) }
  | attach c ch r next hnode hrun hch hseg hlook =>
    exact { h with
      session_gen := fun c' hc' => by
        cases hc'
        exact h.session_gen c hnode
      reaped_dead := by simp [hreaped]
      draining_dead := fun reconnect hd => absurd hd (hpc reconnect) }
  | leave node hnode =>
    exact { h with
      session_gen := fun c hc => absurd hc (hnode c)
      reaped_dead := by simp [hreaped]
      draining_dead := fun reconnect hd => absurd hd (hpc reconnect) }

/-- The channels do not matter here. -/
theorem SideFresh.channels (h : SideFresh pc side x) (segments manifests : Chan → Option ℕ) :
    SideFresh pc side { x with segments := segments, manifests := manifests } :=
  { h with }

/-- A new node starts fresh if nothing is queued for it. -/
theorem SideFresh.make_arm_unit (hq : x.queue.pending = []) :
    SideFresh (.serving : Pc Side M) side (Session.make_arm_unit x) where
  pending_gen := by simp [Session.make_arm_unit, hq]
  session_gen := by simp [Session.make_arm_unit]
  reaped_dead := by simp [Session.make_arm_unit]
  reaped_quiet := by simp [Session.make_arm_unit]
  draining_dead := by simp
  awaiting_up := by simp

/-- A drained node that is dead and reported down. -/
theorem SideFresh.drained (h : SideFresh pc side x) (hq : x.queue.pending = [])
    (hdead : x.node = .dead) :
    SideFresh (.serving : Pc Side M) side { x with down := true } where
  pending_gen := h.pending_gen
  session_gen := h.session_gen
  reaped_dead _ := hdead
  reaped_quiet _ _ := ⟨hq, rfl⟩
  draining_dead := by simp
  awaiting_up := by simp

end Side

theorem fresh_init : Fresh (init : State Side M) := by
  intro side
  constructor <;> simp [init, FeederQueue.pending]

/-! ## The daemon's steps -/

section Steps

variable {arms : List Side} {s s' : State Side M} {side : Side} {x : SideState M}

/-- Only the daemon's thread moves on. -/
theorem Fresh.move_pc {pc : Pc Side M} (hs : Fresh s)
    (hd : ∀ side reconnect, s.pc ≠ .draining side reconnect)
    (hd' : ∀ side reconnect, pc ≠ .draining side reconnect)
    (hup : ∀ side cmd remaining, pc = .starting cmd remaining → side ∈ remaining →
      (s.sides side).down = false) (side : Side) : SideFresh pc side (s.sides side) :=
  (hs side).change_pc (hd side) (hd' side) (hup side)

variable [DecidableEq Side]

/-- One side changes, the daemon's thread stays where it is. -/
theorem Fresh.set (hs : Fresh s) (hx : SideFresh s.pc side x) : Fresh (s.set side x) := by
  intro other
  by_cases h : other = side
  · subst h
    simpa using hx
  · simpa [h] using hs other

/-- One side changes and the daemon's thread moves on, drains of other sides apart. -/
theorem Fresh.set_pc {pc : Pc Side M} (hs : Fresh s) (hx : SideFresh pc side x)
    (hd : ∀ other, other ≠ side → ∀ reconnect, s.pc ≠ .draining other reconnect)
    (hd' : ∀ other, other ≠ side → ∀ reconnect, pc ≠ .draining other reconnect)
    (hup : ∀ other cmd remaining, pc = .starting cmd remaining → other ∈ remaining →
      (s.sides other).down = false) (other : Side) :
    SideFresh pc other ((s.set side x).sides other) := by
  by_cases h : other = side
  · subst h
    simpa using hx
  · have hother := (hs other).change_pc (hd other h) (hd' other h) (hup other)
    simpa [h] using hother

/-- An accepted start commands no arm that is down. -/
theorem start_accepted_up {cmd : StartCmd Side M} (h : start_accepted arms s cmd = true) :
    ∀ side ∈ cmd.command_sides, (s.sides side).down = false := by
  simp only [start_accepted, Bool.and_eq_true, List.all_eq_true] at h
  intro side hside
  simpa using (h.2 side hside).2

/-- A put goes to an arm that is not down, hence not to one waiting for its respawn. -/
theorem fresh_put {cmd : StartCmd Side M} {remaining : List Side} (hs : Fresh s)
    (hpc : s.pc = .starting cmd (side :: remaining)) (content : M) (run : ℕ) (other : Side) :
    SideFresh (.starting cmd remaining) other
      ((s.set side { s.sides side with
        queue := (s.sides side).queue.put ⟨run, (s.sides side).spawns, content⟩
        last := run }).sides other) := by
  have hup : ∀ other ∈ side :: remaining, (s.sides other).down = false :=
    fun other h => (hs other).awaiting_up cmd _ hpc h
  -- a reaped arm is down until its respawn, and a start commands no arm that is down
  have hreaped : (s.sides side).reaped = false := by
    by_contra hr
    have hdown := ((hs side).reaped_quiet (by simpa using hr) (by simp [hpc])).2
    rw [hup side (by simp)] at hdown
    cases hdown
  apply hs.set_pc
  · exact {
      pending_gen := by
        intro m hm
        rw [FeederQueue.pending_put, List.mem_append, List.mem_singleton] at hm
        obtain hm | rfl := hm
        · exact (hs side).pending_gen m hm
        · rfl
      session_gen := (hs side).session_gen
      reaped_dead := by simp [hreaped]
      reaped_quiet := by simp [hreaped]
      draining_dead := by simp
      awaiting_up := fun _ _ _ _ => hup side (by simp) }
  · simp [hpc]
  · simp
  · intro other _ remaining' h hother
    cases h
    exact hup other (by simp [hother])

/-- Tending an arm: a live one is not reaped, a reaped one has nothing queued. -/
theorem fresh_tend (hs : Fresh s) (hpc : s.pc = .serving) (fresh due : Bool) :
    Fresh (tend_arm s side fresh due) := by
  have hside := hs side
  rw [hpc] at hside
  unfold tend_arm
  dsimp only
  split
  · -- a living arm is not reaped
    next halive =>
    have hreaped : (s.sides side).reaped = false := by
      by_contra hr
      rw [hside.reaped_dead (by simpa using hr)] at halive
      cases halive
    apply hs.set
    rw [hpc]
    exact { hside with
      reaped_quiet := by simp [hreaped]
      awaiting_up := by simp }
  · next hdead =>
    split
    · -- one that was reaped waits with an empty queue
      next hreaped =>
      have hq := (hside.reaped_quiet hreaped (by simp)).1
      split
      · apply hs.set
        rw [hpc]
        exact .make_arm_unit hq
      · apply hs.set
        rw [hpc]
        exact hside.drained hq (hside.reaped_dead hreaped)
    · -- one that has just died is reaped, and its queue is drained
      have hnode : (s.sides side).node = .dead := by
        cases hn : (s.sides side).node <;> simp_all [Node.is_alive]
      apply hs.set_pc
      · exact { hside with
          reaped_dead := fun _ => hnode
          reaped_quiet := fun _ h => absurd rfl (h false)
          draining_dead := fun _ _ => hnode
          awaiting_up := by simp }
      · simp [hpc]
      · intro other hother reconnect h
        cases h
        exact hother rfl
      · simp

/-- The end of a drain that found everything: the queue and the feeder's buffer are empty, so the
new node finds no older message. -/
theorem fresh_drained {reconnect due : Bool} (hs : Fresh s) (hpc : s.pc = .draining side reconnect)
    (hget : (s.sides side).queue.get_nowait = none) (hbuffer : (s.sides side).queue.buffer = []) :
    (∀ other, SideFresh .serving other
      ((s.set side (make_arm_unit (s.sides side))).sides other)) ∧
      Fresh (reaped_arm s side due) := by
  -- `Empty` from the pipe and an idle feeder: nothing is on its way
  have hq : (s.sides side).queue.pending = [] := by
    rw [FeederQueue.pending_of_empty _ hget, hbuffer]
  have hdead := (hs side).draining_dead reconnect hpc
  have hothers : ∀ other, other ≠ side → ∀ reconnect, s.pc ≠ .draining other reconnect := by
    intro other hother reconnect' h
    rw [hpc] at h
    cases h
    exact hother rfl
  have hset : ∀ x, SideFresh .serving side x → ∀ other,
      SideFresh .serving other ((s.set side x).sides other) := by
    intro x hx
    exact hs.set_pc hx hothers (by simp) (by simp)
  refine ⟨hset _ (.make_arm_unit hq), ?_⟩
  unfold reaped_arm
  apply hset
  split
  · exact .make_arm_unit hq
  · exact (hs side).drained hq hdead

/-- What one step of the daemon preserves, one case for each; the condition is used at the end of a
drain. -/
theorem fresh_daemon_step {act : DaemonAct Side M} (hok : FeederIdle s (.daemon act))
    (h : daemon_step arms s act = some s') (hs : Fresh s) : Fresh s' := by
  cases act with
  | start cmd =>
    simp only [daemon_step] at h
    split at h
    · next hpc =>
      split at h <;> cases h
      next haccept =>
        refine hs.move_pc (by simp [hpc]) (by simp) ?_
        intro side _ _ hpc' hside
        cases hpc'
        exact start_accepted_up haccept side hside
    · cases h
  | put =>
    simp only [daemon_step] at h
    split at h
    · next cmd side remaining hpc =>
      cases h
      exact fresh_put hs hpc cmd.content s.run_seq
    · cases h
  | spawn_consumer =>
    simp only [daemon_step] at h
    split at h
    · next cmd hpc =>
      cases h
      exact hs.move_pc (by simp [hpc]) (by simp) (by simp)
    · cases h
  | stop =>
    simp only [daemon_step] at h
    split at h <;> cases h
    exact hs
  | reap_consumer =>
    simp only [daemon_step] at h
    split at h
    · split at h <;> cases h
      exact fun side => (hs side).channels _ _
    · cases h
  | tend side fresh due =>
    simp only [daemon_step] at h
    split at h <;> cases h
    next hpc => exact fresh_tend hs hpc fresh due
  | reconnect side =>
    simp only [daemon_step] at h
    split at h
    · next hpc =>
      split at h <;> cases h
      exact hs.move_pc (by simp [hpc]) (by simp) (by simp)
    · cases h
  -- the killed arm has no session, and its queue is drained before it is spawned again
  | kill =>
    simp only [daemon_step] at h
    split at h <;> cases h
    next side hpc =>
      refine hs.set_pc ?_ (by simp [hpc]) ?_ (by simp)
      · exact { hs side with
          session_gen := by simp
          reaped_dead := fun _ => rfl
          reaped_quiet := fun _ h => absurd rfl (h true)
          draining_dead := fun _ _ => rfl
          awaiting_up := by simp }
      · intro other hother reconnect h
        cases h
        exact hother rfl
  -- what is drained is one message less; the generation of the others is as it was
  | drain_get =>
    simp only [daemon_step] at h
    split at h
    · next side reconnect hpc =>
      split at h <;> cases h
      next m q hget =>
        have hpending := (s.sides side).queue.pending_get hget
        apply hs.set
        exact { hs side with
          pending_gen := fun m' hm' => (hs side).pending_gen m' (by simp [hpending, hm'])
          reaped_quiet := fun _ h => absurd hpc (h reconnect) }
    · cases h
  -- the arm is only spawned again on an empty queue
  | drain_empty due =>
    simp only [daemon_step] at h
    split at h
    · next side reconnect hpc =>
      split at h
      · cases h
      · next hget =>
        have hdone := @fresh_drained _ _ _ _ _ _ due hs hpc hget (hok due side reconnect rfl hpc)
        split at h <;> cases h
        · exact hdone.1
        · exact hdone.2
    · cases h

/-- What one step of the session preserves: the daemon's by the lemma before, those of feeders and
nodes side by side. -/
theorem fresh_step {act : Act Side M} (hok : FeederIdle s act) (h : step arms s act = some s')
    (hs : Fresh s) : Fresh s' := by
  cases act with
  | arm side act =>
    simp only [step, Option.map_eq_some_iff] at h
    obtain ⟨x, harm, rfl⟩ := h
    obtain ⟨halive, hmove⟩ := arm_step_move harm
    exact hs.set ((hs side).arm_move halive hmove)
  | feeder side =>
    cases h
    apply hs.set
    exact { hs side with
      pending_gen := by simpa using (hs side).pending_gen
      reaped_quiet := by simpa using (hs side).reaped_quiet }
  | consumer side act =>
    simp only [step] at h
    split at h
    · split at h
      · rw [Option.map_eq_some_iff] at h
        obtain ⟨x, hconsumer, rfl⟩ := h
        apply hs.set
        rw [consumer_step_frame hconsumer]
        exact (hs side).channels _ _
      · cases h
    · cases h
  | consumer_exit =>
    simp only [step, Option.map_eq_some_iff] at h
    obtain ⟨r, -, rfl⟩ := h
    exact hs
  | daemon act => exact fresh_daemon_step hok h hs

/-- The run lemma. -/
theorem fresh_of_reach (h : Reach arms FeederIdle s) : Fresh s := by
  induction h with
  | init => exact fresh_init
  | step act _ hok h ih => exact fresh_step hok h ih

end Steps

/-! ## What a new node consumes -/

/-- The message was put before the side's present node was spawned. -/
def PutBeforeSpawn (x : SideState M) (m : Msg M) : Prop := m.gen < x.spawns

/-- In every run in which each drain ends with the feeder idle, whatever the order of puts,
deliveries, deaths, drains and respawns: no node executes a message put before its own
spawn. -/
theorem respawned_arm_comes_back_idle [DecidableEq Side] (arms : List Side) {s : State Side M}
    (h : Reach arms FeederIdle s) (side : Side) (c : ControlSession M)
    (hc : (s.sides side).node = .session c) : ¬ PutBeforeSpawn (s.sides side) c.msg := by
  have hgen := (fresh_of_reach h side).session_gen c hc
  unfold PutBeforeSpawn
  omega

/-- A collection with one arm. -/
def one_arm_start : StartCmd Unit Unit where
  phase := .collection
  command_sides := [()]
  content := ()
  nodup := by simp

/-- An arm that is up dies with a message in its queue and the daemon starts to reap it. -/
def dies_with_message : List (Act Unit Unit) :=
  [.arm () .tick, .daemon (.tend () true false), .daemon (.start one_arm_start), .daemon .put,
    .daemon .spawn_consumer, .arm () .die, .daemon (.tend () false true)]

/-- The consumer ends and the arm is respawned. -/
def respawns : List (Act Unit Unit) :=
  [.consumer_exit, .daemon .reap_consumer, .daemon (.tend () false true)]

/-- The next run, up to its message's consumption. -/
def next_run : List (Act Unit Unit) :=
  [.arm () .tick, .daemon (.tend () true false), .daemon (.start one_arm_start), .daemon .put,
    .daemon .spawn_consumer, .feeder (), .arm () (.poll true)]

/-- The dead node's message is delivered in time and drained, and the respawned node executes that
of the next run. -/
theorem respawned_arm_comes_back_idle_one_arm :
    ∃ (s : State Unit Unit) (c : ControlSession Unit), Reach [()] FeederIdle s ∧
      (s.sides ()).spawns = 2 ∧ (s.sides ()).node = .session c ∧
      ¬ PutBeforeSpawn (s.sides ()) c.msg := by
  -- the dead node's message is delivered in time and drained
  obtain ⟨s₁, s₂, s₃, c, h₁, hbuffer, h₂, h₃, hspawns, hnode⟩ :
      ∃ (s₁ s₂ s₃ : State Unit Unit) (c : ControlSession Unit),
        exec [()] init (dies_with_message ++ [.feeder (), .daemon .drain_get]) = some s₁ ∧
        (s₁.sides ()).queue.buffer = [] ∧
        step [()] s₁ (.daemon (.drain_empty true)) = some s₂ ∧
        exec [()] s₂ (respawns ++ next_run) = some s₃ ∧
        (s₃.sides ()).spawns = 2 ∧ (s₃.sides ()).node = .session c :=
    ⟨_, _, _, _, rfl, rfl, rfl, rfl, rfl, rfl⟩
  have hfree : ∀ acts : List (Act Unit Unit),
      (∀ due, Act.daemon (.drain_empty due) ∉ acts) → ∀ act ∈ acts, ∀ s, FeederIdle s act := by
    intro acts hacts act hact s due side reconnect h
    exact absurd (h ▸ hact) (hacts due)
  have hreach₁ : Reach [()] FeederIdle s₁ :=
    Reach.init.exec (hfree _ (by simp [dies_with_message])) h₁
  have hreach₂ : Reach [()] FeederIdle s₂ := by
    refine hreach₁.step _ ?_ h₂
    intro _ _ _ _ _
    exact hbuffer
  have hreach₃ : Reach [()] FeederIdle s₃ :=
    hreach₂.exec (hfree _ (by simp [respawns, next_run])) h₃
  exact ⟨s₃, c, hreach₃, hspawns, hnode, respawned_arm_comes_back_idle [()] hreach₃ () c hnode⟩

/-- The feeder delivers the dead node's message after the drain: the respawned node goes
into the control session of a run that is over. -/
theorem respawned_arm_enters_control :
    ∃ (s : State Unit Unit) (c : ControlSession Unit), Reach [()] (fun _ _ => True) s ∧
      (s.sides ()).node = .session c ∧ PutBeforeSpawn (s.sides ()) c.msg ∧ s.run = none := by
  obtain ⟨s, c, h, hnode, hgen, hspawns, hrun⟩ :
      ∃ (s : State Unit Unit) (c : ControlSession Unit),
        exec [()] init (dies_with_message ++ [.daemon (.drain_empty true)] ++ respawns ++
          [.feeder (), .arm () (.poll true)]) = some s ∧
        (s.sides ()).node = .session c ∧ c.msg.gen = 1 ∧ (s.sides ()).spawns = 2 ∧ s.run = none :=
    ⟨_, _, rfl, rfl, rfl, rfl, rfl⟩
  refine ⟨s, c, Reach.init.exec (fun _ _ _ => trivial) h, hnode, ?_, hrun⟩
  unfold PutBeforeSpawn
  omega

end DualFlexivControl.Session
