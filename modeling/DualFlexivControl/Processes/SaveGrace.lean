/-
Who may cut an episode save short: `SessionManager._shutdown_locked`, the daemon's `_teardown`
and the orphan sweep, together on one clock.

A collection consumer that is told to stop finalizes its episode, and `runtime.save_grace_s`
says how long it may take. The daemon's teardown honours that: it counts the grace from its own
start, which is not before the stop. The sweep honours it too as far as it goes, for it only
signals consumers whose daemon is dead. But the dashboard gives a daemon 15 seconds, then
SIGTERM, which changes nothing, and after 5 more seconds SIGKILL; and once the daemon is dead
the next sweep takes its consumer for an orphan.

So everything hangs on the moment when the second wait of a manager's shutdown runs out
([`Expiry`]): whether the daemon's consumer is then still finalizing with grace left, or has not
been told to stop at all. Such a consumer records on without its daemon until a sweep finds it.
`run_node` takes the sweep's SIGTERM for a stop, so that the save begins then, and the sweep's
SIGKILL (or the SIGTERM of another sweep) comes into it.
-/
import Mathlib.Algebra.Order.Field.Rat
import Mathlib.Logic.Relation
import Mathlib.Tactic.Linarith

set_option autoImplicit false

namespace DualFlexivControl.Processes.SaveGrace

/-! ## Processes -/

/-- The consumer of a run. `stop_at` is when its stop event was set, by its daemon or by the
handler that `run_node` installs for SIGTERM. -/
structure Consumer where
  collection : Bool
  alive : Bool
  stop_at : Option ℚ
  deriving DecidableEq, Repr

/-- What a daemon is doing: serving, `_teardown` waiting for the consumer until a deadline, then
for it to die of SIGTERM, then unwinding the hardware; or it is dead. -/
inductive Stage
  | serving
  | saving (deadline : ℚ)
  | terminating (deadline : ℚ)
  | unwinding
  | dead
  deriving DecidableEq, Repr

/-- Where `_shutdown_locked` is with a daemon: not begun, waiting for it to exit, waiting after
SIGTERM, or through with it. -/
inductive Closing
  | no
  | waiting (deadline : ℚ)
  | terminating (deadline : ℚ)
  | done
  deriving DecidableEq, Repr

/-- A daemon, its run, what its `session.json` says of it, and the manager's dealings with it.
`held` is whether a manager holds its process. -/
structure Daemon where
  save_grace_s : ℚ
  stage : Stage
  run : Option Consumer
  shown_active : Bool
  heartbeat_ts : ℚ
  held : Bool
  closing : Closing
  deriving DecidableEq, Repr

inductive Signal
  | SIGTERM
  | SIGKILL
  deriving DecidableEq, Repr

/-- `_SHUTDOWN_GRACE_S` -/
def SHUTDOWN_GRACE_S : ℚ := 15

/-- The wait after the manager's SIGTERM. -/
def KILL_GRACE_S : ℚ := 5

/-- `_HEARTBEAT_STALE_S` -/
def HEARTBEAT_STALE_S : ℚ := 6

/-- `_TERM_GRACE_S` of `system.py`. -/
def TERM_GRACE_S : ℚ := 2

/-- Since when the daemon's collection consumer is finalizing its episode. -/
def Daemon.finalizing (d : Daemon) : Option ℚ :=
  d.run.bind fun consumer =>
    if consumer.alive && consumer.collection then consumer.stop_at else none

/-- The daemon's collection consumer is at work and nobody has told it to stop. -/
def Daemon.recording (d : Daemon) : Bool :=
  d.run.any fun consumer =>
    consumer.alive && consumer.collection && consumer.stop_at.isNone

/-- `view().run_active`: a stale heartbeat shows no run. -/
def Daemon.run_active (d : Daemon) (now : ℚ) : Bool :=
  decide (now - d.heartbeat_ts < HEARTBEAT_STALE_S) && d.shown_active

/-- The consumer is told to stop, unless it has been: its stop event is set by the daemon, or by
its own handler when it is sent SIGTERM. -/
def Daemon.stop (d : Daemon) (now : ℚ) : Daemon :=
  { d with run := d.run.map fun consumer =>
    { consumer with stop_at := some (consumer.stop_at.getD now) } }

/-- `_teardown`: stop the run and wait for its save, or go on to the hardware. -/
def Daemon.teardown (d : Daemon) (now : ℚ) : Daemon :=
  match d.run with
  | none => { d with stage := .unwinding }
  | some _ => { d.stop now with stage := .saving (now + d.save_grace_s) }

/-- The consumer exits. -/
def Daemon.consumer_exit (d : Daemon) : Daemon :=
  { d with run := d.run.map fun consumer => { consumer with alive := false } }

/-- `_shutdown_locked` up to its first wait. -/
def Daemon.close (d : Daemon) (now : ℚ) : Daemon :=
  { d with held := false, closing := .waiting (now + SHUTDOWN_GRACE_S) }

/-! ## The system -/

/-- Whether a signal went to a daemon or to its consumer. -/
inductive Target
  | daemon
  | consumer
  deriving DecidableEq, Repr

/-- A signal sent, and what the daemon's consumer was doing then. -/
structure Sent where
  target : Target
  signal : Signal
  time : ℚ
  finalizing : Option ℚ
  save_grace_s : ℚ
  deriving DecidableEq, Repr

/-- The end of a manager's second wait for a daemon that is still alive, and what the daemon's
consumer is doing then. -/
structure Expiry where
  time : ℚ
  finalizing : Option ℚ
  recording : Bool
  save_grace_s : ℚ
  deriving DecidableEq, Repr

/-- The clock, the daemons of the machine, the sweeps that wait to kill, and the record. -/
structure System where
  now : ℚ
  daemons : List Daemon
  sweeps : List (ℕ × ℚ)
  sent : List Sent
  expiries : List Expiry

/-- Before the first daemon. -/
def System.init : System := ⟨0, [], [], [], []⟩

/-- `_TERM_GRACE_S` of `orphans.py`. -/
def SWEEP_GRACE_S : ℚ := 5

namespace System

variable (sys : System)

/-- One daemon changes. -/
def set (i : ℕ) (d : Daemon) : System := { sys with daemons := sys.daemons.set i d }

/-- A signal goes to a daemon or to its consumer. -/
def send (d : Daemon) (target : Target) (signal : Signal) : System :=
  { sys with sent := sys.sent ++ [⟨target, signal, sys.now, d.finalizing, d.save_grace_s⟩] }

end System

/-- What can happen. A wait ends early when its process exits; it times out at its deadline or
later. A daemon begins its teardown when it is told to, or of itself; a consumer exits when it
likes, whatever it was sent. -/
inductive Step (sys : System) : System → Prop
  | tick (δ : ℚ) : 0 ≤ δ → Step sys { sys with now := sys.now + δ }
  -- the daemon
  | boot (save_grace_s : ℚ) (held : Bool) :
      Step sys { sys with daemons :=
        sys.daemons ++ [⟨save_grace_s, .serving, none, false, sys.now, held, .no⟩] }
  | start_run (i : ℕ) (d : Daemon) (collection : Bool) : sys.daemons[i]? = some d →
      d.stage = .serving → d.run = none →
      Step sys (sys.set i { d with run := some ⟨collection, true, none⟩ })
  | stop_run (i : ℕ) (d : Daemon) : sys.daemons[i]? = some d → d.stage = .serving →
      Step sys (sys.set i (d.stop sys.now))
  | reap (i : ℕ) (d : Daemon) (consumer : Consumer) : sys.daemons[i]? = some d →
      d.stage = .serving → d.run = some consumer → consumer.alive = false →
      Step sys (sys.set i { d with run := none })
  | write (i : ℕ) (d : Daemon) : sys.daemons[i]? = some d → d.stage = .serving →
      Step sys (sys.set i { d with shown_active := d.run.isSome, heartbeat_ts := sys.now })
  | teardown (i : ℕ) (d : Daemon) : sys.daemons[i]? = some d → d.stage = .serving →
      Step sys (sys.set i (d.teardown sys.now))
  | saved (i : ℕ) (d : Daemon) (deadline : ℚ) (consumer : Consumer) :
      sys.daemons[i]? = some d → d.stage = .saving deadline → d.run = some consumer →
      consumer.alive = false → Step sys (sys.set i { d with run := none, stage := .unwinding })
  | terminate_consumer (i : ℕ) (d : Daemon) (deadline : ℚ) (consumer : Consumer) :
      sys.daemons[i]? = some d → d.stage = .saving deadline → deadline ≤ sys.now →
      d.run = some consumer → consumer.alive = true →
      Step sys ((sys.send d .consumer .SIGTERM).set i
        { d.stop sys.now with stage := .terminating (sys.now + TERM_GRACE_S) })
  | kill_consumer (i : ℕ) (d : Daemon) (deadline : ℚ) (consumer : Consumer) :
      sys.daemons[i]? = some d → d.stage = .terminating deadline → deadline ≤ sys.now →
      d.run = some consumer → consumer.alive = true →
      Step sys ((sys.send d .consumer .SIGKILL).set i { d with stage := .unwinding })
  | terminated (i : ℕ) (d : Daemon) (deadline : ℚ) (consumer : Consumer) :
      sys.daemons[i]? = some d → d.stage = .terminating deadline → d.run = some consumer →
      consumer.alive = false → Step sys (sys.set i { d with stage := .unwinding })
  | exit (i : ℕ) (d : Daemon) : sys.daemons[i]? = some d → d.stage = .unwinding →
      Step sys (sys.set i { d with stage := .dead })
  -- its consumer
  | consumer_exit (i : ℕ) (d : Daemon) : sys.daemons[i]? = some d →
      Step sys (sys.set i d.consumer_exit)
  -- the manager
  | shutdown (i : ℕ) (d : Daemon) : sys.daemons[i]? = some d → d.held = true →
      d.stage ≠ .dead → Step sys (sys.set i (d.close sys.now))
  | ensure (i : ℕ) (d : Daemon) : sys.daemons[i]? = some d → d.held = true →
      d.stage ≠ .dead → d.run_active sys.now = false → Step sys (sys.set i (d.close sys.now))
  | exited (i : ℕ) (d : Daemon) : sys.daemons[i]? = some d → d.stage = .dead →
      Step sys (sys.set i { d with held := false, closing := .done })
  | terminate (i : ℕ) (d : Daemon) (deadline : ℚ) : sys.daemons[i]? = some d →
      d.closing = .waiting deadline → deadline ≤ sys.now → d.stage ≠ .dead →
      Step sys ((sys.send d .daemon .SIGTERM).set i
        { d with closing := .terminating (sys.now + KILL_GRACE_S) })
  | kill (i : ℕ) (d : Daemon) (deadline : ℚ) : sys.daemons[i]? = some d →
      d.closing = .terminating deadline → deadline ≤ sys.now → d.stage ≠ .dead →
      Step sys { (sys.send d .daemon .SIGKILL).set i
          { d with stage := .dead, closing := .done } with
        expiries := sys.expiries ++ [⟨sys.now, d.finalizing, d.recording, d.save_grace_s⟩] }
  -- the sweep of another daemon: SIGTERM stops a consumer that was not told to
  | sweep (i : ℕ) (d : Daemon) (consumer : Consumer) : sys.daemons[i]? = some d →
      d.stage = .dead → d.run = some consumer → consumer.alive = true →
      Step sys { (sys.send d .consumer .SIGTERM).set i (d.stop sys.now) with
        sweeps := sys.sweeps ++ [(i, sys.now + SWEEP_GRACE_S)] }
  | sweep_kill (i : ℕ) (d : Daemon) (deadline : ℚ) : sys.daemons[i]? = some d →
      (i, deadline) ∈ sys.sweeps → deadline ≤ sys.now →
      Step sys (sys.send d .consumer .SIGKILL)

/-- The states of the machine. -/
inductive Reaches : System → Prop
  | init : Reaches .init
  | step {sys sys' : System} : Reaches sys → Step sys sys' → Reaches sys'

/-! ## What is promised -/

/-- The grace of a save that began at `finalizing` is over at a time. -/
def Over (finalizing : Option ℚ) (save_grace_s time : ℚ) : Prop :=
  ∀ t, finalizing = some t → t + save_grace_s ≤ time

/-- A signal that can end a save: to the consumer, or SIGKILL to its daemon. -/
def Sent.harmful (s : Sent) : Bool := s.target == .consumer || s.signal == .SIGKILL

/-- No save is cut short. -/
def Uncut (sys : System) : Prop :=
  ∀ s ∈ sys.sent, s.harmful = true → Over s.finalizing s.save_grace_s s.time

/-- The wait that ran out left nobody finalizing with grace left, and nobody recording to whom a
grace is promised. -/
def Expiry.Patient (e : Expiry) : Prop :=
  Over e.finalizing e.save_grace_s e.time ∧ (e.recording = true → e.save_grace_s ≤ 0)

/-- What may come after a state. -/
def Follows : System → System → Prop := Relation.ReflTransGen Step

/-! ## The books -/

/-- A consumer was told to stop in the past. Once its grace has been waited out, by the daemon's
teardown or by a patient manager, it is over, and only a daemon that serves has a consumer that
was not told to stop (unless there is no grace to wait for). -/
structure Daemon.Sound (d : Daemon) (now : ℚ) : Prop where
  past : ∀ t, d.finalizing = some t → t ≤ now
  saving : ∀ deadline, d.stage = .saving deadline → Over d.finalizing d.save_grace_s deadline
  elapsed : d.stage ≠ .serving → (∀ deadline, d.stage ≠ .saving deadline) →
    Over d.finalizing d.save_grace_s now
  told : d.stage ≠ .serving → d.recording = true → d.save_grace_s ≤ 0

/-- Every daemon is sound, the sweeps are after dead daemons' consumers, and no save was cut. -/
structure Inv (sys : System) : Prop where
  sound : ∀ d ∈ sys.daemons, d.Sound sys.now
  swept : ∀ s ∈ sys.sweeps, ∃ d, sys.daemons[s.1]? = some d ∧ d.stage = .dead
  uncut : Uncut sys

section Books

variable {sys sys' : System} {i : ℕ} {d d' : Daemon} {now : ℚ}

theorem Over.mono {finalizing : Option ℚ} {save_grace_s time time' : ℚ}
    (h : Over finalizing save_grace_s time) (hle : time ≤ time') :
    Over finalizing save_grace_s time' := fun t ht => (h t ht).trans hle

theorem over_none {save_grace_s time : ℚ} : Over none save_grace_s time := fun _ h => nomatch h

/-- Time passes. -/
theorem Daemon.Sound.later (h : d.Sound now) {δ : ℚ} (hδ : 0 ≤ δ) : d.Sound (now + δ) where
  past t ht := (h.past t ht).trans (le_add_of_nonneg_right hδ)
  saving := h.saving
  elapsed hserving hsaving := (h.elapsed hserving hsaving).mono (le_add_of_nonneg_right hδ)
  told := h.told

/-- A daemon without a finalizing consumer is sound at any stage, and if it serves its consumer
may be recording. -/
theorem sound_of_idle (h : d.finalizing = none)
    (hrecording : d.stage ≠ .serving → d.recording = false) : d.Sound now where
  past _ ht := nomatch h.symm.trans ht
  saving _ _ := h ▸ over_none
  elapsed _ _ := h ▸ over_none
  told hserving ht := nomatch (hrecording hserving).symm.trans ht

theorem finalizing_of_run (h : d.run = none) : d.finalizing = none := by
  unfold Daemon.finalizing
  rw [h]
  rfl

/-- An exited consumer finalizes nothing. -/
theorem finalizing_consumer_exit : d.consumer_exit.finalizing = none := by
  unfold Daemon.finalizing Daemon.consumer_exit
  cases d.run with
  | none => rfl
  | some consumer => rfl

/-- A stop begins a save now, or leaves it as it was. -/
theorem finalizing_stop (h : d.Sound now) {t : ℚ} (ht : (d.stop now).finalizing = some t) :
    t ≤ now := by
  unfold Daemon.finalizing Daemon.stop at ht
  cases hrun : d.run with
  | none =>
    rw [hrun] at ht
    exact nomatch ht
  | some consumer =>
    rw [hrun, Option.map_some, Option.bind_some] at ht
    dsimp only at ht
    split at ht
    · rename_i halive
      cases hstop : consumer.stop_at with
      | none =>
        rw [hstop] at ht
        exact le_of_eq (Option.some.inj ht).symm
      | some t' =>
        rw [hstop] at ht
        refine h.past t ?_
        unfold Daemon.finalizing
        rw [hrun, Option.bind_some, if_pos halive, hstop]
        exact ht
    · exact nomatch ht

/-- Who has been told to stop does not record on. -/
theorem recording_stop (d : Daemon) (now : ℚ) : (d.stop now).recording = false := by
  unfold Daemon.recording Daemon.stop
  cases d.run with
  | none => rfl
  | some consumer =>
    rw [Option.map_some, Option.any_some, Option.isNone_some, Bool.and_false]

theorem recording_consumer_exit : d.consumer_exit.recording = false := by
  unfold Daemon.recording Daemon.consumer_exit
  cases d.run with
  | none => rfl
  | some consumer => rfl

/-- A stop that comes when the grace of an earlier one is over leaves it over. It begins a save
only if the consumer was recording, and then there must be no grace. -/
theorem over_stop (hover : Over d.finalizing d.save_grace_s now)
    (htold : d.recording = true → d.save_grace_s ≤ 0) :
    Over (d.stop now).finalizing d.save_grace_s now := by
  intro t ht
  unfold Daemon.finalizing Daemon.stop at ht
  unfold Daemon.finalizing at hover
  unfold Daemon.recording at htold
  cases hrun : d.run with
  | none =>
    rw [hrun] at ht
    exact nomatch ht
  | some consumer =>
    rw [hrun, Option.map_some, Option.bind_some] at ht
    rw [hrun, Option.bind_some] at hover
    rw [hrun, Option.any_some] at htold
    dsimp only at ht
    split at ht
    · rename_i halive
      rw [if_pos halive] at hover
      cases hstop : consumer.stop_at with
      | none =>
        -- the save begins now
        have hgrace : d.save_grace_s ≤ 0 := by
          refine htold ?_
          rw [halive, hstop]
          rfl
        rw [hstop] at ht
        obtain rfl : now = t := Option.some.inj ht
        linarith
      | some t' =>
        rw [hstop] at ht
        exact hover t (hstop.trans ht)
    · exact nomatch ht

theorem alive_of_recording (h : d.recording = true) :
    ∃ consumer, d.run = some consumer ∧ consumer.alive = true := by
  unfold Daemon.recording at h
  cases hrun : d.run with
  | none =>
    rw [hrun] at h
    exact nomatch h
  | some consumer =>
    rw [hrun, Option.any_some, Bool.and_eq_true, Bool.and_eq_true] at h
    exact ⟨consumer, rfl, h.1.1⟩

/-- The save of a consumer that is recording begins with the stop. -/
theorem finalizing_of_recording (h : d.recording = true) :
    (d.stop now).finalizing = some now := by
  unfold Daemon.recording at h
  unfold Daemon.finalizing Daemon.stop
  cases hrun : d.run with
  | none =>
    rw [hrun] at h
    exact nomatch h
  | some consumer =>
    rw [hrun, Option.any_some, Bool.and_eq_true] at h
    rw [Option.map_some, Option.bind_some, if_pos h.1, Option.isNone_iff_eq_none.1 h.2,
      Option.getD_none]

/-- The teardown counts the grace from now, which is not before the stop. -/
theorem Daemon.Sound.teardown (h : d.Sound now) : (d.teardown now).Sound now := by
  unfold Daemon.teardown
  cases hrun : d.run with
  | none =>
    refine sound_of_idle (finalizing_of_run rfl) fun _ => ?_
    unfold Daemon.recording
    rw [Option.any_none]
  | some consumer =>
    refine ⟨fun t ht => finalizing_stop h ht, ?_, ?_, ?_⟩
    · intro deadline hstage t ht
      rw [← Stage.saving.inj hstage]
      exact add_le_add_left (finalizing_stop h ht) _
    · intro _ hsaving
      exact absurd rfl (hsaving _)
    · exact fun _ hrecording => nomatch (recording_stop d now).symm.trans hrecording

/-- A daemon changes, in a way that leaves it sound and a dead one dead. -/
theorem Inv.set (h : Inv sys) (hi : sys.daemons[i]? = some d) (hsound : d'.Sound sys.now)
    (hdead : d.stage = .dead → d'.stage = .dead) : Inv (sys.set i d') where
  sound x hx := by
    rcases List.mem_or_eq_of_mem_set hx with hx | rfl
    · exact h.sound x hx
    · exact hsound
  swept s hs := by
    obtain ⟨x, hx, hxdead⟩ := h.swept s hs
    show ∃ x, (sys.daemons.set i d')[s.1]? = some x ∧ x.stage = .dead
    by_cases hsi : i = s.1
    · subst hsi
      obtain rfl := Option.some.inj (hi.symm.trans hx)
      exact ⟨d', List.getElem?_set_self (List.getElem?_eq_some_iff.1 hi).1, hdead hxdead⟩
    · exact ⟨x, by rwa [List.getElem?_set_ne hsi], hxdead⟩
  uncut := h.uncut

/-- A signal is sent, after the grace if it can end a save. -/
theorem Inv.send (h : Inv sys) {target : Target} {signal : Signal}
    (hover : (target == .consumer || signal == .SIGKILL) = true →
      Over d.finalizing d.save_grace_s sys.now) : Inv (sys.send d target signal) where
  sound := h.sound
  swept := h.swept
  uncut s hs hharmful := by
    rcases List.mem_append.1 hs with hs | hs
    · exact h.uncut s hs hharmful
    · obtain rfl := List.mem_singleton.1 hs
      exact hover hharmful

/-- What waits for its consumer to die, unwinds or is dead has waited out the grace. -/
theorem Daemon.Sound.through (h : d.Sound now) (hserving : d.stage ≠ .serving)
    (hsaving : ∀ deadline, d.stage ≠ .saving deadline) {stage : Stage}
    (hstage : ∀ deadline, stage ≠ .saving deadline) : Daemon.Sound { d with stage := stage } now :=
  ⟨h.past, fun deadline heq => absurd heq (hstage deadline),
    fun _ _ => h.elapsed hserving hsaving, fun _ => h.told hserving⟩

/-- The grace of its consumer is over, and the consumer is sent SIGTERM. -/
theorem Daemon.Sound.signalled (h : d.Sound now) (hover : Over d.finalizing d.save_grace_s now)
    (htold : d.recording = true → d.save_grace_s ≤ 0) {stage : Stage}
    (hstage : ∀ deadline, stage ≠ .saving deadline) :
    Daemon.Sound { d.stop now with stage := stage } now where
  past _ ht := finalizing_stop h ht
  saving deadline heq := absurd heq (hstage deadline)
  elapsed _ _ := over_stop hover htold
  told _ hrecording := nomatch (recording_stop d now).symm.trans hrecording

/-- One step of a run whose expired wait, if there is one, was patient. -/
theorem Step.inv (hstep : Step sys sys') (h : Inv sys)
    (hpatient : ∀ e ∈ sys'.expiries, e.Patient) : Inv sys' := by
  have hsound : ∀ {i : ℕ} {d : Daemon}, sys.daemons[i]? = some d → d.Sound sys.now :=
    fun hi => h.sound _ (List.mem_of_getElem? hi)
  cases hstep with
  | tick δ hδ => exact ⟨fun d hd => (h.sound d hd).later hδ, h.swept, h.uncut⟩
  | boot save_grace_s held =>
    refine ⟨?_, ?_, h.uncut⟩
    · intro d hd
      rcases List.mem_append.1 hd with hd | hd
      · exact h.sound d hd
      · obtain rfl := List.mem_singleton.1 hd
        exact sound_of_idle rfl fun _ => rfl
    · intro s hs
      obtain ⟨d, hd, hdead⟩ := h.swept s hs
      exact ⟨d, by rwa [List.getElem?_append_left (List.getElem?_eq_some_iff.1 hd).1], hdead⟩
  | start_run i d collection hi hstage hrun =>
    refine h.set hi (sound_of_idle ?_ fun hserving => absurd hstage hserving)
      fun hdead => nomatch hstage.symm.trans hdead
    cases collection with
    | true => rfl
    | false => rfl
  | stop_run i d hi hstage =>
    refine h.set hi ⟨fun t ht => finalizing_stop (hsound hi) ht, ?_, ?_, ?_⟩
      fun hdead => nomatch hstage.symm.trans hdead
    · exact fun deadline hsaving => nomatch hstage.symm.trans hsaving
    · exact fun hserving => absurd hstage hserving
    · exact fun hserving => absurd hstage hserving
  | reap i d consumer hi hstage hrun halive =>
    exact h.set hi (sound_of_idle rfl fun _ => rfl) fun hdead => nomatch hstage.symm.trans hdead
  | write i d hi hstage =>
    exact h.set hi ⟨(hsound hi).past, (hsound hi).saving, (hsound hi).elapsed, (hsound hi).told⟩ id
  | teardown i d hi hstage =>
    exact h.set hi (hsound hi).teardown fun hdead => nomatch hstage.symm.trans hdead
  | saved i d deadline consumer hi hstage hrun halive =>
    exact h.set hi (sound_of_idle rfl fun _ => rfl) fun hdead => nomatch hstage.symm.trans hdead
  | terminate_consumer i d deadline consumer hi hstage hdeadline hrun halive =>
    have hover := ((hsound hi).saving deadline hstage).mono hdeadline
    exact (h.send fun _ => hover).set hi
      ((hsound hi).signalled hover ((hsound hi).told (hstage ▸ nofun)) nofun)
      fun hdead => nomatch hstage.symm.trans hdead
  | kill_consumer i d deadline consumer hi hstage hdeadline hrun halive =>
    have hover := (hsound hi).elapsed (hstage ▸ nofun) (hstage ▸ nofun)
    exact (h.send fun _ => hover).set hi
      ((hsound hi).through (hstage ▸ nofun) (hstage ▸ nofun) nofun)
      fun hdead => nomatch hstage.symm.trans hdead
  | terminated i d deadline consumer hi hstage hrun halive =>
    exact h.set hi ((hsound hi).through (hstage ▸ nofun) (hstage ▸ nofun) nofun)
      fun hdead => nomatch hstage.symm.trans hdead
  | exit i d hi hstage =>
    exact h.set hi ((hsound hi).through (hstage ▸ nofun) (hstage ▸ nofun) nofun) fun _ => rfl
  | consumer_exit i d hi =>
    exact h.set hi (sound_of_idle finalizing_consumer_exit fun _ => recording_consumer_exit) id
  | shutdown i d hi hheld hstage =>
    exact h.set hi ⟨(hsound hi).past, (hsound hi).saving, (hsound hi).elapsed, (hsound hi).told⟩ id
  | ensure i d hi hheld hstage hactive =>
    exact h.set hi ⟨(hsound hi).past, (hsound hi).saving, (hsound hi).elapsed, (hsound hi).told⟩ id
  | exited i d hi hstage =>
    exact h.set hi ⟨(hsound hi).past, (hsound hi).saving, (hsound hi).elapsed, (hsound hi).told⟩ id
  | terminate i d deadline hi hclosing hdeadline hstage =>
    refine (h.send ?_).set hi
      ⟨(hsound hi).past, (hsound hi).saving, (hsound hi).elapsed, (hsound hi).told⟩ id
    exact fun hharmful => absurd hharmful (by decide)
  | kill i d deadline hi hclosing hdeadline hstage =>
    -- the wait that expired is the last one recorded
    obtain ⟨hover, htold⟩ : Expiry.Patient ⟨sys.now, d.finalizing, d.recording, d.save_grace_s⟩ :=
      hpatient _ (List.mem_append_right _ (List.mem_singleton_self _))
    have hset : Inv ((sys.send d .daemon .SIGKILL).set i
        { d with stage := .dead, closing := .done }) :=
      (h.send fun _ => hover).set hi ⟨(hsound hi).past, nofun, fun _ _ => hover, fun _ => htold⟩
        fun _ => rfl
    exact ⟨hset.sound, hset.swept, hset.uncut⟩
  | sweep i d consumer hi hstage hrun halive =>
    have hover := (hsound hi).elapsed (hstage ▸ nofun) (hstage ▸ nofun)
    have htold := (hsound hi).told (hstage ▸ nofun)
    have hset : Inv ((sys.send d .consumer .SIGTERM).set i { d.stop sys.now with stage := d.stage }) :=
      (h.send fun _ => hover).set hi ((hsound hi).signalled hover htold (hstage ▸ nofun)) id
    refine ⟨hset.sound, ?_, hset.uncut⟩
    intro s hs
    rcases List.mem_append.1 hs with hs | hs
    · exact hset.swept s hs
    · obtain rfl := List.mem_singleton.1 hs
      exact ⟨_, List.getElem?_set_self (List.getElem?_eq_some_iff.1 hi).1, hstage⟩
  | sweep_kill i d deadline hi hmem hdeadline =>
    obtain ⟨x, hx, hdead⟩ := h.swept _ hmem
    obtain rfl := Option.some.inj (hi.symm.trans hx)
    exact h.send fun _ => (hsound hi).elapsed (hdead ▸ nofun) (hdead ▸ nofun)

/-- Every wait that ran out ended in a SIGKILL to the daemon. -/
theorem Step.expired (hstep : Step sys sys')
    (h : ∀ e ∈ sys.expiries, ⟨.daemon, .SIGKILL, e.time, e.finalizing, e.save_grace_s⟩ ∈ sys.sent) :
    (∀ e ∈ sys.expiries, e ∈ sys'.expiries) ∧
    ∀ e ∈ sys'.expiries,
      ⟨.daemon, .SIGKILL, e.time, e.finalizing, e.save_grace_s⟩ ∈ sys'.sent := by
  cases hstep with
  | kill i d deadline hi hclosing hdeadline hstage =>
    refine ⟨fun e he => List.mem_append_left _ he, ?_⟩
    intro e he
    rcases List.mem_append.1 he with he | he
    · exact List.mem_append_left _ (h e he)
    · obtain rfl := List.mem_singleton.1 he
      exact List.mem_append_right _ (List.mem_singleton_self _)
  | terminate_consumer => exact ⟨fun e he => he, fun e he => List.mem_append_left _ (h e he)⟩
  | kill_consumer => exact ⟨fun e he => he, fun e he => List.mem_append_left _ (h e he)⟩
  | terminate => exact ⟨fun e he => he, fun e he => List.mem_append_left _ (h e he)⟩
  | sweep => exact ⟨fun e he => he, fun e he => List.mem_append_left _ (h e he)⟩
  | sweep_kill => exact ⟨fun e he => he, fun e he => List.mem_append_left _ (h e he)⟩
  | _ => exact ⟨fun e he => he, h⟩

end Books

/-! ## Runs -/

section Runs

variable {sys sys' : System} {i : ℕ} {d : Daemon}

theorem Reaches.expired (h : Reaches sys) : ∀ e ∈ sys.expiries,
    ⟨.daemon, .SIGKILL, e.time, e.finalizing, e.save_grace_s⟩ ∈ sys.sent := by
  induction h with
  | init => exact fun e he => absurd he List.not_mem_nil
  | step _ hstep ih => exact (hstep.expired ih).2

theorem Reaches.inv (h : Reaches sys) (hpatient : ∀ e ∈ sys.expiries, e.Patient) : Inv sys := by
  induction h with
  | init =>
    exact ⟨fun _ hd => absurd hd List.not_mem_nil, fun _ hs => absurd hs List.not_mem_nil,
      fun _ hs => absurd hs List.not_mem_nil⟩
  | step hreach hstep ih =>
    refine hstep.inv (ih fun e he => hpatient e ?_) hpatient
    exact (hstep.expired hreach.expired).1 e he

/-- A daemon boots. -/
theorem follows_boot (save_grace_s : ℚ) (hi : sys.daemons[i]? = some d) :
    ∃ sys', Follows sys sys' ∧ sys'.daemons[i]? = some d ∧ sys'.expiries = sys.expiries :=
  ⟨_, .single (.boot save_grace_s false),
    (List.getElem?_append_left (List.getElem?_eq_some_iff.1 hi).1).trans hi, rfl⟩

/-- A sweep finds the consumer of a dead daemon: it is sent SIGTERM, which stops it. -/
theorem follows_sweep (hi : sys.daemons[i]? = some d) (hdead : d.stage = .dead)
    {consumer : Consumer} (hrun : d.run = some consumer) (halive : consumer.alive = true) :
    ∃ sys', Follows sys sys' ∧ sys'.daemons[i]? = some (d.stop sys.now) ∧ sys'.now = sys.now ∧
      sys'.expiries = sys.expiries ∧
      ⟨.consumer, .SIGTERM, sys.now, d.finalizing, d.save_grace_s⟩ ∈ sys'.sent :=
  ⟨_, .single (.sweep i d consumer hi hdead hrun halive),
    List.getElem?_set_self (List.getElem?_eq_some_iff.1 hi).1, rfl, rfl,
    List.mem_append_right _ (List.mem_singleton_self _)⟩

/-- A consumer that records on without its daemon can lose its save, whatever grace it was
promised: two daemons boot, the SIGTERM of the first one's sweep begins the save, and the SIGTERM
of the second one's comes into it. -/
theorem recording_orphan_cut (hi : sys.daemons[i]? = some d) (hdead : d.stage = .dead)
    (hrecording : d.recording = true) (hgrace : 0 < d.save_grace_s) :
    ∃ sys', Follows sys sys' ∧ sys'.expiries = sys.expiries ∧ ¬ Uncut sys' := by
  obtain ⟨consumer, hrun, halive⟩ := alive_of_recording hrecording
  have hrun' : ∀ now, (d.stop now).run =
      some { consumer with stop_at := some (consumer.stop_at.getD now) } := by
    intro now
    rw [Daemon.stop, hrun, Option.map_some]
  obtain ⟨sys₁, hfirst, hi₁, hexpiries₁⟩ := follows_boot d.save_grace_s hi
  obtain ⟨sys₂, hsecond, hi₂, hexpiries₂⟩ := follows_boot d.save_grace_s hi₁
  obtain ⟨sys₃, hsweep, hi₃, hnow, hexpiries₃, -⟩ := follows_sweep hi₂ hdead hrun halive
  obtain ⟨sys₄, hagain, -, -, hexpiries₄, hsent⟩ := follows_sweep hi₃ hdead (hrun' _) halive
  refine ⟨sys₄, ((hfirst.trans hsecond).trans hsweep).trans hagain,
    ((hexpiries₄.trans hexpiries₃).trans hexpiries₂).trans hexpiries₁, fun huncut => ?_⟩
  have hover : sys₂.now + d.save_grace_s ≤ sys₃.now :=
    huncut _ hsent rfl _ (finalizing_of_recording hrecording)
  rw [hnow] at hover
  exact absurd hover (not_le_of_gt (lt_add_of_pos_right _ hgrace))

/-- A wait that runs out on a daemon with grace left to its consumer either cuts the save there
and then, or leaves a consumer that can lose it before any other wait runs out. -/
theorem impatient_cuts {e : Expiry} (hstep : Step sys sys')
    (he : sys'.expiries = sys.expiries ++ [e]) (himpatient : ¬ e.Patient) :
    ∃ sys'', Follows sys' sys'' ∧ sys''.expiries = sys'.expiries ∧ ¬ Uncut sys'' := by
  cases hstep with
  | kill i d deadline hi hclosing hdeadline hstage =>
    obtain rfl : _ = e := List.singleton_inj.1 (List.append_cancel_left he)
    by_cases hover : Over d.finalizing d.save_grace_s sys.now
    · have hrecording : ¬ (d.recording = true → d.save_grace_s ≤ 0) :=
        fun htold => himpatient ⟨hover, htold⟩
      push Not at hrecording
      exact recording_orphan_cut
        (List.getElem?_set_self (List.getElem?_eq_some_iff.1 hi).1) rfl hrecording.1 hrecording.2
    · refine ⟨_, .refl, rfl, fun huncut => hover ?_⟩
      exact huncut ⟨.daemon, .SIGKILL, sys.now, d.finalizing, d.save_grace_s⟩
        (List.mem_append_right _ (List.mem_singleton_self _)) rfl
  | _ => exact absurd he (by simp [System.set, System.send])

/-- No save is cut short in any run in which every manager's second wait that runs out leaves
nobody finalizing or recording with grace to come. No weaker condition on these waits will do:
after each one that is not so there is a way to go on, before another wait runs out, to where a
save is cut. -/
theorem saves_uncut_iff (h : Reaches sys) :
    ((∀ e ∈ sys.expiries, e.Patient) → Uncut sys) ∧
    ∀ sys' e, Step sys sys' → sys'.expiries = sys.expiries ++ [e] → ¬ e.Patient →
      ∃ sys'', Follows sys' sys'' ∧ sys''.expiries = sys'.expiries ∧ ¬ Uncut sys'' :=
  ⟨fun hpatient => (h.inv hpatient).uncut, fun _ _ hstep he => impatient_cuts hstep he⟩

/-- A collection run is stopped, its consumer saves and exits in time; the daemon unwinds for
more than 20 seconds and is killed. -/
theorem slow_unwind_uncut : ∃ sys, sys.expiries.length = 1 ∧ Uncut sys := by
  have hinit : Reaches .init := .init
  have hrunning := (hinit.step (.boot 300 true)).step (.start_run 0 _ true rfl rfl rfl)
  have hsaved := (((hrunning.step (.stop_run 0 _ rfl rfl)).step (.consumer_exit 0 _ rfl)).step
    (.shutdown 0 _ rfl rfl nofun)).step (.teardown 0 _ rfl rfl)
  have hterminated := (hsaved.step (.tick 15 (by norm_num))).step
    (.terminate 0 _ _ rfl rfl (le_refl _) nofun)
  have hkilled := (hterminated.step (.tick 5 (by norm_num))).step
    (.kill 0 _ _ rfl rfl (le_refl _) nofun)
  refine ⟨_, rfl, (saves_uncut_iff hkilled).1 ?_⟩
  intro e he
  obtain rfl := List.mem_singleton.1 he
  exact ⟨over_none, nofun⟩

/-- A dashboard that exits while its daemon is saving kills it after 20 seconds, and the next
sweep terminates the consumer. -/
theorem save_cut_by_exit : ∃ sys, Reaches sys ∧ ¬ Uncut sys ∧
    (⟨.consumer, .SIGTERM, 20, some 0, 300⟩ : Sent) ∈ sys.sent := by
  have hinit : Reaches .init := .init
  have hrunning := (hinit.step (.boot 300 true)).step (.start_run 0 _ true rfl rfl rfl)
  have hsaving := (hrunning.step (.shutdown 0 _ rfl rfl nofun)).step (.teardown 0 _ rfl rfl)
  have hterminated := (hsaving.step (.tick 15 (by norm_num))).step
    (.terminate 0 _ _ rfl rfl (le_refl _) nofun)
  have hkilled := (hterminated.step (.tick 5 (by norm_num))).step
    (.kill 0 _ _ rfl rfl (le_refl _) nofun)
  have hswept := (hkilled.step (.boot 300 false)).step (.sweep 0 _ _ rfl rfl rfl rfl)
  obtain ⟨sys, hreach, hsent⟩ : ∃ sys, Reaches sys ∧
      (⟨.consumer, .SIGTERM, 20, some 0, 300⟩ : Sent) ∈ sys.sent :=
    ⟨_, hswept, by decide +kernel⟩
  refine ⟨sys, hreach, ?_, hsent⟩
  intro huncut
  have hover := huncut _ hsent rfl 0 rfl
  norm_num at hover

end Runs

end DualFlexivControl.Processes.SaveGrace
