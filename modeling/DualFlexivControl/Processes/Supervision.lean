/-
The one-shot system: `run_system` spawns every node, watches them, and tears them down.

The parent and its nodes share one stop event. Anybody may set it: an operator's signal to the
parent, a signal to a node, `run_node` when its node raises, and the parent's own pass over the
processes when it finds one dead. The parent is modelled statement by statement, with a node's
failure, exit and signals in between in any order; `join` returns when the process is gone or its
time is up.

Two questions are answered over all runs. How the teardown treats a node: who gets which signal,
when, after whom, and that nobody outlives it ([`Orderly`]). And what the exit status says of a
crash: that is the verdict of the pass that came to a dead process, if one did, and whether one
could depends on who set the event first and where the parent was then ([`Cause`]).
-/
import Mathlib.Algebra.Order.Field.Rat
import Mathlib.Tactic.Linarith

set_option autoImplicit false

namespace DualFlexivControl.Processes.Supervision

/-! ## The parent -/

/-- `_RECORDING_NODE` -/
def RECORDING_NODE : String := "collection"

/-- `_HARDWARE_GRACE_S` -/
def HARDWARE_GRACE_S : ℚ := 5

/-- `_TERM_GRACE_S` -/
def TERM_GRACE_S : ℚ := 2

/-- The wait after SIGKILL. -/
def KILL_GRACE_S : ℚ := 2

/-- How long a pass over the processes is slept off. -/
def POLL_S : ℚ := 1 / 20

/-- One slice of a cooperative wait. -/
def SLICE_S : ℚ := 1 / 4

/-- What a run is launched with: the nodes' names in order, and `runtime.save_grace_s`. -/
structure Launch where
  names : List String
  save_grace_s : ℚ

namespace Launch

variable (l : Launch)

/-- The recording consumer of `_shutdown`, by its place. -/
def saver : Option ℕ := l.names.findIdx? (· == RECORDING_NODE)

/-- The other nodes. -/
def hardware : List ℕ :=
  (List.range l.names.length).filter fun i => decide (some i ≠ l.saver)

/-- The processes of `_shutdown`'s first and second call of `_escalate`. -/
def group : Bool → List ℕ
  | false => l.hardware
  | true => l.saver.toList

/-- The `cooperative_s` of these calls. -/
def cooperative_s : Bool → ℚ
  | false => HARDWARE_GRACE_S
  | true => l.save_grace_s

/-- How long a node may take to unwind. -/
def grace (i : ℕ) : ℚ := l.cooperative_s (decide (some i = l.saver))

end Launch

/-- A spawned process, and whether `run_node` caught an exception in it. -/
structure Proc where
  started : Bool
  raised : Bool
  exitcode : Option ℤ
  deriving DecidableEq, Repr

def Proc.is_alive (p : Proc) : Bool := p.started && p.exitcode.isNone

/-- Where `_escalate` is. The processes of the loop it is in that are still to come; `slice`,
`joining` and `reaping` are in a `join` of one. -/
inductive Escalation
  | cooperative (deadline : ℚ) (rest : List ℕ)
  | slice (deadline timeout : ℚ) (i : ℕ) (rest : List ℕ)
  | terminate (rest : List ℕ)
  | join (rest : List ℕ)
  | joining (timeout : ℚ) (i : ℕ) (rest : List ℕ)
  | kill (rest : List ℕ)
  | reaping (timeout : ℚ) (i : ℕ) (rest : List ℕ)
  deriving DecidableEq, Repr

/-- Where `run_system` is: before `proc.start()`, at the test of its loop, at the test of its
deadline, at a process of its pass, asleep, in one of the two calls of `_escalate`, or through. -/
inductive Parent
  | starting (i : ℕ)
  | guard
  | deadline
  | scanning (i : ℕ)
  | sleeping (timeout : ℚ)
  | escalating (saver : Bool) (stage : Escalation)
  | done
  deriving DecidableEq, Repr

/-- The loop found the event unset and has not slept since. -/
def Parent.passing : Parent → Bool
  | deadline | scanning _ => true
  | _ => false

/-- Who set the stop event: the parent's pass at a dead process, or somebody else, with whether
the parent was in a pass. -/
inductive Cause
  | found (i : ℕ)
  | other (passing : Bool)
  deriving DecidableEq, Repr

inductive Signal
  | SIGTERM
  | SIGKILL
  deriving DecidableEq, Repr

/-- A signal sent to a node, and how many the parent had received by then. -/
structure Sent where
  proc : ℕ
  signal : Signal
  time : ℚ
  signals : ℕ
  deriving DecidableEq, Repr

/-- The clock, the processes, the parent, its `deadline` and `crashed_node`, the dead process that a
pass came to, how many signals the parent received, when and by whom the stop event was first set,
and the signals sent. -/
structure System where
  now : ℚ
  procs : List Proc
  parent : Parent
  deadline : Option ℚ
  crashed_node : Option (String × ℤ)
  came_to : Option ℕ
  signals : ℕ
  stopped : Option (ℚ × Cause)
  sent : List Sent

namespace System

variable (sys : System)

/-- `stop_event.is_set()` -/
def stop : Bool := sys.stopped.isSome

/-- `force.is_set()`: the handler sets it from the third signal on. -/
def force : Bool := decide (3 ≤ sys.signals)

def is_alive (i : ℕ) : Bool := (sys.procs[i]?).any Proc.is_alive

/-- The event is set, unless it is. -/
def set_stop (cause : Cause) : System :=
  { sys with stopped := sys.stopped.or (some (sys.now, cause)) }

/-- Somebody other than the pass sets the event. -/
def stop_by_other : System := sys.set_stop (.other sys.parent.passing)

/-- One process changes. -/
def modify (i : ℕ) (f : Proc → Proc) : System := { sys with procs := sys.procs.modify i f }

def goto (parent : Parent) : System := { sys with parent := parent }

def escalate (saver : Bool) (stage : Escalation) : System := sys.goto (.escalating saver stage)

/-- The parent signals a process. -/
def send (i : ℕ) (signal : Signal) : System :=
  { sys with sent := sys.sent ++ [⟨i, signal, sys.now, sys.signals⟩] }

/-- `_shutdown` up to its first wait. -/
def shutdown (l : Launch) : System :=
  (sys.set_stop (.other false)).escalate false
    (.cooperative (sys.now + HARDWARE_GRACE_S) l.hardware)

/-- Before the first `proc.start()`. -/
def init (l : Launch) (duration_s : Option ℚ) : System :=
  ⟨0, l.names.map fun _ => ⟨false, false, none⟩, .starting 0, duration_s, none, none, 0, none, []⟩

end System

/-- What can happen. -/
inductive Step (l : Launch) (sys : System) : System → Prop
  | tick (δ : ℚ) : 0 ≤ δ → Step l sys { sys with now := sys.now + δ }
  -- the operator
  | signal : sys.parent ≠ .done →
      Step l sys { sys.stop_by_other with signals := sys.signals + 1 }
  -- the nodes
  | node_signal (i : ℕ) : sys.is_alive i = true → Step l sys sys.stop_by_other
  | raises (i : ℕ) : sys.is_alive i = true →
      Step l sys (sys.stop_by_other.modify i fun p => { p with raised := true })
  | exits (i : ℕ) (p : Proc) (code : ℤ) : sys.procs[i]? = some p → p.is_alive = true →
      (p.raised = true → code ≠ 0) →
      Step l sys (sys.modify i fun p => { p with exitcode := some code })
  -- the launch
  | start (i : ℕ) : sys.parent = .starting i → i < sys.procs.length →
      Step l sys ((sys.modify i fun p => { p with started := true }).goto (.starting (i + 1)))
  | start_fails (i : ℕ) : sys.parent = .starting i → i < sys.procs.length →
      Step l sys (sys.shutdown l)
  | started : sys.parent = .starting sys.procs.length → Step l sys (sys.goto .guard)
  -- the loop
  | stop : sys.parent = .guard → sys.stop = true → Step l sys (sys.shutdown l)
  | pass : sys.parent = .guard → sys.stop = false → Step l sys (sys.goto .deadline)
  | elapsed (deadline : ℚ) : sys.parent = .deadline → sys.deadline = some deadline →
      deadline ≤ sys.now → Step l sys (sys.shutdown l)
  | scan : sys.parent = .deadline → (∀ deadline, sys.deadline = some deadline →
      sys.now < deadline) → Step l sys (sys.goto (.scanning 0))
  | alive (i : ℕ) : sys.parent = .scanning i → sys.is_alive i = true →
      Step l sys (sys.goto (.scanning (i + 1)))
  | crashed (i : ℕ) (p : Proc) (name : String) (code : ℤ) : sys.parent = .scanning i →
      sys.procs[i]? = some p → l.names[i]? = some name → p.is_alive = false →
      p.exitcode = some code → code ≠ 0 →
      Step l sys ({ sys.set_stop (.found i) with
        crashed_node := some (name, code), came_to := some i }.goto
          (.sleeping (sys.now + POLL_S)))
  | finished (i : ℕ) (p : Proc) : sys.parent = .scanning i → sys.procs[i]? = some p →
      p.is_alive = false → p.exitcode = some 0 ∨ p.exitcode = none →
      Step l sys ({ sys.set_stop (.found i) with came_to := some i }.goto
        (.sleeping (sys.now + POLL_S)))
  | scanned : sys.parent = .scanning sys.procs.length →
      Step l sys (sys.goto (.sleeping (sys.now + POLL_S)))
  | wake (timeout : ℚ) : sys.parent = .sleeping timeout → timeout ≤ sys.now →
      Step l sys (sys.goto .guard)
  -- `_escalate`
  | slice (saver : Bool) (deadline : ℚ) (i : ℕ) (rest : List ℕ) :
      sys.parent = .escalating saver (.cooperative deadline (i :: rest)) →
      sys.is_alive i = true → sys.now < deadline → sys.force = false →
      Step l sys (sys.escalate saver (.slice deadline (sys.now + SLICE_S) i rest))
  | slice_over (saver : Bool) (deadline timeout : ℚ) (i : ℕ) (rest : List ℕ) :
      sys.parent = .escalating saver (.slice deadline timeout i rest) →
      sys.is_alive i = false ∨ timeout ≤ sys.now →
      Step l sys (sys.escalate saver (.cooperative deadline (i :: rest)))
  | waited (saver : Bool) (deadline : ℚ) (i : ℕ) (rest : List ℕ) :
      sys.parent = .escalating saver (.cooperative deadline (i :: rest)) →
      sys.is_alive i = false ∨ deadline ≤ sys.now ∨ sys.force = true →
      Step l sys (sys.escalate saver (.cooperative deadline rest))
  | to_terminate (saver : Bool) (deadline : ℚ) :
      sys.parent = .escalating saver (.cooperative deadline []) →
      Step l sys (sys.escalate saver (.terminate (l.group saver)))
  | terminate (saver : Bool) (i : ℕ) (rest : List ℕ) :
      sys.parent = .escalating saver (.terminate (i :: rest)) → sys.is_alive i = true →
      Step l sys ((sys.send i .SIGTERM).escalate saver (.terminate rest))
  | terminate_none (saver : Bool) (i : ℕ) (rest : List ℕ) :
      sys.parent = .escalating saver (.terminate (i :: rest)) → sys.is_alive i = false →
      Step l sys (sys.escalate saver (.terminate rest))
  | to_join (saver : Bool) : sys.parent = .escalating saver (.terminate []) →
      Step l sys (sys.escalate saver (.join (l.group saver)))
  | join (saver : Bool) (i : ℕ) (rest : List ℕ) :
      sys.parent = .escalating saver (.join (i :: rest)) → sys.is_alive i = true →
      Step l sys (sys.escalate saver (.joining (sys.now + TERM_GRACE_S) i rest))
  | join_none (saver : Bool) (i : ℕ) (rest : List ℕ) :
      sys.parent = .escalating saver (.join (i :: rest)) → sys.is_alive i = false →
      Step l sys (sys.escalate saver (.join rest))
  | joined (saver : Bool) (timeout : ℚ) (i : ℕ) (rest : List ℕ) :
      sys.parent = .escalating saver (.joining timeout i rest) →
      sys.is_alive i = false ∨ timeout ≤ sys.now →
      Step l sys (sys.escalate saver (.join rest))
  | to_kill (saver : Bool) : sys.parent = .escalating saver (.join []) →
      Step l sys (sys.escalate saver (.kill (l.group saver)))
  | kill (saver : Bool) (i : ℕ) (rest : List ℕ) :
      sys.parent = .escalating saver (.kill (i :: rest)) → sys.is_alive i = true →
      Step l sys ((sys.send i .SIGKILL).escalate saver
        (.reaping (sys.now + KILL_GRACE_S) i rest))
  | kill_none (saver : Bool) (i : ℕ) (rest : List ℕ) :
      sys.parent = .escalating saver (.kill (i :: rest)) → sys.is_alive i = false →
      Step l sys (sys.escalate saver (.kill rest))
  | reaped (saver : Bool) (timeout : ℚ) (i : ℕ) (rest : List ℕ) :
      sys.parent = .escalating saver (.reaping timeout i rest) →
      sys.is_alive i = false ∨ timeout ≤ sys.now →
      Step l sys (sys.escalate saver (.kill rest))
  -- `_shutdown` and the end
  | to_saver (i : ℕ) : sys.parent = .escalating false (.kill []) → l.saver = some i →
      Step l sys (sys.escalate true (.cooperative (sys.now + l.save_grace_s) [i]))
  | no_saver : sys.parent = .escalating false (.kill []) → l.saver = none →
      Step l sys (sys.goto .done)
  | saved : sys.parent = .escalating true (.kill []) → Step l sys (sys.goto .done)

/-- The states some steps lead to from one. -/
inductive Reaches (l : Launch) (start : System) : System → Prop
  | refl : Reaches l start start
  | step {sys sys' : System} : Reaches l start sys → Step l sys sys' → Reaches l start sys'

/-! ## The teardown -/

namespace System

variable (sys : System)

/-- A signal went to a process. -/
def Sent (i : ℕ) (signal : Signal) : Prop :=
  ∃ s ∈ sys.sent, s.proc = i ∧ s.signal = signal

/-- A process was sent SIGTERM, and its time to die of it was over by `time`. -/
def TermedBy (i : ℕ) (time : ℚ) : Prop :=
  ∃ s ∈ sys.sent, s.proc = i ∧ s.signal = .SIGTERM ∧ s.time + TERM_GRACE_S ≤ time

/-- A process is not alive, or was sent the signal that nothing survives. -/
def Down (i : ℕ) : Prop := sys.is_alive i = false ∨ sys.Sent i .SIGKILL

/-- The operator insisted, or the stop event was set that long ago. -/
def Due (grace : ℚ) : Prop :=
  3 ≤ sys.signals ∨ ∃ at_ cause, sys.stopped = some (at_, cause) ∧ at_ + grace ≤ sys.now

end System

/-- What a teardown keeps to. A node gets SIGTERM when its grace since the stop is over or the
operator insisted, and SIGKILL when it had SIGTERM and time to die of it; the recording consumer is
signalled when all other nodes are down; and in the end every node is. -/
structure Orderly (l : Launch) (sys : System) : Prop where
  patient : ∀ s ∈ sys.sent, s.signal = .SIGTERM →
    3 ≤ s.signals ∨ ∃ at_ cause, sys.stopped = some (at_, cause) ∧ at_ + l.grace s.proc ≤ s.time
  warned : ∀ s ∈ sys.sent, s.signal = .SIGKILL → sys.TermedBy s.proc s.time
  saver_last : ∀ s ∈ sys.sent, l.saver = some s.proc →
    ∀ i < l.names.length, some i ≠ l.saver → sys.Down i
  no_orphan : sys.parent = .done → ∀ i < l.names.length, sys.Down i

/-- Everybody in a group is still to come, not alive, or as said. -/
def Each (sys : System) (group rest : List ℕ) (p : ℕ → Prop) : Prop :=
  ∀ i ∈ group, i ∈ rest ∨ sys.is_alive i = false ∨ p i

/-- What holds at each place of `_escalate`. -/
def Escalation.Inv (l : Launch) (sys : System) (saver : Bool) : Escalation → Prop
  | cooperative deadline rest =>
    rest ⊆ l.group saver ∧
      (∃ at_ cause, sys.stopped = some (at_, cause) ∧ at_ + l.cooperative_s saver ≤ deadline) ∧
      Each sys (l.group saver) rest fun _ => deadline ≤ sys.now ∨ 3 ≤ sys.signals
  | slice deadline _ i rest =>
    i :: rest ⊆ l.group saver ∧
      (∃ at_ cause, sys.stopped = some (at_, cause) ∧ at_ + l.cooperative_s saver ≤ deadline) ∧
      Each sys (l.group saver) (i :: rest) fun _ => deadline ≤ sys.now ∨ 3 ≤ sys.signals
  | terminate rest =>
    rest ⊆ l.group saver ∧
      Each sys (l.group saver) [] (fun _ => sys.Due (l.cooperative_s saver)) ∧
      Each sys (l.group saver) rest (sys.Sent · .SIGTERM)
  | join rest =>
    Each sys (l.group saver) [] (sys.Sent · .SIGTERM) ∧
      Each sys (l.group saver) rest (sys.TermedBy · sys.now) ∧ rest ⊆ l.group saver
  | joining timeout i rest =>
    Each sys (l.group saver) [] (sys.Sent · .SIGTERM) ∧
      Each sys (l.group saver) (i :: rest) (sys.TermedBy · sys.now) ∧
      i :: rest ⊆ l.group saver ∧ (sys.is_alive i = false ∨ sys.TermedBy i timeout)
  | kill rest | reaping _ _ rest =>
    rest ⊆ l.group saver ∧ Each sys (l.group saver) [] (sys.TermedBy · sys.now) ∧
      Each sys (l.group saver) rest (sys.Sent · .SIGKILL)

/-- The parent is in `_shutdown` or through with it. -/
def Parent.tearing : Parent → Bool
  | escalating _ _ | done => true
  | _ => false

/-- The event was set in the past. -/
def Clock (sys : System) : Prop := ∀ at_ cause, sys.stopped = some (at_, cause) → at_ ≤ sys.now

/-- The books of a teardown. -/
structure Inv (l : Launch) (sys : System) : Prop where
  quiet : sys.parent.tearing = false → sys.sent = []
  past : ∀ s ∈ sys.sent, s.time ≤ sys.now
  begun : sys.parent.tearing = true →
    ∃ at_ cause, sys.stopped = some (at_, cause) ∧ at_ ≤ sys.now
  stage : ∀ saver stage, sys.parent = .escalating saver stage → stage.Inv l sys saver
  hardware : (∃ stage, sys.parent = .escalating true stage) ∨ sys.parent = .done →
    ∀ i ∈ l.hardware, sys.Down i
  saver : sys.parent = .done → ∀ i ∈ l.saver.toList, sys.Down i
  patient : ∀ s ∈ sys.sent, s.signal = .SIGTERM →
    3 ≤ s.signals ∨ ∃ at_ cause, sys.stopped = some (at_, cause) ∧ at_ + l.grace s.proc ≤ s.time
  warned : ∀ s ∈ sys.sent, s.signal = .SIGKILL → sys.TermedBy s.proc s.time
  saver_last : ∀ s ∈ sys.sent, l.saver = some s.proc → ∀ i ∈ l.hardware, sys.Down i

/-- Time passes, signals arrive, processes die, the event is set and signals are sent; nothing of
it is taken back. -/
structure Later (sys sys' : System) : Prop where
  now : sys.now ≤ sys'.now
  signals : sys.signals ≤ sys'.signals
  gone : ∀ i, sys.is_alive i = false → sys'.is_alive i = false
  stopped : ∀ s, sys.stopped = some s → sys'.stopped = some s
  sent : sys.sent ⊆ sys'.sent

section Teardown

variable {l : Launch} {sys sys' : System} {saver : Bool} {group rest : List ℕ} {p q : ℕ → Prop}

/-- Liveness after one process changed: its own by the new value, that of the others as before. -/
theorem is_alive_modify (i j : ℕ) (f : Proc → Proc) :
    (sys.modify i f).is_alive j =
      if i = j then (sys.procs[j]?).any fun p => (f p).is_alive else sys.is_alive j := by
  unfold System.is_alive System.modify
  rw [List.getElem?_modify]
  by_cases hij : i = j
  · simp only [hij, if_true]
    cases sys.procs[j]? with
    | none => rfl
    | some p => rfl
  · simp only [hij, if_false]
    cases sys.procs[j]? with
    | none => rfl
    | some p => rfl

/-- Liveness of a process that is known to be there, without the lookup. -/
theorem is_alive_eq {i : ℕ} {p : Proc} (h : sys.procs[i]? = some p) :
    sys.is_alive i = p.is_alive := by
  unfold System.is_alive
  rw [h, Option.any_some]

/-- What a dead process undergoes does not bring it back, and a change of another one does not
either. -/
theorem gone_modify {i : ℕ} {f : Proc → Proc}
    (hf : ∀ p : Proc, p.is_alive = false → (f p).is_alive = false) {j : ℕ}
    (h : sys.is_alive j = false) : (sys.modify i f).is_alive j = false := by
  rw [is_alive_modify]
  split
  · cases hp : sys.procs[j]? with
    | none => rfl
    | some p =>
      rw [is_alive_eq hp] at h
      exact hf p h
  · exact h

/-! ### What is said stays said -/

/-- No time has passed and nobody was signalled. -/
theorem Later.refl : Later sys sys :=
  ⟨le_refl _, le_refl _, fun _ h => h, fun _ h => h, fun _ h => h⟩

/-- Setting the event moves nothing else: neither the clock nor a process nor a signal. -/
theorem Later.set_stop (cause : Cause) : Later sys (sys.set_stop cause) where
  now := le_refl _
  signals := le_refl _
  gone _ h := h
  stopped s h := by
    show sys.stopped.or _ = some s
    rw [h, Option.some_or]
  sent _ h := h

/-- A process may start, exit or be signalled, as long as one that was dead is not brought back by
it. -/
theorem Later.modify {i : ℕ} {f : Proc → Proc}
    (hf : ∀ p : Proc, p.is_alive = false → (f p).is_alive = false) :
    Later sys (sys.modify i f) :=
  ⟨le_refl _, le_refl _, fun _ h => gone_modify hf h, fun _ h => h, fun _ h => h⟩

/-- The parent's signal is added to those sent, and the process that gets it may still be alive. -/
theorem Later.send (i : ℕ) (signal : Signal) : Later sys (sys.send i signal) :=
  ⟨le_refl _, le_refl _, fun _ h => h, fun _ h => h, List.subset_append_left _ _⟩

/-- Each of the parts of [`Later`] composes, so several things that happen around the parent are
one. -/
theorem Later.trans {sys'' : System} (h : Later sys sys') (h' : Later sys' sys'') :
    Later sys sys'' where
  now := h.now.trans h'.now
  signals := h.signals.trans h'.signals
  gone i hi := h'.gone i (h.gone i hi)
  stopped s hs := h'.stopped s (h.stopped s hs)
  sent _ hs := h'.sent (h.sent hs)

/-- What was sent stays sent: the record of signals only grows. -/
theorem System.Sent.later {i : ℕ} {signal : Signal} (h : sys.Sent i signal)
    (hlater : Later sys sys') : sys'.Sent i signal := by
  obtain ⟨s, hs, hsent⟩ := h
  exact ⟨s, hlater.sent hs, hsent⟩

/-- A SIGTERM that was old enough remains so, since time does not run backwards. -/
theorem System.TermedBy.later {i : ℕ} {time time' : ℚ} (h : sys.TermedBy i time)
    (hlater : Later sys sys') (htime : time ≤ time') : sys'.TermedBy i time' := by
  obtain ⟨s, hs, hproc, hsignal, hle⟩ := h
  exact ⟨s, hlater.sent hs, hproc, hsignal, hle.trans htime⟩

/-- Who was down stays down: dead processes do not come back and SIGKILL is not taken back. -/
theorem System.Down.later {i : ℕ} (h : sys.Down i) (hlater : Later sys sys') : sys'.Down i :=
  h.imp (hlater.gone i) (·.later hlater)

/-- Once the operator has insisted or the stop is old enough, waiting longer changes nothing. -/
theorem System.Due.later {grace : ℚ} (h : sys.Due grace) (hlater : Later sys sys') :
    sys'.Due grace := by
  refine h.imp (fun hsignals => hsignals.trans hlater.signals) ?_
  rintro ⟨at_, cause, hstopped, hle⟩
  exact ⟨at_, cause, hlater.stopped _ hstopped, hle.trans hlater.now⟩

/-- A fact about everybody in a group, carried along while other things happen, provided that they
keep the fact. -/
theorem Each.later (h : Each sys group rest p) (hlater : Later sys sys')
    (hpq : ∀ i, p i → q i) : Each sys' group rest q :=
  fun i hi => (h i hi).imp_right fun h => h.imp (hlater.gone i) (hpq i)

/-- The first of the rest is dealt with. -/
theorem Each.next {i : ℕ} (h : Each sys group (i :: rest) p)
    (hi : sys.is_alive i = false ∨ p i) : Each sys group rest p := by
  intro j hj
  rcases h j hj with hmem | hj
  · rcases List.mem_cons.1 hmem with rfl | hmem
    · exact .inr hi
    · exact .inl hmem
  · exact .inr hj

/-- A loop begins with everybody still to come. -/
theorem Each.start : Each sys group group p := fun _ hi => .inl hi

/-- A loop that is over has dealt with everybody. -/
theorem Each.over (h : Each sys group [] p) {i : ℕ} (hi : i ∈ group) :
    sys.is_alive i = false ∨ p i :=
  (h i hi).resolve_left List.not_mem_nil

/-- Whatever stage `_escalate` is in, what its loops have established so far is kept by what happens
around the parent. -/
theorem Escalation.Inv.later {stage : Escalation} (h : stage.Inv l sys saver)
    (hlater : Later sys sys') : stage.Inv l sys' saver := by
  have hdeadline : ∀ deadline, deadline ≤ sys.now ∨ 3 ≤ sys.signals →
      deadline ≤ sys'.now ∨ 3 ≤ sys'.signals := fun deadline h =>
    h.imp (fun h => h.trans hlater.now) fun h => h.trans hlater.signals
  cases stage with
  | cooperative deadline rest =>
    obtain ⟨hrest, ⟨at_, cause, hstopped, hle⟩, heach⟩ := h
    exact ⟨hrest, ⟨at_, cause, hlater.stopped _ hstopped, hle⟩,
      heach.later hlater fun _ => hdeadline deadline⟩
  | slice deadline timeout i rest =>
    obtain ⟨hrest, ⟨at_, cause, hstopped, hle⟩, heach⟩ := h
    exact ⟨hrest, ⟨at_, cause, hlater.stopped _ hstopped, hle⟩,
      heach.later hlater fun _ => hdeadline deadline⟩
  | terminate rest =>
    obtain ⟨hrest, hdue, hsent⟩ := h
    exact ⟨hrest, hdue.later hlater fun _ h => h.later hlater,
      hsent.later hlater fun _ h => h.later hlater⟩
  | join rest =>
    obtain ⟨hsent, htermed, hrest⟩ := h
    exact ⟨hsent.later hlater fun _ h => h.later hlater,
      htermed.later hlater fun _ h => h.later hlater hlater.now, hrest⟩
  | joining timeout i rest =>
    obtain ⟨hsent, htermed, hrest, hi⟩ := h
    exact ⟨hsent.later hlater fun _ h => h.later hlater,
      htermed.later hlater fun _ h => h.later hlater hlater.now, hrest,
      hi.imp (hlater.gone i) fun h => h.later hlater (le_refl _)⟩
  | kill rest =>
    obtain ⟨hrest, htermed, hkilled⟩ := h
    exact ⟨hrest, htermed.later hlater fun _ h => h.later hlater hlater.now,
      hkilled.later hlater fun _ h => h.later hlater⟩
  | reaping timeout i rest =>
    obtain ⟨hrest, htermed, hkilled⟩ := h
    exact ⟨hrest, htermed.later hlater fun _ h => h.later hlater hlater.now,
      hkilled.later hlater fun _ h => h.later hlater⟩

/-- What happens around the parent keeps the books: nodes that fail or exit, operators that signal,
and time that passes, with nothing sent by the parent. -/
theorem Inv.later (h : Inv l sys) (hlater : Later sys sys') (hparent : sys'.parent = sys.parent)
    (hsent : sys'.sent = sys.sent) : Inv l sys' where
  quiet htearing := hsent ▸ h.quiet (hparent ▸ htearing)
  past s hs := (h.past s (hsent ▸ hs)).trans hlater.now
  begun htearing := by
    obtain ⟨at_, cause, hstopped, hle⟩ := h.begun (hparent ▸ htearing)
    exact ⟨at_, cause, hlater.stopped _ hstopped, hle.trans hlater.now⟩
  stage saver stage hstage := (h.stage saver stage (hparent ▸ hstage)).later hlater
  hardware htearing i hi := (h.hardware (hparent ▸ htearing) i hi).later hlater
  saver hdone i hi := (h.saver (hparent ▸ hdone) i hi).later hlater
  patient s hs hsignal := by
    refine (h.patient s (hsent ▸ hs) hsignal).imp_right ?_
    rintro ⟨at_, cause, hstopped, hle⟩
    exact ⟨at_, cause, hlater.stopped _ hstopped, hle⟩
  warned s hs hsignal := (h.warned s (hsent ▸ hs) hsignal).later hlater (le_refl _)
  saver_last s hs hsaver i hi := (h.saver_last s (hsent ▸ hs) hsaver i hi).later hlater

/-- Before the teardown nothing was sent, so there is nothing that the books of a teardown could
object to. -/
theorem Inv.of_quiet (hsent : sys.sent = []) (htearing : sys.parent.tearing = false) :
    Inv l sys where
  quiet _ := hsent
  past s hs := absurd (hsent ▸ hs) List.not_mem_nil
  begun h := absurd (h.symm.trans htearing) Bool.noConfusion
  stage saver stage hstage := by
    rw [hstage] at htearing
    exact nomatch htearing
  hardware h := by
    rcases h with ⟨stage, hstage⟩ | hdone
    · rw [hstage] at htearing
      exact nomatch htearing
    · rw [hdone] at htearing
      exact nomatch htearing
  saver hdone := by
    rw [hdone] at htearing
    exact nomatch htearing
  patient s hs := absurd (hsent ▸ hs) List.not_mem_nil
  warned s hs := absurd (hsent ▸ hs) List.not_mem_nil
  saver_last s hs := absurd (hsent ▸ hs) List.not_mem_nil

/-- The event is set when the teardown begins, or was before. -/
theorem begun_set_stop (hclock : Clock sys) (cause : Cause) :
    ∃ at_ cause', (sys.set_stop cause).stopped = some (at_, cause') ∧ at_ ≤ sys.now := by
  unfold System.set_stop
  cases h : sys.stopped with
  | none => exact ⟨sys.now, cause, rfl, le_refl _⟩
  | some s => exact ⟨s.1, s.2, rfl, hclock _ _ h⟩

/-- The event gets the time of the clock, or keeps the one that it had. -/
theorem Clock.set_stop (hclock : Clock sys) (cause : Cause) : Clock (sys.set_stop cause) := by
  intro at_ cause' h
  obtain ⟨at_', cause'', hstopped, hle⟩ := begun_set_stop hclock cause
  obtain ⟨rfl, -⟩ := Prod.mk.inj (Option.some.inj (hstopped.symm.trans h))
  exact hle

/-- No step sets the event in the future, as each reads the clock at the moment it sets it. -/
theorem Step.clock (hstep : Step l sys sys') (hclock : Clock sys) : Clock sys' := by
  cases hstep with
  | tick δ hδ => exact fun at_ cause h => (hclock at_ cause h).trans (le_add_of_nonneg_right hδ)
  | signal => exact hclock.set_stop _
  | node_signal => exact hclock.set_stop _
  | raises => exact hclock.set_stop _
  | start_fails => exact hclock.set_stop _
  | stop => exact hclock.set_stop _
  | elapsed => exact hclock.set_stop _
  | crashed => exact hclock.set_stop _
  | finished => exact hclock.set_stop _
  | _ => exact hclock

/-- The signal that was just sent is in the record. -/
theorem System.Sent.send (i : ℕ) (signal : Signal) : (sys.send i signal).Sent i signal :=
  ⟨_, List.mem_append_right _ (List.mem_singleton_self _), rfl, rfl⟩

/-- The first call of `_escalate` is for every node but the recording consumer. -/
theorem mem_group_false {i : ℕ} :
    i ∈ l.group false ↔ i < l.names.length ∧ some i ≠ l.saver := by
  simp [Launch.group, Launch.hardware]

/-- The second call is for the recording consumer alone, where there is one. -/
theorem mem_group_true {i : ℕ} : i ∈ l.group true ↔ l.saver = some i := by
  simp [Launch.group]

/-- A node's grace is the one of the group it is unwound in. -/
theorem grace_of_mem {i : ℕ} (h : i ∈ l.group saver) : l.grace i = l.cooperative_s saver := by
  unfold Launch.grace
  cases saver with
  | false => rw [decide_eq_false (mem_group_false.1 h).2]
  | true => rw [decide_eq_true (mem_group_true.1 h).symm]

/-- The parent goes on within a call of `_escalate`: the books are kept if the stage it goes to has
its invariant. -/
theorem Inv.escalate (h : Inv l sys) {stage stage' : Escalation}
    (hparent : sys.parent = .escalating saver stage) (hstage : stage'.Inv l sys saver) :
    Inv l (sys.escalate saver stage') where
  quiet htearing := nomatch htearing
  past := h.past
  begun _ := h.begun (by rw [hparent]; rfl)
  stage saver' stage'' heq := by
    obtain ⟨rfl, rfl⟩ := Parent.escalating.inj heq
    exact hstage.later ⟨le_refl _, le_refl _, fun _ h => h, fun _ h => h, fun _ h => h⟩
  hardware htearing := by
    rcases htearing with ⟨stage'', heq⟩ | hdone
    · obtain ⟨rfl, -⟩ := Parent.escalating.inj heq
      exact h.hardware (.inl ⟨_, hparent⟩)
    · exact nomatch hdone
  saver hdone := nomatch hdone
  patient := h.patient
  warned := h.warned
  saver_last := h.saver_last

/-- A process of the group is signalled, with the premises that make it orderly: SIGTERM is due by
then, and SIGKILL comes after a SIGTERM that was given its time. -/
theorem Inv.send (h : Inv l sys) {stage : Escalation}
    (hparent : sys.parent = .escalating saver stage) {i : ℕ} (hi : i ∈ l.group saver)
    (signal : Signal)
    (hterm : signal = .SIGTERM → sys.Due (l.cooperative_s saver))
    (hkill : signal = .SIGKILL → sys.TermedBy i sys.now) : Inv l (sys.send i signal) where
  quiet htearing := by
    rw [show (sys.send i signal).parent = .escalating saver stage from hparent] at htearing
    exact nomatch htearing
  past s hs := by
    rcases List.mem_append.1 hs with hs | hs
    · exact h.past s hs
    · obtain rfl := List.mem_singleton.1 hs
      exact le_refl _
  begun := h.begun
  stage saver stage hstage := (h.stage saver stage hstage).later (.send i signal)
  hardware htearing j hj := (h.hardware htearing j hj).later (.send i signal)
  saver hdone j hj := (h.saver hdone j hj).later (.send i signal)
  patient s hs hsignal := by
    rcases List.mem_append.1 hs with hs | hs
    · exact h.patient s hs hsignal
    · obtain rfl := List.mem_singleton.1 hs
      rw [grace_of_mem hi]
      exact hterm hsignal
  warned s hs hsignal := by
    rcases List.mem_append.1 hs with hs | hs
    · exact (h.warned s hs hsignal).later (.send i signal) (le_refl _)
    · obtain rfl := List.mem_singleton.1 hs
      exact (hkill hsignal).later (.send i signal) (le_refl _)
  saver_last s hs hsaver j hj := by
    rcases List.mem_append.1 hs with hs | hs
    · exact (h.saver_last s hs hsaver j hj).later (.send i signal)
    · obtain rfl := List.mem_singleton.1 hs
      cases saver with
      -- the first call never has the recording consumer
      | false => exact absurd hsaver.symm (mem_group_false.1 hi).2
      | true => exact (h.hardware (.inl ⟨_, hparent⟩) j hj).later (.send i signal)

/-- The teardown begins: the hardware is waited for, and the grace counts from the event, which is
in the past. -/
theorem Inv.shutdown (h : Inv l sys) (hclock : Clock sys) (htearing : sys.parent.tearing = false) :
    Inv l (sys.shutdown l) where
  quiet htearing := nomatch htearing
  past := h.past
  begun _ := begun_set_stop hclock _
  stage saver stage heq := by
    obtain ⟨rfl, rfl⟩ := Parent.escalating.inj heq
    obtain ⟨at_, cause, hstopped, hle⟩ := begun_set_stop hclock (.other false)
    exact ⟨fun _ h => h, ⟨at_, cause, hstopped, add_le_add_left hle _⟩, .start⟩
  hardware h := by
    rcases h with ⟨stage, heq⟩ | hdone
    · exact Bool.noConfusion (Parent.escalating.inj heq).1
    · exact nomatch hdone
  saver hdone := nomatch hdone
  patient s hs := absurd (h.quiet htearing ▸ hs) List.not_mem_nil
  warned s hs := absurd (h.quiet htearing ▸ hs) List.not_mem_nil
  saver_last s hs := absurd (h.quiet htearing ▸ hs) List.not_mem_nil

/-- The hardware is down: the recording consumer is waited for, from now on. -/
theorem Inv.to_saver (h : Inv l sys) (hparent : sys.parent = .escalating false (.kill []))
    {i : ℕ} (hsaver : l.saver = some i) :
    Inv l (sys.escalate true (.cooperative (sys.now + l.save_grace_s) [i])) where
  quiet htearing := nomatch htearing
  past := h.past
  begun _ := h.begun (by rw [hparent]; rfl)
  stage saver stage heq := by
    obtain ⟨rfl, rfl⟩ := Parent.escalating.inj heq
    obtain ⟨at_, cause, hstopped, hle⟩ := h.begun (by rw [hparent]; rfl)
    have hgroup : l.group true = [i] := by
      unfold Launch.group
      rw [hsaver]
      rfl
    unfold Escalation.Inv
    rw [hgroup]
    exact ⟨fun _ h => h, ⟨at_, cause, hstopped, add_le_add_left hle _⟩, .start⟩
  hardware _ j hj := (h.stage _ _ hparent).2.2.over hj
  saver hdone := nomatch hdone
  patient := h.patient
  warned := h.warned
  saver_last := h.saver_last

/-- Everybody is down, the hardware and the recording consumer, and the parent is through with its
teardown. -/
theorem Inv.done (h : Inv l sys) (htearing : sys.parent.tearing = true)
    (hhardware : ∀ i ∈ l.hardware, sys.Down i) (hsaver : ∀ i ∈ l.saver.toList, sys.Down i) :
    Inv l (sys.goto .done) where
  quiet htearing := nomatch htearing
  past := h.past
  begun _ := h.begun htearing
  stage _ _ heq := nomatch heq
  hardware _ := hhardware
  saver _ := hsaver
  patient := h.patient
  warned := h.warned
  saver_last := h.saver_last

/-- One step keeps the books of the teardown: the parent's own statements by the stage they are in,
and everything around it at once. -/
theorem Step.inv (hstep : Step l sys sys') (hclock : Clock sys) (h : Inv l sys) :
    Inv l sys' := by
  cases hstep with
  -- what happens outside the parent only makes things later
  | tick δ hδ =>
    exact h.later ⟨le_add_of_nonneg_right hδ, le_refl _, fun _ h => h, fun _ h => h,
      fun _ h => h⟩ rfl rfl
  | signal hdone =>
    have hset : Later sys sys.stop_by_other := .set_stop _
    exact h.later ⟨hset.now, Nat.le_succ _, hset.gone, hset.stopped, hset.sent⟩ rfl rfl
  | node_signal i halive => exact h.later (.set_stop _) rfl rfl
  | raises i halive =>
    exact h.later ((Later.set_stop _).trans (.modify fun _ hp => hp)) rfl rfl
  | exits i p code hp halive hcode =>
    refine h.later (.modify fun p _ => ?_) rfl rfl
    unfold Proc.is_alive
    rw [Option.isNone_some, Bool.and_false]
  -- the parent's own steps before a shutdown are quiet, and three of them begin one
  | start i hparent hi => exact .of_quiet (h.quiet (by rw [hparent]; rfl)) rfl
  | start_fails i hparent hi => exact h.shutdown hclock (by rw [hparent]; rfl)
  | started hparent => exact .of_quiet (h.quiet (by rw [hparent]; rfl)) rfl
  | stop hparent hstop => exact h.shutdown hclock (by rw [hparent]; rfl)
  | pass hparent hstop => exact .of_quiet (h.quiet (by rw [hparent]; rfl)) rfl
  | elapsed deadline hparent hdeadline hle => exact h.shutdown hclock (by rw [hparent]; rfl)
  | scan hparent hdeadline => exact .of_quiet (h.quiet (by rw [hparent]; rfl)) rfl
  | alive i hparent halive => exact .of_quiet (h.quiet (by rw [hparent]; rfl)) rfl
  | crashed i p name code hparent hp hname halive hexit hcode =>
    exact .of_quiet (h.quiet (by rw [hparent]; rfl)) rfl
  | finished i p hparent hp halive hexit => exact .of_quiet (h.quiet (by rw [hparent]; rfl)) rfl
  | scanned hparent => exact .of_quiet (h.quiet (by rw [hparent]; rfl)) rfl
  | wake timeout hparent hle => exact .of_quiet (h.quiet (by rw [hparent]; rfl)) rfl
  | slice saver deadline i rest hparent halive hlt hforce =>
    -- the wait for an exit goes on in slices; while it lasts nothing new is due
    have hstage := h.stage _ _ hparent
    exact h.escalate hparent hstage
  | slice_over saver deadline timeout i rest hparent hover =>
    have hstage := h.stage _ _ hparent
    exact h.escalate hparent hstage
  | waited saver deadline i rest hparent hover =>
    obtain ⟨hrest, hstopped, heach⟩ := h.stage _ _ hparent
    refine h.escalate hparent ⟨(List.cons_subset.1 hrest).2, hstopped, heach.next ?_⟩
    exact hover.imp_right fun h => h.imp_right of_decide_eq_true
  | to_terminate saver deadline hparent =>
    obtain ⟨-, ⟨at_, cause, hstopped, hle⟩, heach⟩ := h.stage _ _ hparent
    refine h.escalate hparent ⟨fun _ h => h, heach.later .refl fun i hi => ?_, .start⟩
    rcases hi with hdeadline | hforce
    · exact .inr ⟨at_, cause, hstopped, hle.trans hdeadline⟩
    · exact .inl hforce
  | terminate saver i rest hparent halive =>
    -- SIGTERM is due, for the grace of the process is over
    obtain ⟨hrest, hdue, hsent⟩ := h.stage _ _ hparent
    obtain ⟨hi, hrest⟩ := List.cons_subset.1 hrest
    have hterm := (hdue.over hi).resolve_left (by rw [halive]; exact Bool.noConfusion)
    refine (h.send hparent hi .SIGTERM (fun _ => hterm) nofun).escalate hparent ⟨hrest, ?_, ?_⟩
    · exact hdue.later (.send i _) fun _ h => h.later (.send i _)
    · exact (hsent.later (.send i _) fun _ h => h.later (.send i _)).next (.inr (.send i _))
  | terminate_none saver i rest hparent halive =>
    obtain ⟨hrest, hdue, hsent⟩ := h.stage _ _ hparent
    exact h.escalate hparent ⟨(List.cons_subset.1 hrest).2, hdue, hsent.next (.inl halive)⟩
  | to_join saver hparent =>
    obtain ⟨-, -, hsent⟩ := h.stage _ _ hparent
    exact h.escalate hparent ⟨hsent, .start, fun _ h => h⟩
  | join saver i rest hparent halive =>
    obtain ⟨hsent, htermed, hrest⟩ := h.stage _ _ hparent
    refine h.escalate hparent ⟨hsent, htermed, hrest, ?_⟩
    refine (hsent.over (List.cons_subset.1 hrest).1).imp_right ?_
    rintro ⟨s, hs, hproc, hsignal⟩
    exact ⟨s, hs, hproc, hsignal, add_le_add_left (h.past s hs) _⟩
  | join_none saver i rest hparent halive =>
    obtain ⟨hsent, htermed, hrest⟩ := h.stage _ _ hparent
    exact h.escalate hparent ⟨hsent, htermed.next (.inl halive), (List.cons_subset.1 hrest).2⟩
  | joined saver timeout i rest hparent hover =>
    obtain ⟨hsent, htermed, hrest, hi⟩ := h.stage _ _ hparent
    refine h.escalate hparent ⟨hsent, htermed.next ?_, (List.cons_subset.1 hrest).2⟩
    rcases hover with hgone | hle
    · exact .inl hgone
    · exact hi.imp_right fun h => h.later .refl hle
  | to_kill saver hparent =>
    obtain ⟨-, htermed, -⟩ := h.stage _ _ hparent
    exact h.escalate hparent ⟨fun _ h => h, htermed, .start⟩
  | kill saver i rest hparent halive =>
    -- SIGKILL comes only to one whose SIGTERM had its time
    obtain ⟨hrest, htermed, hkilled⟩ := h.stage _ _ hparent
    obtain ⟨hi, hrest⟩ := List.cons_subset.1 hrest
    have hterm := (htermed.over hi).resolve_left (by rw [halive]; exact Bool.noConfusion)
    refine (h.send hparent hi .SIGKILL nofun fun _ => hterm).escalate hparent ⟨hrest, ?_, ?_⟩
    · exact htermed.later (.send i _) fun _ h => h.later (.send i _) (le_refl _)
    · exact (hkilled.later (.send i _) fun _ h => h.later (.send i _)).next (.inr (.send i _))
  | kill_none saver i rest hparent halive =>
    obtain ⟨hrest, htermed, hkilled⟩ := h.stage _ _ hparent
    exact h.escalate hparent ⟨(List.cons_subset.1 hrest).2, htermed, hkilled.next (.inl halive)⟩
  | reaped saver timeout i rest hparent hover =>
    have hstage := h.stage _ _ hparent
    exact h.escalate hparent hstage
  | to_saver i hparent hsaver =>
    exact h.to_saver hparent hsaver
  | no_saver hparent hsaver =>
    refine h.done (by rw [hparent]; rfl) (fun i => (h.stage _ _ hparent).2.2.over) ?_
    rw [hsaver]
    exact fun _ hi => absurd hi List.not_mem_nil
  | saved hparent =>
    exact h.done (by rw [hparent]; rfl) (h.hardware (.inl ⟨_, hparent⟩)) fun i =>
      (h.stage _ _ hparent).2.2.over

end Teardown

/-! ## The exit status -/

/-- The processes the loop looks at were started. -/
structure Launched (l : Launch) (sys : System) : Prop where
  length : sys.procs.length = l.names.length
  launching : ∀ i, sys.parent = .starting i →
    ∀ j < i, ∀ p : Proc, sys.procs[j]? = some p → p.started = true
  looping : (∀ i, sys.parent ≠ .starting i) → sys.parent.tearing = false →
    ∀ (j : ℕ) (p : Proc), sys.procs[j]? = some p → p.started = true

/-- The books of a crash. Only the pass comes to a dead process, once, and never after somebody else
set the event outside a pass; what is reported is that process, if it failed by itself. -/
structure Verdict (l : Launch) (sys : System) : Prop where
  unset : sys.stopped = none → sys.came_to = none ∧ sys.parent.tearing = false
  once : sys.came_to ≠ none → sys.parent.passing = false
  other : ∀ at_, sys.stopped = some (at_, .other false) →
    sys.came_to = none ∧ sys.parent.passing = false
  found : ∀ at_ i, sys.stopped = some (at_, .found i) → sys.came_to = some i
  nobody : sys.came_to = none → sys.crashed_node = none
  reported : ∀ i, sys.came_to = some i →
    ∃ name p code, l.names[i]? = some name ∧ sys.procs[i]? = some p ∧ p.exitcode = some code ∧
      sys.crashed_node = (if code = 0 then none else some (name, code)) ∧
      ∀ s ∈ sys.sent, s.proc ≠ i

section ExitStatus

variable {l : Launch} {sys sys' : System}

/-- The event stays set, by whom it was first set and at which time: a second `set` finds it set and
changes nothing. -/
theorem Step.stopped (hstep : Step l sys sys') {s : ℚ × Cause} (h : sys.stopped = some s) :
    sys'.stopped = some s := by
  have hset : ∀ cause, (sys.set_stop cause).stopped = some s := fun cause =>
    (Later.set_stop cause).stopped s h
  cases hstep with
  | signal => exact hset _
  | node_signal => exact hset _
  | raises => exact hset _
  | start_fails => exact hset _
  | stop => exact hset _
  | elapsed => exact hset _
  | crashed => exact hset _
  | finished => exact hset _
  | _ => exact h

/-- After a `set` the event is as it was, or newly set with the clock's time; this splits every
proof about its cause. -/
theorem stopped_set_stop {cause : Cause} {s : ℚ × Cause}
    (h : (sys.set_stop cause).stopped = some s) :
    sys.stopped = some s ∨ sys.stopped = none ∧ s = (sys.now, cause) := by
  unfold System.set_stop at h
  cases hstopped : sys.stopped with
  | none =>
    rw [hstopped] at h
    exact .inr ⟨rfl, (Option.some.inj h).symm⟩
  | some s' =>
    rw [hstopped] at h
    exact .inl h

/-- After `stop_event.set()` the event is set, by whomever. -/
theorem stopped_set_stop_ne_none (cause : Cause) : (sys.set_stop cause).stopped ≠ none := by
  unfold System.set_stop
  cases sys.stopped with
  | none => exact nofun
  | some s => exact nofun

/-- Where a process is after one changes: at its old place, as it was or as the change has made it.
-/
theorem getElem?_modify_of {i j : ℕ} {f : Proc → Proc} {p : Proc}
    (h : (sys.modify i f).procs[j]? = some p) :
    ∃ p', sys.procs[j]? = some p' ∧ p = if i = j then f p' else p' := by
  unfold System.modify at h
  rw [List.getElem?_modify] at h
  cases hp : sys.procs[j]? with
  | none =>
    rw [hp] at h
    exact nomatch h
  | some p' =>
    rw [hp] at h
    exact ⟨p', rfl, (Option.some.inj h).symm⟩

/-! ### The launch -/

/-- What a process undergoes once it was started leaves it started, so the loop's processes stay
launched. -/
theorem Launched.modify (h : Launched l sys) {i : ℕ} {f : Proc → Proc}
    (hf : ∀ p : Proc, (f p).started = p.started ∨ (f p).started = true) :
    Launched l (sys.modify i f) := by
  have hstarted : ∀ (j : ℕ) (p : Proc), (sys.modify i f).procs[j]? = some p →
      ∃ p', sys.procs[j]? = some p' ∧ (p'.started = true → p.started = true) := by
    intro j p hp
    obtain ⟨p', hp', rfl⟩ := getElem?_modify_of hp
    refine ⟨p', hp', fun hstarted => ?_⟩
    split
    · exact (hf p').elim (fun heq => heq.trans hstarted) id
    · exact hstarted
  refine ⟨?_, ?_, ?_⟩
  · rw [← h.length]
    exact List.length_modify _ _ _
  · intro k hparent j hj p hp
    obtain ⟨p', hp', hstarted⟩ := hstarted j p hp
    exact hstarted (h.launching k hparent j hj p' hp')
  · intro hparent htearing j p hp
    obtain ⟨p', hp', hstarted⟩ := hstarted j p hp
    exact hstarted (h.looping hparent htearing j p' hp')

/-- The parent goes on in the loop, or begins its teardown. -/
theorem Launched.goto (h : Launched l sys) {parent : Parent} (hparent : ∀ i, parent ≠ .starting i)
    (hfrom : (∀ i, sys.parent ≠ .starting i) ∧
      (parent.tearing = false → sys.parent.tearing = false)) :
    Launched l (sys.goto parent) where
  length := h.length
  launching i heq := absurd heq (hparent i)
  looping _ htearing := h.looping hfrom.1 (hfrom.2 htearing)

/-- In a teardown the loop over the processes is over, and nothing is asked of who was started. -/
theorem Launched.tear (h : Launched l sys) {parent : Parent} (hparent : parent.tearing = true) :
    Launched l (sys.goto parent) where
  length := h.length
  launching i heq := by
    rw [show parent = .starting i from heq] at hparent
    exact nomatch hparent
  looping _ htearing := absurd (hparent.symm.trans htearing) Bool.noConfusion

/-- A pass only begins after the last `proc.start()`, which is what makes `is_alive` of a process
say that it died. -/
theorem Step.launched (hstep : Step l sys sys') (h : Launched l sys) : Launched l sys' := by
  cases hstep with
  | tick => exact ⟨h.length, h.launching, h.looping⟩
  | signal => exact ⟨h.length, h.launching, h.looping⟩
  | node_signal => exact ⟨h.length, h.launching, h.looping⟩
  | raises i halive =>
    have hset : Launched l sys.stop_by_other := ⟨h.length, h.launching, h.looping⟩
    exact hset.modify fun p => .inl rfl
  | exits i p code hp halive hcode => exact h.modify fun p => .inl rfl
  -- one more process is started, in the order of the list
  | start i hparent hi =>
    have hmodify : Launched l (sys.modify i fun p => { p with started := true }) :=
      h.modify fun p => .inr rfl
    refine ⟨hmodify.length, ?_, fun hne => absurd rfl (hne (i + 1))⟩
    intro k heq j hj p hp
    obtain rfl := Parent.starting.inj heq
    rcases Nat.lt_succ_iff_lt_or_eq.1 hj with hlt | rfl
    · exact hmodify.launching i hparent j hlt p hp
    · obtain ⟨p', -, rfl⟩ := getElem?_modify_of hp
      rw [if_pos rfl]
  -- the loop is entered when the last one is started
  | started hparent =>
    refine ⟨h.length, nofun, fun _ _ j p hp => ?_⟩
    exact h.launching _ hparent j (List.getElem?_eq_some_iff.1 hp).1 p hp
  | start_fails =>
    have hset : Launched l (sys.set_stop (.other false)) := ⟨h.length, h.launching, h.looping⟩
    exact hset.tear rfl
  | stop =>
    have hset : Launched l (sys.set_stop (.other false)) := ⟨h.length, h.launching, h.looping⟩
    exact hset.tear rfl
  | elapsed =>
    have hset : Launched l (sys.set_stop (.other false)) := ⟨h.length, h.launching, h.looping⟩
    exact hset.tear rfl
  | pass hparent hstop => exact h.goto nofun ⟨hparent ▸ nofun, fun _ => hparent ▸ rfl⟩
  | scan hparent hdeadline => exact h.goto nofun ⟨hparent ▸ nofun, fun _ => hparent ▸ rfl⟩
  | alive i hparent halive => exact h.goto nofun ⟨hparent ▸ nofun, fun _ => hparent ▸ rfl⟩
  | crashed i p name code hparent =>
    have hset : Launched l { sys.set_stop (.found i) with
        crashed_node := some (name, code), came_to := some i } :=
      ⟨h.length, h.launching, h.looping⟩
    exact hset.goto nofun ⟨by exact hparent ▸ nofun, fun _ => by exact hparent ▸ rfl⟩
  | finished i p hparent =>
    have hset : Launched l { sys.set_stop (.found i) with came_to := some i } :=
      ⟨h.length, h.launching, h.looping⟩
    exact hset.goto nofun ⟨by exact hparent ▸ nofun, fun _ => by exact hparent ▸ rfl⟩
  | scanned hparent => exact h.goto nofun ⟨hparent ▸ nofun, fun _ => hparent ▸ rfl⟩
  | wake timeout hparent hle => exact h.goto nofun ⟨hparent ▸ nofun, fun _ => hparent ▸ rfl⟩
  | terminate saver i rest hparent halive =>
    have hsend : Launched l (sys.send i .SIGTERM) := ⟨h.length, h.launching, h.looping⟩
    exact hsend.tear rfl
  | kill saver i rest hparent halive =>
    have hsend : Launched l (sys.send i .SIGKILL) := ⟨h.length, h.launching, h.looping⟩
    exact hsend.tear rfl
  | _ => exact h.tear rfl

/-! ### The crash -/

/-- The parent goes on: into a pass only with the event unset, to its teardown only with it set. -/
theorem Verdict.goto (h : Verdict l sys) {parent : Parent}
    (hpassing : parent.passing = true → sys.parent.passing = true ∨ sys.stopped = none)
    (htearing : parent.tearing = true → sys.stopped ≠ none) : Verdict l (sys.goto parent) := by
  refine ⟨?_, ?_, ?_, h.found, h.nobody, h.reported⟩
  · intro hnone
    refine ⟨(h.unset hnone).1, ?_⟩
    by_contra hne
    exact htearing (Bool.eq_true_of_not_eq_false hne) hnone
  · intro hcame
    by_contra hne
    rcases hpassing (Bool.eq_true_of_not_eq_false hne) with hpass | hnone
    · exact absurd (hpass.symm.trans (h.once hcame)) Bool.noConfusion
    · exact hcame (h.unset hnone).1
  · intro at_ hs
    obtain ⟨hcame, hnot⟩ := h.other at_ hs
    refine ⟨hcame, ?_⟩
    by_contra hne
    rcases hpassing (Bool.eq_true_of_not_eq_false hne) with hpass | hnone
    · exact absurd (hpass.symm.trans hnot) Bool.noConfusion
    · exact nomatch hnone.symm.trans hs

/-- Somebody other than the pass sets the event, and the books note whether the parent was within a
pass just then. -/
theorem Verdict.stop_by_other (h : Verdict l sys) : Verdict l sys.stop_by_other := by
  refine ⟨fun hnone => absurd hnone (stopped_set_stop_ne_none _), h.once, ?_, ?_, h.nobody,
    h.reported⟩
  · intro at_ hs
    rcases stopped_set_stop hs with hs | ⟨hnone, heq⟩
    · exact h.other at_ hs
    · exact ⟨(h.unset hnone).1, (Cause.other.inj (Prod.mk.inj heq).2).symm⟩
  · intro at_ i hs
    rcases stopped_set_stop hs with hs | ⟨-, heq⟩
    · exact h.found at_ i hs
    · exact nomatch (Prod.mk.inj heq).2

/-- Beginning the teardown sets the event if nobody has, and this is after the last pass, so the
verdict is out. -/
theorem Verdict.shutdown (h : Verdict l sys) : Verdict l (sys.shutdown l) := by
  refine ⟨fun hnone => absurd hnone (stopped_set_stop_ne_none _), fun _ => rfl, ?_, ?_,
    h.nobody, h.reported⟩
  · intro at_ hs
    rcases stopped_set_stop hs with hs | ⟨hnone, -⟩
    · exact ⟨(h.other at_ hs).1, rfl⟩
    · exact ⟨(h.unset hnone).1, rfl⟩
  · intro at_ i hs
    rcases stopped_set_stop hs with hs | ⟨-, heq⟩
    · exact h.found at_ i hs
    · exact nomatch (Prod.mk.inj heq).2

/-- What a process undergoes leaves an exit code as it is: only a process without one gets one, so
what a pass has reported stays true. -/
theorem Verdict.modify (h : Verdict l sys) {i : ℕ} {f : Proc → Proc}
    (hf : ∀ (p : Proc) (code : ℤ), sys.procs[i]? = some p → p.exitcode = some code →
      (f p).exitcode = some code) : Verdict l (sys.modify i f) := by
  refine ⟨h.unset, h.once, h.other, h.found, h.nobody, ?_⟩
  intro j hj
  obtain ⟨name, p, code, hname, hp, hcode, hcrashed, hsent⟩ := h.reported j hj
  refine ⟨name, if i = j then f p else p, code, hname, ?_, ?_, hcrashed, hsent⟩
  · show (sys.procs.modify i f)[j]? = _
    rw [List.getElem?_modify, hp]
    rfl
  · split
    · rename_i hij
      exact hf p code (hij ▸ hp) hcode
    · exact hcode

/-- A process that is alive is signalled; a crashed one is not. -/
theorem Verdict.send (h : Verdict l sys) {i : ℕ} (halive : sys.is_alive i = true)
    (signal : Signal) : Verdict l (sys.send i signal) := by
  refine ⟨h.unset, h.once, h.other, h.found, h.nobody, ?_⟩
  intro j hj
  obtain ⟨name, p, code, hname, hp, hcode, hcrashed, hsent⟩ := h.reported j hj
  refine ⟨name, p, code, hname, hp, hcode, hcrashed, fun s hs => ?_⟩
  rcases List.mem_append.1 hs with hs | hs
  · exact hsent s hs
  · obtain rfl := List.mem_singleton.1 hs
    rintro rfl
    rw [is_alive_eq hp, Proc.is_alive, hcode, Option.isNone_some, Bool.and_false] at halive
    exact nomatch halive

/-- The pass comes to a dead process: it is reported if it failed by itself, which at this point it
did, as nothing has been sent yet. -/
theorem Verdict.found_dead (h : Verdict l sys) {i : ℕ} {name : String} {p : Proc} {code : ℤ}
    (hpassing : sys.parent.passing = true) (hsent : sys.sent = [])
    (hname : l.names[i]? = some name) (hp : sys.procs[i]? = some p)
    (hcode : p.exitcode = some code) (timeout : ℚ) :
    Verdict l ({ sys.set_stop (.found i) with
      crashed_node := if code = 0 then sys.crashed_node else some (name, code)
      came_to := some i }.goto (.sleeping timeout)) := by
  -- no pass before this one came to anybody
  have hcame : sys.came_to = none := by
    by_contra hne
    exact absurd (hpassing.symm.trans (h.once hne)) Bool.noConfusion
  refine ⟨fun hnone => absurd hnone (stopped_set_stop_ne_none _), fun _ => rfl, ?_, ?_, nofun,
    ?_⟩
  · intro at_ hs
    rcases stopped_set_stop hs with hs | ⟨-, heq⟩
    -- nobody set the event before this pass
    · exact absurd (hpassing.symm.trans (h.other at_ hs).2) Bool.noConfusion
    · exact nomatch (Prod.mk.inj heq).2
  · intro at_ j hs
    rcases stopped_set_stop hs with hs | ⟨hnone, heq⟩
    · exact absurd ((h.found at_ j hs).symm.trans hcame) nofun
    · obtain rfl := Cause.found.inj (Prod.mk.inj heq).2
      rfl
  · intro j hj
    obtain rfl := Option.some.inj hj
    refine ⟨name, p, code, hname, hp, hcode, ?_, fun s hs => ?_⟩
    · show (if code = 0 then sys.crashed_node else _) = _
      rw [h.nobody hcame]
    · exact absurd (show s ∈ sys.sent from hs) (by rw [hsent]; exact List.not_mem_nil)

/-- Nobody gets into the teardown without the event: either it ended the loop, or `_shutdown` set it
first. -/
theorem stopped_of_tearing (h : Verdict l sys) (htearing : sys.parent.tearing = true) :
    sys.stopped ≠ none :=
  fun hnone => absurd (htearing.symm.trans (h.unset hnone).2) Bool.noConfusion

/-- One step keeps the books of a crash: only the pass's own statements bear on the verdict, and
everything else leaves it. -/
theorem Step.verdict (hstep : Step l sys sys') (hlaunched : Launched l sys) (hinv : Inv l sys)
    (h : Verdict l sys) : Verdict l sys' := by
  -- within `_escalate` the verdict is settled
  have hset : ∀ {saver : Bool} {stage stage' : Escalation},
      sys.parent = .escalating saver stage → Verdict l (sys.escalate saver stage') :=
    fun hparent => h.goto nofun fun _ => stopped_of_tearing h (by rw [hparent]; rfl)
  cases hstep with
  -- what others do sets the event at most, and an exit code never changes
  | tick => exact ⟨h.unset, h.once, h.other, h.found, h.nobody, h.reported⟩
  | signal =>
    have hset := h.stop_by_other
    exact ⟨hset.unset, hset.once, hset.other, hset.found, hset.nobody, hset.reported⟩
  | node_signal => exact h.stop_by_other
  | raises i halive => exact h.stop_by_other.modify fun p code _ hcode => hcode
  | exits i p code hp halive hcode =>
    refine h.modify fun p' code' hp' hcode' => ?_
    obtain rfl := Option.some.inj (hp.symm.trans hp')
    rw [Proc.is_alive, hcode', Option.isNone_some, Bool.and_false] at halive
    exact nomatch halive
  | start i hparent hi =>
    have hmodify : Verdict l (sys.modify i fun p => { p with started := true }) :=
      h.modify fun p code _ hcode => hcode
    exact hmodify.goto nofun nofun
  | started hparent => exact h.goto nofun nofun
  | start_fails => exact h.shutdown
  | stop => exact h.shutdown
  | elapsed => exact h.shutdown
  -- a pass begins only while the event is unset
  | pass hparent hstop =>
    have hnone : sys.stopped = none := by
      apply Option.not_isSome_iff_eq_none.1
      rw [← System.stop, hstop]
      decide
    exact h.goto (fun _ => .inr hnone) nofun
  | scan hparent hdeadline => exact h.goto (fun _ => .inl (by rw [hparent]; rfl)) nofun
  | alive i hparent halive => exact h.goto (fun _ => .inl (by rw [hparent]; rfl)) nofun
  -- the first dead process that the pass comes to is reported, or was through
  | crashed i p name code hparent hp hname halive hexit hcode =>
    have hfound := h.found_dead (by rw [hparent]; rfl) (hinv.quiet (by rw [hparent]; rfl)) hname hp
      hexit (sys.now + POLL_S)
    rwa [if_neg hcode] at hfound
  | finished i p hparent hp halive hexit =>
    have hstarted := hlaunched.looping (hparent ▸ nofun) (by rw [hparent]; rfl) i p hp
    have hexit : p.exitcode = some 0 := by
      refine hexit.resolve_right fun hnone => ?_
      rw [Proc.is_alive, hstarted, hnone] at halive
      exact nomatch halive
    have hi : i < l.names.length := hlaunched.length ▸ (List.getElem?_eq_some_iff.1 hp).1
    have hfound := h.found_dead (by rw [hparent]; rfl) (hinv.quiet (by rw [hparent]; rfl))
      (List.getElem?_eq_getElem hi) hp hexit (sys.now + POLL_S)
    rwa [if_pos rfl] at hfound
  | scanned hparent => exact h.goto nofun nofun
  | wake timeout hparent hle => exact h.goto nofun nofun
  | terminate saver i rest hparent halive =>
    have hset : sys.stopped ≠ none := stopped_of_tearing h (by rw [hparent]; rfl)
    exact (h.send halive .SIGTERM).goto nofun fun _ => hset
  | kill saver i rest hparent halive =>
    have hset : sys.stopped ≠ none := stopped_of_tearing h (by rw [hparent]; rfl)
    exact (h.send halive .SIGKILL).goto nofun fun _ => hset
  | slice saver deadline i rest hparent => exact hset hparent
  | slice_over saver deadline timeout i rest hparent => exact hset hparent
  | waited saver deadline i rest hparent => exact hset hparent
  | to_terminate saver deadline hparent => exact hset hparent
  | terminate_none saver i rest hparent => exact hset hparent
  | to_join saver hparent => exact hset hparent
  | join saver i rest hparent => exact hset hparent
  | join_none saver i rest hparent => exact hset hparent
  | joined saver timeout i rest hparent => exact hset hparent
  | to_kill saver hparent => exact hset hparent
  | kill_none saver i rest hparent => exact hset hparent
  | reaped saver timeout i rest hparent => exact hset hparent
  | to_saver i hparent hsaver =>
    exact h.goto nofun fun _ => stopped_of_tearing h (by rw [hparent]; rfl)
  | no_saver hparent hsaver =>
    exact h.goto nofun fun _ => stopped_of_tearing h (by rw [hparent]; rfl)
  | saved hparent => exact h.goto nofun fun _ => stopped_of_tearing h (by rw [hparent]; rfl)

/-- The books of a whole run, by induction on its steps: the clock, the teardown, the launch and the
verdict are kept together, since each needs the others. -/
theorem Reaches.books {duration_s : Option ℚ} (h : Reaches l (.init l duration_s) sys) :
    Clock sys ∧ Inv l sys ∧ Launched l sys ∧ Verdict l sys := by
  induction h with
  | refl =>
    refine ⟨nofun, .of_quiet rfl rfl, ⟨List.length_map _, ?_, fun hne => absurd rfl (hne 0)⟩,
      ⟨fun _ => ⟨rfl, rfl⟩, fun h => absurd rfl h, nofun, nofun, fun _ => rfl, nofun⟩⟩
    intro i heq j hj
    obtain rfl := Parent.starting.inj heq
    exact absurd hj (Nat.not_lt_zero j)
  | step _ hstep ih =>
    obtain ⟨hclock, hinv, hlaunched, hverdict⟩ := ih
    exact ⟨hstep.clock hclock, hstep.inv hclock hinv, hstep.launched hlaunched,
      hstep.verdict hlaunched hinv hverdict⟩

/-- Whoever set the event first is on record from then on, together with the time. -/
theorem Reaches.stopped {start : System} (h : Reaches l start sys) {s : ℚ × Cause}
    (hs : start.stopped = some s) : sys.stopped = some s := by
  induction h with
  | refl => exact hs
  | step _ hstep ih => exact hstep.stopped ih

/-- Runs compose, so that a run may be cut at any state of interest. -/
theorem Reaches.trans {start : System} (h : Reaches l start sys) (h' : Reaches l sys sys') :
    Reaches l start sys' := by
  induction h' with
  | refl => exact h
  | step _ hstep ih => exact ih.step hstep

end ExitStatus

/-! ## Over all runs -/

/-- Every teardown, of any nodes, whatever they and the operator do, is orderly. -/
theorem teardown_orderly {l : Launch} {duration_s : Option ℚ} {sys : System}
    (h : Reaches l (.init l duration_s) sys) : Orderly l sys := by
  obtain ⟨-, hinv, -, -⟩ := h.books
  refine ⟨hinv.patient, hinv.warned, ?_, ?_⟩
  · intro s hs hsaver i hi hne
    exact hinv.saver_last s hs hsaver i (mem_group_false.2 ⟨hi, hne⟩)
  · intro hdone i hi
    by_cases hsaver : l.saver = some i
    · exact hinv.saver hdone i (mem_group_true.2 hsaver)
    · exact hinv.hardware (.inr hdone) i
        (mem_group_false.2 ⟨hi, fun heq => hsaver heq.symm⟩)

/-- An arm that is wedged is terminated after 5 seconds and killed after 7; the recording consumer
saves in the meantime and is not signalled. -/
theorem wedged_arm_orderly : ∃ sys : System, sys.parent = .done ∧
    sys.sent = [⟨0, .SIGTERM, 5, 1⟩, ⟨0, .SIGKILL, 7, 1⟩] ∧
    Orderly ⟨["left", "collection"], 300⟩ sys := by
  have hinit : Reaches ⟨["left", "collection"], 300⟩ (.init ⟨["left", "collection"], 300⟩ none) _ :=
    .refl
  have hstarted := ((hinit.step (.start 0 rfl (by decide))).step
    (.start 1 rfl (by decide))).step (.started rfl)
  have hwaited := (((hstarted.step (.signal nofun)).step (.stop rfl rfl)).step
    (.tick 5 (by norm_num))).step (.waited false _ 0 [] rfl (.inr (.inl (by decide +kernel))))
  have htermed := ((hwaited.step (.to_terminate false _ rfl)).step
    (.terminate false 0 [] rfl rfl)).step (.to_join false rfl)
  have hjoined := ((htermed.step (.join false 0 [] rfl rfl)).step (.tick 2 (by norm_num))).step
    (.joined false _ 0 [] rfl (.inr (by decide +kernel)))
  have hkilled := ((hjoined.step (.to_kill false rfl)).step (.kill false 0 [] rfl rfl)).step
    (.exits 0 _ (-9) rfl rfl nofun)
  have hreaped := ((hkilled.step (.reaped false _ 0 [] rfl (.inl rfl))).step
    (.to_saver 1 rfl rfl)).step (.exits 1 _ 0 rfl rfl nofun)
  have hsaved := (((hreaped.step (.waited true _ 1 [] rfl (.inl rfl))).step
    (.to_terminate true _ rfl)).step (.terminate_none true 1 [] rfl rfl)).step (.to_join true rfl)
  have hdone := (((hsaved.step (.join_none true 1 [] rfl rfl)).step (.to_kill true rfl)).step
    (.kill_none true 1 [] rfl rfl)).step (.saved rfl)
  exact ⟨_, rfl, by decide +kernel, teardown_orderly hdone⟩

/-- A node with the name and the exit code failed by itself: it was never signalled. -/
def FailedAlone (l : Launch) (sys : System) (name : String) (code : ℤ) : Prop :=
  ∃ i p, l.names[i]? = some name ∧ sys.procs[i]? = some p ∧ p.exitcode = some code ∧
    code ≠ 0 ∧ ∀ s ∈ sys.sent, s.proc ≠ i

/-- Once the event is set, a pass that is under way goes on from where it is, and it is the last. -/
structure Final (i : ℕ) (sys : System) : Prop where
  set : sys.stopped ≠ none
  scanning : ∀ k, sys.parent = .scanning k → i ≤ k
  deadline : sys.parent ≠ .deadline
  came : ∀ j, sys.came_to = some j → i ≤ j

/-- With the event set the loop is left before another pass, so the pass under way keeps being the
last. -/
theorem Final.step {l : Launch} {sys sys' : System} {i : ℕ} (h : Final i sys)
    (hstep : Step l sys sys') : Final i sys' := by
  have hset : sys'.stopped ≠ none := by
    obtain ⟨s, hs⟩ := Option.ne_none_iff_exists'.1 h.set
    rw [hstep.stopped hs]
    exact Option.some_ne_none s
  refine ⟨hset, ?_, ?_, ?_⟩
  · cases hstep with
    | tick => exact h.scanning
    | signal => exact h.scanning
    | node_signal => exact h.scanning
    | raises => exact h.scanning
    | exits => exact h.scanning
    | scan hparent => exact absurd hparent h.deadline
    | alive j hparent =>
      intro k hk
      have hle := h.scanning j hparent
      have hnext : j + 1 = k := Parent.scanning.inj hk
      omega
    | _ => exact fun k hk => nomatch hk
  · cases hstep with
    | tick => exact h.deadline
    | signal => exact h.deadline
    | node_signal => exact h.deadline
    | raises => exact h.deadline
    | exits => exact h.deadline
    -- no pass begins with the event set
    | pass hparent hstop =>
      rw [System.stop, Option.isSome_eq_false_iff, Option.isNone_iff_eq_none] at hstop
      exact absurd hstop h.set
    | _ => exact nofun
  · cases hstep with
    | crashed j p name code hparent =>
      intro k hk
      obtain rfl := Option.some.inj hk
      exact h.scanning _ hparent
    | finished j p hparent =>
      intro k hk
      obtain rfl := Option.some.inj hk
      exact h.scanning _ hparent
    | _ => exact h.came

/-- The same over the steps of a run, by induction on them. -/
theorem Final.reaches {l : Launch} {sys sys' : System} {i : ℕ} (h : Final i sys)
    (hreach : Reaches l sys sys') : Final i sys' := by
  induction hreach with
  | refl => exact h
  | step _ hstep ih => exact ih.step hstep

/-- What `run_system` exits with. A crash it reports is one, and none that the teardown caused: it
is the dead process that the parent's pass came to, if that failed, and nobody if no pass came to
any. Which pass can, is decided by who set the stop event. If the pass at a dead process did, it is
that process. If somebody else did with the parent outside a pass, no pass follows; this is so for
a node that raises while the parent sleeps, whatever it exits with. If somebody else did while the
parent was at a process of its pass, it is the first one dead that this pass still comes to. -/
theorem exit_status {l : Launch} {duration_s : Option ℚ} {sys : System}
    (h : Reaches l (.init l duration_s) sys) :
    (∀ name code, sys.crashed_node = some (name, code) → FailedAlone l sys name code) ∧
      (sys.came_to = none → sys.crashed_node = none) ∧
      (∀ i, sys.came_to = some i →
        ∃ name p code, l.names[i]? = some name ∧ sys.procs[i]? = some p ∧
          p.exitcode = some code ∧
          sys.crashed_node = if code = 0 then none else some (name, code)) ∧
      (∀ at_ i, sys.stopped = some (at_, .found i) → sys.came_to = some i) ∧
      (∀ at_, sys.stopped = some (at_, .other false) → sys.came_to = none) ∧
      (sys.parent.passing = false → sys.stop = false →
        ∀ i sys', sys.is_alive i = true →
          Reaches l (sys.stop_by_other.modify i fun p => { p with raised := true }) sys' →
          sys'.crashed_node = none) ∧
      ∀ i, sys.parent = .scanning i → sys.stop = false → ∀ sys',
        Reaches l sys.stop_by_other sys' → ∀ j, sys'.came_to = some j → i ≤ j := by
  obtain ⟨-, -, -, hverdict⟩ := h.books
  refine ⟨?_, hverdict.nobody, ?_, hverdict.found, fun at_ hs => (hverdict.other at_ hs).1, ?_,
    ?_⟩
  · -- what is reported is what the last pass came to
    intro name code hcrashed
    cases hcame : sys.came_to with
    | none =>
      rw [hverdict.nobody hcame] at hcrashed
      exact nomatch hcrashed
    | some i =>
      obtain ⟨name', p, code', hname, hp, hcode, heq, hsent⟩ := hverdict.reported i hcame
      rw [hcrashed] at heq
      by_cases hzero : code' = 0
      · rw [if_pos hzero] at heq
        exact nomatch heq
      · rw [if_neg hzero] at heq
        obtain ⟨rfl, rfl⟩ := Prod.mk.inj (Option.some.inj heq)
        exact ⟨i, p, hname, hp, hcode, hzero, hsent⟩
  · intro i hcame
    obtain ⟨name, p, code, hname, hp, hcode, heq, -⟩ := hverdict.reported i hcame
    exact ⟨name, p, code, hname, hp, hcode, heq⟩
  · -- the event is set outside a pass, so the loop ends without another pass
    intro hpassing hstop i sys' halive hreach
    have hnone : sys.stopped = none := by
      rw [← Option.not_isSome_iff_eq_none, ← System.stop, hstop]
      decide
    have hstopped : (sys.stop_by_other.modify i fun p => { p with raised := true }).stopped =
        some (sys.now, .other false) := by
      show sys.stopped.or _ = _
      rw [hnone, hpassing]
      rfl
    obtain ⟨-, -, -, hverdict'⟩ := ((h.step (.raises i halive)).trans hreach).books
    exact hverdict'.nobody (hverdict'.other _ (hreach.stopped hstopped)).1
  · -- the pass under way is the last one, and it never goes back
    intro i hparent hstop sys' hreach j hj
    have hnone : sys.came_to = none := by
      by_contra hne
      have hpassing := hverdict.once hne
      rw [hparent] at hpassing
      exact nomatch hpassing
    have hfinal : Final i sys.stop_by_other := by
      refine ⟨stopped_set_stop_ne_none _, fun k hk => ?_, ?_, fun k hk => ?_⟩
      · exact (Parent.scanning.inj (hparent.symm.trans hk)).le
      · intro hdeadline
        exact nomatch hparent.symm.trans hdeadline
      · exact absurd (hnone.symm.trans hk) nofun
    exact (hfinal.reaches hreach).came j hj

/-- A node that raises while the parent sleeps exits with 1, and the run reports no crash. -/
theorem raising_node_unreported : ∃ sys : System, sys.parent = .done ∧
    sys.procs = [⟨true, true, some 1⟩] ∧ sys.crashed_node = none := by
  have hinit : Reaches ⟨["left"], 300⟩ (.init ⟨["left"], 300⟩ none) _ := .refl
  have hlooping := ((hinit.step (.start 0 rfl (by decide))).step (.started rfl)).step
    (.pass rfl rfl)
  have hsleeping := ((hlooping.step (.scan rfl nofun)).step (.alive 0 rfl rfl)).step (.scanned rfl)
  -- the run from the exception on
  have hraised : ∀ {start sys : System}, Reaches ⟨["left"], 300⟩ start sys →
      Reaches ⟨["left"], 300⟩ sys sys := fun _ => .refl
  have hexited := ((hraised (hsleeping.step (.raises 0 rfl))).step
    (.exits 0 _ 1 rfl rfl nofun)).step (.tick 1 (by norm_num))
  have hstopped := (((hexited.step (.wake _ rfl (by decide +kernel))).step (.stop rfl rfl)).step
    (.waited false _ 0 [] rfl (.inl rfl))).step (.to_terminate false _ rfl)
  have hjoined := ((hstopped.step (.terminate_none false 0 [] rfl rfl)).step
    (.to_join false rfl)).step (.join_none false 0 [] rfl rfl)
  have hdone := ((hjoined.step (.to_kill false rfl)).step (.kill_none false 0 [] rfl rfl)).step
    (.no_saver rfl rfl)
  exact ⟨_, rfl, rfl, (exit_status hsleeping).2.2.2.2.2.1 rfl rfl 0 _ rfl hdone⟩

end DualFlexivControl.Processes.Supervision
