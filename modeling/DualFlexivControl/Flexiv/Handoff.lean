/-
The native hand-off: two processes, one set of telemetry rings.

The ring's argument rests on one producer. A native-RT arm has two of them, the Python node
and the controller process it starts for a session, and they take turns: Python closes its
source, starts the process, and opens the source again when `run_controller` has seen the
process dead, by whatever way it left its loop. In between the controller appends, or dies
in the middle of an append; the index it leaves half written is written again.

Both processes are modelled down to their single stores ([`step`]), and nothing in a step of
one looks at the other but the calls that do: `poll` and `wait`. That the two never write at
once ([`Inv`]) is a matter of where Python is; that the indices of a ring have no gap follows,
because an append in progress always is about to publish the next one.

What does not follow is that the arm has a source afterwards. `open_source` can raise, and a
`TimeoutError` is caught by the session loop, which takes it for a session that never started.
-/
import DualFlexivControl.Flexiv.ControlSession
import DualFlexivControl.Streams.Ring

set_option autoImplicit false

namespace DualFlexivControl.Flexiv.Handoff

open Interleave
open DualFlexivControl.Ring (Mem Store RingSpec append_stores)

/-! ## The two processes -/

/-- Where the Python node is. -/
inductive Python where
  /-- In the idle loop, or in a session before a hand-off. -/
  | hosting
  /-- `close_source` is done. -/
  | closed
  /-- `while process.poll() is None`. -/
  | polling
  /-- `process.wait(timeout=5.0)`. -/
  | waiting
  /-- `process.wait(timeout=2.0)` after a `kill`. -/
  | killed
  /-- In the `finally`, on the way out with an exception. -/
  | raised (e : Exc)
  /-- There, in the wait after `terminate`. -/
  | terminated (e : Exc)
  /-- There, in the wait after `kill`. -/
  | killed_on_exit (e : Exc)
  /-- `run_controller` is over, with an exception or without. -/
  | returned (raised : Option Exc)
  /-- The node's process is on its way out. -/
  | ending
  deriving DecidableEq

/-- Python has a process to look after. -/
def Python.attends : Python → Bool
  | .polling | .waiting | .killed | .raised _ | .terminated _ | .killed_on_exit _ => true
  | _ => false

/-- From `close_source` until `run_controller` has seen the process dead. -/
def Python.handed_over (p : Python) : Bool := decide (p = .closed) || p.attends

variable {ι α : Type} [DecidableEq ι]

/-- An append in progress: the ring, and the stores it has still to do. -/
abbrev Writing (ι α : Type) := Option (ι × List (Store α))

/-- The controller process. -/
inductive Controller (ι α : Type) where
  | absent
  | alive (writing : Writing ι α)
  | dead (returncode : ℤ)

def Controller.is_alive : Controller ι α → Bool
  | .alive _ => true
  | _ => false

/-- The arm's rings, and the two processes. `published` is a ghost: the indices whose
publication the write count of a ring has seen, in order. -/
structure State (ι α : Type) where
  mem : ι → Mem α
  published : ι → List ℕ
  python : Python
  source : Source
  stop_event : Bool
  writing : Writing ι α
  controller : Controller ι α

/-- The node has created its streams and opened its source. -/
def State.init [Zero α] : State ι α where
  mem := fun _ => Mem.create
  published := fun _ => []
  python := .hosting
  source := .connected
  stop_event := false
  writing := none
  controller := .absent

/-! ## Steps -/

/-- What can happen. -/
inductive Act (ι α : Type) where
  /-- `StreamWriter.write`, up to its load of the write count. -/
  | write (i : ι) (vec : List α) (t_ns : ℤ)
  /-- Its next store. -/
  | store
  | stop_event
  /-- A call of the idle loop or of a session raises. -/
  | fail (e : Exc)
  /-- The node's loop is over. -/
  | finish
  | close_source
  | popen (r : Except Exc Unit)
  /-- `process.poll()`, of a dead process. -/
  | poll
  /-- `process.terminate()`, after `stop_event`. -/
  | terminate
  /-- `process.wait` returns. -/
  | wait
  /-- `process.wait` raises `TimeoutExpired`, which is answered by a `kill`. -/
  | timeout
  /-- Something in the `try` block raises. -/
  | interrupt (e : Exc)
  /-- The `finally`. -/
  | clean_up
  | open_source (r : Except Exc Unit)
  | controller_write (i : ι) (vec : List α) (t_ns : ℤ)
  | controller_store
  /-- It exits, by itself or by a signal. -/
  | controller_exit (returncode : ℤ)

/-- The index a store publishes. -/
def published_by : Store α → List ℕ
  | .write_count v => [v - 1]
  | _ => []

/-- One store into a ring. -/
def State.put (s : State ι α) (i : ι) (st : Store α) : State ι α :=
  { s with
    mem := Function.update s.mem i ((s.mem i).store st)
    published := Function.update s.published i (s.published i ++ published_by st) }

/-- An append after one of its stores. -/
def again (i : ι) (rest : List (Store α)) : Writing ι α :=
  if rest.isEmpty then none else some (i, rest)

/-- Where the node is after a session, given what the session raised. `_run_session_loop`
catches a `TimeoutError`; a one-shot node ends with its session. -/
def after (session_hosted : Bool) : Option Exc → Python
  | none | some .timeout_error => if session_hosted then .hosting else .ending
  | some _ => .ending

/-- What `run_controller` makes of an exit status. -/
def check_returncode (returncode : ℤ) : Option Exc :=
  if returncode = 0 then none else some .runtime_error

/-- `process.wait`, of a dead process. After a `kill` it does not time out: the process is
reaped within the wait. -/
def wait (s : State ι α) : Option Python :=
  match s.python, s.controller with
  | .waiting, .dead returncode | .killed, .dead returncode =>
    some (.returned (check_returncode returncode))
  | .terminated e, .dead _ | .killed_on_exit e, .dead _ => some (.returned (some e))
  | _, _ => none

/-- What else Python does in a hand-off, up to `open_source`. -/
def attend (s : State ι α) : Act ι α → Option Python
  | .poll => if s.python = .polling ∧ s.controller.is_alive = false then some .waiting else none
  | .terminate => if s.python = .polling ∧ s.stop_event = true then some .waiting else none
  | .wait => wait s
  | .timeout =>
    match s.python with
    | .waiting => some .killed
    | .terminated e => some (.killed_on_exit e)
    | _ => none
  | .interrupt e =>
    match s.python with
    | .polling | .waiting | .killed => some (.raised e)
    | _ => none
  | .clean_up =>
    match s.python with
    | .raised e => some (if s.controller.is_alive then .terminated e else .returned (some e))
    | _ => none
  | _ => none

/-- `subprocess.Popen`. -/
def popen (s : State ι α) : Except Exc Unit → State ι α
  | .ok () => { s with python := .polling, controller := .alive none }
  | .error e => { s with python := .returned (some e) }

/-- The `finally` of `_run_native_rt`, and the session's end. `_source` is assigned before it
connects, and an exception replaces the one on its way. -/
def open_source (session_hosted : Bool) (s : State ι α) (raised : Option Exc) :
    Except Exc Unit → State ι α
  | .ok () => { s with python := after session_hosted raised, source := .connected }
  | .error e => { s with python := after session_hosted (some e), source := .unconnected }

omit [DecidableEq ι] in
/-- The end of a hand-off is the one the session's model gives it: the same source, and the
loop goes on exactly if the session returns or raises a `TimeoutError`. -/
theorem open_source_eq_hand_over {env : Env} {returncode : ℤ} (hpopen : env.popen = .ok ())
    (hcode : env.returncode = .ok returncode) (a : Arm) (s : State ι α) :
    (open_source true s (check_returncode returncode) env.reopen).source =
        (Effect.exec (hand_over env) a).2.source ∧
      ((open_source true s (check_returncode returncode) env.reopen).python = .hosting ↔
        (Effect.exec (hand_over env) a).1 = .ok () ∨
          (Effect.exec (hand_over env) a).1 = .error .timeout_error) := by
  have hrun : run_controller env = match check_returncode returncode with
      | none => .ok ()
      | some e => .error e := by
    unfold run_controller check_returncode
    rw [hpopen, hcode]
    by_cases hzero : returncode = 0
    · rw [if_pos hzero]
      exact if_pos hzero
    · rw [if_neg hzero]
      exact if_neg hzero
  cases hreopen : env.reopen with
  | ok u =>
    have hexec : Effect.exec (hand_over env) a =
        (run_controller env, { a with source := .connected }) := by
      unfold hand_over
      rw [hreopen]
      rfl
    rw [hexec, hrun]
    refine ⟨rfl, ?_⟩
    -- A `RuntimeError` of the exit status ends the node; a clean exit goes back to the loop.
    unfold check_returncode
    by_cases hzero : returncode = 0
    · simp [hzero, open_source, after]
    · simp [hzero, open_source, after]
  | error e =>
    have hexec : Effect.exec (hand_over env) a = (.error e, { a with source := .unconnected }) := by
      unfold hand_over
      rw [hreopen]
      rfl
    rw [hexec]
    refine ⟨rfl, ?_⟩
    cases e <;> simp [open_source, after]

/-- The steps of the two processes. -/
def step (R : ι → RingSpec) (session_hosted : Bool) (act : Act ι α) (s : State ι α) :
    Option (State ι α) :=
  match act with
  | .write i vec t_ns =>
    -- `_write_telemetry` reads the source first
    if s.python = .hosting ∧ s.source = .connected ∧ s.writing.isNone ∧
        vec.length = (R i).dim then
      some { s with writing := some (i, append_stores (R i) (s.mem i).write_count vec t_ns) }
    else none
  | .store =>
    match s.writing with
    | some (i, st :: rest) => some { s.put i st with writing := again i rest }
    | _ => none
  | .stop_event => some { s with stop_event := true }
  | .fail e =>
    if s.python = .hosting ∧ s.writing.isNone then
      some { s with python := after session_hosted (some e) }
    else none
  | .finish =>
    if s.python = .hosting ∧ s.writing.isNone ∧ (s.stop_event = true ∨ session_hosted = false) then
      some { s with python := .ending }
    else none
  | .close_source =>
    if s.python = .hosting ∧ s.writing.isNone then
      some { s with python := .closed, source := .closed }
    else none
  | .popen r => if s.python = .closed then some (popen s r) else none
  | .open_source r =>
    match s.python with
    | .returned raised => some (open_source session_hosted s raised r)
    | _ => none
  | .controller_write i vec t_ns =>
    match s.controller with
    | .alive none =>
      if vec.length = (R i).dim then
        some { s with
          controller := .alive (some (i, append_stores (R i) (s.mem i).write_count vec t_ns)) }
      else none
    | _ => none
  | .controller_store =>
    match s.controller with
    | .alive (some (i, st :: rest)) => some { s.put i st with controller := .alive (again i rest) }
    | _ => none
  | .controller_exit returncode =>
    if s.controller.is_alive then some { s with controller := .dead returncode } else none
  | act => (attend s act).map fun python => { s with python := python }

/-! ## What a step can do -/

/-- A step that is no reopening with a `TimeoutError`, in a node that goes on. -/
def Reopens (session_hosted : Bool) (act : Act ι α) (s : State ι α) : Prop :=
  act = .open_source (.error .timeout_error) → session_hosted = true → s.stop_event = true

/-- Everything a step can do. Python leaves a process it looks after only once it is dead, and
comes back to its loop with a source, unless the reopening timed out: `lost`. -/
inductive Move (R : ι → RingSpec) (lost : Prop) (s : State ι α) : State ι α → Prop
  | python (python : Python) (source : Source) (stop_event : Bool) :
      (s.writing = none ∨ python = s.python ∨ s.python ≠ .hosting) →
      (s.python.attends = true → s.controller.is_alive = true → python.attends = true) →
      (python = .hosting → s.python = .hosting ∧ source = s.source ∧ stop_event = s.stop_event ∨
        source = .connected ∨ stop_event = true ∨ lost) →
      Move R lost s { s with python := python, source := source, stop_event := stop_event }
  | spawned : s.python = .closed →
      Move R lost s { s with python := .polling, controller := .alive none }
  | writes (i : ι) (vec : List α) (t_ns : ℤ) : s.python = .hosting → s.writing = none →
      Move R lost s
        { s with writing := some (i, append_stores (R i) (s.mem i).write_count vec t_ns) }
  | stores (i : ι) (st : Store α) (rest : List (Store α)) : s.writing = some (i, st :: rest) →
      Move R lost s { s.put i st with writing := again i rest }
  | controller_writes (i : ι) (vec : List α) (t_ns : ℤ) : s.controller = .alive none →
      Move R lost s { s with
        controller := .alive (some (i, append_stores (R i) (s.mem i).write_count vec t_ns)) }
  | controller_stores (i : ι) (st : Store α) (rest : List (Store α)) :
      s.controller = .alive (some (i, st :: rest)) →
      Move R lost s { s.put i st with controller := .alive (again i rest) }
  | controller_exits (returncode : ℤ) : Move R lost s { s with controller := .dead returncode }

section Cases

variable {R : ι → RingSpec} {session_hosted : Bool} {lost : Prop} {s s' : State ι α}

omit [DecidableEq ι] in
/-- `process.wait` returns from a dead process and from no other, so Python never goes on while the
controller runs. -/
theorem wait_dead {python : Python} (h : wait s = some python) :
    s.python.attends = true ∧ s.controller.is_alive = false ∧ python ≠ .hosting := by
  unfold wait at h
  split at h
  · next hpython hdead =>
    rw [← Option.some.inj h, hpython, hdead]
    exact ⟨rfl, rfl, by simp⟩
  · next hpython hdead =>
    rw [← Option.some.inj h, hpython, hdead]
    exact ⟨rfl, rfl, by simp⟩
  · next hpython hdead =>
    rw [← Option.some.inj h, hpython, hdead]
    exact ⟨rfl, rfl, by simp⟩
  · next hpython hdead =>
    rw [← Option.some.inj h, hpython, hdead]
    exact ⟨rfl, rfl, by simp⟩
  · exact absurd h (by simp)

omit [DecidableEq ι] in
/-- `run_controller` only lets go of a dead process, and not into the loop. -/
theorem attend_attends {act : Act ι α} {python : Python} (h : attend s act = some python) :
    s.python.attends = true ∧ (s.controller.is_alive = true → python.attends = true) ∧
      python ≠ .hosting := by
  unfold attend at h
  split at h
  · split at h
    · next hpoll =>
      rw [← Option.some.inj h, hpoll.1]
      exact ⟨rfl, fun _ => rfl, by simp⟩
    · exact absurd h (by simp)
  · split at h
    · next hstop =>
      rw [← Option.some.inj h, hstop.1]
      exact ⟨rfl, fun _ => rfl, by simp⟩
    · exact absurd h (by simp)
  · obtain ⟨hattends, hdead, hne⟩ := wait_dead h
    exact ⟨hattends, fun halive => absurd (hdead.symm.trans halive) (by simp), hne⟩
  · split at h
    · next hpython =>
      rw [← Option.some.inj h, hpython]
      exact ⟨rfl, fun _ => rfl, by simp⟩
    · next hpython =>
      rw [← Option.some.inj h, hpython]
      exact ⟨rfl, fun _ => rfl, by simp⟩
    · exact absurd h (by simp)
  · split at h
    · next hpython =>
      rw [← Option.some.inj h, hpython]
      exact ⟨rfl, fun _ => rfl, by simp⟩
    · next hpython =>
      rw [← Option.some.inj h, hpython]
      exact ⟨rfl, fun _ => rfl, by simp⟩
    · next hpython =>
      rw [← Option.some.inj h, hpython]
      exact ⟨rfl, fun _ => rfl, by simp⟩
    · exact absurd h (by simp)
  · split at h
    · next hpython =>
      rw [← Option.some.inj h, hpython]
      -- The `finally` lets go of the process only if `poll` has seen it dead.
      by_cases halive : s.controller.is_alive = true
      · rw [if_pos halive]
        exact ⟨rfl, fun _ => rfl, by simp⟩
      · rw [if_neg halive]
        exact ⟨rfl, fun hlive => absurd hlive halive, by simp⟩
    · exact absurd h (by simp)
  · exact absurd h (by simp)

/-- A step of `run_controller`, as a move: it changes where Python stands and leaves the controller
and the rings. -/
theorem attend_move {act : Act ι α}
    (h : (attend s act).map (fun python => { s with python := python }) = some s') :
    Move R lost s s' := by
  obtain ⟨python, hpython, rfl⟩ := Option.map_eq_some_iff.1 h
  obtain ⟨hattends, halive, hne⟩ := attend_attends hpython
  refine .python python s.source s.stop_event (.inr (.inr ?_)) (fun _ => halive)
    fun hhosting => absurd hhosting hne
  -- `run_controller` is not run from the loop, so no append of Python is cut off.
  intro hhosting
  rw [hhosting] at hattends
  exact absurd hattends (by simp [Python.attends])

/-- Python goes on from its loop. -/
theorem hosting_move (python : Python) (source : Source) (hhosting : s.python = .hosting)
    (hwriting : s.writing.isNone = true) (hsource : python = .hosting → source = s.source) :
    Move R lost s { s with python := python, source := source } := by
  refine .python python source s.stop_event (.inl (Option.isNone_iff_eq_none.1 hwriting)) ?_
    fun hback => .inl ⟨hhosting, hsource hback, rfl⟩
  rw [hhosting]
  exact fun hattends => absurd hattends (by simp [Python.attends])

/-- The reopening after a hand-off. Only a `TimeoutError` leads back into the loop. -/
theorem open_source_move {raised : Option Exc} {r : Except Exc Unit}
    (hreturned : s.python = .returned raised) :
    Move R (¬ Reopens session_hosted (.open_source r : Act ι α) s) s
      (open_source session_hosted s raised r) := by
  have hfree : s.python.attends = true → False := by
    rw [hreturned]
    simp [Python.attends]
  have hne : s.python ≠ .hosting := by
    rw [hreturned]
    simp
  cases r with
  | ok u =>
    exact .python _ .connected s.stop_event (.inr (.inr hne)) (fun h => (hfree h).elim)
      fun _ => .inr (.inl rfl)
  | error e =>
    refine .python _ .unconnected s.stop_event (.inr (.inr hne)) (fun h => (hfree h).elim)
      fun hback => .inr (.inr ?_)
    -- With the stop event set the loop does not write again; without it a `TimeoutError` is what
    -- `Reopens` rules out, and any other exception ends the node.
    by_cases hstop : s.stop_event = true
    · exact .inl hstop
    · refine .inr fun hreopens => ?_
      cases e with
      | timeout_error =>
        cases session_hosted with
        | true => exact hstop (hreopens rfl rfl)
        | false => exact absurd hback (by simp [after])
      | _ => exact absurd hback (by simp [after])

theorem step_move {act : Act ι α} (h : step R session_hosted act s = some s') :
    Move R (¬ Reopens session_hosted act s) s s' := by
  cases act with
  | write i vec t_ns =>
    rw [step] at h
    split at h
    · next hguard =>
      rw [← Option.some.inj h]
      exact .writes i vec t_ns hguard.1 (Option.isNone_iff_eq_none.1 hguard.2.2.1)
    · exact absurd h (by simp)
  | store =>
    rw [step] at h
    split at h
    · next i st rest hwriting =>
      rw [← Option.some.inj h]
      exact .stores i st rest hwriting
    · exact absurd h (by simp)
  | stop_event =>
    rw [step] at h
    rw [← Option.some.inj h]
    exact .python s.python s.source true (.inr (.inl rfl)) (fun hattends _ => hattends)
      fun _ => .inr (.inr (.inl rfl))
  | fail e =>
    rw [step] at h
    split at h
    · next hguard =>
      rw [← Option.some.inj h]
      exact hosting_move _ s.source hguard.1 hguard.2 fun _ => rfl
    · exact absurd h (by simp)
  | finish =>
    rw [step] at h
    split at h
    · next hguard =>
      rw [← Option.some.inj h]
      exact hosting_move _ s.source hguard.1 hguard.2.1 fun _ => rfl
    · exact absurd h (by simp)
  | close_source =>
    rw [step] at h
    split at h
    · next hguard =>
      rw [← Option.some.inj h]
      exact hosting_move _ .closed hguard.1 hguard.2 (by simp)
    · exact absurd h (by simp)
  | popen r =>
    rw [step] at h
    split at h
    · next hclosed =>
      rw [← Option.some.inj h]
      cases r with
      -- `Popen` either starts the process or leaves none; in both cases the source is closed.
      | ok u => exact .spawned hclosed
      | error e =>
        refine .python _ s.source s.stop_event (.inr (.inr ?_)) ?_ (by simp)
        · rw [hclosed]
          simp
        · rw [hclosed]
          exact fun hattends => absurd hattends (by simp [Python.attends])
    · exact absurd h (by simp)
  | open_source r =>
    rw [step] at h
    split at h
    · next raised hreturned =>
      rw [← Option.some.inj h]
      exact open_source_move hreturned
    · exact absurd h (by simp)
  | controller_write i vec t_ns =>
    rw [step] at h
    split at h
    · next halive =>
      split at h
      · rw [← Option.some.inj h]
        exact .controller_writes i vec t_ns halive
      · exact absurd h (by simp)
    · exact absurd h (by simp)
  | controller_store =>
    rw [step] at h
    split at h
    · next i st rest halive =>
      rw [← Option.some.inj h]
      exact .controller_stores i st rest halive
    · exact absurd h (by simp)
  | controller_exit returncode =>
    rw [step] at h
    split at h
    · rw [← Option.some.inj h]
      exact .controller_exits returncode
    · exact absurd h (by simp)
  | poll => exact attend_move h
  | terminate => exact attend_move h
  | wait => exact attend_move h
  | timeout => exact attend_move h
  | interrupt e => exact attend_move h
  | clean_up => exact attend_move h

end Cases

/-! ## One producer -/

section Append

variable {R : RingSpec} {m : Mem α} {st : Store α} {rest : List (Store α)}

/-- An append in progress that is about to publish the ring's next index, and last of all. -/
def Appending (m : Mem α) (stores : List (Store α)) : Prop :=
  ∃ before, stores = before ++ [.write_count (m.write_count + 1)] ∧
    ∀ v, Store.write_count v ∉ before

theorem appending_append_stores (vec : List α) (t_ns : ℤ) :
    Appending m (append_stores R m.write_count vec t_ns) := by
  refine ⟨.seq (R.slot m.write_count) (-1) ::
    (vec.mapIdx (fun j x => .data (R.slot m.write_count) j x) ++
      [.t_ns (R.slot m.write_count) t_ns, .seq (R.slot m.write_count) m.write_count]), ?_, ?_⟩
  · simp [append_stores]
  · intro v hv
    simp at hv

/-- The next store is the last one and publishes the next index, or it publishes nothing. -/
theorem Appending.next (h : Appending m (st :: rest)) :
    (rest = [] ∧ st = .write_count (m.write_count + 1)) ∨
      (∀ v, st ≠ .write_count v) ∧ Appending m rest := by
  obtain ⟨before, hstores, hbefore⟩ := h
  -- Nothing before the publication means that the publication is next.
  cases before with
  | nil =>
    rw [List.nil_append, List.cons.injEq] at hstores
    exact .inl ⟨hstores.2, hstores.1⟩
  | cons first before =>
    rw [List.cons_append, List.cons.injEq] at hstores
    refine .inr ⟨fun v hv => ?_, before, hstores.2, fun v hv => ?_⟩
    · exact hbefore v (by rw [← hv, hstores.1]; exact List.mem_cons_self)
    · exact hbefore v (List.mem_cons_of_mem _ hv)

theorem write_count_store (h : ∀ v, st ≠ .write_count v) :
    (m.store st).write_count = m.write_count := by
  cases st with
  | write_count v => exact absurd rfl (h v)
  | seq slot v => rfl
  | data slot j v => rfl
  | t_ns slot v => rfl

theorem published_by_eq_nil (h : ∀ v, st ≠ .write_count v) : published_by st = [] := by
  cases st with
  | write_count v => exact absurd rfl (h v)
  | seq slot v => rfl
  | data slot j v => rfl
  | t_ns slot v => rfl

/-- An append depends on the ring's write count alone. -/
theorem Appending.of_write_count {m' : Mem α} {stores : List (Store α)}
    (h : Appending m stores) (hcount : m'.write_count = m.write_count) : Appending m' stores := by
  unfold Appending
  rw [hcount]
  exact h

end Append

/-- Every index up to the write count has been published once, in order. -/
def GapFree (s : State ι α) : Prop := ∀ i, s.published i = List.range (s.mem i).write_count

/-- Who may append, and what an append in progress is about to do. -/
structure Inv (s : State ι α) : Prop where
  attended : s.controller.is_alive = true → s.python.attends = true
  hosting : s.writing ≠ none → s.python = .hosting
  python_appends : ∀ i stores, s.writing = some (i, stores) → Appending (s.mem i) stores
  controller_appends : ∀ i stores, s.controller = .alive (some (i, stores)) →
    Appending (s.mem i) stores
  gap_free : GapFree s

section Runs

variable {R : ι → RingSpec} {session_hosted : Bool} {lost : Prop} {s s' : State ι α}

omit [DecidableEq ι] in
theorem inv_init [Zero α] : Inv (State.init : State ι α) where
  attended := fun h => absurd h (by simp [State.init, Controller.is_alive])
  hosting := fun h => absurd rfl h
  python_appends := fun i stores h => absurd h (by simp [State.init])
  controller_appends := fun i stores h => absurd h (by simp [State.init])
  gap_free := fun i => rfl

omit [DecidableEq ι] in
/-- While Python appends there is no controller. -/
theorem Inv.not_alive (h : Inv s) (hhosting : s.python = .hosting) :
    s.controller.is_alive = false := by
  by_cases halive : s.controller.is_alive = true
  · have hattends := h.attended halive
    rw [hhosting] at hattends
    exact absurd hattends (by simp [Python.attends])
  · exact Bool.eq_false_iff.2 halive

omit [DecidableEq ι] in
/-- While there is a controller Python does not append. -/
theorem Inv.not_writing (h : Inv s) (halive : s.controller.is_alive = true) :
    s.writing = none := by
  by_cases hwriting : s.writing = none
  · exact hwriting
  · exact absurd (h.not_alive (h.hosting hwriting)) (by simp [halive])

/-- A store of an append in progress publishes the next index or none, and leaves the append in
order. -/
theorem gapFree_put {i : ι} {st : Store α} {rest : List (Store α)} (h : GapFree s)
    (hstores : Appending (s.mem i) (st :: rest)) : GapFree (s.put i st) ∧
      ∀ j stores, again i rest = some (j, stores) → Appending ((s.put i st).mem j) stores := by
  constructor
  · intro j
    by_cases hj : j = i
    · subst hj
      show Function.update s.published j _ j = List.range (Function.update s.mem j _ j).write_count
      rw [Function.update_self, Function.update_self, h j]
      -- The write count goes up by the one index that is published, or both stay.
      obtain ⟨-, rfl⟩ | ⟨hst, -⟩ := hstores.next
      · exact List.range_succ.symm
      · rw [published_by_eq_nil hst, List.append_nil, write_count_store hst]
    · show Function.update s.published i _ j = List.range (Function.update s.mem i _ j).write_count
      rw [Function.update_of_ne hj, Function.update_of_ne hj]
      exact h j
  · intro j stores hagain
    unfold again at hagain
    split at hagain
    · exact absurd hagain (by simp)
    · next hrest =>
      obtain ⟨rfl, rfl⟩ := Prod.mk.inj (Option.some.inj hagain)
      obtain ⟨hnil, -⟩ | ⟨hst, hnext⟩ := hstores.next
      · exact absurd (by rw [hnil]; rfl) hrest
      · refine hnext.of_write_count ?_
        show (Function.update s.mem i _ i).write_count = _
        rw [Function.update_self, write_count_store hst]

theorem Inv.move (h : Inv s) (hmove : Move R lost s s') : Inv s' := by
  cases hmove with
  | python python source stop_event hwriting hattends _ =>
    refine ⟨fun halive => hattends (h.attended halive) halive, fun hsome => ?_,
      h.python_appends, h.controller_appends, h.gap_free⟩
    -- An append in progress keeps Python in its loop.
    have hhosting := h.hosting hsome
    obtain hnone | hsame | hne := hwriting
    · exact absurd hnone hsome
    · exact hsame.trans hhosting
    · exact absurd hhosting hne
  | spawned hclosed =>
    refine ⟨fun _ => rfl, fun hsome => ?_, h.python_appends, fun i stores halive => ?_, h.gap_free⟩
    · exact absurd ((h.hosting hsome).symm.trans hclosed) (by simp)
    · exact absurd halive (by simp)
  | writes i vec t_ns hhosting hnone =>
    refine ⟨h.attended, fun _ => hhosting, fun j stores hwriting => ?_, h.controller_appends,
      h.gap_free⟩
    obtain ⟨rfl, rfl⟩ := Prod.mk.inj (Option.some.inj hwriting)
    exact appending_append_stores vec t_ns
  | stores i st rest hwriting =>
    have hhosting := h.hosting (by rw [hwriting]; simp)
    obtain ⟨hgap, hagain⟩ := gapFree_put h.gap_free (h.python_appends i _ hwriting)
    refine ⟨h.attended, fun _ => hhosting, hagain, fun j stores halive => ?_, hgap⟩
    -- the controller is not there while Python appends
    have hdead := h.not_alive hhosting
    have hcontroller : s.controller = .alive (some (j, stores)) := halive
    rw [hcontroller] at hdead
    exact absurd hdead (by simp [Controller.is_alive])
  | controller_writes i vec t_ns halive =>
    refine ⟨fun _ => h.attended (by rw [halive]; rfl), h.hosting, h.python_appends,
      fun j stores hwriting => ?_, h.gap_free⟩
    obtain ⟨rfl, rfl⟩ := Prod.mk.inj (Option.some.inj (Controller.alive.inj hwriting))
    exact appending_append_stores vec t_ns
  | controller_stores i st rest halive =>
    obtain ⟨hgap, hagain⟩ := gapFree_put h.gap_free (h.controller_appends i _ halive)
    have hattended := h.attended (by rw [halive]; rfl)
    refine ⟨fun _ => hattended, h.hosting, fun j stores hwriting => ?_,
      fun j stores hwriting => hagain j stores (Controller.alive.inj hwriting), hgap⟩
    -- nor does Python append while the controller is there
    have hnone : s.writing = none := h.not_writing (by rw [halive]; rfl)
    exact absurd (hnone.symm.trans hwriting) (by simp)
  | controller_exits returncode =>
    exact ⟨fun halive => absurd halive (by simp [Controller.is_alive]), h.hosting,
      h.python_appends, fun i stores halive => absurd halive (by simp), h.gap_free⟩

/-- The states a node and its controllers get to. -/
def Reachable [Zero α] (R : ι → RingSpec) (session_hosted : Bool) : State ι α → Prop :=
  Relation.ReflTransGen (ActStep (step R session_hosted)) .init

theorem Inv.reachable [Zero α] (h : Reachable R session_hosted s) : Inv s := by
  induction h with
  | refl => exact inv_init
  | tail _ hstep ih =>
    obtain ⟨act, hact⟩ := hstep
    exact ih.move (step_move hact)

/-- The appends of the Python node. -/
def Act.python_appends : Act ι α → Bool
  | .write .. | .store => true
  | _ => false

/-- The ring's argument: whoever appends is alone. -/
structure SingleProducer (R : ι → RingSpec) (session_hosted : Bool) (s : State ι α) : Prop where
  /-- From `close_source` until the process is seen dead, Python has no append in progress and
  makes none. -/
  python_silent : s.python.handed_over = true → s.writing = none ∧
    ∀ act, act.python_appends = true → step R session_hosted act s = none
  /-- Apart from that there is no controller. -/
  controller_gone : s.python.handed_over = false → s.controller.is_alive = false

theorem Inv.singleProducer (h : Inv s) : SingleProducer R session_hosted s := by
  constructor
  · intro hover
    have hne : s.python ≠ .hosting := by
      intro hhosting
      rw [hhosting] at hover
      exact absurd hover (by decide)
    -- Handed over means out of the loop, which no append in progress survives.
    have hnone : s.writing = none := by
      by_cases hwriting : s.writing = none
      · exact hwriting
      · exact absurd (h.hosting hwriting) hne
    refine ⟨hnone, fun act hact => ?_⟩
    cases act with
    | write i vec t_ns =>
      rw [step, if_neg]
      exact fun hguard => hne hguard.1
    | store =>
      simp only [step, hnone]
    | _ => exact absurd hact (by simp [Act.python_appends])
  · intro hover
    by_cases halive : s.controller.is_alive = true
    · have hattends := h.attended halive
      simp [Python.handed_over, hattends] at hover
    · exact Bool.eq_false_iff.2 halive

/-! ## The source -/

/-- Outside of a hand-off the node has its source, or it is told to end. -/
def HasSource (s : State ι α) : Prop :=
  s.python = .hosting → s.source = .connected ∨ s.stop_event = true

/-- A step that [`Reopens`], from one state to the next. -/
def WellStep (R : ι → RingSpec) (session_hosted : Bool) (s s' : State ι α) : Prop :=
  ∃ act, step R session_hosted act s = some s' ∧ Reopens session_hosted act s

/-- A move that loses no source keeps one to the loop: the source is away only while a native
controller has the robot. -/
theorem HasSource.move (h : HasSource s) (hmove : Move R lost s s') (hlost : ¬ lost) :
    HasSource s' := by
  cases hmove with
  | python python source stop_event _ _ hback =>
    intro hhosting
    -- Either Python has been in its loop all along, or it comes back by a reopening.
    obtain ⟨hbefore, hsame, hstop⟩ | hconnected | hstop | hgone := hback hhosting
    · rw [hsame, hstop]
      exact h hbefore
    · exact .inl hconnected
    · exact .inr hstop
    · exact absurd hgone hlost
  | spawned _ => exact fun hhosting => absurd hhosting (by simp)
  | writes i vec t_ns _ _ => exact h
  | stores i st rest _ => exact h
  | controller_writes i vec t_ns _ => exact h
  | controller_stores i st rest _ => exact h
  | controller_exits returncode => exact h

theorem hasSource_run [Zero α]
    (h : Relation.ReflTransGen (WellStep R session_hosted) .init s) : HasSource s := by
  induction h with
  | refl => exact fun _ => .inl rfl
  | tail _ hstep ih =>
    obtain ⟨act, hact, hreopens⟩ := hstep
    exact ih.move (step_move hact) (not_not_intro hreopens)

end Runs

/-- Across any number of hand-offs, and whatever the controllers do: each ring has one producer
at a time and its indices have no gap; and as long as no source is reopened with a
`TimeoutError`, the node is back with its source, or ending. -/
theorem one_producer_across_hand_offs [Zero α] (R : ι → RingSpec) (session_hosted : Bool) :
    (∀ s : State ι α, Reachable R session_hosted s →
      SingleProducer R session_hosted s ∧ GapFree s) ∧
    ∀ s : State ι α, Relation.ReflTransGen (WellStep R session_hosted) .init s →
      HasSource s := by
  constructor
  · intro s h
    exact ⟨(Inv.reachable h).singleProducer, (Inv.reachable h).gap_free⟩
  · exact fun s h => hasSource_run h

section Witness

variable {R : ι → RingSpec} {session_hosted : Bool} {s s' : State ι α}

/-- A schedule without such a reopening runs by good steps alone, so the invariant of the loop holds
along it. -/
theorem runActs_wellSteps {acts : List (Act ι α)}
    (h : runActs (step R session_hosted) acts s = some s')
    (hacts : ∀ act ∈ acts, ∀ e, act ≠ .open_source (.error e)) :
    Relation.ReflTransGen (WellStep R session_hosted) s s' := by
  induction acts generalizing s with
  | nil => rw [Option.some.inj h]
  | cons act acts ih =>
    obtain ⟨mid, hmid, hrest⟩ := Option.bind_eq_some_iff.1 h
    refine .head ⟨act, hmid, fun heq => ?_⟩
      (ih hrest fun other hother => hacts other (List.mem_cons_of_mem _ hother))
    exact absurd heq (hacts act List.mem_cons_self _)

/-- One ring of two slots, for one number. -/
def one_ring : Unit → RingSpec := fun _ => ⟨2, 1, by decide⟩

/-- Python appends; the controller appends, begins another append and exits in the middle of
it; Python has its source again and appends. -/
def hand_off_and_back : List (Act Unit ℕ) :=
  [.write () [5] 1, .store, .store, .store, .store, .store, .close_source, .popen (.ok ()),
    .controller_write () [6] 2, .controller_store, .controller_store, .controller_store,
    .controller_store, .controller_store, .controller_write () [7] 3, .controller_store,
    .controller_exit 0, .poll, .wait, .open_source (.ok ()), .write () [8] 4, .store, .store,
    .store, .store, .store]

theorem one_producer_there_and_back : ∃ s, runActs (step one_ring true) hand_off_and_back .init =
    some s ∧ s.published () = [0, 1, 2] ∧ SingleProducer one_ring true s ∧ GapFree s ∧
      HasSource s := by
  have hrun : (runActs (step one_ring true) hand_off_and_back .init).map
      (fun s => s.published ()) = some [0, 1, 2] := by
    decide +kernel
  obtain ⟨s, hs, hpublished⟩ := Option.map_eq_some_iff.1 hrun
  have hwell := runActs_wellSteps hs (by simp [hand_off_and_back])
  obtain ⟨hproducer, hgap⟩ :=
    (one_producer_across_hand_offs one_ring true).1 s (runActs_reach hs)
  have hsource := (one_producer_across_hand_offs one_ring true).2 s hwell
  exact ⟨s, hs, hpublished, hproducer, hgap, hsource⟩

/-- The controller exits cleanly, and the robot does not connect in time. -/
def reopening_times_out : List (Act Unit ℕ) :=
  [.close_source, .popen (.ok ()), .controller_exit 0, .poll, .wait,
    .open_source (.error .timeout_error)]

/-- The session loop takes it for a session that never started, and goes on without a source. -/
theorem loop_without_source : ∃ s, runActs (step one_ring true) reopening_times_out .init = some s ∧
    s.python = .hosting ∧ s.source = .unconnected ∧ ¬ HasSource s := by
  have hrun : (runActs (step one_ring true) reopening_times_out .init).map
      (fun s => (s.python, s.source, s.stop_event)) = some (.hosting, .unconnected, false) := by
    decide +kernel
  obtain ⟨s, hs, hstate⟩ := Option.map_eq_some_iff.1 hrun
  simp only [Prod.mk.injEq] at hstate
  obtain ⟨hpython, hsource, hstop⟩ := hstate
  refine ⟨s, hs, hpython, hsource, fun h => ?_⟩
  have hback := h hpython
  rw [hsource, hstop] at hback
  exact absurd hback (by simp)

end Witness

end DualFlexivControl.Flexiv.Handoff
