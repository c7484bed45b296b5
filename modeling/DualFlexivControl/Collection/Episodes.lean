/-
Episode accounting: `CollectionLoop.run` with its recorder.

The loop counts the frames of the running episode (`frames_in_ep`), the recorder holds them
in a buffer of its own, and an END, a DISCARD or the `finally` block closes the episode. What
a tick does, what the operator presses, when the stop event is set and which calls of
`save_episode` raise are given from outside, one [`Round`] an iteration.

The recorder carries a ledger: every frame handed to `add_frame`, and every episode with the
frames that were in the buffer when it was closed. The invariant [`Books`] says that the
handed frames are those of the closed episodes followed by the buffer, and that the buffer is
as long as the loop's counter says. It survives every exception but one that `add_frame`
itself raises, and the `finally` block closes the books from there. Only a keyboardless run
saves inside that block: when that save raises, the block is left before `finalize`.

When the books are closed in the end is said of the inputs alone ([`Closable`]): which rounds the
loop gets to ([`Reached`]) and how many frames have accrued there ([`accrued`]) are read off the
rounds, the keys and the saves that raise, by counting frames and keys. The loop's own variables
are then shown to agree with these counts ([`Tracks`]).
-/
import Mathlib.Data.Int.Notation
import Mathlib.Data.List.Basic
import Mathlib.Data.List.Infix
import DualFlexivControl.Lib.Effects

set_option autoImplicit false

namespace DualFlexivControl.Collection

open Effect

variable {φ : Type}

/-! ## The recorder and its ledger -/

/-- Event kinds drained by the loop. -/
inductive Event
  | END
  | DISCARD
  | STOP
  deriving DecidableEq, Repr

/-- What closed an episode: an operator's key, or the end of the run. -/
inductive Closer
  | END
  | DISCARD
  | run_end
  deriving DecidableEq, Repr

/-- A closed episode. -/
structure Episode (φ : Type) where
  frames : List φ
  saved : Bool
  closer : Closer
  deriving DecidableEq, Repr

/-- The recorder: the dataset's buffer and `_episodes`. The last five fields are the ledger,
which the code does not keep. -/
structure LeRobotRecorder (φ : Type) where
  episode_buffer : List φ
  episodes : ℕ
  handed : List φ
  refused : List φ
  closed : List (Episode φ)
  save_calls : ℕ
  finalize_calls : ℕ
  deriving DecidableEq, Repr

namespace LeRobotRecorder

/-- `add_frame`, as far as the dataset takes the frame. -/
def add_frame (r : LeRobotRecorder φ) (frame : φ) : LeRobotRecorder φ :=
  { r with episode_buffer := r.episode_buffer ++ [frame], handed := r.handed ++ [frame] }

/-- `add_frame` raising before the dataset has taken the frame. -/
def refuse_frame (r : LeRobotRecorder φ) (frame : φ) : LeRobotRecorder φ :=
  { r with handed := r.handed ++ [frame], refused := r.refused ++ [frame] }

/-- `discard_episode`: drop the buffer without writing it. -/
def discard_episode (r : LeRobotRecorder φ) (closer : Closer) : LeRobotRecorder φ :=
  { r with
    episode_buffer := []
    closed := r.closed ++ [⟨r.episode_buffer, false, closer⟩] }

/-- `save_episode`, once `_ds.save_episode()` has returned: a failing push is caught. -/
def saved_episode (r : LeRobotRecorder φ) (closer : Closer) : LeRobotRecorder φ :=
  { r with
    episode_buffer := []
    episodes := r.episodes + 1
    closed := r.closed ++ [⟨r.episode_buffer, true, closer⟩]
    save_calls := r.save_calls + 1 }

/-- `finalize`: it catches what its methods raise. -/
def finalize (r : LeRobotRecorder φ) : LeRobotRecorder φ :=
  { r with finalize_calls := r.finalize_calls + 1 }

end LeRobotRecorder

/-! ## The loop -/

/-- What a run is given. -/
structure Config where
  /-- `events is not None` -/
  operator_paced : Bool
  /-- the configured count, as given -/
  num_episodes_arg : ℤ
  /-- whether the n-th call of `_ds.save_episode()` raises -/
  save_raises : ℕ → Bool

/-- `self.num_episodes = max(1, int(num_episodes))` -/
def Config.num_episodes (cfg : Config) : ℕ := (max 1 cfg.num_episodes_arg).toNat

/-- What one call of `tick` does: it skips the frame, records it, or raises; where `add_frame`
raises, the dataset may have taken the frame or not. -/
inductive Tick (φ : Type)
  | skipped
  | recorded (frame : φ)
  | raises
  | add_frame_raises (frame : φ) (taken : Bool)
  deriving DecidableEq, Repr

/-- What one iteration meets: whether someone else has set the stop event when the loop's head
looks, what its tick does, and the keys pressed since the last poll. -/
structure Round (φ : Type) where
  stop_is_set : Bool
  tick : Tick φ
  events : List Event
  deriving DecidableEq, Repr

/-- The loop's variables, with its recorder. -/
structure CollectionLoop (φ : Type) where
  frames_in_ep : ℕ
  episodes_done : ℕ
  stop_event : Bool
  recorder : LeRobotRecorder φ
  deriving DecidableEq, Repr

namespace CollectionLoop

/-- Before `run`: nothing handed, nothing closed. -/
def init : CollectionLoop φ := ⟨0, 0, false, ⟨[], 0, [], [], [], 0, 0⟩⟩

/-- Change the recorder. -/
def on_recorder (f : LeRobotRecorder φ → LeRobotRecorder φ) (s : CollectionLoop φ) :
    CollectionLoop φ := { s with recorder := f s.recorder }

end CollectionLoop

/-- What was raised: by the tick or by `save_episode`. -/
inductive Raised
  | tick
  | save_episode
  deriving DecidableEq, Repr

section Loop

variable (cfg : Config)

/-- `self.recorder.save_episode()` -/
def save_episode (closer : Closer) : Effect Raised (CollectionLoop φ) Unit := do
  let s ← get
  if cfg.save_raises s.recorder.save_calls then
    update (·.on_recorder fun r => { r with save_calls := r.save_calls + 1 })
    throw .save_episode
  else
    update (·.on_recorder (·.saved_episode closer))

/-- `_save`: what it returns is the new `frames_in_ep`. -/
def save (closer : Closer) (frames_in_ep : ℕ) : Effect Raised (CollectionLoop φ) ℕ :=
  if frames_in_ep ≤ 0 then pure 0
  else do
    save_episode cfg closer
    update fun s => { s with episodes_done := s.episodes_done + 1 }
    pure 0

/-- `tick`, as far as the recorder sees it. -/
def tick (t : Tick φ) : Effect Raised (CollectionLoop φ) Bool :=
  match t with
  | .skipped => pure false
  | .recorded frame => do
    update (·.on_recorder (·.add_frame frame))
    pure true
  | .raises => throw .tick
  | .add_frame_raises frame taken => do
    update (·.on_recorder fun r => if taken then r.add_frame frame else r.refuse_frame frame)
    throw .tick

/-- One polled event. -/
def on_event (event : Event) : Effect Raised (CollectionLoop φ) Unit :=
  match event with
  | .END => do
    let s ← get
    let left ← save cfg .END s.frames_in_ep
    update fun s => { s with frames_in_ep := left }
  | .DISCARD =>
    update fun s => { s.on_recorder (·.discard_episode .DISCARD) with frames_in_ep := 0 }
  | .STOP => update fun s => { s with stop_event := true }

/-- `for event in self._poll()` -/
def on_events (events : List Event) : Effect Raised (CollectionLoop φ) Unit :=
  match events with
  | [] => pure ()
  | event :: rest => do
    on_event cfg event
    on_events rest

/-- `self._poll()`: without a keyboard it is `lambda: []`. -/
def poll (round : Round φ) : List Event := if cfg.operator_paced then round.events else []

/-- One iteration of the loop. -/
def turn (round : Round φ) : Effect Raised (CollectionLoop φ) Unit := do
  let recorded ← tick round.tick
  if recorded then update fun s => { s with frames_in_ep := s.frames_in_ep + 1 } else pure ()
  on_events cfg (poll cfg round)

/-- The `while` loop. Where the rounds end, the head finds the stop event set. -/
def loop (rounds : List (Round φ)) : Effect Raised (CollectionLoop φ) Unit :=
  match rounds with
  | [] => pure ()
  | round :: rest => do
    let s ← get
    if s.stop_event || round.stop_is_set || decide (cfg.num_episodes ≤ s.episodes_done) then
      pure ()
    else do
      turn cfg round
      loop rest

/-- The `finally` block: a keyboardless run saves what accrued, an operator-paced one drops
it; then the dataset is finalized. -/
def finish : Effect Raised (CollectionLoop φ) Unit := do
  let s ← get
  if !cfg.operator_paced then do
    let _ ← save cfg .run_end s.frames_in_ep
    pure ()
  else if s.frames_in_ep ≠ 0 then
    update (·.on_recorder (·.discard_episode .run_end))
  else
    pure ()
  update (·.on_recorder (·.finalize))

/-- `CollectionLoop.run` -/
def run (rounds : List (Round φ)) : Effect Raised (CollectionLoop φ) Unit :=
  finallyDo (loop cfg rounds) (finish cfg)

end Loop

/-! ## What the inputs say of a run -/

/-- What happens to the running episode: a frame is recorded, or a key is pressed. -/
inductive Mark
  | frame
  | key (event : Event)
  deriving DecidableEq, Repr

/-- An END or a DISCARD closes the running episode. -/
def Mark.closes : Mark → Bool
  | .key .END => true
  | .key .DISCARD => true
  | _ => false

/-- The tick raises, in `add_frame` or elsewhere. -/
def Tick.raising : Tick φ → Bool
  | .raises => true
  | .add_frame_raises _ _ => true
  | _ => false

/-- A recorded frame is marked. -/
def Tick.marks : Tick φ → List Mark
  | .recorded _ => [.frame]
  | _ => []

/-- The marks of one round: its frame, then its keys. -/
def Round.marks (cfg : Config) (round : Round φ) : List Mark :=
  round.tick.marks ++ (poll cfg round).map .key

/-- The marks of some rounds, in order. -/
def marks (cfg : Config) (rounds : List (Round φ)) : List Mark :=
  rounds.flatMap (Round.marks cfg)

/-- How many frames were recorded since the last END or DISCARD. -/
def accrued (ms : List Mark) : ℕ := (ms.reverse.takeWhile (!·.closes)).countP (· == .frame)

/-- How many ENDs came upon an accrued frame: each of them is a call of `save_episode`. -/
def ends (ms : List Mark) : ℕ :=
  ms.inits.countP fun pre => pre.getLast? == some (.key .END) && decide (0 < accrued pre.dropLast)

/-- The loop gets to a round: no stop was set or pressed, no tick and no save raised, and fewer
episodes than wanted have been ended in the rounds before it. -/
structure Reached (cfg : Config) (before : List (Round φ)) (round : Round φ) : Prop where
  unset : ∀ r ∈ before ++ [round], r.stop_is_set = false
  calm : ∀ r ∈ before, r.tick.raising = false
  no_STOP : .key .STOP ∉ marks cfg before
  wanted : ends (marks cfg before) < cfg.num_episodes
  saved : ∀ n < ends (marks cfg before), cfg.save_raises n = false

/-- A round that leaves no frame astray: its `add_frame` does not raise on a frame that the dataset
refused, nor on the first one of an episode; and if there is no operator a frame is recorded in it
only where the first save, which is the one of the `finally` block, returns. -/
def Harmless (cfg : Config) (before : List (Round φ)) (round : Round φ) : Prop :=
  match round.tick with
  | .recorded _ => cfg.operator_paced = true ∨ cfg.save_raises 0 = false
  | .add_frame_raises _ taken => taken = true ∧ accrued (marks cfg before) ≠ 0
  | _ => True

/-- Every round that the loop gets to is harmless. -/
def Closable (cfg : Config) (rounds : List (Round φ)) : Prop :=
  ∀ before round rest, rounds = before ++ round :: rest → Reached cfg before round →
    Harmless cfg before round

section Marks

variable (ms : List Mark)

@[simp] theorem accrued_frame : accrued (ms ++ [.frame]) = accrued ms + 1 := by
  unfold accrued
  rw [List.reverse_append, List.reverse_singleton, List.singleton_append,
    List.takeWhile_cons_of_pos (by decide), List.countP_cons_of_pos (by decide)]

@[simp] theorem accrued_STOP : accrued (ms ++ [.key .STOP]) = accrued ms := by
  unfold accrued
  rw [List.reverse_append, List.reverse_singleton, List.singleton_append,
    List.takeWhile_cons_of_pos (by decide), List.countP_cons_of_neg (by decide)]

/-- An END or a DISCARD leaves nothing accrued. -/
theorem accrued_of_closes {m : Mark} (h : m.closes = true) : accrued (ms ++ [m]) = 0 := by
  unfold accrued
  rw [List.reverse_append, List.reverse_singleton, List.singleton_append,
    List.takeWhile_cons_of_neg (by rw [h]; decide), List.countP_nil]

/-- One more mark is one more end if it is an END upon an accrued frame. -/
theorem ends_append (m : Mark) :
    ends (ms ++ [m]) = ends ms + if m = .key .END ∧ 0 < accrued ms then 1 else 0 := by
  unfold ends
  rw [List.inits_append]
  show List.countP _ (ms.inits ++ [ms ++ [m]]) = _
  rw [List.countP_append, List.countP_singleton, List.getLast?_concat, List.dropLast_concat]
  simp only [Bool.and_eq_true, beq_iff_eq, Option.some.injEq, decide_eq_true_eq]

theorem ends_le_append (ms' : List Mark) : ends ms ≤ ends (ms ++ ms') := by
  induction ms' using List.reverseRecOn with
  | nil => rw [List.append_nil]
  | append_singleton ms' m ih =>
    rw [← List.append_assoc, ends_append]
    omega

end Marks

section Reached

variable {cfg : Config} {before rest : List (Round φ)} {round : Round φ}

theorem marks_append (cfg : Config) (before : List (Round φ)) (round : Round φ) :
    marks cfg (before ++ [round]) = marks cfg before ++ round.marks cfg := by
  unfold marks
  rw [List.flatMap_append, List.flatMap_singleton]

/-- Without an operator nothing ends an episode: the marks of the rounds hold no key, so the run's
own end is the only one. -/
theorem ends_keyboardless (hpaced : cfg.operator_paced = false) (rounds : List (Round φ)) :
    ends (marks cfg rounds) = 0 := by
  induction rounds using List.reverseRecOn with
  | nil => rfl
  | append_singleton rounds round ih =>
    rw [marks_append]
    unfold Round.marks poll
    rw [hpaced, if_neg (by decide), List.map_nil, List.append_nil]
    unfold Tick.marks
    split
    · rw [ends_append, if_neg (by simp), ih]
    · rw [List.append_nil, ih]

/-- To get to a round the loop got through the one before it. -/
theorem Reached.through {mid : List (Round φ)} {later : Round φ}
    (h : Reached cfg (before ++ round :: mid) later) :
    Reached cfg before round ∧ round.tick.raising = false ∧
      .key .STOP ∉ marks cfg (before ++ [round]) ∧
      ∀ n < ends (marks cfg (before ++ [round])), cfg.save_raises n = false := by
  have hsplit : before ++ round :: mid = (before ++ [round]) ++ mid := by
    rw [List.append_assoc, List.singleton_append]
  have hmarks : marks cfg (before ++ round :: mid) =
      marks cfg (before ++ [round]) ++ marks cfg mid := by
    rw [hsplit]
    unfold marks
    rw [List.flatMap_append]
  have hround : ends (marks cfg (before ++ [round])) ≤ ends (marks cfg (before ++ round :: mid)) := by
    rw [hmarks]
    exact ends_le_append _ _
  have hbefore : ends (marks cfg before) ≤ ends (marks cfg (before ++ [round])) := by
    rw [marks_append]
    exact ends_le_append _ _
  have hstop : .key .STOP ∉ marks cfg (before ++ [round]) := by
    intro hmem
    refine h.no_STOP ?_
    rw [hmarks]
    exact List.mem_append_left _ hmem
  refine ⟨⟨?_, ?_, ?_, by have := h.wanted; omega, fun n hn => h.saved n (by omega)⟩,
    h.calm round (by simp), hstop, fun n hn => h.saved n (by omega)⟩
  · intro r hr
    refine h.unset r (List.mem_append_left _ ?_)
    rw [hsplit]
    exact List.mem_append_left _ hr
  · exact fun r hr => h.calm r (List.mem_append_left _ hr)
  · intro hmem
    refine hstop ?_
    rw [marks_append]
    exact List.mem_append_left _ hmem

end Reached

/-! ## The books

What holds of the closed episodes at any time, and of the open one while the run is on. -/

/-- The closed episodes: no empty one is saved, the counter counts the saved ones and stays
within the target; with an operator only an END saves, without one every episode is saved. -/
structure Ledger (cfg : Config) (closed : List (Episode φ)) (episodes_done : ℕ) : Prop where
  nonempty : ∀ e ∈ closed, e.saved → e.frames ≠ []
  counted : episodes_done = closed.countP (·.saved)
  within : episodes_done ≤ cfg.num_episodes
  paced : cfg.operator_paced → ∀ e ∈ closed, e.saved → e.closer = .END
  keyboardless : ¬ cfg.operator_paced → ∀ e ∈ closed, e.saved

/-- Every frame handed over is in a closed episode, in the buffer, or was refused; an episode
with frames leaves room for itself under the target. -/
structure Open (cfg : Config) (s : CollectionLoop φ) : Prop where
  ledger : Ledger cfg s.recorder.closed s.episodes_done
  episodes : s.recorder.episodes = s.episodes_done
  handed : s.recorder.handed =
    s.recorder.closed.flatMap (·.frames) ++ s.recorder.episode_buffer ++ s.recorder.refused
  buffered : s.frames_in_ep ≤ s.recorder.episode_buffer.length
  room : s.frames_in_ep ≠ 0 → s.episodes_done < cfg.num_episodes
  not_finalized : s.recorder.finalize_calls = 0

/-- Between two statements of the loop nothing was refused, and the buffer is as long as the
loop's counter says. -/
structure Books (cfg : Config) (s : CollectionLoop φ) : Prop extends Open cfg s where
  none_refused : s.recorder.refused = []
  exact_count : s.recorder.episode_buffer.length = s.frames_in_ep

/-- What a part of the loop leaves: exact books, or open ones where it raised. -/
def Kept (cfg : Config) {α : Type} (r : Except Raised α) (s : CollectionLoop φ) : Prop :=
  match r with
  | .ok _ => Books cfg s
  | .error _ => Open cfg s

section Ledger

variable {cfg : Config} {closed : List (Episode φ)} {done : ℕ}

theorem ledger_init (cfg : Config) : Ledger cfg ([] : List (Episode φ)) 0 := by
  refine ⟨?_, rfl, Nat.zero_le _, ?_, ?_⟩
  · intro e he
    exact absurd he List.not_mem_nil
  · intro _ e he
    exact absurd he List.not_mem_nil
  · intro _ e he
    exact absurd he List.not_mem_nil

/-- Closing the open episode unsaved leaves the number of saved ones as it is. Only an
operator-paced run does so, by a key or at its end. -/
theorem Ledger.discard (h : Ledger cfg closed done) (hpaced : cfg.operator_paced = true)
    (frames : List φ) (closer : Closer) :
    Ledger cfg (closed ++ [⟨frames, false, closer⟩]) done := by
  refine ⟨?_, ?_, h.within, ?_, fun hp => absurd hpaced hp⟩
  · rintro e he hsaved
    rcases List.mem_append.1 he with he | he
    · exact h.nonempty e he hsaved
    · rw [List.mem_singleton.1 he] at hsaved
      exact absurd hsaved Bool.false_ne_true
  · rw [List.countP_append, ← h.counted]
    rfl
  · rintro hp e he hsaved
    rcases List.mem_append.1 he with he | he
    · exact h.paced hp e he hsaved
    · rw [List.mem_singleton.1 he] at hsaved
      exact absurd hsaved Bool.false_ne_true

/-- Closing the open episode saved adds one to the saved ones, which there is room for, and an
operator-paced run does it by END alone. -/
theorem Ledger.save (h : Ledger cfg closed done) (hroom : done < cfg.num_episodes)
    {frames : List φ} (hframes : frames ≠ []) {closer : Closer}
    (hcloser : cfg.operator_paced → closer = .END) :
    Ledger cfg (closed ++ [⟨frames, true, closer⟩]) (done + 1) := by
  refine ⟨?_, ?_, hroom, ?_, ?_⟩
  · rintro e he hsaved
    rcases List.mem_append.1 he with he | he
    · exact h.nonempty e he hsaved
    · rw [List.mem_singleton.1 he]
      exact hframes
  · rw [List.countP_append, ← h.counted]
    rfl
  · rintro hp e he hsaved
    rcases List.mem_append.1 he with he | he
    · exact h.paced hp e he hsaved
    · rw [List.mem_singleton.1 he]
      exact hcloser hp
  · rintro hp e he
    rcases List.mem_append.1 he with he | he
    · exact h.keyboardless hp e he
    · rw [List.mem_singleton.1 he]

end Ledger

/-! ## What each part of the loop does to the books -/

section Books

variable {cfg : Config} {s : CollectionLoop φ}

/-- A run starts with empty books. -/
theorem books_init (cfg : Config) : Books cfg (CollectionLoop.init : CollectionLoop φ) := by
  refine ⟨⟨ledger_init cfg, rfl, rfl, Nat.zero_le _, ?_, rfl⟩, rfl, rfl⟩
  intro h
  exact absurd rfl h

/-- A frame that `add_frame` took, whether it returned or raised, is in the open episode, whose
count has yet to follow. -/
theorem Books.take_frame (h : Books cfg s) (frame : φ) :
    Open cfg (s.on_recorder (·.add_frame frame)) := by
  refine ⟨h.ledger, h.episodes, ?_, ?_, h.room, h.not_finalized⟩
  · show s.recorder.handed ++ [frame] = s.recorder.closed.flatMap (·.frames) ++
      (s.recorder.episode_buffer ++ [frame]) ++ s.recorder.refused
    rw [h.handed, h.none_refused]
    simp only [List.append_nil, List.append_assoc]
  · show s.frames_in_ep ≤ (s.recorder.episode_buffer ++ [frame]).length
    rw [List.length_append, h.exact_count]
    exact Nat.le_add_right _ _

/-- A frame that `add_frame` refused. -/
theorem Books.refuse_frame (h : Books cfg s) (frame : φ) :
    Open cfg (s.on_recorder (·.refuse_frame frame)) := by
  refine ⟨h.ledger, h.episodes, ?_, h.buffered, h.room, h.not_finalized⟩
  show s.recorder.handed ++ [frame] = s.recorder.closed.flatMap (·.frames) ++
    s.recorder.episode_buffer ++ (s.recorder.refused ++ [frame])
  rw [h.handed]
  simp only [List.append_assoc]

/-- A recorded frame, counted. -/
theorem Books.add_frame (h : Books cfg s) (hroom : s.episodes_done < cfg.num_episodes)
    (frame : φ) : Books cfg { s.on_recorder (·.add_frame frame) with
      frames_in_ep := s.frames_in_ep + 1 } := by
  have hcount : (s.recorder.episode_buffer ++ [frame]).length = s.frames_in_ep + 1 := by
    rw [List.length_append, h.exact_count]
    rfl
  have htaken := h.take_frame frame
  exact ⟨⟨h.ledger, h.episodes, htaken.handed, Nat.le_of_eq hcount.symm, fun _ => hroom,
    h.not_finalized⟩, h.none_refused, hcount⟩

/-- An operator's DISCARD closes the open episode unsaved and starts the count of its frames anew,
so the books stay exact. -/
theorem Books.discard_episode (h : Books cfg s) (hpaced : cfg.operator_paced = true) :
    Books cfg { s.on_recorder (·.discard_episode .DISCARD) with frames_in_ep := 0 } := by
  refine ⟨⟨h.ledger.discard hpaced _ _, h.episodes, ?_, Nat.zero_le _, ?_, h.not_finalized⟩,
    h.none_refused, rfl⟩
  · show s.recorder.handed = (s.recorder.closed ++ [_]).flatMap Episode.frames ++ [] ++
      s.recorder.refused
    rw [h.handed]
    simp only [List.flatMap_append, List.flatMap_singleton, List.append_nil]
  · intro hne
    exact absurd rfl hne

/-- An END that saves closes the open episode saved, counts it and starts the count of frames anew;
it is not reached without a frame. -/
theorem Books.saved_episode (h : Books cfg s) (hne : s.frames_in_ep ≠ 0) :
    Books cfg { s.on_recorder (·.saved_episode .END) with
      frames_in_ep := 0, episodes_done := s.episodes_done + 1 } := by
  have hframes : s.recorder.episode_buffer ≠ [] := by
    intro hnil
    rw [← h.exact_count, hnil] at hne
    exact hne rfl
  refine ⟨⟨h.ledger.save (h.room hne) hframes fun _ => rfl, congrArg (· + 1) h.episodes, ?_,
    Nat.zero_le _, ?_, h.not_finalized⟩, h.none_refused, rfl⟩
  · show s.recorder.handed = (s.recorder.closed ++ [_]).flatMap Episode.frames ++ [] ++
      s.recorder.refused
    rw [h.handed]
    simp only [List.flatMap_append, List.flatMap_singleton, List.append_nil]
  · intro hne
    exact absurd rfl hne

/-- An END whose save raises leaves the open episode as it is. -/
theorem Books.save_raised (h : Books cfg s) :
    Books cfg (s.on_recorder fun r => { r with save_calls := r.save_calls + 1 }) :=
  ⟨⟨h.ledger, h.episodes, h.handed, h.buffered, h.room, h.not_finalized⟩, h.none_refused,
    h.exact_count⟩

/-- A key keeps the books exact in each of its cases, also one whose save raises: the episode then
stays open and uncounted. -/
theorem keeps_on_event (h : Books cfg s) (hpaced : cfg.operator_paced = true)
    (event : Event) : Ensures (on_event cfg event) s fun _ s' => Books cfg s' := by
  cases event with
  | STOP =>
    exact ⟨⟨h.ledger, h.episodes, h.handed, h.buffered, h.room, h.not_finalized⟩,
      h.none_refused, h.exact_count⟩
  | DISCARD => exact h.discard_episode hpaced
  | END =>
    unfold on_event
    rw [ensures_get_bind]
    unfold save
    by_cases hne : s.frames_in_ep ≤ 0
    · rw [if_pos hne, ensures_bind, ensures_pure]
      have hzero : s.frames_in_ep = 0 := Nat.le_zero.1 hne
      show Books cfg { s with frames_in_ep := 0 }
      rw [← hzero]
      exact h
    · rw [if_neg hne, ensures_bind, ensures_bind]
      unfold save_episode
      rw [ensures_get_bind]
      split
      · exact h.save_raised
      · exact h.saved_episode (by omega)

theorem keeps_on_events (hpaced : cfg.operator_paced = true) (events : List Event) :
    ∀ {s : CollectionLoop φ}, Books cfg s →
      Ensures (on_events cfg events) s fun _ s' => Books cfg s' := by
  induction events with
  | nil =>
    intro s h
    exact h
  | cons event rest ih =>
    intro s h
    exact (keeps_on_event h hpaced event).bind (fun _ _ h' => ih h') fun _ _ h' => h'

/-- The keys of a round, whether there is an operator or not. -/
theorem keeps_poll (h : Books cfg s) (round : Round φ) :
    Ensures (on_events cfg (poll cfg round)) s fun _ s' => Books cfg s' := by
  unfold poll
  by_cases hpaced : cfg.operator_paced = true
  · exact keeps_on_events hpaced _ h
  · rw [if_neg hpaced]
    exact h

/-- The step lemma: an iteration entered below the target keeps the books. -/
theorem keeps_turn (h : Books cfg s) (hroom : s.episodes_done < cfg.num_episodes)
    (round : Round φ) : Ensures (turn cfg round) s (Kept cfg) := by
  have hevents : ∀ {s' : CollectionLoop φ}, Books cfg s' →
      Ensures (on_events cfg (poll cfg round)) s' (Kept cfg) := by
    intro s' h'
    refine (keeps_poll h' round).imp fun r s'' h'' => ?_
    cases r with
    | ok _ => exact h''
    | error _ => exact h''.toOpen
  unfold turn
  cases round.tick with
  | skipped => exact hevents h
  | recorded frame => exact hevents (h.add_frame hroom frame)
  | raises => exact h.toOpen
  | add_frame_raises frame taken =>
    cases taken with
    | true => exact h.take_frame frame
    | false => exact h.refuse_frame frame

/-- The run lemma: the loop ends with exact books, or with open ones where it was left by an
exception. -/
theorem keeps_loop (rounds : List (Round φ)) :
    ∀ {s : CollectionLoop φ}, Books cfg s → Ensures (loop cfg rounds) s (Kept cfg) := by
  induction rounds with
  | nil =>
    intro s h
    exact h
  | cons round rest ih =>
    intro s h
    unfold loop
    rw [ensures_get_bind]
    split
    · exact h
    · rename_i hgoes
      have hroom : s.episodes_done < cfg.num_episodes := by
        simp only [Bool.or_eq_true, decide_eq_true_eq, not_or] at hgoes
        omega
      exact (keeps_turn h hroom round).bind (fun _ _ h' => ih h') fun _ _ h' => h'

end Books

/-! ## The `finally` block closes the books -/

/-- What is promised of a run that is over: every frame handed to `add_frame` is in exactly one
closed episode, the ledger is right, and `finalize` was called once. -/
structure Accounted (cfg : Config) (r : LeRobotRecorder φ) (episodes_done : ℕ) : Prop where
  handed : r.handed = r.closed.flatMap (·.frames)
  ledger : Ledger cfg r.closed episodes_done
  episodes : r.episodes = episodes_done
  finalized : r.finalize_calls = 1

/-- The states the `finally` block closes: `add_frame` did not raise on a frame it refused or
on the first of an episode, and where the block saves, `save_episode` returns. -/
structure Closes (cfg : Config) (s : CollectionLoop φ) : Prop where
  none_refused : s.recorder.refused = []
  counted : s.frames_in_ep = 0 → s.recorder.episode_buffer = []
  saves : cfg.operator_paced = true ∨ s.frames_in_ep = 0 ∨
    cfg.save_raises s.recorder.save_calls = false

section Finally

variable {cfg : Config} {s : CollectionLoop φ}

/-- Finalized with all episodes closed: accounted for, if no frame is left over. -/
theorem Open.accounted_iff (h : Open cfg s) :
    Accounted cfg s.recorder.finalize s.episodes_done ↔
      s.recorder.episode_buffer = [] ∧ s.recorder.refused = [] := by
  rw [← List.append_eq_nil_iff]
  have hhanded : s.recorder.handed = s.recorder.closed.flatMap (·.frames) ++
      (s.recorder.episode_buffer ++ s.recorder.refused) := by
    rw [h.handed, List.append_assoc]
  constructor
  · intro hacc
    exact List.append_right_eq_self.1 (hhanded.symm.trans hacc.handed)
  · intro hnil
    rw [hnil, List.append_nil] at hhanded
    exact ⟨hhanded, h.ledger, h.episodes, congrArg (· + 1) h.not_finalized⟩

/-- What the block leaves of an open episode it discards. -/
theorem Open.discard_episode (h : Open cfg s) (hpaced : cfg.operator_paced = true) :
    Open cfg { s.on_recorder (·.discard_episode .run_end) with frames_in_ep := 0 } := by
  refine ⟨h.ledger.discard hpaced _ _, h.episodes, ?_, Nat.zero_le _, ?_, h.not_finalized⟩
  · show s.recorder.handed = (s.recorder.closed ++ [_]).flatMap Episode.frames ++ [] ++
      s.recorder.refused
    rw [h.handed]
    simp only [List.flatMap_append, List.flatMap_singleton, List.append_nil]
  · intro hne
    exact absurd rfl hne

/-- What the `finally` block finds of an open episode in a keyboardless run it saves, even where the
last frame was never counted. -/
theorem Open.saved_episode (h : Open cfg s) (hpaced : ¬ cfg.operator_paced = true)
    (hne : s.frames_in_ep ≠ 0) :
    Open cfg { s.on_recorder (·.saved_episode .run_end) with
      frames_in_ep := 0, episodes_done := s.episodes_done + 1 } := by
  have hframes : s.recorder.episode_buffer ≠ [] := by
    intro hnil
    have hlen := h.buffered
    rw [hnil] at hlen
    exact hne (Nat.le_zero.1 hlen)
  refine ⟨h.ledger.save (h.room hne) hframes fun hp => absurd hp hpaced,
    congrArg (· + 1) h.episodes, ?_, Nat.zero_le _, ?_, h.not_finalized⟩
  · show s.recorder.handed = (s.recorder.closed ++ [_]).flatMap Episode.frames ++ [] ++
      s.recorder.refused
    rw [h.handed]
    simp only [List.flatMap_append, List.flatMap_singleton, List.append_nil]
  · intro hne
    exact absurd rfl hne

/-- From open books the block leaves an accounted run exactly where it can close them. -/
theorem Open.finish_iff (h : Open cfg s) :
    (Ensures (finish cfg) s fun _ s' => Accounted cfg s'.recorder s'.episodes_done) ↔
      Closes cfg s := by
  unfold finish
  rw [ensures_get_bind]
  cases hpaced : cfg.operator_paced with
  | true =>
    rw [if_neg (by decide)]
    by_cases hne : s.frames_in_ep = 0
    · -- nothing accrued: `finalize` only
      rw [if_neg (not_not.2 hne)]
      refine h.accounted_iff.trans ⟨?_, ?_⟩
      · rintro ⟨hbuffer, hrefused⟩
        exact ⟨hrefused, fun _ => hbuffer, .inl hpaced⟩
      · intro hc
        exact ⟨hc.counted hne, hc.none_refused⟩
    · rw [if_pos hne]
      refine (h.discard_episode hpaced).accounted_iff.trans ⟨?_, ?_⟩
      · rintro ⟨_, hrefused⟩
        exact ⟨hrefused, fun hzero => absurd hzero hne, .inl hpaced⟩
      · intro hc
        exact ⟨rfl, hc.none_refused⟩
  | false =>
    have hkeys : ¬ cfg.operator_paced = true := by
      rw [hpaced]
      decide
    rw [if_pos (by decide)]
    unfold save
    by_cases hne : s.frames_in_ep = 0
    · -- nothing accrued: `_save` returns at once
      rw [if_pos (Nat.le_of_eq hne)]
      refine h.accounted_iff.trans ⟨?_, ?_⟩
      · rintro ⟨hbuffer, hrefused⟩
        exact ⟨hrefused, fun _ => hbuffer, .inr (.inl hne)⟩
      · intro hc
        exact ⟨hc.counted hne, hc.none_refused⟩
    · rw [if_neg (by omega)]
      unfold save_episode
      simp only [bind_assoc]
      rw [ensures_get_bind]
      cases hraises : cfg.save_raises s.recorder.save_calls with
      | true =>
        -- the save raises inside the block: `finalize` is never reached
        refine ⟨?_, ?_⟩
        · intro hacc
          have hcalls : s.recorder.finalize_calls = 1 := hacc.finalized
          rw [h.not_finalized] at hcalls
          exact absurd hcalls (by decide)
        · intro hc
          rcases hc.saves with hp | hz | hs
          · exact absurd hp hkeys
          · exact absurd hz hne
          · rw [hraises] at hs
            exact absurd hs (by decide)
      | false =>
        refine (h.saved_episode hkeys hne).accounted_iff.trans ⟨?_, ?_⟩
        · rintro ⟨_, hrefused⟩
          exact ⟨hrefused, fun hzero => absurd hzero hne, .inr (.inr hraises)⟩
        · intro hc
          exact ⟨rfl, hc.none_refused⟩

end Finally

/-! ## The loop follows the inputs

Between two statements of the loop its variables are what the marks so far say, and where it is
left the state can be closed exactly if the rounds it got to were harmless. -/

/-- The loop's variables after some marks; no save has raised. -/
structure Tracks (cfg : Config) (ms : List Mark) (s : CollectionLoop φ) : Prop where
  frames : s.frames_in_ep = accrued ms
  done : s.episodes_done = ends ms
  calls : s.recorder.save_calls = ends ms
  stop : s.stop_event = true ↔ .key .STOP ∈ ms
  saved : ∀ n < ends ms, cfg.save_raises n = false

/-- The part of [`Closable`] that is about the rounds to come. -/
def ClosableFrom (cfg : Config) (before rest : List (Round φ)) : Prop :=
  ∀ mid round after, rest = mid ++ round :: after → Reached cfg (before ++ mid) round →
    Harmless cfg (before ++ mid) round

/-- Where the `finally` block has a frame to save, its save returns. -/
def Saves (cfg : Config) (before : List (Round φ)) : Prop :=
  cfg.operator_paced = true ∨ accrued (marks cfg before) = 0 ∨ cfg.save_raises 0 = false

section Tracks

variable {cfg : Config} {ms : List Mark} {before rest : List (Round φ)} {round : Round φ}
  {s : CollectionLoop φ}

theorem closableFrom_cons : ClosableFrom cfg before (round :: rest) ↔
    (Reached cfg before round → Harmless cfg before round) ∧
      ClosableFrom cfg (before ++ [round]) rest := by
  constructor
  · intro h
    refine ⟨fun hreached => ?_, fun mid later after hrest hreached => ?_⟩
    · have hfirst := h [] round rest rfl
      rw [List.append_nil] at hfirst
      exact hfirst hreached
    · have hlater := h (round :: mid) later after (by rw [hrest, List.cons_append])
      rw [← List.append_cons] at hreached ⊢
      exact hlater hreached
  · rintro ⟨hround, hrest⟩ mid later after hsplit hreached
    cases mid with
    | nil =>
      obtain ⟨rfl, rfl⟩ := List.cons.inj hsplit
      rw [List.append_nil] at hreached ⊢
      exact hround hreached
    | cons r mid =>
      obtain ⟨rfl, htail⟩ := List.cons.inj hsplit
      rw [List.append_cons] at hreached ⊢
      exact hrest mid later after htail hreached

/-- A loop that does not get to the next round gets to none after it. -/
theorem closableFrom_of_not_reached (h : ¬ Reached cfg before round) :
    ClosableFrom cfg before (round :: rest) := by
  intro mid later after hsplit hreached
  cases mid with
  | nil =>
    obtain ⟨rfl, rfl⟩ := List.cons.inj hsplit
    rw [List.append_nil] at hreached
    exact absurd hreached h
  | cons r mid =>
    obtain ⟨rfl, -⟩ := List.cons.inj hsplit
    exact absurd hreached.through.1 h

/-- A round in which something raises is the last one. -/
theorem closableFrom_of_raised (h : round.tick.raising = true ∨
    ∃ n < ends (marks cfg (before ++ [round])), cfg.save_raises n = true) :
    ClosableFrom cfg (before ++ [round]) rest := by
  intro mid later after _ hreached
  rw [← List.append_cons] at hreached
  obtain ⟨-, hcalm, -, hsaved⟩ := hreached.through
  rcases h with hraising | ⟨n, hn, hraises⟩
  · exact absurd (hraising.symm.trans hcalm) (by decide)
  · exact absurd (hraises.symm.trans (hsaved n hn)) (by decide)

/-- One more round that does not raise: its frame is harmless where it can be saved. -/
theorem saves_append (hcalm : round.tick.raising = false) :
    Saves cfg (before ++ [round]) ↔ Saves cfg before ∧ Harmless cfg before round := by
  unfold Saves Harmless
  by_cases hpaced : cfg.operator_paced = true
  · cases htick : round.tick with
    | skipped => simp only [hpaced, true_or, and_true]
    | recorded frame => simp only [hpaced, true_or, and_true]
    | raises =>
      rw [htick] at hcalm
      exact nomatch hcalm
    | add_frame_raises frame taken =>
      rw [htick] at hcalm
      exact nomatch hcalm
  · -- without an operator the only mark of a round is its frame
    rw [marks_append]
    unfold Round.marks poll
    rw [if_neg hpaced, List.map_nil, List.append_nil]
    unfold Tick.marks
    cases htick : round.tick with
    | skipped => simp only [List.append_nil, and_true]
    | recorded frame =>
      simp only [accrued_frame, hpaced, false_or, Nat.succ_ne_zero, Bool.false_eq_true]
      exact ⟨fun h => ⟨.inr h, h⟩, fun h => h.2⟩
    | raises =>
      rw [htick] at hcalm
      exact nomatch hcalm
    | add_frame_raises frame taken =>
      rw [htick] at hcalm
      exact nomatch hcalm

/-- The save of the `finally` block is the first one if it is made at all. -/
theorem Tracks.saves_iff (h : Tracks cfg (marks cfg before) s) :
    (cfg.operator_paced = true ∨ s.frames_in_ep = 0 ∨
      cfg.save_raises s.recorder.save_calls = false) ↔ Saves cfg before := by
  unfold Saves
  rw [h.frames, h.calls]
  by_cases hpaced : cfg.operator_paced = true
  · simp only [hpaced, true_or]
  · rw [ends_keyboardless (Bool.eq_false_iff.2 hpaced)]

/-- Between two statements of the loop only the last save can fail. -/
theorem Books.closes_iff (hbooks : Books cfg s) (h : Tracks cfg (marks cfg before) s) :
    Closes cfg s ↔ Saves cfg before := by
  rw [← h.saves_iff]
  refine ⟨fun hc => hc.saves, fun hsaves => ⟨hbooks.none_refused, fun hzero => ?_, hsaves⟩⟩
  exact List.length_eq_zero_iff.1 (hbooks.exact_count.trans hzero)

/-- A frame that `add_frame` took and then raised on is only closed with frames before it. -/
theorem Tracks.closes_taken_iff (hbooks : Books cfg s) (h : Tracks cfg (marks cfg before) s)
    (frame : φ) : Closes cfg (s.on_recorder (·.add_frame frame)) ↔
      Saves cfg before ∧ accrued (marks cfg before) ≠ 0 := by
  rw [← h.saves_iff, ← h.frames]
  constructor
  · intro hc
    refine ⟨hc.saves, fun hzero => ?_⟩
    exact absurd (hc.counted hzero) (List.append_ne_nil_of_right_ne_nil _ (List.cons_ne_nil _ _))
  · rintro ⟨hsaves, hne⟩
    exact ⟨hbooks.none_refused, fun hzero => absurd hzero hne, hsaves⟩

/-- A frame that `add_frame` refused is lost. -/
theorem not_closes_refused (frame : φ) :
    ¬ Closes cfg (s.on_recorder (·.refuse_frame frame)) := by
  intro hc
  exact absurd hc.none_refused (List.append_ne_nil_of_right_ne_nil _ (List.cons_ne_nil _ _))

/-- One key. An END that raises is the one whose number is up. -/
theorem tracks_on_event (h : Tracks cfg ms s) (event : Event) :
    Ensures (on_event cfg event) s fun r s' =>
      match r with
      | .ok _ => Tracks cfg (ms ++ [.key event]) s'
      | .error _ => ∃ n < ends (ms ++ [.key event]), cfg.save_raises n = true := by
  cases event with
  -- STOP closes no episode and counts nothing
  | STOP =>
    have hends : ends (ms ++ [.key .STOP]) = ends ms := by
      rw [ends_append, if_neg (by simp), Nat.add_zero]
    refine ⟨?_, ?_, ?_, ?_, ?_⟩
    · rw [accrued_STOP]
      exact h.frames
    · rw [hends]
      exact h.done
    · rw [hends]
      exact h.calls
    · exact ⟨fun _ => List.mem_append_right _ (List.mem_singleton_self _), fun _ => rfl⟩
    · rw [hends]
      exact h.saved
  -- DISCARD closes the episode without a save
  | DISCARD =>
    have hends : ends (ms ++ [.key .DISCARD]) = ends ms := by
      rw [ends_append, if_neg (by simp), Nat.add_zero]
    refine ⟨(accrued_of_closes ms rfl).symm, ?_, ?_, ?_, ?_⟩
    · rw [hends]
      exact h.done
    · rw [hends]
      exact h.calls
    · rw [List.mem_append, List.mem_singleton]
      exact h.stop.trans ⟨.inl, fun hmem => hmem.resolve_right (by simp)⟩
    · rw [hends]
      exact h.saved
  -- END saves if there is a frame, and the save may raise
  | END =>
    have hstop : .key .STOP ∈ ms ++ [.key .END] ↔ .key .STOP ∈ ms := by
      rw [List.mem_append, List.mem_singleton]
      exact ⟨fun hmem => hmem.resolve_right (by simp), .inl⟩
    unfold on_event
    rw [ensures_get_bind]
    unfold save
    by_cases hne : s.frames_in_ep ≤ 0
    · -- no frame: `_save` returns at once, and the END is none of the counted ones
      have hends : ends (ms ++ [.key .END]) = ends ms := by
        rw [ends_append, if_neg (fun hend => ?_), Nat.add_zero]
        rw [← h.frames] at hend
        omega
      rw [if_pos hne, ensures_bind, ensures_pure]
      refine ⟨(accrued_of_closes ms rfl).symm, ?_, ?_, ?_, ?_⟩
      · rw [hends]
        exact h.done
      · rw [hends]
        exact h.calls
      · rw [hstop]
        exact h.stop
      · rw [hends]
        exact h.saved
    · have hends : ends (ms ++ [.key .END]) = ends ms + 1 := by
        rw [ends_append, if_pos ⟨rfl, by rw [← h.frames]; omega⟩]
      rw [if_neg hne, ensures_bind, ensures_bind]
      unfold save_episode
      rw [ensures_get_bind]
      split
      · rename_i hraises
        refine ⟨ends ms, by omega, ?_⟩
        rw [← h.calls]
        exact hraises
      · rename_i hreturns
        refine ⟨(accrued_of_closes ms rfl).symm, ?_, ?_, ?_, ?_⟩
        · rw [hends, ← h.done]
          rfl
        · rw [hends, ← h.calls]
          rfl
        · rw [hstop]
          exact h.stop
        · intro n hn
          rw [hends] at hn
          rcases Nat.lt_succ_iff_lt_or_eq.1 hn with hn | rfl
          · exact h.saved n hn
          · rw [← h.calls]
            exact Bool.eq_false_iff.2 hreturns

theorem tracks_on_events (events : List Event) :
    ∀ {ms : List Mark} {s : CollectionLoop φ}, Tracks cfg ms s →
      Ensures (on_events cfg events) s fun r s' =>
        match r with
        | .ok _ => Tracks cfg (ms ++ events.map .key) s'
        | .error _ => ∃ n < ends (ms ++ events.map .key), cfg.save_raises n = true := by
  induction events with
  | nil =>
    intro ms s h
    rw [List.map_nil, List.append_nil]
    exact h
  | cons event rest ih =>
    intro ms s h
    rw [List.map_cons, List.append_cons]
    refine (tracks_on_event h event).bind (fun _ _ h' => ih h') fun _ _ herror => ?_
    obtain ⟨n, hn, hraises⟩ := herror
    exact ⟨n, hn.trans_le (ends_le_append _ _), hraises⟩

/-- What a round leaves: the next state to go on from, or one that can be closed exactly if the
rounds so far were harmless, this one included. -/
def Left (cfg : Config) (before : List (Round φ)) (round : Round φ) {α : Type}
    (r : Except Raised α) (s : CollectionLoop φ) : Prop :=
  match r with
  | .ok _ => Books cfg s ∧ Tracks cfg (marks cfg (before ++ [round])) s ∧
      round.tick.raising = false
  | .error _ => (Closes cfg s ↔ Saves cfg before ∧ Harmless cfg before round) ∧
      (round.tick.raising = true ∨
        ∃ n < ends (marks cfg (before ++ [round])), cfg.save_raises n = true)

/-- The keys of a round whose frame, if it has one, has been counted. -/
theorem left_poll (hbooks : Books cfg s)
    (h : Tracks cfg (marks cfg before ++ round.tick.marks) s)
    (hcalm : round.tick.raising = false) :
    Ensures (on_events cfg (poll cfg round)) s (Left cfg before round) := by
  refine ((keeps_poll hbooks round).and (tracks_on_events (poll cfg round) h)).imp ?_
  rintro r s' ⟨hbooks', htracks⟩
  have hmarks : marks cfg (before ++ [round]) =
      (marks cfg before ++ round.tick.marks) ++ (poll cfg round).map .key := by
    rw [marks_append, Round.marks, List.append_assoc]
  rw [← hmarks] at htracks
  cases r with
  | ok _ => exact ⟨hbooks', htracks, hcalm⟩
  | error _ =>
    refine ⟨?_, .inr htracks⟩
    -- only an operator's END can have raised, and then the block discards
    have hpaced : cfg.operator_paced = true := by
      by_contra hpaced
      obtain ⟨n, hn, -⟩ := htracks
      rw [ends_keyboardless (Bool.eq_false_iff.2 hpaced)] at hn
      exact absurd hn (Nat.not_lt_zero n)
    have hsaves : Saves cfg before ∧ Harmless cfg before round :=
      (saves_append hcalm).1 (.inl hpaced)
    refine ⟨fun _ => hsaves, fun _ => ⟨hbooks'.none_refused, fun hzero => ?_, .inl hpaced⟩⟩
    exact List.length_eq_zero_iff.1 (hbooks'.exact_count.trans hzero)

/-- The step lemma: what one iteration leaves. It goes on with exact books, or it raised and can
still be closed exactly if the rounds so far were harmless. -/
theorem left_turn (hbooks : Books cfg s) (h : Tracks cfg (marks cfg before) s)
    (hroom : s.episodes_done < cfg.num_episodes) :
    Ensures (turn cfg round) s (Left cfg before round) := by
  unfold turn
  cases htick : round.tick with
  | skipped =>
    refine left_poll hbooks ?_ ?_
    · rw [htick]
      show Tracks cfg (marks cfg before ++ []) s
      rw [List.append_nil]
      exact h
    · rw [htick]
      rfl
  -- the frame is handed over, and it is one more of the running episode
  | recorded frame =>
    refine left_poll (hbooks.add_frame hroom frame) ?_ ?_
    · rw [htick, Tick.marks]
      have hends : ends (marks cfg before ++ [.frame]) = ends (marks cfg before) := by
        rw [ends_append, if_neg (by simp), Nat.add_zero]
      refine ⟨?_, ?_, ?_, ?_, ?_⟩
      · rw [accrued_frame, ← h.frames]
        rfl
      · rw [hends]
        exact h.done
      · rw [hends]
        exact h.calls
      · rw [List.mem_append, List.mem_singleton]
        exact h.stop.trans ⟨.inl, fun hmem => hmem.resolve_right (by simp)⟩
      · rw [hends]
        exact h.saved
    · rw [htick]
      rfl
  | raises =>
    refine ⟨?_, .inl (by rw [htick]; rfl)⟩
    unfold Harmless
    rw [htick, and_true]
    exact hbooks.closes_iff h
  -- the frame may have been taken all the same, and then the episode has to have begun
  | add_frame_raises frame taken =>
    refine ⟨?_, .inl (by rw [htick]; rfl)⟩
    unfold Harmless
    rw [htick]
    cases taken with
    | true =>
      refine (h.closes_taken_iff hbooks frame).trans (and_congr_right fun _ => ?_)
      exact ⟨fun hne => ⟨rfl, hne⟩, fun hboth => hboth.2⟩
    | false =>
      refine ⟨fun hc => absurd hc (not_closes_refused frame), ?_⟩
      rintro ⟨-, htaken, -⟩
      exact nomatch htaken

/-- The loop's head lets a round in exactly if the round is reached. -/
theorem Tracks.reached_iff (h : Tracks cfg (marks cfg before) s) (round : Round φ)
    (hbefore : ∀ r ∈ before, r.stop_is_set = false ∧ r.tick.raising = false) :
    Reached cfg before round ↔ ¬ (s.stop_event || round.stop_is_set ||
      decide (cfg.num_episodes ≤ s.episodes_done)) = true := by
  rw [Bool.or_eq_true, Bool.or_eq_true, decide_eq_true_eq, h.stop, h.done]
  constructor
  · rintro hreached ((hstop | hset) | hdone)
    · exact hreached.no_STOP hstop
    · have hunset := hreached.unset round (List.mem_append_right _ (List.mem_singleton_self _))
      exact absurd (hset.symm.trans hunset) (by decide)
    · exact absurd hreached.wanted (Nat.not_lt.2 hdone)
  · intro hgoes
    refine ⟨?_, fun r hr => (hbefore r hr).2, fun hstop => hgoes (.inl (.inl hstop)),
      Nat.lt_of_not_le fun hdone => hgoes (.inr hdone), h.saved⟩
    intro r hr
    rcases List.mem_append.1 hr with hr | hr
    · exact (hbefore r hr).1
    · obtain rfl := List.mem_singleton.1 hr
      exact Bool.eq_false_iff.2 fun hset => hgoes (.inl (.inr hset))

/-- The run lemma: however the loop is left, its state can be closed exactly if the rounds it got
to were harmless. -/
theorem loop_closes_iff (rest : List (Round φ)) :
    ∀ {before : List (Round φ)} {s : CollectionLoop φ}, Books cfg s →
      Tracks cfg (marks cfg before) s →
      (∀ r ∈ before, r.stop_is_set = false ∧ r.tick.raising = false) →
      Ensures (loop cfg rest) s fun _ s' =>
        (Closes cfg s' ↔ Saves cfg before ∧ ClosableFrom cfg before rest) := by
  induction rest with
  | nil =>
    intro before s hbooks h _
    refine (hbooks.closes_iff h).trans ⟨fun hsaves => ⟨hsaves, ?_⟩, fun hc => hc.1⟩
    intro mid round after hsplit
    exact absurd hsplit.symm (List.append_ne_nil_of_right_ne_nil _ (List.cons_ne_nil _ _))
  | cons round rest ih =>
    intro before s hbooks h hbefore
    unfold loop
    rw [ensures_get_bind]
    have hiff := h.reached_iff round hbefore
    -- the head of the loop lets the round through exactly if it is reached
    split
    · rename_i hstops
      have hnot : ¬ Reached cfg before round := fun hreached => hiff.1 hreached hstops
      exact (hbooks.closes_iff h).trans
        ⟨fun hsaves => ⟨hsaves, closableFrom_of_not_reached hnot⟩, fun hc => hc.1⟩
    · rename_i hgoes
      have hreached := hiff.2 hgoes
      have hroom : s.episodes_done < cfg.num_episodes := by
        rw [h.done]
        exact hreached.wanted
      rw [closableFrom_cons]
      refine (left_turn hbooks h hroom).bind ?_ ?_
      · -- the turn returned, and the rest is closed from where it stopped
        rintro _ s' ⟨hbooks', htracks, hcalm⟩
        refine (ih hbooks' htracks ?_).imp fun _ s'' hc => hc.trans ?_
        · intro r hr
          rcases List.mem_append.1 hr with hr | hr
          · exact hbefore r hr
          · obtain rfl := List.mem_singleton.1 hr
            exact ⟨hreached.unset _ (List.mem_append_right _ (List.mem_singleton_self _)), hcalm⟩
        · rw [saves_append hcalm, and_assoc]
          exact and_congr_right fun _ => and_congr_left fun _ =>
            ⟨fun hharmless _ => hharmless, fun hharmless => hharmless hreached⟩
      · -- the turn raised, so no later round is reached
        rintro _ s' ⟨hc, hraised⟩
        refine hc.trans (and_congr_right fun _ => ?_)
        exact ⟨fun hharmless => ⟨fun _ => hharmless, closableFrom_of_raised hraised⟩,
          fun hboth => hboth.1 hreached⟩

end Tracks

/-! ## A whole run -/

/-- What the run leaves behind, whether it returned or raised. -/
def after_run (cfg : Config) (rounds : List (Round φ)) : CollectionLoop φ :=
  (exec (run cfg rounds) CollectionLoop.init).2

/-- What the `finally` block starts from. -/
def before_finally (cfg : Config) (rounds : List (Round φ)) : CollectionLoop φ :=
  (exec (loop cfg rounds) CollectionLoop.init).2

/-- The books are open when the `finally` block is entered, however the loop was left. -/
theorem open_before_finally (cfg : Config) (rounds : List (Round φ)) :
    Open cfg (before_finally cfg rounds) := by
  have h := keeps_loop rounds (books_init (φ := φ) cfg)
  unfold Ensures Kept at h
  unfold before_finally
  generalize exec (loop cfg rounds) CollectionLoop.init = out at h ⊢
  obtain ⟨r, s'⟩ := out
  cases r with
  | ok _ => exact h.toOpen
  | error _ => exact h

theorem tracks_init (cfg : Config) : Tracks cfg [] (CollectionLoop.init : CollectionLoop φ) :=
  ⟨rfl, rfl, rfl, by simp [CollectionLoop.init], fun _ hn => absurd hn (Nat.not_lt_zero _)⟩

/-- The `finally` block can close what the loop leaves exactly if the rounds that the loop gets to
are harmless. -/
theorem before_finally_closes_iff (cfg : Config) (rounds : List (Round φ)) :
    Closes cfg (before_finally cfg rounds) ↔ Closable cfg rounds := by
  have hloop : Ensures (loop cfg rounds) CollectionLoop.init fun _ s' =>
      (Closes cfg s' ↔ Saves cfg ([] : List (Round φ)) ∧ ClosableFrom cfg [] rounds) :=
    loop_closes_iff rounds (books_init cfg) (tracks_init cfg) nofun
  exact hloop.trans ⟨fun hc => hc.2, fun hc => ⟨.inr (.inl rfl), hc⟩⟩

/-- The run closes its books exactly where every round that the loop gets to is harmless: no
`add_frame` raises on a frame that the dataset refused or on the first frame of an episode, and
without an operator a frame is only recorded where the final save returns. -/
theorem run_accounts_iff (cfg : Config) (rounds : List (Round φ)) :
    Accounted cfg (after_run cfg rounds).recorder (after_run cfg rounds).episodes_done ↔
      Closable cfg rounds := by
  rw [← before_finally_closes_iff, ← (open_before_finally cfg rounds).finish_iff]
  have hrun : (Ensures (run cfg rounds) CollectionLoop.init fun _ s' =>
      Accounted cfg s'.recorder s'.episodes_done) ↔
      Ensures (finish cfg) (before_finally cfg rounds) fun _ s' =>
        Accounted cfg s'.recorder s'.episodes_done := by
    unfold run
    rw [ensures_finallyDo]
    unfold Ensures before_finally
    beta_reduce
    cases (exec (finish cfg) (exec (loop cfg rounds) CollectionLoop.init).2).1 with
    | ok _ => rfl
    | error _ => rfl
  exact hrun

/-- A keyboardless run of one recorded frame whose final save raises: the frame is in no
closed episode and `finalize` was not called. -/
theorem run_loses_unsaved_episode :
    ¬ Accounted ⟨false, 1, fun _ => true⟩
      (after_run ⟨false, 1, fun _ => true⟩ [⟨false, .recorded (0 : ℕ), []⟩]).recorder
      (after_run ⟨false, 1, fun _ => true⟩ [⟨false, .recorded (0 : ℕ), []⟩]).episodes_done := by
  intro h
  have hcalls := h.finalized
  exact absurd hcalls (by decide)

end DualFlexivControl.Collection
