/-
The brain's side of one arm's control channels, on a clock.

The brain owns two rings per controlled arm, a latest-wins setpoint mailbox and a
reliable command queue (`brain/brain.py`, `Brain.open_control`). It posts a setpoint
through `StreamWriter.write`, which reads the monotonic clock first and only then calls
`append`: the stamp of a sample is the time just before its append began, and nothing
says how long before.

A brain that dies is a brain that takes no further step. Nothing more needs to be said
about it, because every statement below is about what can have happened so far.

Two facts about the clock carry everything temporal. Stamps never decrease along the
ring and never run ahead of the clock ([`Timed`]); and all but one of the samples whose
append starts after some moment were also stamped after it ([`Late`]) -- the exception is
the one whose stamp had already been taken.
-/
import DualFlexivControl.Streams.Last

set_option autoImplicit false

open Interleave Relation DualFlexivControl.Ring

namespace DualFlexivControl.Brain

variable {α β : Type}

/-! ## The system -/

/-- The ring parameters of one arm's channels. -/
structure ChannelSpecs where
  setpoint : RingSpec
  command : RingSpec

/-- One arm's channels with the brain that writes them: the monotonic clock, a `write`
that has taken its timestamp and not yet called `append`, and the two rings. -/
structure Channels (α β : Type) where
  clock : ℤ
  stamped : Option (List α × ℤ)
  setpoint : Producer α
  command : Producer β

/-- `open_control`: two fresh rings. -/
def Channels.create [Zero α] [Zero β] (clock : ℤ) : Channels α β :=
  ⟨clock, none, .create, .create⟩

/-- What can happen next. -/
inductive Step (R : ChannelSpecs) : Channels α β → Channels α β → Prop where
  /-- Time passes. -/
  | wait {b : Channels α β} (t : ℤ) (ht : b.clock ≤ t) : Step R b { b with clock := t }
  /-- `StreamWriter.write` reads the clock. -/
  | stamp {b : Channels α β} (vec : List α) (hidle : b.stamped = none) :
      Step R b { b with stamped := some (vec, b.clock) }
  /-- The write raises: the vector does not fit the stream. -/
  | abandon {b : Channels α β} : Step R b { b with stamped := none }
  /-- `append` is called with the stamp. -/
  | append {b : Channels α β} {vec : List α} {t : ℤ} {p : Producer α}
      (hstamp : b.stamped = some (vec, t))
      (hp : Producer.step R.setpoint (.append vec t) b.setpoint = some p) :
      Step R b { b with stamped := none, setpoint := p }
  /-- The next store of a setpoint append. -/
  | store {b : Channels α β} {p : Producer α}
      (hp : Producer.step R.setpoint .store b.setpoint = some p) :
      Step R b { b with setpoint := p }
  /-- Anything the brain does to the command ring. -/
  | command {b : Channels α β} {p : Producer β} (hp : Ring.Step R.command b.command p) :
      Step R b { b with command := p }

/-- What a reader of the setpoint ring sees. -/
def view_setpoint (b : Channels α β) : (a : Addr) → Word α a := view b.setpoint

/-- What a reader of the command ring sees. -/
def view_command (b : Channels α β) : (a : Addr) → Word β a := view b.command

/-- The states of one session's channels. -/
def Reachable [Zero α] [Zero β] (R : ChannelSpecs) (b : Channels α β) : Prop :=
  ∃ clock, ReflTransGen (Step R) (Channels.create clock) b

/-! ## Each ring on its own -/

section Projections

variable {R : ChannelSpecs} {b b' : Channels α β}

/-- A step of the channels is at most one step of the setpoint ring's producer. -/
theorem step_setpoint (h : Step R b b') :
    ReflTransGen (Ring.Step R.setpoint) b.setpoint b'.setpoint := by
  cases h with
  | wait t ht => exact .refl
  | stamp vec hidle => exact .refl
  | abandon => exact .refl
  | append hstamp hp => exact .single ⟨_, hp⟩
  | store hp => exact .single ⟨_, hp⟩
  | command hp => exact .refl

/-- And at most one of the command ring's. -/
theorem step_command (h : Step R b b') :
    ReflTransGen (Ring.Step R.command) b.command b'.command := by
  cases h with
  | wait t ht => exact .refl
  | stamp vec hidle => exact .refl
  | abandon => exact .refl
  | append hstamp hp => exact .refl
  | store hp => exact .refl
  | command hp => exact .single hp

/-- A run of the channels is a run of the setpoint ring, with the steps of the other ring left out.
-/
theorem reach_setpoint (h : ReflTransGen (Step R) b b') :
    ReflTransGen (Ring.Step R.setpoint) b.setpoint b'.setpoint := by
  induction h with
  | refl => exact .refl
  | tail _ hs ih => exact ih.trans (step_setpoint hs)

/-- And one of the command ring. -/
theorem reach_command (h : ReflTransGen (Step R) b b') :
    ReflTransGen (Ring.Step R.command) b.command b'.command := by
  induction h with
  | refl => exact .refl
  | tail _ hs ih => exact ih.trans (step_command hs)

/-- A read of the setpoint ring inside the system is a read against its producer. -/
theorem exec_setpoint {T : Type} {p : Reader α T} {r : T}
    (h : Exec (Step R) view_setpoint b p b' r) :
    Exec (Ring.Step R.setpoint) view b.setpoint p b'.setpoint r :=
  h.project Channels.setpoint (fun _ _ hs => step_setpoint hs) fun _ => rfl

/-- The same for the command ring. -/
theorem exec_command {T : Type} {p : Reader β T} {r : T}
    (h : Exec (Step R) view_command b p b' r) :
    Exec (Ring.Step R.command) view b.command p b'.command r :=
  h.project Channels.command (fun _ _ hs => step_command hs) fun _ => rfl

/-- The setpoint ring of a session is a ring that its producer has built up, so what is known of
such rings applies. -/
theorem Reachable.setpoint [Zero α] [Zero β] (h : Reachable R b) :
    Ring.Reachable R.setpoint b.setpoint := by
  obtain ⟨clock, h⟩ := h
  exact reach_setpoint h

/-- So is the command ring. -/
theorem Reachable.command [Zero α] [Zero β] (h : Reachable R b) :
    Ring.Reachable R.command b.command := by
  obtain ⟨clock, h⟩ := h
  exact reach_command h

/-- A session that goes on is a session. -/
theorem Reachable.tail [Zero α] [Zero β] (h : Reachable R b) (hs : ReflTransGen (Step R) b b') :
    Reachable R b' := by
  obtain ⟨clock, h⟩ := h
  exact ⟨clock, h.trans hs⟩

end Projections

/-! ## Time -/

/-- The log after one call of `append`. -/
theorem append_log {R : RingSpec} {vec : List α} {t : ℤ} {p p' : Producer α}
    (h : Producer.step R (.append vec t) p = some p') : p'.log = p.log ++ [(vec, t)] := by
  unfold Producer.step at h
  dsimp only at h
  split at h
  · cases h
    rfl
  · cases h

/-- A store leaves the log alone. -/
theorem store_log {R : RingSpec} {p p' : Producer α}
    (h : Producer.step R .store p = some p') : p'.log = p.log := by
  unfold Producer.step at h
  dsimp only at h
  split at h
  · cases h
  · cases h
    rfl

/-- Stamps are taken from the clock, in order. -/
structure Timed (b : Channels α β) : Prop where
  ordered : b.setpoint.log.Pairwise fun x y => x.2 ≤ y.2
  past : ∀ x ∈ b.setpoint.log, x.2 ≤ b.clock
  next : ∀ vec t, b.stamped = some (vec, t) → t ≤ b.clock ∧ ∀ x ∈ b.setpoint.log, x.2 ≤ t

/-- Fresh rings have no stamps that could be wrong. -/
theorem timed_create [Zero α] [Zero β] (clock : ℤ) :
    Timed (Channels.create clock : Channels α β) := by
  refine ⟨.nil, fun x hx => absurd hx List.not_mem_nil, fun vec t h => ?_⟩
  cases h

/-- Stamps stay in order and behind the clock: a write takes its stamp before it appends, and the
clock does not run backwards. -/
theorem timed_step {R : ChannelSpecs} {b b' : Channels α β} (h : Timed b) (hs : Step R b b') :
    Timed b' := by
  cases hs with
  | wait t ht =>
    refine ⟨h.ordered, fun x hx => (h.past x hx).trans ht, fun vec t' hst => ?_⟩
    obtain ⟨hle, hlog⟩ := h.next vec t' hst
    exact ⟨hle.trans ht, hlog⟩
  | stamp vec hidle =>
    refine ⟨h.ordered, h.past, fun vec' t hst => ?_⟩
    cases hst
    exact ⟨le_rfl, h.past⟩
  | abandon =>
    refine ⟨h.ordered, h.past, fun vec' t hst => ?_⟩
    cases hst
  | @append vec t p hstamp hp =>
    obtain ⟨hle, hlog⟩ := h.next _ _ hstamp
    have hp := append_log hp
    refine ⟨?_, ?_, fun vec' t' hst => ?_⟩
    · -- the new stamp was taken after every stamp in the log
      rw [hp, List.pairwise_append]
      refine ⟨h.ordered, List.pairwise_singleton _ _, fun x hx y hy => ?_⟩
      rw [List.mem_singleton.mp hy]
      exact hlog x hx
    · intro x hx
      rw [hp] at hx
      rcases List.mem_append.mp hx with hx | hx
      · exact h.past x hx
      · rw [List.mem_singleton.mp hx]
        exact hle
    · cases hst
  | store hp =>
    have hp := store_log hp
    refine ⟨?_, ?_, ?_⟩
    · simpa only [hp] using h.ordered
    · simpa only [hp] using h.past
    · simpa only [hp] using h.next
  | command hp => exact ⟨h.ordered, h.past, h.next⟩

/-- The same over a run of steps. -/
theorem timed_reach {R : ChannelSpecs} {b b' : Channels α β} (h : Timed b)
    (hs : ReflTransGen (Step R) b b') : Timed b' := by
  induction hs with
  | refl => exact h
  | tail _ hs ih => exact timed_step ih hs

/-- So in every state of a session the stamps of both rings are in order. -/
theorem timed_of_reachable [Zero α] [Zero β] {R : ChannelSpecs} {b : Channels α β}
    (h : Reachable R b) : Timed b := by
  obtain ⟨clock, h⟩ := h
  exact timed_reach (timed_create clock) h

/-- The clock has not run backwards over any run, since each step leaves it or advances it. -/
theorem clock_le {R : ChannelSpecs} {b b' : Channels α β} (h : ReflTransGen (Step R) b b') :
    b.clock ≤ b'.clock := by
  induction h with
  | refl => exact le_rfl
  | tail _ hs ih =>
    cases hs with
    | wait t ht => exact ih.trans ht
    | stamp vec hidle => exact ih
    | abandon => exact ih
    | append hstamp hp => exact ih
    | store hp => exact ih
    | command hp => exact ih

/-- A later sample has a later stamp. -/
theorem Timed.stamp_le {b : Channels α β} (h : Timed b) {g g' : ℕ} {x y : List α × ℤ}
    (hx : b.setpoint.log[g]? = some x) (hy : b.setpoint.log[g']? = some y) (hle : g ≤ g') :
    x.2 ≤ y.2 := by
  obtain ⟨hg, rfl⟩ := List.getElem?_eq_some_iff.mp hx
  obtain ⟨hg', rfl⟩ := List.getElem?_eq_some_iff.mp hy
  rcases Nat.eq_or_lt_of_le hle with rfl | hlt
  · exact le_rfl
  · exact List.pairwise_iff_getElem.mp h.ordered g g' hg hg' hlt

/-- Since time `T`, when the log had `n` entries: every sample but the first of those
appended since has been stamped since. -/
structure Late (T : ℤ) (n : ℕ) (b : Channels α β) : Prop where
  now : T ≤ b.clock
  length : n ≤ b.setpoint.log.length
  sample : ∀ g x, n < g → b.setpoint.log[g]? = some x → T ≤ x.2
  next : n < b.setpoint.log.length → ∀ vec t, b.stamped = some (vec, t) → T ≤ t

/-- At the moment itself no sample has been added since. -/
theorem late_refl (b : Channels α β) : Late b.clock b.setpoint.log.length b := by
  refine ⟨le_rfl, le_rfl, fun g x hg hx => ?_, fun hlt => ?_⟩
  · have := (List.getElem?_eq_some_iff.mp hx).1
    omega
  · exact absurd hlt (Nat.lt_irrefl _)

/-- A sample that is added later was stamped later, unless its stamp had been taken before already,
which happens once. -/
theorem late_step {R : ChannelSpecs} {T : ℤ} {n : ℕ} {b b' : Channels α β} (h : Late T n b)
    (hs : Step R b b') : Late T n b' := by
  cases hs with
  | wait t ht => exact ⟨h.now.trans ht, h.length, h.sample, h.next⟩
  | stamp vec hidle =>
    refine ⟨h.now, h.length, h.sample, fun _ vec' t hst => ?_⟩
    cases hst
    exact h.now
  | abandon =>
    refine ⟨h.now, h.length, h.sample, fun _ vec' t hst => ?_⟩
    cases hst
  | @append vec t p hstamp hp =>
    have hp := append_log hp
    refine ⟨h.now, ?_, ?_, fun _ vec' t' hst => ?_⟩
    · rw [hp, List.length_append]
      exact h.length.trans (Nat.le_add_right _ _)
    · intro g x hg hx
      rw [hp] at hx
      rcases Nat.lt_or_ge g b.setpoint.log.length with hlt | hge
      · rw [List.getElem?_append_left hlt] at hx
        exact h.sample g x hg hx
      · -- the entry just appended: its stamp is the one that was waiting
        have hlen := (List.getElem?_eq_some_iff.mp hx).1
        rw [List.length_append, List.length_singleton] at hlen
        obtain rfl : g = b.setpoint.log.length := by omega
        rw [List.getElem?_append_right le_rfl, Nat.sub_self] at hx
        cases hx
        exact h.next hg vec t hstamp
    · cases hst
  | store hp =>
    have hp := store_log hp
    refine ⟨h.now, ?_, ?_, ?_⟩
    · simpa only [hp] using h.length
    · simpa only [hp] using h.sample
    · simpa only [hp] using h.next
  | command hp => exact ⟨h.now, h.length, h.sample, h.next⟩

/-- Over a run all samples that were added but one have stamps from within it. -/
theorem late_reach {R : ChannelSpecs} {b b' : Channels α β} (h : ReflTransGen (Step R) b b') :
    Late b.clock b.setpoint.log.length b' := by
  induction h with
  | refl => exact late_refl b
  | tail _ hs ih => exact late_step ih hs

/-! ## Whole posts -/

/-- `Brain.command`: a stamp and then the append, up to and including `stores` stores. -/
theorem reach_post {R : ChannelSpecs} {b : Channels α β} {vec : List α} {p : Producer α}
    {stores : ℕ} (hidle : b.stamped = none)
    (h : runActs (Producer.step R.setpoint) (.append vec b.clock :: List.replicate stores .store)
      b.setpoint = some p) :
    ReflTransGen (Step R) b { b with stamped := none, setpoint := p } := by
  simp only [runActs, Option.bind_eq_some_iff] at h
  obtain ⟨p₀, hp₀, h⟩ := h
  have hstamp : Step R b { b with stamped := some (vec, b.clock) } := .stamp vec hidle
  have happend : Step R { b with stamped := some (vec, b.clock) }
      { b with stamped := none, setpoint := p₀ } := .append rfl hp₀
  refine .head hstamp (.head happend ?_)
  -- the stores, one at a time
  clear hp₀ happend
  induction stores generalizing p₀ with
  | zero =>
    cases h
    exact .refl
  | succ n ih =>
    simp only [List.replicate_succ, runActs, Option.bind_eq_some_iff] at h
    obtain ⟨p₁, hp₁, h⟩ := h
    have hstore : Step R { b with stamped := none, setpoint := p₀ }
        { b with stamped := none, setpoint := p₁ } := .store hp₁
    exact .head hstore (ih p₁ h)

/-- `Brain.send_command` and anything else on the command ring. -/
theorem reach_send {R : ChannelSpecs} {b : Channels α β} {p : Producer β}
    (h : ReflTransGen (Ring.Step R.command) b.command p) :
    ReflTransGen (Step R) b { b with command := p } := by
  induction h with
  | refl => exact .refl
  | tail _ hs ih => exact ih.tail (.command hs)

end DualFlexivControl.Brain
