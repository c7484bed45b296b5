/-
`RateLimiter` of `process.py`, which paces every loop of the system.

Nothing is known of the work between two calls, nor of how long the process is held up in one: a
call has the readings of a clock that only goes forward, of a sleep that may take longer than asked
for, and of a busy wait that ends at the target. Whatever they are, no tick comes early and a tick
that is late is not made up for by a burst ([`ticks_spaced`]); and while the lateness stays within
the slack that the work leaves, the ticks are on the grid of the first one, with an error that does
not add up ([`ticks_on_grid`]).

The times are exact here, rational numbers where the code has doubles: `_next = target + period`
is rounded on every tick there, and over a long loop the grid drifts by these roundings.
-/
import Mathlib.Algebra.Order.Ring.Rat
import Mathlib.Tactic.Linarith
import Mathlib.Tactic.Ring
import DualFlexivControl.Lib.Runs

set_option autoImplicit false

namespace DualFlexivControl.Processes.Pacing

/-! ## The limiter -/

/-- `RateLimiter` -/
structure RateLimiter where
  period : ℚ
  spin_margin : ℚ
  next : Option ℚ

/-- The clock readings of one call of `sleep`: when it is entered, of `reset` where it is called,
before and after `time.sleep`, the one that ends the busy wait, and the last one. -/
structure Readings where
  entered : ℚ
  first : ℚ
  before : ℚ
  woken : ℚ
  spun : ℚ
  now : ℚ

namespace RateLimiter

/-- The constructor; a rate that is not positive is a `ValueError`. -/
def create (hz spin_margin : ℚ) : Except ℚ RateLimiter :=
  if hz ≤ 0 then .error hz else .ok ⟨1 / hz, spin_margin, none⟩

def reset (r : RateLimiter) (now : ℚ) : RateLimiter := { r with next := some (now + r.period) }

variable (r : RateLimiter) (x : Readings)

/-- `target`, after the `reset` of a limiter that has no schedule. -/
def target : ℚ := r.next.getD (x.first + r.period)

/-- What `time.sleep` is called with; zero where it is not called. -/
def nap : ℚ :=
  let remaining := r.target x - x.before
  if r.spin_margin < remaining then remaining - r.spin_margin else 0

/-- `sleep`: the schedule goes on, or starts again from now when it has been overrun. -/
def sleep : RateLimiter :=
  let next := r.target x + r.period
  { r with next := some (if next < x.now then x.now + r.period else next) }

end RateLimiter

/-- A limiter, and the last reading of the clock. -/
structure Pace where
  limiter : RateLimiter
  time : ℚ

def Pace.step (p : Pace) (x : Readings) : Pace := ⟨p.limiter.sleep x, x.now⟩

/-- Readings that a call can have: the clock goes forward, `time.sleep` takes at least what it is
given, and the busy wait does not end before the target. -/
structure Pace.valid (p : Pace) (x : Readings) : Prop where
  entered : p.time ≤ x.entered
  first : x.entered ≤ x.first
  before : x.first ≤ x.before
  woken : x.before + p.limiter.nap x ≤ x.woken
  spun : x.woken ≤ x.spun
  spins : 0 < p.limiter.spin_margin → p.limiter.target x ≤ x.spun
  now : x.spun ≤ x.now

/-! ## One call -/

section Step

variable {p : Pace} {x : Readings} {n : ℚ}

/-- A call does not return before its target. -/
theorem target_le_now (h : p.valid x) : p.limiter.target x ≤ x.now := by
  refine le_trans ?_ h.now
  by_cases hmargin : 0 < p.limiter.spin_margin
  · exact h.spins hmargin
  · refine le_trans ?_ h.spun
    refine le_trans ?_ h.woken
    unfold RateLimiter.nap
    dsimp only
    split <;> linarith

theorem target_of_next (hn : p.limiter.next = some n) : p.limiter.target x = n := by
  rw [RateLimiter.target, hn, Option.getD_some]

/-- The next target is a period away from this one at least, and not yet past. -/
theorem next_step (hperiod : 0 < p.limiter.period) (hn : p.limiter.next = some n) :
    ∃ n', (p.step x).limiter.next = some n' ∧ n + p.limiter.period ≤ n' ∧ x.now ≤ n' := by
  refine ⟨_, rfl, ?_⟩
  rw [target_of_next hn]
  split
  · constructor <;> linarith
  · constructor <;> linarith

end Step

/-! ## Runs -/

section Run

variable {p : Pace} {n : ℚ}

theorem period_run (events : List Readings) :
    (Runs.run Pace.step p events).limiter.period = p.limiter.period := by
  induction events generalizing p with
  | nil => rfl
  | cons x rest ih => exact ih (p := p.step x)

/-- The target moves on by a period with every call. -/
theorem next_run (hperiod : 0 < p.limiter.period) (events : List Readings)
    (hn : p.limiter.next = some n) :
    ∃ n', (Runs.run Pace.step p events).limiter.next = some n' ∧
      n + events.length * p.limiter.period ≤ n' := by
  induction events generalizing p n with
  | nil => exact ⟨n, hn, by simp⟩
  | cons x rest ih =>
    obtain ⟨n₁, hn₁, hle, -⟩ := next_step (x := x) hperiod hn
    obtain ⟨n₂, hn₂, hle₂⟩ := ih (p := p.step x) hperiod hn₁
    refine ⟨n₂, hn₂, ?_⟩
    have hsame : (p.step x).limiter.period = p.limiter.period := rfl
    rw [hsame] at hle₂
    rw [List.length_cons, Nat.cast_add, Nat.cast_one]
    linarith

end Run

section Loop

variable {hz margin t : ℚ} {r : RateLimiter}

theorem create_ok (h : RateLimiter.create hz margin = .ok r) : 0 < hz ∧ r.period = 1 / hz := by
  unfold RateLimiter.create at h
  split at h
  · exact absurd h (by simp)
  · rw [← Except.ok.inj h]
    exact ⟨lt_of_not_ge ‹_›, rfl⟩

theorem period_pos (h : RateLimiter.create hz margin = .ok r) : 0 < r.period := by
  obtain ⟨hhz, hperiod⟩ := create_ok h
  rw [hperiod]
  exact one_div_pos.2 hhz

/-- In every run of a loop from the `reset` before it, whatever the work and the delays, and in exact
arithmetic: the `k`-th tick does not come before `k` periods, and between two ticks with `m` others
between them there are at least `m` periods. -/
theorem ticks_spaced (hr : RateLimiter.create hz margin = .ok r) {before mid after : List Readings}
    {a b : Readings}
    (h : Runs.Valid Pace.step Pace.valid ⟨r.reset t, t⟩ (before ++ a :: (mid ++ b :: after))) :
    t + (before.length + 1) / hz ≤ a.now ∧ mid.length / hz ≤ b.now - a.now := by
  have hpos := period_pos hr
  have hperiod : 0 < (r.reset t).period := hpos
  have ha := h.at_event
  -- the target of `a`, and the one after it
  obtain ⟨n, hn, hle⟩ := next_run (p := ⟨r.reset t, t⟩) hperiod before rfl
  have hperiod' := period_run (p := ⟨r.reset t, t⟩) before
  have hfirst := target_le_now ha
  rw [target_of_next hn] at hfirst
  obtain ⟨n₁, hn₁, -, hnow⟩ := next_step (x := a) (hperiod'.symm ▸ hperiod) hn
  -- and the target of `b`
  obtain ⟨hb, -⟩ := (h.right before).2.right mid
  obtain ⟨n₂, hn₂, hle₂⟩ := next_run (hperiod'.symm ▸ hperiod) mid hn₁
  have hsecond := target_le_now hb
  rw [target_of_next hn₂] at hsecond
  have hsame : ((Runs.run Pace.step ⟨r.reset t, t⟩ before).step a).limiter.period = r.period :=
    hperiod'
  have hle : t + r.period + before.length * r.period ≤ n := hle
  rw [hsame] at hle₂
  rw [div_eq_mul_one_div, div_eq_mul_one_div (mid.length : ℚ), ← (create_ok hr).2]
  constructor <;> linarith

/-- The load is light enough: the work between two calls leaves a slack in the period, and a call
is held up by no more than that slack, past its target or past the moment it was entered. -/
structure Light (slack : ℚ) (p : Pace) (x : Readings) : Prop where
  valid : p.valid x
  work : x.entered + slack ≤ p.time + p.limiter.period
  held_up : x.now ≤ max x.entered (p.limiter.target x) + slack

/-- The state after `k` calls of a loop under a light load. -/
structure OnGrid (r : RateLimiter) (t slack : ℚ) (k : ℕ) (p : Pace) : Prop where
  period : p.limiter.period = r.period
  next : p.limiter.next = some (t + (k + 1) * r.period)
  time : p.time ≤ t + k * r.period + slack

theorem OnGrid.now_le {slack : ℚ} {k : ℕ} {p : Pace} {x : Readings} (h : OnGrid r t slack k p)
    (hx : Light slack p x) : x.now ≤ t + (k + 1) * r.period + slack := by
  have hheld := hx.held_up
  have hwork := hx.work
  have htime := h.time
  rw [h.period] at hwork
  rw [target_of_next h.next] at hheld
  -- the call is entered before its target
  rw [max_eq_right (by linarith)] at hheld
  exact hheld

theorem OnGrid.step {slack : ℚ} {k : ℕ} {p : Pace} {x : Readings} (h : OnGrid r t slack k p)
    (hx : Light slack p x) : OnGrid r t slack (k + 1) (p.step x) := by
  have hnow := h.now_le hx
  have hwork := hx.work
  have hentered := hx.valid.entered
  rw [h.period] at hwork
  refine ⟨h.period, ?_, ?_⟩
  · change some _ = _
    rw [target_of_next h.next, h.period, if_neg (by linarith)]
    push_cast
    ring_nf
  · push_cast
    exact hnow

theorem onGrid_run {slack : ℚ} (events : List Readings) :
    ∀ {k : ℕ} {p : Pace}, OnGrid r t slack k p → Runs.Valid Pace.step (Light slack) p events →
      OnGrid r t slack (k + events.length) (Runs.run Pace.step p events) := by
  induction events with
  | nil => exact fun h _ => h
  | cons x rest ih =>
    intro k p h hvalid
    have hrest := ih (h.step hvalid.1) hvalid.2
    rw [Nat.add_right_comm] at hrest
    exact hrest

/-- Under a light load, in exact arithmetic, the ticks keep to the grid of the first one: the `k`-th
comes after `k` periods, and late by the slack at most, however long the loop runs. -/
theorem ticks_on_grid (hr : RateLimiter.create hz margin = .ok r) {slack : ℚ} (hslack : 0 ≤ slack)
    {before after : List Readings} {a : Readings}
    (h : Runs.Valid Pace.step (Light slack) ⟨r.reset t, t⟩ (before ++ a :: after)) :
    t + (before.length + 1) / hz ≤ a.now ∧ a.now ≤ t + (before.length + 1) / hz + slack := by
  have hstart : OnGrid r t slack 0 ⟨r.reset t, t⟩ := by
    refine ⟨rfl, ?_, ?_⟩
    · change some _ = _
      rw [Nat.cast_zero, zero_add, one_mul]
    · rw [Nat.cast_zero, zero_mul, add_zero]
      linarith
  have hgrid := onGrid_run before hstart h.left
  have ha := h.at_event
  have hlow := target_le_now ha.valid
  have hhigh := hgrid.now_le ha
  rw [target_of_next hgrid.next] at hlow
  rw [Nat.zero_add] at hlow hhigh
  rw [div_eq_mul_one_div, ← (create_ok hr).2]
  exact ⟨hlow, hhigh⟩

end Loop

/-- Ten ticks a second, the first of them late by a fifth of a period. -/
def late_tick : Readings := ⟨1 / 20, 1 / 20, 1 / 20, 3 / 25, 3 / 25, 3 / 25⟩

def next_tick : Readings := ⟨3 / 20, 3 / 20, 3 / 20, 1 / 5, 1 / 5, 1 / 5⟩

def ten_hertz : RateLimiter := ⟨1 / 10, 0, none⟩

theorem ten_hertz_create : RateLimiter.create 10 0 = .ok ten_hertz := by
  unfold RateLimiter.create ten_hertz
  rw [if_neg (by norm_num)]

theorem late_tick_valid : Runs.Valid Pace.step Pace.valid ⟨ten_hertz.reset 0, 0⟩
    ([] ++ late_tick :: ([] ++ next_tick :: [])) := by
  refine ⟨⟨?_, ?_, ?_, ?_, ?_, ?_, ?_⟩, ⟨?_, ?_, ?_, ?_, ?_, ?_, ?_⟩, trivial⟩ <;>
    norm_num [late_tick, next_tick, ten_hertz, Pace.step, RateLimiter.reset, RateLimiter.nap,
      RateLimiter.target, RateLimiter.sleep]

/-- The tick after a late one is not a period behind it, but it is not before its own time. -/
theorem late_tick_spaced : (0 : ℚ) + ((([] : List Readings).length : ℚ) + 1) / 10 ≤ 3 / 25 ∧
    (([] : List Readings).length : ℚ) / 10 ≤ 1 / 5 - 3 / 25 :=
  ticks_spaced ten_hertz_create late_tick_valid

theorem late_tick_light : Runs.Valid Pace.step (Light (1 / 20)) ⟨ten_hertz.reset 0, 0⟩
    ([late_tick] ++ next_tick :: []) := by
  obtain ⟨hlate, hnext, -⟩ := late_tick_valid
  refine ⟨⟨hlate, ?_, ?_⟩, ⟨hnext, ?_, ?_⟩, trivial⟩ <;>
    norm_num [late_tick, next_tick, ten_hertz, Pace.step, RateLimiter.reset,
      RateLimiter.target, RateLimiter.sleep]

/-- Both ticks are within half a period of the grid. -/
theorem late_tick_on_grid : (0 : ℚ) + ((([late_tick].length : ℕ) : ℚ) + 1) / 10 ≤ 1 / 5 ∧
    (1 / 5 : ℚ) ≤ 0 + ((([late_tick].length : ℕ) : ℚ) + 1) / 10 + 1 / 20 :=
  ticks_on_grid ten_hertz_create (by norm_num) late_tick_light

end DualFlexivControl.Processes.Pacing
