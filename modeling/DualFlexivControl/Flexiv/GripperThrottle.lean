/-
The two throttles in front of a gripper: `send_gripper` of `interfaces/flexiv/source.py` and
`GripperWorker::Run` of the native controller.

Both keep the last value they sent and when, and leave out a value that comes too early or is too
close to the last one. The Python one looks at neither before its first move, by a `None`; the
native one has a time of zero instead, which every clock reading of at least one period is far
enough from. So the two states are not the same, but related ([`Related`]), and from a first
reading of at least one period on every step keeps them so ([`step_related`]).

A `Move` may fail: Python's session then drops the gripper, and the native worker's thread ends.
Both gave up with the same moves. What a run has sent is spaced in time and in value, whichever
of the two sent it ([`throttles_agree`]).

Settings and values are doubles, and both controllers compute with them in the same order, so the
rounding is the same too. It shows in two places: two values can be nearer than the deadband when
their difference is not a double, and the width of a closed gripper is
`open + (closed - open)`, which need not be the closed width again
([`rounding_leaves_bounds`]).
-/
import Mathlib.Algebra.Order.Floor.Ring
import Mathlib.Algebra.Order.Ring.Rat
import DualFlexivControl.Lib.FloatFormat

set_option autoImplicit false

namespace DualFlexivControl.Flexiv.GripperThrottle

/-! ## Doubles -/

/-- A result of double arithmetic. -/
def fl : Ieee → Ieee := Ieee.Format.double.rounding.fl

/-- The double nearest to a number, for results that cannot overflow. -/
def double (x : ℚ) : ℚ := Ieee.Format.double.nearest x

/-- `abs(a - b)` of finite doubles. -/
def distance (a b : ℚ) : Ieee := (fl (.fin a - .fin b)).abs

/-! ## Settings -/

/-- `GripperCfg`, as far as an enabled gripper uses it. -/
structure GripperCfg where
  open_width : Option ℚ
  closed_width : Option ℚ
  velocity : ℚ
  force : ℚ
  move_rate_hz : ℚ
  deadband : ℚ

/-- `GripperParams`: what the device reports. -/
structure GripperParams where
  min_width : ℚ
  max_width : ℚ
  min_vel : ℚ
  max_vel : ℚ
  min_force : ℚ
  max_force : ℚ

/-- What a controller caches. -/
structure Settings where
  open_width : ℚ
  closed_width : ℚ
  velocity : ℚ
  force : ℚ
  min_period_ns : ℤ
  deadband : ℚ
  deriving DecidableEq

/-- `np.clip` -/
def clip (v lo hi : ℚ) : ℚ := min (max v lo) hi

/-- `std::clamp` -/
def clamp (v lo hi : ℚ) : ℚ := if v < lo then lo else if hi < v then hi else v

/-- `int(x)`, and `static_cast<std::int64_t>(x)` -/
def trunc (x : ℚ) : ℤ := if 0 ≤ x then ⌊x⌋ else ⌈x⌉

/-- The time between two moves: `1e9 / max(1e-3, rate)`, at most 10¹² ns. -/
def min_period (rate : ℚ) : ℤ := trunc (double (1000000000 / max (double (1 / 1000)) rate))

/-- `FlexivSource.setup_gripper`, of a gripper that answers. -/
def setup_gripper (cfg : GripperCfg) (params : GripperParams) : Settings where
  open_width := cfg.open_width.getD params.max_width
  closed_width := cfg.closed_width.getD params.min_width
  velocity := clip cfg.velocity params.min_vel params.max_vel
  force := clip cfg.force params.min_force params.max_force
  min_period_ns := min_period cfg.move_rate_hz
  deadband := cfg.deadband

/-- The constructor of `GripperWorker`, with the arguments that `native_rt.py` gives it. -/
def gripper_worker (cfg : GripperCfg) (params : GripperParams) : Settings where
  open_width := cfg.open_width.getD params.max_width
  closed_width := cfg.closed_width.getD params.min_width
  velocity := clamp cfg.velocity params.min_vel params.max_vel
  force := clamp cfg.force params.min_force params.max_force
  min_period_ns := min_period cfg.move_rate_hz
  deadband := cfg.deadband

theorem trunc_nonneg {x : ℚ} (h : 0 ≤ x) : 0 ≤ trunc x := by
  rw [trunc, if_pos h]
  exact Int.floor_nonneg.2 h

theorem trunc_le_of_le {x y : ℚ} (hx : 0 ≤ x) (h : x ≤ y) : trunc x ≤ trunc y := by
  rw [trunc, trunc, if_pos hx, if_pos (hx.trans h)]
  exact Int.floor_mono h

/-- Whatever the rate, the time between two moves is between none and a thousand seconds, so both
casts are defined. -/
theorem min_period_bounds (rate : ℚ) :
    0 ≤ min_period rate ∧ min_period rate ≤ 1000000000000 := by
  have hslowest : 0 < double (1 / 1000) := by decide +kernel
  have hle : double (1 / 1000) ≤ max (double (1 / 1000)) rate := le_max_left _ _
  have hquotient : (1000000000 : ℚ) / max (double (1 / 1000)) rate ≤
      1000000000 / double (1 / 1000) := div_le_div_of_nonneg_left (by norm_num) hslowest hle
  have hrounded : 0 ≤ double (1000000000 / max (double (1 / 1000)) rate) :=
    Ieee.Format.double.nearest_nonneg (div_nonneg (by norm_num) (hslowest.le.trans hle))
  refine ⟨trunc_nonneg hrounded, ?_⟩
  calc min_period rate ≤ trunc (double (1000000000 / double (1 / 1000))) :=
        trunc_le_of_le hrounded (Ieee.Format.double.nearest_mono hquotient)
    _ = 1000000000000 := by decide +kernel

/-! ## The two controllers -/

/-- A clock reading with the newest normalized target. -/
structure Input where
  now : ℤ
  value : ℚ

/-- A call of `Move`, and the normalized value it is for. -/
structure Sent where
  time : ℤ
  value : ℚ
  width : Ieee
  velocity : ℚ
  force : ℚ
  deriving DecidableEq

/-- What each controller keeps, and whether it still has a gripper. -/
structure PythonState where
  last_val : Option ℚ
  last_send_ns : ℤ
  gripper : Bool

structure NativeState where
  last_value : Option ℚ
  last_send_ns : ℤ
  running : Bool

def PythonState.initial : PythonState := ⟨none, 0, true⟩

def NativeState.initial : NativeState := ⟨none, 0, true⟩

section Steps

variable (g : Settings) (moves : Sent → Bool)

/-- The width of a value: `open + value * (closed - open)`, every result rounded. -/
def Settings.width (g : Settings) (value : ℚ) : Ieee :=
  fl (.fin g.open_width + fl (.fin value * fl (.fin g.closed_width - .fin g.open_width)))

/-- The `Move` for a value. -/
def Settings.sent (g : Settings) (now : ℤ) (value : ℚ) : Sent :=
  ⟨now, value, g.width value, g.velocity, g.force⟩

/-- The end of `send_gripper`, and what its caller does when `Move` fails: the gripper is dropped.
`moves` is whether a `Move` returns. -/
def PythonState.drive (s : PythonState) (now : ℤ) (value : ℚ) : PythonState × Option Sent :=
  if moves (g.sent now value) then
    ({ s with last_val := some value, last_send_ns := now }, some (g.sent now value))
  else ({ s with gripper := false }, some (g.sent now value))

/-- `send_gripper` -/
def send_gripper (s : PythonState) (input : Input) : PythonState × Option Sent :=
  if s.gripper = false then (s, none)
  else
    let value := clip input.value 0 1
    match s.last_val with
    | none => s.drive g moves input.now value
    | some last =>
      if input.now - s.last_send_ns < g.min_period_ns then (s, none)
      else if (distance value last).lt (.fin g.deadband) then (s, none)
      else s.drive g moves input.now value

/-- The `try` of `GripperWorker::Run`. -/
def NativeState.drive (s : NativeState) (now : ℤ) (value : ℚ) : NativeState × Option Sent :=
  if moves (g.sent now value) then
    ({ s with last_value := some value, last_send_ns := now }, some (g.sent now value))
  else ({ s with running := false }, some (g.sent now value))

/-- One iteration of `GripperWorker::Run` that finds a sample. -/
def run_iteration (s : NativeState) (input : Input) : NativeState × Option Sent :=
  if s.running = false then (s, none)
  else if g.min_period_ns ≤ input.now - s.last_send_ns then
    let value := clamp input.value 0 1
    if s.last_value.all (fun last => Ieee.le (.fin g.deadband) (distance value last)) then
      s.drive g moves input.now value
    else (s, none)
  else (s, none)

end Steps

/-- What a controller sends over a sequence of inputs. -/
def run {σ : Type} (step : σ → Input → σ × Option Sent) : σ → List Input → List Sent
  | _, [] => []
  | s, input :: rest => (step s input).2.toList ++ run step (step s input).1 rest

/-! ## The same settings -/

theorem clip_eq_clamp {v lo hi : ℚ} (h : lo ≤ hi) : clip v lo hi = clamp v lo hi := by
  unfold clip clamp
  by_cases hlo : v < lo
  · rw [if_pos hlo, max_eq_right hlo.le, min_eq_left h]
  · rw [if_neg hlo, max_eq_left (not_lt.1 hlo)]
    by_cases hhi : hi < v
    · rw [if_pos hhi, min_eq_right hhi.le]
    · rw [if_neg hhi, min_eq_left (not_lt.1 hhi)]

theorem clip_mem (v : ℚ) : 0 ≤ clip v 0 1 ∧ clip v 0 1 ≤ 1 :=
  ⟨le_min (le_max_right _ _) zero_le_one, min_le_right _ _⟩

/-- For a device whose limits are in order the two controllers cache the same. -/
theorem setup_gripper_eq (cfg : GripperCfg) {params : GripperParams}
    (hvel : params.min_vel ≤ params.max_vel) (hforce : params.min_force ≤ params.max_force) :
    setup_gripper cfg params = gripper_worker cfg params := by
  unfold setup_gripper gripper_worker
  rw [clip_eq_clamp hvel, clip_eq_clamp hforce]

/-! ## A step of each -/

/-- Settings that differ in velocity and force at most. -/
structure Settings.Agree (g g' : Settings) : Prop where
  open_width : g.open_width = g'.open_width
  closed_width : g.closed_width = g'.closed_width
  min_period_ns : g.min_period_ns = g'.min_period_ns
  deadband : g.deadband = g'.deadband

/-- The states of the two after the same inputs. -/
structure Related (s : PythonState) (s' : NativeState) : Prop where
  alive : s.gripper = s'.running
  value : s.last_val = s'.last_value
  time : s.last_val ≠ none → s.last_send_ns = s'.last_send_ns
  unsent : s.last_val = none → s'.last_send_ns = 0

/-- When and how wide. -/
def Sent.key (sent : Sent) : ℤ × ℚ × Ieee := (sent.time, sent.value, sent.width)

/-- The tests of the two controllers are each other's negation: no difference is a NaN. -/
theorem le_distance_iff (deadband a b : ℚ) :
    Ieee.le (.fin deadband) (distance a b) = true ↔
      ¬ (distance a b).lt (.fin deadband) = true := by
  have hnan : (distance a b).isNaN = false := by
    rw [distance, Ieee.isNaN_abs, Ieee.fin_sub]
    exact Ieee.Format.double.rounding.isNaN_round (a - b)
  rw [Bool.not_eq_true, Ieee.not_lt_iff_place hnan rfl, Ieee.le_iff_place rfl hnan]

/-- What a call of `send_gripper` can do: nothing, or a move that keeps its distance. -/
theorem send_gripper_cases (g : Settings) (moves : Sent → Bool) (s : PythonState)
    (input : Input) :
    (send_gripper g moves s input = (s, none) ∧ (s.gripper = false ∨ s.last_val ≠ none)) ∨
    (send_gripper g moves s input = s.drive g moves input.now (clip input.value 0 1) ∧
      ∀ last, s.last_val = some last → g.min_period_ns ≤ input.now - s.last_send_ns ∧
        .fin g.deadband ≤ distance (clip input.value 0 1) last) := by
  unfold send_gripper
  by_cases hdropped : s.gripper = false
  · rw [if_pos hdropped]
    exact Or.inl ⟨rfl, Or.inl hdropped⟩
  rw [if_neg hdropped]
  -- without a last value the two tests are skipped
  cases hlast : s.last_val with
  | none => exact Or.inr ⟨rfl, fun last hsome => nomatch hsome⟩
  | some last =>
    dsimp only
    by_cases hearly : input.now - s.last_send_ns < g.min_period_ns
    · rw [if_pos hearly]
      exact Or.inl ⟨rfl, Or.inr (Option.some_ne_none last)⟩
    by_cases hclose : (distance (clip input.value 0 1) last).lt (.fin g.deadband) = true
    · rw [if_neg hearly, if_pos hclose]
      exact Or.inl ⟨rfl, Or.inr (Option.some_ne_none last)⟩
    · rw [if_neg hearly, if_neg hclose]
      refine Or.inr ⟨rfl, fun other hsome => ?_⟩
      obtain rfl := Option.some.inj hsome
      exact ⟨not_lt.1 hearly, (le_distance_iff _ _ _).2 hclose⟩

/-- A move is recorded, or the gripper is dropped: after an exception of the driver no further move
is made. -/
theorem drive_cases (g : Settings) (moves : Sent → Bool) (s : PythonState) (now : ℤ) (value : ℚ) :
    (s.drive g moves now value).2 = some (g.sent now value) ∧
      ((s.drive g moves now value).1.gripper = false ∨
        ((s.drive g moves now value).1.last_val = some value ∧
          (s.drive g moves now value).1.last_send_ns = now)) := by
  unfold PythonState.drive
  by_cases hmoves : moves (g.sent now value) = true
  · rw [if_pos hmoves]
    exact ⟨rfl, Or.inr ⟨rfl, rfl⟩⟩
  · rw [if_neg hmoves]
    exact ⟨rfl, Or.inl rfl⟩

/-- A session that has had an input and made no move has no gripper. -/
theorem unsent_dropped {g : Settings} {moves : Sent → Bool} {s : PythonState} {input : Input}
    (h : (send_gripper g moves s input).1.last_val = none) :
    (send_gripper g moves s input).1.gripper = false := by
  -- an input that sent nothing found a last value, and one that moved recorded its own
  rcases send_gripper_cases g moves s input with ⟨hskip, hstarted⟩ | ⟨hdrive, _⟩
  · rw [hskip] at h ⊢
    exact hstarted.resolve_right (fun hcon => hcon h)
  · rw [hdrive] at h ⊢
    rcases (drive_cases g moves s input.now (clip input.value 0 1)).2 with hdropped | ⟨hvalue, _⟩
    · exact hdropped
    · rw [hvalue] at h
      cases h

section Refinement

variable {g g' : Settings} {moves moves' : Sent → Bool}
variable (hg : g.Agree g')
  (hmoves : ∀ now value, moves (g.sent now value) = moves' (g'.sent now value))

include hg hmoves

theorem drive_related {s : PythonState} {s' : NativeState} (h : Related s s') (now : ℤ)
    (value : ℚ) :
    Related (s.drive g moves now value).1 (s'.drive g' moves' now value).1 ∧
      (s.drive g moves now value).2.map Sent.key =
        (s'.drive g' moves' now value).2.map Sent.key := by
  have hkey : (g.sent now value).key = (g'.sent now value).key := by
    simp only [Sent.key, Settings.sent, Settings.width, hg.open_width, hg.closed_width]
  unfold PythonState.drive NativeState.drive
  rw [← hmoves now value]
  cases moves (g.sent now value)
  · exact ⟨⟨rfl, h.value, h.time, h.unsent⟩, congrArg some hkey⟩
  · exact ⟨⟨h.alive, rfl, fun _ => rfl, fun hnone => nomatch hnone⟩, congrArg some hkey⟩

/-- A step keeps the states related, and both move or neither does. -/
theorem step_related {s : PythonState} {s' : NativeState} (h : Related s s') {input : Input}
    (hfirst : s.last_val = none → s.gripper = true → g.min_period_ns ≤ input.now) :
    Related (send_gripper g moves s input).1 (run_iteration g' moves' s' input).1 ∧
      (send_gripper g moves s input).2.map Sent.key =
        (run_iteration g' moves' s' input).2.map Sent.key := by
  have hdrive := drive_related hg hmoves h input.now (clip input.value 0 1)
  have hclamp : clamp input.value 0 1 = clip input.value 0 1 :=
    (clip_eq_clamp zero_le_one).symm
  unfold send_gripper run_iteration
  rw [← hg.min_period_ns, ← hg.deadband, ← h.alive, ← h.value, hclamp]
  by_cases hdropped : s.gripper = false
  · rw [if_pos hdropped, if_pos hdropped]
    exact ⟨h, rfl⟩
  rw [if_neg hdropped, if_neg hdropped]
  cases hlast : s.last_val with
  | none =>
    -- the native worker's time of zero is as good as no time
    have hearly : g.min_period_ns ≤ input.now - s'.last_send_ns := by
      rw [h.unsent hlast, sub_zero]
      exact hfirst hlast (by simpa using hdropped)
    rw [if_pos hearly]
    exact hdrive
  | some last =>
    have hsame : s.last_send_ns = s'.last_send_ns :=
      h.time (by rw [hlast]; exact Option.some_ne_none last)
    rw [hsame]
    by_cases hearly : input.now - s'.last_send_ns < g.min_period_ns
    · rw [if_neg (not_le.2 hearly)]
      dsimp only
      rw [if_pos hearly]
      exact ⟨h, rfl⟩
    rw [if_pos (not_lt.1 hearly)]
    dsimp only
    rw [if_neg hearly]
    have hall : (some last).all (fun last =>
        Ieee.le (.fin g.deadband) (distance (clip input.value 0 1) last)) = true ↔
          ¬ (distance (clip input.value 0 1) last).lt (.fin g.deadband) = true :=
      le_distance_iff g.deadband (clip input.value 0 1) last
    by_cases hclose : (distance (clip input.value 0 1) last).lt (.fin g.deadband) = true
    · rw [if_pos hclose, if_neg fun hfar => hall.1 hfar hclose]
      exact ⟨h, rfl⟩
    · rw [if_neg hclose, if_pos (hall.2 hclose)]
      exact hdrive

/-- So they send the same over every sequence whose readings are at least one period. -/
theorem run_related {inputs : List Input} {s : PythonState} {s' : NativeState} (h : Related s s')
    (hfirst : s.last_val = none → s.gripper = true →
      ∀ input ∈ inputs.head?, g.min_period_ns ≤ input.now) :
    (run (send_gripper g moves) s inputs).map Sent.key =
      (run (run_iteration g' moves') s' inputs).map Sent.key := by
  induction inputs generalizing s s' with
  | nil => rfl
  | cons input rest ih =>
    have hnow : s.last_val = none → s.gripper = true → g.min_period_ns ≤ input.now :=
      fun hlast halive => hfirst hlast halive input rfl
    -- only the first reading is bounded: after it there is a last value, or no gripper
    obtain ⟨hrelated, hsent⟩ := step_related hg hmoves h hnow
    have hrest := ih hrelated fun hlast halive => by
      rw [unsent_dropped hlast] at halive
      cases halive
    have hlist : (send_gripper g moves s input).2.toList.map Sent.key =
        (run_iteration g' moves' s' input).2.toList.map Sent.key := by
      rw [← Option.toList_map, ← Option.toList_map, hsent]
    rw [run, run, List.map_append, List.map_append, hlist, hrest]

end Refinement

theorem related_initial : Related PythonState.initial NativeState.initial :=
  ⟨rfl, rfl, fun _ => rfl, fun _ => rfl⟩

/-! ## What is sent -/

section Sent

variable {g : Settings} {moves : Sent → Bool}

/-- Far enough from the one before, in time and, as the controllers subtract, in value. -/
def Spaced (g : Settings) (a b : Sent) : Prop :=
  a.time + g.min_period_ns ≤ b.time ∧ .fin g.deadband ≤ distance b.value a.value

/-- A move is for a value in `[0, 1]`, as the value of the mailbox is clamped before anything else
is done with it. -/
theorem sent_of_mem {inputs : List Input} {s : PythonState} {sent : Sent}
    (h : sent ∈ run (send_gripper g moves) s inputs) :
    ∃ now value, sent = g.sent now value ∧ 0 ≤ value ∧ value ≤ 1 := by
  induction inputs generalizing s with
  | nil => cases h
  | cons input rest ih =>
    rw [run, List.mem_append, Option.mem_toList] at h
    rcases h with hfirst | hrest
    · rcases send_gripper_cases g moves s input with ⟨hskip, _⟩ | ⟨hdrive, _⟩
      · rw [hskip] at hfirst
        cases hfirst
      · rw [hdrive, (drive_cases g moves s _ _).1] at hfirst
        obtain rfl := Option.some.inj hfirst
        exact ⟨_, _, rfl, clip_mem input.value⟩
    · exact ih hrest

/-- The two widths are doubles that the format can subtract. -/
structure Settings.Fits (g : Settings) : Prop where
  open_width : fl (.fin g.open_width) = .fin g.open_width
  span : ∃ d, fl (.fin g.closed_width - .fin g.open_width) = .fin d

/-- So its width lies between the open one and that of a closed gripper, whichever is the larger:
each operation is monotone in the value, and rounding is monotone. -/
theorem width_mem (h : g.Fits) {value : ℚ} (hlo : 0 ≤ value) (hhi : value ≤ 1) :
    (.fin g.open_width ≤ g.width value ∧ g.width value ≤ g.width 1) ∨
      (g.width 1 ≤ g.width value ∧ g.width value ≤ .fin g.open_width) := by
  obtain ⟨d, hd⟩ := h.span
  have hmono : ∀ {x y : Ieee}, x ≤ y → fl x ≤ fl y := Ieee.Format.double.rounding.fl_mono
  have hzero : fl (.fin 0) = .fin 0 := Ieee.Format.double.rounding.zero
  -- the value scales the span, and what it gives is added to a finite number
  have hscaled : ∀ {v w : ℚ}, v * d ≤ w * d → g.width v ≤ g.width w := by
    intro v w hvw
    unfold Settings.width
    rw [hd]
    have hproduct : fl (.fin v * .fin d) ≤ fl (.fin w * .fin d) := hmono (decide_eq_true hvw)
    exact hmono (Ieee.fin_add_le_fin_add g.open_width hproduct)
  have hopen : g.width 0 = .fin g.open_width := by
    unfold Settings.width
    rw [hd, Ieee.fin_mul, zero_mul, hzero, Ieee.fin_add, add_zero, h.open_width]
  rcases le_total 0 d with hpos | hneg
  · left
    constructor
    · rw [← hopen]
      exact hscaled (mul_le_mul_of_nonneg_right hlo hpos)
    · exact hscaled (mul_le_mul_of_nonneg_right hhi hpos)
  · right
    constructor
    · exact hscaled (mul_le_mul_of_nonpos_right hhi hneg)
    · rw [← hopen]
      exact hscaled (mul_le_mul_of_nonpos_right hlo hneg)

theorem run_dropped {s : PythonState} (h : s.gripper = false) (inputs : List Input) :
    run (send_gripper g moves) s inputs = [] := by
  induction inputs with
  | nil => rfl
  | cons input rest ih =>
    have hskip : send_gripper g moves s input = (s, none) := if_pos h
    rw [run, hskip, ih]
    rfl

/-- After a move the others keep their distance, in time and in value, by induction on the ticks. -/
theorem chain_run {inputs : List Input} {s : PythonState} {last : Sent}
    (hvalue : s.last_val = some last.value) (htime : s.last_send_ns = last.time) :
    (last :: run (send_gripper g moves) s inputs).IsChain (Spaced g) := by
  induction inputs generalizing s last with
  | nil => exact List.isChain_singleton last
  | cons input rest ih =>
    -- a skipped input changes nothing, and a move is measured against the last one
    rcases send_gripper_cases g moves s input with ⟨hskip, _⟩ | ⟨hdrive, hdistance⟩
    · rw [run, hskip]
      exact ih hvalue htime
    · obtain ⟨hearly, hclose⟩ := hdistance last.value hvalue
      obtain ⟨hsent, hnext⟩ := drive_cases g moves s input.now (clip input.value 0 1)
      rw [run, hdrive, hsent]
      refine List.IsChain.cons_cons ⟨?_, hclose⟩ ?_
      · show last.time + g.min_period_ns ≤ input.now
        omega
      · rcases hnext with hdropped | ⟨hnew, hnow⟩
        · rw [run_dropped hdropped]
          exact List.isChain_singleton _
        · exact ih hnew hnow

/-- From the start: the first input moves, and then each move keeps its distance. -/
theorem run_initial (input : Input) (rest : List Input) :
    (run (send_gripper g moves) .initial (input :: rest)).head? =
        some (g.sent input.now (clip input.value 0 1)) ∧
      (run (send_gripper g moves) .initial (input :: rest)).IsChain (Spaced g) := by
  have hfirst : send_gripper g moves .initial input =
      PythonState.initial.drive g moves input.now (clip input.value 0 1) := rfl
  obtain ⟨hsent, hnext⟩ :=
    drive_cases g moves .initial input.now (clip input.value 0 1)
  rw [run, hfirst, hsent]
  refine ⟨rfl, ?_⟩
  rcases hnext with hdropped | ⟨hvalue, htime⟩
  · rw [run_dropped hdropped]
    exact List.isChain_singleton _
  · exact chain_run hvalue htime

end Sent

/-! ## The two throttles -/

theorem setup_agree (cfg : GripperCfg) (params : GripperParams) :
    (setup_gripper cfg params).Agree (gripper_worker cfg params) :=
  ⟨rfl, rfl, rfl, rfl⟩

/-- Both controllers send the same moves, spaced in time and in value, and the first input moves.
Every width lies between the open one and what the controllers make of value 1. -/
theorem throttles_agree (cfg : GripperCfg) (params : GripperParams) (inputs : List Input)
    (hfirst : ∀ input ∈ inputs.head?, (setup_gripper cfg params).min_period_ns ≤ input.now) :
    (run (send_gripper (setup_gripper cfg params) fun _ => true) .initial inputs).map Sent.key =
        (run (run_iteration (gripper_worker cfg params) fun _ => true) .initial inputs).map
          Sent.key ∧
      (run (send_gripper (setup_gripper cfg params) fun _ => true) .initial inputs).IsChain
        (Spaced (setup_gripper cfg params)) ∧
      ((setup_gripper cfg params).Fits →
        ∀ sent ∈ run (send_gripper (setup_gripper cfg params) fun _ => true) .initial inputs,
          (.fin (setup_gripper cfg params).open_width ≤ sent.width ∧
            sent.width ≤ (setup_gripper cfg params).width 1) ∨
          ((setup_gripper cfg params).width 1 ≤ sent.width ∧
            sent.width ≤ .fin (setup_gripper cfg params).open_width)) ∧
      ∀ input ∈ inputs.head?,
        (run (send_gripper (setup_gripper cfg params) fun _ => true) .initial inputs).head? =
          some ((setup_gripper cfg params).sent input.now (clip input.value 0 1)) := by
  refine ⟨run_related (setup_agree cfg params) (fun _ _ => rfl) related_initial
    fun _ _ => hfirst, ?_, ?_, ?_⟩
  · cases inputs with
    | nil => exact List.isChain_nil
    | cons input rest => exact (run_initial input rest).2
  · intro hfits sent hsent
    obtain ⟨now, value, rfl, hlo, hhi⟩ := sent_of_mem hsent
    exact width_mem hfits hlo hhi
  · intro input hinput
    cases inputs with
    | nil => cases hinput
    | cons first rest =>
      obtain rfl := Option.some.inj hinput
      exact (run_initial first rest).1

/-- A gripper of 10 cm that the rig closes to 1 cm, 15 moves a second. -/
def test_cfg : GripperCfg := ⟨none, some (double (1 / 100)), double (1 / 10), 20, 15,
  double (1 / 50)⟩

def test_params : GripperParams :=
  ⟨0, double (1 / 10), double (1 / 100), double (1 / 5), 10, 80⟩

theorem test_cfg_fits : (setup_gripper test_cfg test_params).Fits :=
  ⟨by decide +kernel,
    double (double (1 / 100) - double (1 / 10)), by decide +kernel⟩

/-- Opened and then closed: both controllers send the open width and that of value 1, and skip the
input between them. -/
theorem throttles_agree_closing :
    ∃ sent closed : Sent,
      run (send_gripper (setup_gripper test_cfg test_params) fun _ => true) .initial
        [⟨100000000, 0⟩, ⟨110000000, 1 / 2⟩, ⟨200000000, 1⟩] = [sent, closed] ∧
      (run (run_iteration (gripper_worker test_cfg test_params) fun _ => true) .initial
        [⟨100000000, 0⟩, ⟨110000000, 1 / 2⟩, ⟨200000000, 1⟩]).map Sent.key =
          [sent.key, closed.key] ∧
      sent.key = (100000000, 0, .fin (double (1 / 10))) ∧
      sent.time + 66666666 ≤ closed.time ∧
      closed.width ≤ .fin (double (1 / 10)) := by
  have hfirst : ∀ input ∈ ([⟨100000000, 0⟩, ⟨110000000, 1 / 2⟩, ⟨200000000, 1⟩] :
      List Input).head?, (setup_gripper test_cfg test_params).min_period_ns ≤ input.now := by
    intro input hinput
    obtain rfl := Option.some.inj hinput
    decide +kernel
  obtain ⟨hsame, hspaced, hbounds, -⟩ := throttles_agree test_cfg test_params _ hfirst
  have hrun : run (send_gripper (setup_gripper test_cfg test_params) fun _ => true) .initial
      [⟨100000000, 0⟩, ⟨110000000, 1 / 2⟩, ⟨200000000, 1⟩] =
        [(setup_gripper test_cfg test_params).sent 100000000 0,
          (setup_gripper test_cfg test_params).sent 200000000 1] := by
    decide +kernel
  rw [hrun] at hsame hspaced hbounds
  refine ⟨_, _, hrun, hsame.symm, by decide +kernel, ?_, ?_⟩
  · have hperiod : (setup_gripper test_cfg test_params).min_period_ns = 66666666 := by
      decide +kernel
    rw [← hperiod]
    exact (List.isChain_pair.1 hspaced).1
  · -- the closed width is the smaller one, so it is the other bound
    have hless : ¬ Ieee.fin (setup_gripper test_cfg test_params).open_width ≤
        ((setup_gripper test_cfg test_params).sent 200000000 1).width := by
      decide +kernel
    have hclosed := hbounds test_cfg_fits _ (List.mem_cons_of_mem _ (List.mem_singleton_self _))
    exact (hclosed.resolve_left fun hleft => hless hleft.1).2

/-- Rounding leaves the bounds of exact arithmetic. That gripper, closed, is sent to a width
below its closed one; 0.02 after 1e-20 is sent although it is nearer than the deadband; and a span
that overflows makes the width of an open gripper a NaN. -/
theorem rounding_leaves_bounds :
    (∃ sent ∈ run (send_gripper (setup_gripper test_cfg test_params) fun _ => true) .initial
        [⟨100000000, 1⟩],
      sent.width.lt (.fin (setup_gripper test_cfg test_params).closed_width) = true ∧
        sent.width.lt (.fin (setup_gripper test_cfg test_params).open_width) = true) ∧
    ((run (send_gripper (setup_gripper test_cfg test_params) fun _ => true) .initial
        [⟨100000000, double (1 / 10 ^ 20)⟩, ⟨200000000, double (1 / 50)⟩]).map (·.value) =
          [double (1 / 10 ^ 20), double (1 / 50)] ∧
      |double (1 / 50) - double (1 / 10 ^ 20)| <
        (setup_gripper test_cfg test_params).deadband) ∧
    (∃ sent ∈ run (send_gripper (setup_gripper
        ⟨some (-2 ^ 1023), some (2 ^ 1023), double (1 / 10), 20, 15, double (1 / 50)⟩
        test_params) fun _ => true) .initial [⟨100000000, 0⟩], sent.width.isNaN = true) := by
  refine ⟨?_, ?_, ?_⟩
  · exact ⟨_, List.mem_singleton_self _, by decide +kernel, by decide +kernel⟩
  · exact ⟨by decide +kernel, by decide +kernel⟩
  · exact ⟨_, List.mem_singleton_self _, by decide +kernel⟩

/-- A `Move` that fails ends both with the same moves, if the device's limits are in order. -/
theorem throttles_agree_failing (cfg : GripperCfg) {params : GripperParams}
    (hvel : params.min_vel ≤ params.max_vel) (hforce : params.min_force ≤ params.max_force)
    (moves : Sent → Bool) (inputs : List Input)
    (hfirst : ∀ input ∈ inputs.head?, (setup_gripper cfg params).min_period_ns ≤ input.now) :
    (run (send_gripper (setup_gripper cfg params) moves) .initial inputs).map Sent.key =
      (run (run_iteration (gripper_worker cfg params) moves) .initial inputs).map Sent.key := by
  refine run_related (setup_agree cfg params) (fun now value => ?_) related_initial
    fun _ _ => hfirst
  rw [setup_gripper_eq cfg hvel hforce]

end DualFlexivControl.Flexiv.GripperThrottle
