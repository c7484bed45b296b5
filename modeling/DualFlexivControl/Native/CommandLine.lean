/-
From the configuration of an arm to the native controller, through its command line:
`controller_args` of `interfaces/flexiv/native_rt.py`, and `Args`, `Telemetry`, `GripperWorker`,
`Run` and `main` of the controller as far as they read it.

Python writes every setting as a flag and a value. The controller takes the string after a flag for
its value unless that string begins with two dashes, and then takes it for a flag of its own. So
the two sides agree on a value exactly where the value is no flag ([`argv_read_back`]); where all
of them agree the controller runs with the settings of the configuration, defaults and all
([`controller_runs_as_configured`]).

How Python writes a float and what `std::stod` reads are parameters ([`Numerals`]). Strings are
sequences of characters on both sides; a string with a NUL in it is no command-line argument, and
`Popen` raises. The controller casts three of the numbers to integers, and a cast is defined for
what the integer type can hold only ([`static_cast`]).
-/
import DualFlexivControl.Flexiv.GripperThrottle
import DualFlexivControl.Lib.Results
import DualFlexivControl.Native.Run
import DualFlexivControl.Processes.RunNames

set_option autoImplicit false

namespace DualFlexivControl.Native.CommandLine

open DualFlexivControl.Flexiv
open GripperThrottle (GripperParams trunc clamp double)

/-! ## The Python side -/

/-- `GripperCfg`. -/
structure GripperCfg extends GripperThrottle.GripperCfg where
  enabled : Bool
  name : String
  init_on_start : Bool

/-- `ArmCfg`, as far as the controller is told of it. -/
structure ArmCfg where
  serial : String
  dof : ℤ
  wrench_frame : String
  control_safety_check : Bool
  control_tolerance : ℚ
  verbose_rdk : Bool
  rt_priority : ℤ
  gripper : GripperCfg

/-- The arguments of `controller_args`; of `control` and `coeffs` the fields that it reads. -/
structure Launch where
  executable : String
  arm : ArmCfg
  deadman_ms : ℚ
  deadman_hard_ms : ℚ
  max_joint_vel : ℚ
  max_joint_acc : ℚ
  setpoint_shm : String
  command_shm : String
  telemetry_shm : List (String × String)
  gripper_shm : Option String

/-- `str` of a float, and `std::stod`. -/
structure Numerals where
  str : ℚ → String
  stod : String → Except String ℚ

/-- `str(int(b))` -/
def str_int (b : Bool) : String := if b then "1" else "0"

/-- The telemetry rings: the signal, and the flag for its segment. -/
def TELEMETRY : List (String × String) :=
  [("q", "--q-shm"), ("dq", "--dq-shm"), ("tau", "--tau-shm"), ("tau_ext", "--tau-ext-shm"),
   ("wrench", "--wrench-shm"), ("eef", "--eef-shm"), ("eef_vel", "--eef-vel-shm"),
   ("status", "--status-shm")]

/-- The first loop; a signal without a segment is a `KeyError`. -/
def telemetry_flags (telemetry_shm : List (String × String)) :
    Except String (List (String × String)) :=
  Results.collect (fun x : String × String =>
    match telemetry_shm.lookup x.1 with
    | none => .error x.1
    | some name => .ok (x.2, name)) TELEMETRY

section Write

variable (n : Numerals) (l : Launch)

/-- An optional width. -/
def width_flag (flag : String) : Option ℚ → List (String × String)
  | none => []
  | some width => [(flag, n.str width)]

/-- The gripper's part of the command line. -/
def gripper_flags : List (String × String) :=
  match l.gripper_shm with
  | none => []
  | some gripper_shm =>
    if l.arm.gripper.enabled && l.arm.gripper.name != "" then
      [("--gripper-shm", gripper_shm),
       ("--gripper-name", l.arm.gripper.name),
       ("--gripper-velocity", n.str l.arm.gripper.velocity),
       ("--gripper-force", n.str l.arm.gripper.force),
       ("--gripper-rate", n.str l.arm.gripper.move_rate_hz),
       ("--gripper-deadband", n.str l.arm.gripper.deadband),
       ("--gripper-init", str_int l.arm.gripper.init_on_start)] ++
      width_flag n "--gripper-open-width" l.arm.gripper.open_width ++
      width_flag n "--gripper-closed-width" l.arm.gripper.closed_width
    else []

/-- What `_add` is called with. -/
def flags (telemetry : List (String × String)) : List (String × String) :=
  [("--serial", l.arm.serial), ("--dof", toString l.arm.dof),
   ("--setpoint-shm", l.setpoint_shm), ("--command-shm", l.command_shm)] ++ telemetry ++
  [("--wrench-frame", l.arm.wrench_frame),
   ("--deadman-ms", n.str l.deadman_ms), ("--deadman-hard-ms", n.str l.deadman_hard_ms),
   ("--safety-check", str_int l.arm.control_safety_check),
   ("--tolerance", n.str l.arm.control_tolerance),
   ("--verbose", str_int l.arm.verbose_rdk),
   ("--rt-priority", toString l.arm.rt_priority),
   ("--max-joint-vel", n.str l.max_joint_vel), ("--max-joint-acc", n.str l.max_joint_acc)] ++
  gripper_flags n l

/-- A command line of flags with their values. -/
def argv_of (executable : String) (pairs : List (String × String)) : List String :=
  executable :: pairs.flatMap fun x => [x.1, x.2]

/-- `controller_args` -/
def controller_args : Except String (List String) := do
  let telemetry ← telemetry_flags l.telemetry_shm
  return argv_of l.executable (flags n l telemetry)

end Write

/-- `subprocess.Popen(args)`: what the new process finds in `argv`. -/
def Popen (args : List String) : Except String (List String) :=
  if args.any fun s => s.toList.contains '\x00' then .error "embedded null byte" else .ok args

/-! ## The native side -/

/-- `key.starts_with("--")` -/
def is_flag (s : String) : Bool := "--".toList.isPrefixOf s.toList

/-- `Args`: the map, the newest assignment of a key first. -/
structure Args where
  values : List (String × String)

namespace Args

/-- `values[key] = value` -/
def set (args : Args) (key value : String) : Args := ⟨(key, value) :: args.values⟩

/-- The loop of the constructor, from some argument on. -/
def read (args : Args) : List String → Except String Args
  | [] => .ok args
  | [key] =>
    if is_flag key then .ok (args.set key "1")
    else .error ("unexpected positional argument: " ++ key)
  | key :: value :: rest =>
    if is_flag key then
      if is_flag value then read (args.set key "1") (value :: rest)
      else read (args.set key value) rest
    else .error ("unexpected positional argument: " ++ key)

/-- The constructor. -/
def parse (argv : List String) : Except String Args := read ⟨[]⟩ (argv.drop 1)

variable (args : Args)

def has (key : String) : Bool := (args.values.lookup key).isSome

def get (key : String) : Except String String :=
  match args.values.lookup key with
  | none => .error ("missing required argument " ++ key)
  | some value => .ok value

def get_or (key fallback : String) : String := (args.values.lookup key).getD fallback

def number (n : Numerals) (key : String) (fallback : ℚ) : Except String ℚ :=
  match args.values.lookup key with
  | none => .ok fallback
  | some value => n.stod value

def boolean (key : String) (fallback : Bool) : Bool :=
  match args.values.lookup key with
  | none => fallback
  | some value => value == "1" || value == "true" || value == "yes"

end Args

/-- `static_cast` of a double to a signed integer of so many bits. Out of range the behaviour is
undefined, which is an error here. -/
def static_cast (bits : ℕ) (x : ℚ) : Except String ℤ :=
  if -2 ^ (bits - 1) ≤ trunc x ∧ trunc x < 2 ^ (bits - 1) then .ok (trunc x)
  else .error "undefined behaviour"

/-- `isspace` of the C locale. -/
def isspace (c : Char) : Bool :=
  c == ' ' || (0x09 ≤ c.toNat && c.toNat ≤ 0x0d)

/-- The digits that `strtoul` converts: the value modulo 2⁶⁴, negated after a minus. -/
def convert (negative : Bool) (cs : List Char) : Except String ℕ :=
  let digits := cs.takeWhile Char.isDigit
  let value := Nat.ofDigitChars 10 digits 0
  if digits = [] then .error "stoul"
  else if 2 ^ 64 ≤ value then .error "stoul"
  else .ok (if negative then (2 ^ 64 - value) % 2 ^ 64 else value)

/-- `std::stoul` -/
def stoul (s : String) : Except String ℕ :=
  match s.toList.dropWhile isspace with
  | '-' :: cs => convert true cs
  | '+' :: cs => convert false cs
  | cs => convert false cs

/-- `Telemetry`: the segments it opens. -/
structure Telemetry where
  q : String
  dq : String
  tau : String
  tau_ext : String
  wrench : String
  eef : String
  eef_vel : String
  status : String
  world_wrench : Bool
  deriving DecidableEq

/-- The constructor of `Telemetry`. -/
def Telemetry.open (args : Args) : Except String Telemetry := do
  let q ← args.get "--q-shm"
  let dq ← args.get "--dq-shm"
  let tau ← args.get "--tau-shm"
  let tau_ext ← args.get "--tau-ext-shm"
  let wrench ← args.get "--wrench-shm"
  let eef ← args.get "--eef-shm"
  let eef_vel ← args.get "--eef-vel-shm"
  let status ← args.get "--status-shm"
  return ⟨q, dq, tau, tau_ext, wrench, eef, eef_vel, status,
    args.get_or "--wrench-frame" "local" == "world"⟩

/-- A gripper that the worker drives. -/
structure Gripper where
  shm : String
  name : String
  init : Bool
  settings : GripperThrottle.Settings
  deriving DecidableEq

/-- A width in the constructor of `GripperWorker`: the device's own unless the flag is there. -/
def Args.width (args : Args) (n : Numerals) (key : String) (device : ℚ) : Except String ℚ :=
  if args.has key then args.number n key device else .ok device

/-- The constructor of `GripperWorker`; `params` is what the device answers. Without a segment or a
name there is no gripper. -/
def GripperWorker (n : Numerals) (params : GripperParams) (args : Args) :
    Except String (Option Gripper) :=
  if !args.has "--gripper-shm" || args.get_or "--gripper-name" "" == "" then .ok none
  else do
    let shm ← args.get "--gripper-shm"
    let name ← args.get "--gripper-name"
    let init := args.boolean "--gripper-init" true
    let open_width ← args.width n "--gripper-open-width" params.max_width
    let closed_width ← args.width n "--gripper-closed-width" params.min_width
    let velocity ← args.number n "--gripper-velocity" (double (1 / 10))
    let force ← args.number n "--gripper-force" 20
    let deadband ← args.number n "--gripper-deadband" (double (1 / 50))
    let rate ← args.number n "--gripper-rate" 15
    let min_period_ns ← static_cast 64 (double (1000000000 / max (double (1 / 1000)) rate))
    return some ⟨shm, name, init, {
      open_width := open_width
      closed_width := closed_width
      velocity := clamp velocity params.min_vel params.max_vel
      force := clamp force params.min_force params.max_force
      min_period_ns := min_period_ns
      deadband := deadband }⟩

/-- What `Run` takes from the command line. -/
structure Configuration where
  setpoint_shm : String
  command_shm : String
  telemetry : Telemetry
  dof : ℕ
  serial : String
  verbose : Bool
  gripper : Option Gripper
  args : RunArgs ℚ
  rt_priority : ℤ

/-- `Run`, as far as the command line goes. The gripper is best effort: without it the arm is
driven all the same. -/
def Run (n : Numerals) (params : GripperParams) (args : Args) : Except String Configuration := do
  let setpoint_shm ← args.get "--setpoint-shm"
  let command_shm ← args.get "--command-shm"
  let telemetry ← Telemetry.open args
  let dof ← stoul (args.get_or "--dof" "7")
  let serial ← args.get "--serial"
  let verbose := args.boolean "--verbose" false
  let gripper :=
    match GripperWorker n params args with
    | .ok gripper => gripper
    | .error _ => none
  let deadman_ms ← args.number n "--deadman-ms" 100
  let soft_deadman_ns ← static_cast 64 (double (deadman_ms * 1000000))
  let deadman_hard_ms ← args.number n "--deadman-hard-ms" 500
  let hard_deadman_ns ← static_cast 64 (double (deadman_hard_ms * 1000000))
  let safety_check := args.boolean "--safety-check" true
  let tolerance ← args.number n "--tolerance" (1 / 2)
  let max_joint_vel ← args.number n "--max-joint-vel" 2
  let max_joint_acc ← args.number n "--max-joint-acc" 3
  if max_joint_vel ≤ 0 ∨ max_joint_acc ≤ 0 then
    .error "joint velocity/acceleration limits must be positive"
  else do
    let priority ← args.number n "--rt-priority" 0
    let rt_priority ← static_cast 32 priority
    return ⟨setpoint_shm, command_shm, telemetry, dof, serial, verbose, gripper,
      ⟨soft_deadman_ns, hard_deadman_ns, safety_check, tolerance,
        ⟨max_joint_vel, max_joint_acc⟩⟩, rt_priority⟩

/-- What the process does. -/
inductive Mode where
  | validate_trajectory
  | validate_ring
  | run (c : Configuration)

/-- `main`; an exception is printed, and the exit status is 1. -/
def main (n : Numerals) (params : GripperParams) (argv : List String) : Except String Mode := do
  let args ← Args.parse argv
  if args.has "--validate-trajectory" then return .validate_trajectory
  else if args.has "--validate-ring" then return .validate_ring
  else
    let c ← Run n params args
    return .run c

/-! ## Flags and values read back -/

section ReadBack

/-- What the constructor makes of a flag and the string after it. -/
def Args.assign (args : Args) (x : String × String) : Args :=
  if is_flag x.2 then (args.set x.1 "1").set x.2 "1" else args.set x.1 x.2

/-- A flag that is followed by another one, or by nothing, is set to `1`, which is how booleans
without a value are read. -/
theorem read_flag {args : Args} {key : String} {rest : List String} (hkey : is_flag key = true)
    (hrest : ∀ s ∈ rest.head?, is_flag s = true) :
    args.read (key :: rest) = (args.set key "1").read rest := by
  cases rest with
  | nil => simp only [Args.read, if_pos hkey]
  | cons s rest => rw [Args.read, if_pos hkey, if_pos (hrest s rfl)]

/-- A command line of flags with their values is never rejected: the values are assigned in order,
whatever they look like but for flags. -/
theorem read_pairs {pairs : List (String × String)} (hkeys : ∀ x ∈ pairs, is_flag x.1 = true) :
    ∀ args : Args, args.read (pairs.flatMap fun x => [x.1, x.2]) =
      .ok (pairs.foldl Args.assign args) := by
  induction pairs with
  | nil => exact fun args => rfl
  | cons x rest ih =>
    intro args
    obtain ⟨hkey, hrest⟩ := List.forall_mem_cons.1 hkeys
    have hnext : ∀ s ∈ (rest.flatMap fun x => [x.1, x.2]).head?, is_flag s = true := by
      cases rest with
      | nil => exact fun s hs => nomatch hs
      | cons x' rest =>
        intro s hs
        obtain rfl := Option.some.inj hs
        exact hrest x' List.mem_cons_self
    rw [List.flatMap_cons, List.cons_append, List.cons_append, List.nil_append, List.foldl_cons,
      Args.read, if_pos hkey, Args.assign]
    split
    · rename_i hvalue
      rw [read_flag hvalue hnext, ih hrest]
    · rw [ih hrest]

/-- The table of flags after one assignment: the last value of a key is the one that counts. -/
theorem lookup_set {args : Args} {key key' value : String} :
    (args.set key value).values.lookup key' =
      if key' = key then some value else args.values.lookup key' := by
  rw [Args.set, List.lookup_cons]
  by_cases h : key' = key
  · rw [if_pos h, beq_iff_eq.2 h]
  · rw [if_neg h, beq_eq_false_iff_ne.2 h]

/-- The flags that come later leave a value alone, or one of their values is taken for this
flag. -/
theorem lookup_assigns_of_not_mem {key value : String} {pairs : List (String × String)} :
    ∀ {args : Args}, key ∉ pairs.map Prod.fst → args.values.lookup key = some value →
      (pairs.foldl Args.assign args).values.lookup key = some value ∨
        (pairs.foldl Args.assign args).values.lookup key = some "1" := by
  induction pairs generalizing value with
  | nil => exact fun _ h => .inl h
  | cons x rest ih =>
    intro args hkey h
    rw [List.map_cons, List.mem_cons, not_or] at hkey
    rw [List.foldl_cons]
    have hassign : (args.assign x).values.lookup key = some value ∨
        (args.assign x).values.lookup key = some "1" := by
      unfold Args.assign
      split
      · rw [lookup_set, lookup_set, if_neg hkey.1, h]
        split
        · exact .inr rfl
        · exact .inl rfl
      · rw [lookup_set, if_neg hkey.1]
        exact .inl h
    rcases hassign with h | h
    · exact ih hkey.2 h
    · exact .inr ((or_self_iff).1 (ih hkey.2 h))

/-- None of the values is taken for a flag. -/
def Plain (pairs : List (String × String)) : Prop := ∀ x ∈ pairs, is_flag x.2 = false

/-- Pairs of other keys leave what a key was assigned, as none of their values is taken for a flag.
-/
theorem lookup_assigns_of_plain {key : String} {pairs : List (String × String)} :
    ∀ {args : Args}, Plain pairs → key ∉ pairs.map Prod.fst →
      (pairs.foldl Args.assign args).values.lookup key = args.values.lookup key := by
  induction pairs with
  | nil => exact fun _ _ => rfl
  | cons x rest ih =>
    intro args hplain hkey
    obtain ⟨hx, hrest⟩ := List.forall_mem_cons.1 hplain
    rw [List.map_cons, List.mem_cons, not_or] at hkey
    rw [List.foldl_cons, ih hrest hkey.2, Args.assign, if_neg (by rw [hx]; decide), lookup_set,
      if_neg hkey.1]

/-- Plain values under distinct flags are read as they were written: none is taken for a flag, and
none is assigned over. -/
theorem lookup_of_plain {pairs : List (String × String)} :
    ∀ {args : Args}, Plain pairs → (pairs.map Prod.fst).Nodup → ∀ x ∈ pairs,
      (pairs.foldl Args.assign args).values.lookup x.1 = some x.2 := by
  induction pairs with
  | nil => exact fun _ _ x hx => absurd hx List.not_mem_nil
  | cons y rest ih =>
    intro args hplain hnodup x hx
    obtain ⟨hy, hrest⟩ := List.forall_mem_cons.1 hplain
    obtain ⟨hnot, hnodup⟩ := List.nodup_cons.1 hnodup
    rw [List.foldl_cons]
    rcases List.mem_cons.1 hx with rfl | hx
    · rw [lookup_assigns_of_plain hrest hnot, Args.assign, if_neg (by rw [hy]; decide),
        lookup_set, if_pos rfl]
    · exact ih hrest hnodup x hx

/-- A value that is taken for a flag is read as a one. -/
theorem lookup_of_flag {pairs : List (String × String)} :
    ∀ {args : Args}, (pairs.map Prod.fst).Nodup → ∀ x ∈ pairs, is_flag x.2 = true →
      (pairs.foldl Args.assign args).values.lookup x.1 = some "1" := by
  induction pairs with
  | nil => exact fun _ x hx => absurd hx List.not_mem_nil
  | cons y rest ih =>
    intro args hnodup x hx hflag
    obtain ⟨hnot, hnodup⟩ := List.nodup_cons.1 hnodup
    rw [List.foldl_cons]
    rcases List.mem_cons.1 hx with rfl | hx
    · have hassign : (args.assign x).values.lookup x.1 = some "1" := by
        rw [Args.assign, if_pos hflag, lookup_set, lookup_set, if_pos rfl, ite_self]
      exact (or_self_iff).1 (lookup_assigns_of_not_mem hnot hassign)
    · exact ih hnodup x hx hflag

/-- The value of a bare flag is not taken for a flag itself. -/
theorem is_flag_one : is_flag "1" = false := by decide

/-- Every value is read as written exactly when none of them is taken for a flag. -/
theorem read_back_iff {pairs : List (String × String)} (hkeys : ∀ x ∈ pairs, is_flag x.1 = true)
    (hnodup : (pairs.map Prod.fst).Nodup) (executable : String) :
    ∃ args, Args.parse (argv_of executable pairs) = .ok args ∧
      ((∀ x ∈ pairs, args.get x.1 = .ok x.2) ↔ Plain pairs) := by
  refine ⟨_, read_pairs hkeys ⟨[]⟩, ?_, ?_⟩
  · intro hget x hx
    by_contra hflag
    rw [Bool.not_eq_false] at hflag
    have hread := hget x hx
    rw [Args.get, lookup_of_flag hnodup x hx hflag] at hread
    rw [← Except.ok.inj hread, is_flag_one] at hflag
    exact absurd hflag (by decide)
  · intro hplain x hx
    rw [Args.get, lookup_of_plain hplain hnodup x hx]

end ReadBack

/-! ## The flags of the controller -/

section Flags

variable {n : Numerals} {l : Launch} {telemetry : List (String × String)}

/-- The flags of a gripper. -/
def GRIPPER_FLAGS : List String :=
  ["--gripper-shm", "--gripper-name", "--gripper-velocity", "--gripper-force", "--gripper-rate",
   "--gripper-deadband", "--gripper-init", "--gripper-open-width", "--gripper-closed-width"]

/-- The flags that are always there. -/
def ARM_FLAGS : List String :=
  ["--serial", "--dof", "--setpoint-shm", "--command-shm"] ++ TELEMETRY.map Prod.snd ++
  ["--wrench-frame", "--deadman-ms", "--deadman-hard-ms", "--safety-check", "--tolerance",
   "--verbose", "--rt-priority", "--max-joint-vel", "--max-joint-acc"]

/-- Every flag of a command line, in order. -/
def FLAGS : List String := ARM_FLAGS ++ GRIPPER_FLAGS

/-- The driver passes no flag twice, since the arm's, the telemetry's and the gripper's flags are
distinct. -/
theorem nodup_FLAGS : FLAGS.Nodup := by simp [FLAGS, ARM_FLAGS, TELEMETRY, GRIPPER_FLAGS]

/-- Everything that the launcher passes as a key begins with two dashes. -/
theorem is_flag_of_mem_FLAGS : ∀ key ∈ FLAGS, is_flag key = true := by
  simp only [FLAGS, ARM_FLAGS, TELEMETRY, GRIPPER_FLAGS, List.map_cons, List.map_nil,
    List.cons_append, List.nil_append, List.forall_mem_cons]
  decide

/-- A telemetry flag gets the name of its signal's segment, and without one the launch is refused by
naming the signal. -/
theorem segment_ok {telemetry_shm : List (String × String)} {signal flag : String}
    {b : String × String} :
    (match telemetry_shm.lookup signal with
      | none => (.error signal : Except String (String × String))
      | some name => .ok (flag, name)) = .ok b ↔
      ∃ name, telemetry_shm.lookup signal = some name ∧ b = (flag, name) := by
  cases telemetry_shm.lookup signal with
  | none => simp
  | some name => simp [eq_comm]

/-- The segments of the telemetry rings, by the controller's names for them. -/
def Telemetry.Of (t : Telemetry) (telemetry_shm : List (String × String)) : Prop :=
  ∀ x ∈ [("q", t.q), ("dq", t.dq), ("tau", t.tau), ("tau_ext", t.tau_ext),
    ("wrench", t.wrench), ("eef", t.eef), ("eef_vel", t.eef_vel), ("status", t.status)],
    telemetry_shm.lookup x.1 = some x.2

def Telemetry.flags (t : Telemetry) : List (String × String) :=
  [("--q-shm", t.q), ("--dq-shm", t.dq), ("--tau-shm", t.tau), ("--tau-ext-shm", t.tau_ext),
   ("--wrench-shm", t.wrench), ("--eef-shm", t.eef), ("--eef-vel-shm", t.eef_vel),
   ("--status-shm", t.status)]

/-- The telemetry flags that were built are those of a table in which every signal had a segment. -/
theorem telemetry_flags_ok {telemetry_shm : List (String × String)} (world_wrench : Bool)
    (h : telemetry_flags telemetry_shm = .ok telemetry) :
    ∃ t : Telemetry, t.Of telemetry_shm ∧ t.world_wrench = world_wrench ∧
      telemetry = t.flags := by
  unfold telemetry_flags TELEMETRY at h
  simp only [Results.collect_cons, segment_ok] at h
  obtain ⟨_, _, ⟨q, hq, rfl⟩, ⟨_, _, ⟨dq, hdq, rfl⟩, ⟨_, _, ⟨tau, htau, rfl⟩, ⟨_, _,
    ⟨tau_ext, htau_ext, rfl⟩, ⟨_, _, ⟨wrench, hwrench, rfl⟩, ⟨_, _, ⟨eef, heef, rfl⟩, ⟨_, _,
    ⟨eef_vel, heef_vel, rfl⟩, ⟨_, _, ⟨status, hstatus, rfl⟩, hnil, rfl⟩, rfl⟩, rfl⟩, rfl⟩, rfl⟩,
    rfl⟩, rfl⟩, rfl⟩ := h
  refine ⟨⟨q, dq, tau, tau_ext, wrench, eef, eef_vel, status, world_wrench⟩, ?_, rfl, ?_⟩
  · simp only [Telemetry.Of, List.forall_mem_cons]
    exact ⟨hq, hdq, htau, htau_ext, hwrench, heef, heef_vel, hstatus,
      fun x hx => absurd hx List.not_mem_nil⟩
  · rw [← Except.ok.inj hnil]
    rfl

/-- The gripper's flags come in their order, the widths only where they are configured. -/
theorem gripper_flags_keys : ((gripper_flags n l).map Prod.fst).Sublist GRIPPER_FLAGS := by
  unfold gripper_flags
  cases l.gripper_shm with
  | none => exact List.nil_sublist _
  | some gripper_shm =>
    dsimp only
    split
    · cases l.arm.gripper.open_width <;> cases l.arm.gripper.closed_width <;>
        simp [width_flag, GRIPPER_FLAGS]
    · exact List.nil_sublist _

/-- The keys of a launch: those of the arm, then the gripper's. -/
theorem map_fst_flags (t : Telemetry) :
    (flags n l t.flags).map Prod.fst = ARM_FLAGS ++ (gripper_flags n l).map Prod.fst := by
  rw [flags, List.map_append]
  rfl

/-- The keys of a launch come in the order of `FLAGS`, so each comes at most once. -/
theorem flags_keys (t : Telemetry) : ((flags n l t.flags).map Prod.fst).Sublist FLAGS := by
  rw [map_fst_flags]
  exact (List.Sublist.refl _).append gripper_flags_keys

/-- A gripper's flag that is not written is nowhere on the command line. -/
theorem not_mem_flags {key : String} (t : Telemetry) (hkey : key ∈ GRIPPER_FLAGS)
    (h : key ∉ (gripper_flags n l).map Prod.fst) : key ∉ (flags n l t.flags).map Prod.fst := by
  rw [map_fst_flags, List.mem_append, not_or]
  exact ⟨fun harm => (List.nodup_append.1 nodup_FLAGS).2.2 key harm key hkey rfl, h⟩

/-- What reaches the new process is what `controller_args` wrote. -/
theorem argv_ok {argv : List String} (h : (controller_args n l >>= Popen) = .ok argv) :
    ∃ telemetry, telemetry_flags l.telemetry_shm = .ok telemetry ∧
      argv = argv_of l.executable (flags n l telemetry) := by
  obtain ⟨args, hargs, hpopen⟩ := Results.bind_ok.1 h
  obtain ⟨telemetry, htelemetry, hargv⟩ := Results.bind_ok.1 hargs
  rw [Popen, Results.guard_ok] at hpopen
  exact ⟨telemetry, htelemetry,
    (Except.ok.inj hpopen.2).symm.trans (Results.pure_ok.1 hargv).symm⟩

/-- The command line as the controller's constructor reads it: it is never rejected, and every
value is read as it was written exactly when none of them begins with two dashes. -/
theorem argv_read_back {argv : List String} (h : (controller_args n l >>= Popen) = .ok argv) :
    ∃ telemetry args, telemetry_flags l.telemetry_shm = .ok telemetry ∧
      Args.parse argv = .ok args ∧
      ((∀ x ∈ flags n l telemetry, args.get x.1 = .ok x.2) ↔
        ∀ x ∈ flags n l telemetry, is_flag x.2 = false) := by
  obtain ⟨telemetry, htelemetry, rfl⟩ := argv_ok h
  obtain ⟨t, -, -, rfl⟩ := telemetry_flags_ok false htelemetry
  obtain ⟨args, hargs, hiff⟩ := read_back_iff
    (fun x hx => is_flag_of_mem_FLAGS x.1 ((flags_keys t).subset (List.mem_map_of_mem hx)))
    (nodup_FLAGS.sublist (flags_keys t)) l.executable
  exact ⟨_, args, htelemetry, hargs, hiff⟩

end Flags

/-! ## Numbers and booleans -/

/-- A Python boolean that is passed as `0` or `1` is read back by the controller as it was meant. -/
theorem boolean_str_int (b : Bool) :
    (str_int b == "1" || str_int b == "true" || str_int b == "yes") = b := by
  cases b <;> decide

/-- Digits below `2 ^ 64` are converted to the number they write, and a minus sign wraps it around,
as `strtoul` does it. -/
theorem convert_digits {negative : Bool} {digits : List Char}
    (hdigits : ∀ c ∈ digits, c.isDigit = true) (hne : digits ≠ [])
    (hvalue : Nat.ofDigitChars 10 digits 0 < 2 ^ 64) :
    convert negative digits = .ok (if negative then
      (2 ^ 64 - Nat.ofDigitChars 10 digits 0) % 2 ^ 64 else Nat.ofDigitChars 10 digits 0) := by
  have hall : digits.takeWhile Char.isDigit = digits := List.takeWhile_eq_self_iff.2 hdigits
  simp only [convert, hall, if_neg hne, if_neg (Nat.not_le.2 hvalue)]

/-- No digit is skipped as white space. -/
theorem isspace_of_isDigit {c : Char} (h : c.isDigit = true) : isspace c = false := by
  rw [Char.isDigit_iff_toNat] at h
  have hblank : c ≠ ' ' := by
    rintro rfl
    exact absurd h.1 (by decide)
  have hzero : '0'.toNat = 0x30 := rfl
  simp only [isspace, Bool.or_eq_false_iff, beq_eq_false_iff_ne, ne_eq, hblank,
    not_false_eq_true, Bool.and_eq_false_iff, decide_eq_false_iff_not, true_and]
  omega

/-- A text of digits alone has neither space nor sign in front, so all of it is converted. -/
theorem stoul_digits {s : String} (hdigits : ∀ c ∈ s.toList, c.isDigit = true)
    (hne : s.toList ≠ []) : stoul s = convert false s.toList := by
  obtain ⟨c, cs, hs⟩ := List.exists_cons_of_ne_nil hne
  rw [hs] at hdigits
  have hc := hdigits c List.mem_cons_self
  unfold stoul
  rw [hs, List.dropWhile_cons_of_neg (by rw [isspace_of_isDigit hc]; decide)]
  split
  · rename_i heq
    rw [(List.cons.inj heq).1] at hc
    exact absurd hc (by decide)
  · rename_i heq
    rw [(List.cons.inj heq).1] at hc
    exact absurd hc (by decide)
  · rfl

/-- A number that is not negative is written in decimal digits. -/
theorem toList_ofNat (m : ℕ) : (toString (Int.ofNat m)).toList = Nat.toDigits 10 m :=
  Processes.toList_toString m

/-- A negative number is written as a minus sign and the digits of its magnitude. -/
theorem toList_negSucc (m : ℕ) :
    (toString (Int.negSucc m)).toList = '-' :: Nat.toDigits 10 (m + 1) := by
  have hsign : toString (Int.negSucc m) = "-" ++ toString (m + 1) := rfl
  rw [hsign, String.toList_append, Processes.toList_toString]
  rfl

/-- `std::stoul` reads what `str` wrote of an integer, modulo 2⁶⁴: a minus sign wraps around, and
nothing of the text is left over. -/
theorem stoul_toString {z : ℤ} (hlow : -2 ^ 64 < z) (hhigh : z < 2 ^ 64) :
    stoul (toString z) = .ok (z % 2 ^ 64).toNat := by
  cases z with
  | ofNat m =>
    have hdigits : ∀ c ∈ (toString (Int.ofNat m)).toList, c.isDigit = true := by
      rw [toList_ofNat]
      exact fun c hc => Nat.isDigit_of_mem_toDigits (by omega) (by omega) hc
    have hne : (toString (Int.ofNat m)).toList ≠ [] := by
      rw [toList_ofNat]
      exact Nat.toDigits_ne_nil
    have hvalue : Nat.ofDigitChars 10 (toString (Int.ofNat m)).toList 0 = m := by
      rw [toList_ofNat]
      exact Nat.ofDigitChars_ten_toDigits
    have hm : m < 2 ^ 64 := by
      have : (m : ℤ) < 2 ^ 64 := hhigh
      omega
    rw [stoul_digits hdigits hne, convert_digits hdigits hne (by rw [hvalue]; exact hm), hvalue]
    have hmod : (Int.ofNat m : ℤ) % 2 ^ 64 = m := Int.emod_eq_of_lt (Int.natCast_nonneg m) hhigh
    rw [hmod]
    rfl
  | negSucc m =>
    have hvalue : Nat.ofDigitChars 10 (Nat.toDigits 10 (m + 1)) 0 = m + 1 :=
      Nat.ofDigitChars_ten_toDigits
    have hm : m + 1 < 2 ^ 64 := by
      rw [Int.negSucc_eq] at hlow
      omega
    have hconvert := @convert_digits true _
      (fun c hc => Nat.isDigit_of_mem_toDigits (by omega) (by omega) hc)
      Nat.toDigits_ne_nil (hvalue ▸ hm)
    unfold stoul
    rw [toList_negSucc, List.dropWhile_cons_of_neg (by decide)]
    change convert true (Nat.toDigits 10 (m + 1)) = _
    rw [hconvert, hvalue, if_pos rfl, Int.negSucc_eq]
    refine congrArg Except.ok ?_
    omega

/-! ## Which values can be taken for flags -/

section Plain

variable {n : Numerals} {l : Launch}

/-- The name of a segment is not taken for a flag, whatever the run and the stream are called. -/
theorem is_flag_shm_name_for (run_id stream_name : String) :
    is_flag (Streams.shm_name_for run_id stream_name) = false := by
  have hdfc : "dfc_".toList = ['d', 'f', 'c', '_'] := rfl
  rw [is_flag, Streams.shm_name_for, String.toList_append, String.toList_append,
    String.toList_append, hdfc]
  rfl

/-- A boolean's text is not taken for a flag. -/
theorem is_flag_str_int (b : Bool) : is_flag (str_int b) = false := by cases b <;> decide

/-- A number's text is not taken for a flag: a minus sign alone does not make one. -/
theorem is_flag_toString (z : ℤ) : is_flag (toString z) = false := by
  have hdash : ∀ {m : ℕ} {c : Char} {cs : List Char}, Nat.toDigits 10 m = c :: cs → c ≠ '-' := by
    rintro m c cs hm rfl
    have hc : ('-' : Char) ∈ Nat.toDigits 10 m := by
      rw [hm]
      exact List.mem_cons_self
    have hdigit := Nat.isDigit_of_mem_toDigits (by decide) (by decide) hc
    exact absurd hdigit (by decide)
  have hdashes : "--".toList = ['-', '-'] := rfl
  unfold is_flag
  rw [hdashes]
  cases z with
  | ofNat m =>
    rw [toList_ofNat]
    cases hm : Nat.toDigits 10 m with
    | nil => rfl
    | cons c cs =>
      rw [List.isPrefixOf_cons_cons, beq_eq_false_iff_ne.2 (hdash hm).symm]
      rfl
  | negSucc m =>
    rw [toList_negSucc]
    cases hm : Nat.toDigits 10 (m + 1) with
    | nil => rfl
    | cons c cs =>
      rw [List.isPrefixOf_cons_cons, List.isPrefixOf_cons_cons,
        beq_eq_false_iff_ne.2 (hdash hm).symm]
      rfl

/-- Only the strings of the configuration can be: the segments are named by the registry, and a
number has at most one sign. -/
theorem plain_flags (hstr : ∀ x, is_flag (n.str x) = false)
    (hserial : is_flag l.arm.serial = false) (hframe : is_flag l.arm.wrench_frame = false)
    (hname : is_flag l.arm.gripper.name = false)
    (hshm : ∀ name ∈ l.setpoint_shm :: l.command_shm :: l.gripper_shm.toList ++
      l.telemetry_shm.map Prod.snd, ∃ run_id stream, name = Streams.shm_name_for run_id stream)
    {telemetry : List (String × String)}
    (htelemetry : telemetry_flags l.telemetry_shm = .ok telemetry) :
    ∀ x ∈ flags n l telemetry, is_flag x.2 = false := by
  -- names of segments begin with no dash
  have hsegment : ∀ name ∈ l.setpoint_shm :: l.command_shm :: l.gripper_shm.toList ++
      l.telemetry_shm.map Prod.snd, is_flag name = false := by
    intro name h
    obtain ⟨run_id, stream, rfl⟩ := hshm name h
    exact is_flag_shm_name_for run_id stream
  have hrings : ∀ x ∈ telemetry, is_flag x.2 = false := by
    intro x hx
    obtain ⟨signal, -, hsignal⟩ := Results.element_of_collect htelemetry x hx
    obtain ⟨name, hlookup, rfl⟩ := segment_ok.1 hsignal
    obtain ⟨before, after, hsplit, -⟩ := List.lookup_eq_some_iff.1 hlookup
    refine hsegment name (List.mem_append_right _ (List.mem_map.2 ⟨(signal.1, name), ?_, rfl⟩))
    rw [hsplit]
    exact List.mem_append_right _ List.mem_cons_self
  have hwidth : ∀ flag width, ∀ x ∈ width_flag n flag width, is_flag x.2 = false := by
    intro flag width x hx
    cases width with
    | none => exact absurd hx List.not_mem_nil
    | some width =>
      obtain rfl := List.mem_singleton.1 hx
      exact hstr width
  have hgripper : ∀ x ∈ gripper_flags n l, is_flag x.2 = false := by
    unfold gripper_flags
    cases hshm' : l.gripper_shm with
    | none => exact fun x hx => absurd hx List.not_mem_nil
    | some shm =>
      have hsegment' : is_flag shm = false := hsegment shm (by simp [hshm'])
      dsimp only
      split
      · rw [List.forall_mem_append, List.forall_mem_append]
        refine ⟨⟨?_, hwidth _ _⟩, hwidth _ _⟩
        simp only [List.forall_mem_cons]
        exact ⟨hsegment', hname, hstr _, hstr _, hstr _, hstr _, is_flag_str_int _,
          fun x hx => absurd hx List.not_mem_nil⟩
      · exact fun x hx => absurd hx List.not_mem_nil
  -- group by group, each value is a segment's name, a number or one of the three strings
  rw [flags, List.forall_mem_append, List.forall_mem_append, List.forall_mem_append]
  refine ⟨⟨⟨?_, hrings⟩, ?_⟩, hgripper⟩
  · simp only [List.forall_mem_cons]
    exact ⟨hserial, is_flag_toString _, hsegment _ List.mem_cons_self,
      hsegment _ (List.mem_cons_of_mem _ List.mem_cons_self),
      fun x hx => absurd hx List.not_mem_nil⟩
  · simp only [List.forall_mem_cons]
    exact ⟨hframe, hstr _, hstr _, is_flag_str_int _, hstr _, is_flag_str_int _,
      is_flag_toString _, hstr _, hstr _, fun x hx => absurd hx List.not_mem_nil⟩

end Plain

/-! ## The configuration read -/

section Configured

variable {n : Numerals} {l : Launch} {params : GripperParams} {args : Args}

/-- The gripper that the controller is to drive. -/
def Launch.gripper (l : Launch) (params : GripperParams) : Option Gripper :=
  match l.gripper_shm with
  | none => none
  | some shm =>
    if l.arm.gripper.enabled && l.arm.gripper.name != "" then
      some ⟨shm, l.arm.gripper.name, l.arm.gripper.init_on_start,
        GripperThrottle.gripper_worker l.arm.gripper.toGripperCfg params⟩
    else none

/-- What the controller is to run with, its telemetry rings given. -/
def Launch.configuration (l : Launch) (params : GripperParams) (t : Telemetry) :
    Configuration where
  setpoint_shm := l.setpoint_shm
  command_shm := l.command_shm
  telemetry := t
  dof := (l.arm.dof % 2 ^ 64).toNat
  serial := l.arm.serial
  verbose := l.arm.verbose_rdk
  gripper := l.gripper params
  args := ⟨trunc (double (l.deadman_ms * 1000000)), trunc (double (l.deadman_hard_ms * 1000000)),
    l.arm.control_safety_check, l.arm.control_tolerance, ⟨l.max_joint_vel, l.max_joint_acc⟩⟩
  rt_priority := l.arm.rt_priority

/-- The numbers that go over the command line. -/
def Launch.numbers (l : Launch) : List ℚ :=
  [l.arm.control_tolerance, l.deadman_ms, l.deadman_hard_ms, l.max_joint_vel, l.max_joint_acc,
   l.arm.gripper.velocity, l.arm.gripper.force, l.arm.gripper.move_rate_hz,
   l.arm.gripper.deadband] ++ l.arm.gripper.open_width.toList ++
  l.arm.gripper.closed_width.toList

/-- The integers that the controller casts to are large enough: a priority of 32 bits, and deadmen
of 64 bits in nanoseconds. -/
structure Launch.Castable (l : Launch) : Prop where
  rt_priority : -2 ^ 31 ≤ l.arm.rt_priority ∧ l.arm.rt_priority < 2 ^ 31
  deadman : -2 ^ 63 ≤ trunc (double (l.deadman_ms * 1000000)) ∧
    trunc (double (l.deadman_ms * 1000000)) < 2 ^ 63
  deadman_hard : -2 ^ 63 ≤ trunc (double (l.deadman_hard_ms * 1000000)) ∧
    trunc (double (l.deadman_hard_ms * 1000000)) < 2 ^ 63

/-- A step that returned hands its value on, as a rewriting rule for the launcher's `do` blocks. -/
theorem ok_bind {α β : Type} (a : α) (f : α → Except String β) : (Except.ok a >>= f) = f a := rfl

/-- A whole number is truncated to itself. -/
theorem trunc_intCast (z : ℤ) : trunc z = z := by
  unfold trunc
  split
  · exact Int.floor_intCast z
  · exact Int.ceil_intCast z

/-- A cast to a signed type of so many bits keeps the truncated value where that fits; elsewhere the
language gives no value. -/
theorem static_cast_ok {bits : ℕ} {x : ℚ}
    (h : -2 ^ (bits - 1) ≤ trunc x ∧ trunc x < 2 ^ (bits - 1)) :
    static_cast bits x = .ok (trunc x) := if_pos h

/-- The time between two moves of a gripper can always be cast. -/
theorem static_cast_min_period (rate : ℚ) :
    static_cast 64 (double (1000000000 / max (double (1 / 1000)) rate)) =
      .ok (GripperThrottle.min_period rate) := by
  obtain ⟨hlow, hhigh⟩ := GripperThrottle.min_period_bounds rate
  unfold GripperThrottle.min_period at hlow hhigh
  exact static_cast_ok ⟨le_trans (by norm_num) hlow, lt_of_le_of_lt hhigh (by norm_num)⟩

/-- An optional width comes back as it was configured, and without one the device's own is taken. -/
theorem width_read {flag : String} {width : Option ℚ} (device : ℚ)
    (hlook : ∀ x ∈ width_flag n flag width, args.values.lookup x.1 = some x.2)
    (habsent : width = none → args.values.lookup flag = none)
    (hnum : ∀ x ∈ width, n.stod (n.str x) = .ok x) :
    args.width n flag device = .ok (width.getD device) := by
  cases width with
  | none => simp [Args.width, Args.has, habsent rfl]
  | some x =>
    have hx := hlook _ (List.mem_singleton_self _)
    simp only [Args.width, Args.has, Args.number, hx, Option.isSome_some, if_true, hnum x rfl,
      Option.getD_some]

/-- The gripper's settings come over the command line: enabled or not, its mailbox, its widths, and
the limits it is driven with. -/
theorem gripper_read (hnum : ∀ x ∈ l.numbers, n.stod (n.str x) = .ok x)
    (hlook : ∀ x ∈ gripper_flags n l, args.values.lookup x.1 = some x.2)
    (habsent : ∀ key ∈ GRIPPER_FLAGS, key ∉ (gripper_flags n l).map Prod.fst →
      args.values.lookup key = none) :
    GripperWorker n params args = .ok (l.gripper params) := by
  unfold gripper_flags at hlook habsent
  unfold GripperWorker Launch.gripper
  cases hshm : l.gripper_shm with
  | none =>
    rw [hshm] at habsent
    have hnone := habsent "--gripper-shm" (by simp [GRIPPER_FLAGS]) (by simp)
    simp [Args.has, hnone]
  | some shm =>
    rw [hshm] at hlook habsent
    dsimp only at hlook habsent ⊢
    -- without a channel or a used gripper no flag is passed, and the worker does nothing
    by_cases hused : (l.arm.gripper.enabled && l.arm.gripper.name != "") = true
    · rw [if_pos hused] at hlook habsent ⊢
      rw [List.forall_mem_append, List.forall_mem_append] at hlook
      obtain ⟨⟨hfields, hopen⟩, hclosed⟩ := hlook
      simp only [List.forall_mem_cons] at hfields
      obtain ⟨hshm', hname, hvelocity, hforce, hrate, hdeadband, hinit, -⟩ := hfields
      rw [Launch.numbers, List.forall_mem_append, List.forall_mem_append] at hnum
      obtain ⟨⟨hnumbers, hopenNum⟩, hclosedNum⟩ := hnum
      simp only [List.forall_mem_cons] at hnumbers
      obtain ⟨-, -, -, -, -, hv, hf, hr, hd, -⟩ := hnumbers
      -- a width that is not set is not passed, and the device's own is read
      have hopenRead := width_read params.max_width hopen
        (fun h => habsent _ (by simp [GRIPPER_FLAGS]) (by
          rw [h]
          cases l.arm.gripper.closed_width <;> simp [width_flag]))
        (fun x hx => hopenNum x (Option.mem_toList.2 hx))
      have hclosedRead := width_read params.min_width hclosed
        (fun h => habsent _ (by simp [GRIPPER_FLAGS]) (by
          rw [h]
          cases l.arm.gripper.open_width <;> simp [width_flag]))
        (fun x hx => hclosedNum x (Option.mem_toList.2 hx))
      have hdriven : (!args.has "--gripper-shm" || args.get_or "--gripper-name" "" == "") =
          false := by
        rw [Bool.and_eq_true, bne_iff_ne] at hused
        simp [Args.has, Args.get_or, hshm', hname, hused.2]
      rw [hdriven, if_neg (by decide), hopenRead, hclosedRead]
      simp only [Args.get, Args.boolean, Args.number, hshm', hname, hvelocity, hforce, hrate,
        hdeadband, hinit, hv, hf, hr, hd, ok_bind, boolean_str_int, static_cast_min_period]
      rfl
    · rw [if_neg hused] at habsent ⊢
      have hnone := habsent "--gripper-shm" (by simp [GRIPPER_FLAGS]) (by simp)
      simp [Args.has, hnone]

/-- The controller runs with the settings of the arm's configuration unless one of the strings
among them begins with two dashes: the limits are positive, which the controller checks; its
integers hold the priority, the deadmen and the degrees of freedom; and a number is read as it was
written. -/
theorem controller_runs_as_configured {argv : List String}
    (h : (controller_args n l >>= Popen) = .ok argv)
    (hplain : ∀ telemetry, telemetry_flags l.telemetry_shm = .ok telemetry →
      ∀ x ∈ flags n l telemetry, is_flag x.2 = false)
    (hnum : ∀ x ∈ l.numbers, n.stod (n.str x) = .ok x)
    (hpriority : n.stod (toString l.arm.rt_priority) = .ok (l.arm.rt_priority : ℚ))
    (hdof : -2 ^ 64 < l.arm.dof ∧ l.arm.dof < 2 ^ 64)
    (hlimits : 0 < l.max_joint_vel ∧ 0 < l.max_joint_acc) (hcast : l.Castable) :
    ∃ t : Telemetry, t.Of l.telemetry_shm ∧
      t.world_wrench = (l.arm.wrench_frame == "world") ∧
      main n params argv = .ok (.run (l.configuration params t)) := by
  obtain ⟨telemetry, htelemetry, rfl⟩ := argv_ok h
  obtain ⟨t, hof, hworld, rfl⟩ := telemetry_flags_ok (l.arm.wrench_frame == "world") htelemetry
  refine ⟨t, hof, hworld, ?_⟩
  -- the line parses, and each flag is looked up as it was passed or not at all
  have hparse : Args.parse (argv_of l.executable (flags n l t.flags)) =
      .ok ((flags n l t.flags).foldl Args.assign ⟨[]⟩) :=
    read_pairs (fun x hx => is_flag_of_mem_FLAGS x.1
      ((flags_keys t).subset (List.mem_map_of_mem hx))) ⟨[]⟩
  have hlook : ∀ x ∈ flags n l t.flags,
      ((flags n l t.flags).foldl Args.assign ⟨[]⟩).values.lookup x.1 = some x.2 :=
    lookup_of_plain (hplain _ htelemetry) (nodup_FLAGS.sublist (flags_keys t))
  have habsent : ∀ key ∉ (flags n l t.flags).map Prod.fst,
      ((flags n l t.flags).foldl Args.assign ⟨[]⟩).values.lookup key = none :=
    fun key hkey => lookup_assigns_of_plain (hplain _ htelemetry) hkey
  generalize (flags n l t.flags).foldl Args.assign ⟨[]⟩ = args at hparse hlook habsent
  -- neither validation mode is asked for, since `dual_flexiv_control` passes no such flag
  have hvalidate : ∀ key, key ∉ FLAGS → args.values.lookup key = none :=
    fun key hkey => habsent key fun hmem => hkey ((flags_keys t).subset hmem)
  have htrajectory := hvalidate "--validate-trajectory"
    (by simp [FLAGS, ARM_FLAGS, TELEMETRY, GRIPPER_FLAGS])
  have hring := hvalidate "--validate-ring"
    (by simp [FLAGS, ARM_FLAGS, TELEMETRY, GRIPPER_FLAGS])
  -- one lookup for every flag, by the group of the command line it stands in
  rw [flags, List.forall_mem_append, List.forall_mem_append, List.forall_mem_append] at hlook
  obtain ⟨⟨⟨harm, hrings⟩, hcontrol⟩, hgripper⟩ := hlook
  simp only [List.forall_mem_cons] at harm hcontrol
  simp only [Telemetry.flags, List.forall_mem_cons] at hrings
  obtain ⟨hserial, hdofs, hsetpoint, hcommand, -⟩ := harm
  obtain ⟨hq, hdq, htau, htau_ext, hwrench, heef, heef_vel, hstatus, -⟩ := hrings
  obtain ⟨hframe, hsoft, hhard, hsafety, htolerance, hverbose, hrt, hvel, hacc, -⟩ := hcontrol
  have hgripperRead := @gripper_read n l params args hnum hgripper
    fun key hkey hnot => habsent key (not_mem_flags t hkey hnot)
  rw [Launch.numbers, List.forall_mem_append, List.forall_mem_append] at hnum
  have hnumbers := hnum.1.1
  simp only [List.forall_mem_cons] at hnumbers
  obtain ⟨ntolerance, nsoft, nhard, nvel, nacc, -⟩ := hnumbers
  have htelemetryRead : Telemetry.open args = .ok t := by
    simp only [Telemetry.open, Args.get, Args.get_or, hq, hdq, htau, htau_ext, hwrench, heef,
      heef_vel, hstatus, hframe, ok_bind, Option.getD_some, ← hworld]
    rfl
  -- the casts are in range, so they truncate
  have hsoftCast : static_cast 64 (double (l.deadman_ms * 1000000)) =
      .ok (trunc (double (l.deadman_ms * 1000000))) := static_cast_ok hcast.deadman
  have hhardCast : static_cast 64 (double (l.deadman_hard_ms * 1000000)) =
      .ok (trunc (double (l.deadman_hard_ms * 1000000))) := static_cast_ok hcast.deadman_hard
  have hrtCast : static_cast 32 (l.arm.rt_priority : ℚ) = .ok l.arm.rt_priority := by
    rw [static_cast_ok (by rw [trunc_intCast]; exact hcast.rt_priority), trunc_intCast]
  have hrun : Run n params args = .ok (l.configuration params t) := by
    simp only [Run, Args.get, Args.get_or, Args.number, Args.boolean, hserial, hdofs, hsetpoint,
      hcommand, hsoft, hhard, hsafety, htolerance, hverbose, hrt, hvel, hacc, ntolerance, nsoft,
      nhard, nvel, nacc, hpriority, htelemetryRead, hgripperRead, ok_bind, Option.getD_some,
      boolean_str_int, stoul_toString hdof.1 hdof.2, hsoftCast, hhardCast, hrtCast]
    rw [if_neg (by rw [not_or, not_le, not_le]; exact hlimits)]
    rfl
  simp only [main, hparse, ok_bind, Args.has, htrajectory, hring, hrun, Option.isSome_none]
  rfl

end Configured

/-- A few numbers in both writings. -/
def written : List (ℚ × String) :=
  [(1 / 2, "0.5"), (100, "100.0"), (500, "500.0"), (3 / 2, "1.5"), (2, "2.0"),
   (double (1 / 10), "0.1"), (40, "40.0"), (15, "15.0"), (double (1 / 50), "0.02"), (0, "0.0")]

/-- `str` and `std::stod` on these numbers, and on the integers below ten. -/
def numerals : Numerals where
  str x := (written.lookup x).getD "nan"
  stod s :=
    match (written.map Prod.swap).lookup s, (List.range 10).find? fun m => toString m == s with
    | some x, _ => .ok x
    | none, some m => .ok m
    | none, none => .error "stod"

/-- An arm with a gripper whose closed width is given. -/
def test_launch : Launch where
  executable := "/controller"
  arm := ⟨"Rizon4s-test", 7, "local", false, 1 / 2, false, 0,
    ⟨⟨none, some 0, double (1 / 10), 40, 15, double (1 / 50)⟩, true, "Flexiv-GN01", true⟩⟩
  deadman_ms := 100
  deadman_hard_ms := 500
  max_joint_vel := 3 / 2
  max_joint_acc := 2
  setpoint_shm := Streams.shm_name_for "r" "setpoint"
  command_shm := Streams.shm_name_for "r" "command"
  telemetry_shm := TELEMETRY.map fun x => (x.1, Streams.shm_name_for "s" x.1)
  gripper_shm := some (Streams.shm_name_for "r" "gripper")

/-- No float's text is taken for a flag: it begins with a digit, or with a single minus sign. -/
theorem numerals_str (x : ℚ) : is_flag (numerals.str x) = false := by
  change is_flag ((written.lookup x).getD "nan") = false
  cases h : written.lookup x with
  | none => decide
  | some s =>
    obtain ⟨before, after, hsplit, -⟩ := List.lookup_eq_some_iff.1 h
    have hs : (x, s) ∈ written := by
      rw [hsplit]
      exact List.mem_append_right _ List.mem_cons_self
    have hall : ∀ y ∈ written.map Prod.snd, is_flag y = false := by decide
    exact hall s (List.mem_map_of_mem hs)

/-- None of the values of the example launch is taken for a flag. -/
theorem test_launch_plain (telemetry : List (String × String))
    (h : telemetry_flags test_launch.telemetry_shm = .ok telemetry) :
    ∀ x ∈ flags numerals test_launch telemetry, is_flag x.2 = false := by
  refine plain_flags numerals_str (by decide) (by decide) (by decide) ?_ h
  simp only [test_launch, TELEMETRY, List.map_cons, List.map_nil, Option.toList,
    List.cons_append, List.nil_append, List.forall_mem_cons]
  exact ⟨⟨_, _, rfl⟩, ⟨_, _, rfl⟩, ⟨_, _, rfl⟩, ⟨_, _, rfl⟩, ⟨_, _, rfl⟩, ⟨_, _, rfl⟩,
    ⟨_, _, rfl⟩, ⟨_, _, rfl⟩, ⟨_, _, rfl⟩, ⟨_, _, rfl⟩, ⟨_, _, rfl⟩,
    fun x hx => absurd hx List.not_mem_nil⟩

/-- Its command line. -/
def test_argv : List String :=
  argv_of "/controller" (flags numerals test_launch
    (TELEMETRY.map fun x => (x.2, Streams.shm_name_for "s" x.1)))

/-- The command line of the example launch, as `Popen` gets it. -/
theorem test_launch_argv : (controller_args numerals test_launch >>= Popen) = .ok test_argv := by
  have hargs : controller_args numerals test_launch = .ok test_argv := rfl
  have hnul : ¬ (test_argv.any fun s => s.toList.contains '\x00') = true := by decide +kernel
  rw [hargs, ok_bind, Popen, if_neg hnul]

/-- Its command line is read back. -/
theorem test_launch_read_back : ∃ (telemetry : List (String × String)) (args : Args),
    telemetry_flags test_launch.telemetry_shm = .ok telemetry ∧
    ∀ x ∈ flags numerals test_launch telemetry, args.get x.1 = .ok x.2 := by
  obtain ⟨telemetry, args, htelemetry, -, hiff⟩ := argv_read_back test_launch_argv
  exact ⟨telemetry, args, htelemetry, hiff.2 (test_launch_plain telemetry htelemetry)⟩

/-- The integers of the example launch fit the types that the controller casts them to. -/
theorem test_launch_castable : test_launch.Castable :=
  ⟨by decide, by decide +kernel, by decide +kernel⟩

/-- The controller is run with its settings. -/
theorem test_launch_configured : ∃ t : Telemetry, t.q = Streams.shm_name_for "s" "q" ∧
    main numerals ⟨0, double (1 / 10), 0, 1, 10, 50⟩ test_argv =
      .ok (.run (test_launch.configuration ⟨0, double (1 / 10), 0, 1, 10, 50⟩ t)) := by
  have hnum : ∀ x ∈ test_launch.numbers, numerals.stod (numerals.str x) = .ok x := by
    decide +kernel
  obtain ⟨t, hof, -, hmain⟩ := controller_runs_as_configured test_launch_argv test_launch_plain
    hnum rfl (by decide) (by decide +kernel) test_launch_castable
  exact ⟨t, Option.some.inj (hof _ List.mem_cons_self).symm, hmain⟩

end DualFlexivControl.Native.CommandLine
