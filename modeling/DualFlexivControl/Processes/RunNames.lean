/-
Process numbers in names: `make_run_id`, and the patterns `orphans.py` reads them back with.

A run id is the process number of the supervisor and eight hexadecimal digits. It names the
run's directory and, in front of a stream's name, its shared-memory segments, so that a name
alone says whose debris it is. The patterns are Python's: a `\d` is a decimal digit of any
script, and `isdigit` admits more than `int` can read.
-/
import DualFlexivControl.Streams.Registry
import Mathlib.Data.List.TakeWhile
import Mathlib.Data.Nat.Basic

set_option autoImplicit false

namespace DualFlexivControl.Processes

open DualFlexivControl.Streams

/-! ## Digits -/

/-- The zeros; the nine characters after each are the other digits of its script. -/
def decimal_zeros : List ℕ :=
  0x30 ::
  [0x660, 0x6f0, 0x7c0, 0x966, 0x9e6, 0xa66, 0xae6, 0xb66, 0xbe6, 0xc66, 0xce6, 0xd66,
   0xde6, 0xe50, 0xed0, 0xf20, 0x1040, 0x1090, 0x17e0, 0x1810, 0x1946, 0x19d0, 0x1a80, 0x1a90,
   0x1b50, 0x1bb0, 0x1c40, 0x1c50, 0xa620, 0xa8d0, 0xa900, 0xa9d0, 0xa9f0, 0xaa50, 0xabf0,
   0xff10, 0x104a0, 0x10d30, 0x11066, 0x110f0, 0x11136, 0x111d0, 0x112f0, 0x11450, 0x114d0,
   0x11650, 0x116c0, 0x11730, 0x118e0, 0x11950, 0x11c50, 0x11d50, 0x11da0, 0x16a60, 0x16ac0,
   0x16b50, 0x1d7ce, 0x1d7d8, 0x1d7e2, 0x1d7ec, 0x1d7f6, 0x1e140, 0x1e2f0, 0x1e950, 0x1fbf0]

/-- The value of a decimal digit. -/
def decimal (c : Char) : Option ℕ :=
  (decimal_zeros.find? fun first => first ≤ c.toNat && c.toNat < first + 10).map (c.toNat - ·)

/-- `\d`. -/
def is_decimal (c : Char) : Bool := (decimal c).isSome

/-- Superscripts, circled digits and the like: digits that are not decimal. -/
def other_digits : List (ℕ × ℕ) :=
  [(0xb2, 0xb3), (0xb9, 0xb9), (0x1369, 0x1371), (0x19da, 0x19da), (0x2070, 0x2070),
   (0x2074, 0x2079), (0x2080, 0x2089), (0x2460, 0x2468), (0x2474, 0x247c), (0x2488, 0x2490),
   (0x24ea, 0x24ea), (0x24f5, 0x24fd), (0x24ff, 0x24ff), (0x2776, 0x277e), (0x2780, 0x2788),
   (0x278a, 0x2792), (0x10a40, 0x10a43), (0x10e60, 0x10e68), (0x11052, 0x1105a),
   (0x1f100, 0x1f10a)]

/-- `str.isdigit`. -/
def isdigit (s : String) : Bool :=
  s.toList != [] && s.toList.all fun c =>
    is_decimal c || other_digits.any fun range => range.1 ≤ c.toNat && c.toNat ≤ range.2

/-- The number that decimal digits write. -/
def decimal_value (digits : List Char) : ℕ :=
  digits.foldl (fun n c => 10 * n + (decimal c).getD 0) 0

/-- `int` of a string of digits; a digit that is not decimal is a `ValueError`. -/
def int (s : String) : Option ℕ :=
  if s.toList != [] && s.toList.all is_decimal then some (decimal_value s.toList) else none

/-- `[0-9a-f]`. -/
def is_hex (c : Char) : Bool := c.isDigit || ('a' ≤ c && c ≤ 'f')

theorem decimal_of_isDigit {c : Char} (h : c.isDigit = true) :
    decimal c = some (c.toNat - '0'.toNat) := by
  have hc : 48 ≤ c.toNat ∧ c.toNat ≤ 57 := by
    simpa [Char.isDigit, UInt32.le_iff_toNat_le] using h
  have hzero : (decide (0x30 ≤ c.toNat) && decide (c.toNat < 0x30 + 10)) = true := by
    simp only [Bool.and_eq_true, decide_eq_true_eq]
    omega
  unfold decimal decimal_zeros
  rw [List.find?_cons, hzero]
  rfl

theorem is_decimal_of_isDigit {c : Char} (h : c.isDigit = true) : is_decimal c = true := by
  rw [is_decimal, decimal_of_isDigit h]
  rfl

/-- On the digits of a number the value is the number, which is how a pid is read back from a name.
-/
theorem decimal_value_toDigits (n : ℕ) : decimal_value (Nat.toDigits 10 n) = n := by
  have hstep : ∀ (cs : List Char) (m : ℕ), (∀ c ∈ cs, c.isDigit = true) →
      cs.foldl (fun n c => 10 * n + (decimal c).getD 0) m = Nat.ofDigitChars 10 cs m := by
    intro cs
    induction cs with
    | nil => exact fun m _ => (Nat.ofDigitChars_nil).symm
    | cons c cs ih =>
      intro m hdigits
      rw [Nat.ofDigitChars_cons, List.foldl_cons,
        decimal_of_isDigit (hdigits c List.mem_cons_self), Option.getD_some]
      exact ih _ fun c' hc' => hdigits c' (List.mem_cons_of_mem c hc')
  unfold decimal_value
  rw [hstep _ 0 fun c hc => Nat.isDigit_of_mem_toDigits (by omega) (by omega) hc]
  exact Nat.ofDigitChars_ten_toDigits

theorem toList_toString (n : ℕ) : (toString n).toList = Nat.toDigits 10 n := Nat.toList_repr

theorem toDigits_all_decimal (n : ℕ) : (Nat.toDigits 10 n).all is_decimal = true := by
  rw [List.all_eq_true]
  exact fun c hc => is_decimal_of_isDigit (Nat.isDigit_of_mem_toDigits (by omega) (by omega) hc)

/-- And `int` reads back. -/
theorem int_toString (n : ℕ) : int (toString n) = some n := by
  unfold int
  rw [toList_toString, toDigits_all_decimal, decimal_value_toDigits]
  simp [Nat.toDigits_ne_nil]

/-! ## Run ids -/

/-- The first eight digits of `uuid4().hex`. -/
structure Hex8 where
  chars : List Char
  length : chars.length = 8
  hex : ∀ c ∈ chars, is_hex c = true

/-- `make_run_id`, of the process with this number. -/
def make_run_id (pid : ℕ) (uuid : Hex8) : String :=
  toString pid ++ "_" ++ String.ofList uuid.chars

/-- The two groups of the patterns. -/
structure Groups where
  digits : List Char
  uuid : List Char
  deriving DecidableEq, Repr

/-- `int(m.group(1))`. -/
def Groups.pid (m : Groups) : ℕ := decimal_value m.digits

/-- The run id the groups make up. -/
def Groups.run_id (m : Groups) : String :=
  String.ofList m.digits ++ "_" ++ String.ofList m.uuid

/-- `(\d+)_([0-9a-f]{8})`, and what follows. -/
def match_run (cs : List Char) : Option (Groups × List Char) :=
  match cs.dropWhile is_decimal with
  | '_' :: rest =>
    if cs.takeWhile is_decimal ≠ [] ∧ 8 ≤ rest.length ∧ (rest.take 8).all is_hex then
      some (⟨cs.takeWhile is_decimal, rest.take 8⟩, rest.drop 8)
    else none
  | _ => none

/-- `_SHM_RE.match`. -/
def shm_re (name : String) : Option Groups :=
  match name.toList with
  | 'd' :: 'f' :: 'c' :: '_' :: cs =>
    match match_run cs with
    | some (m, '_' :: _) => some m
    | _ => none
  | _ => none

/-- `_RUN_DIR_RE.match`; a `$` matches before a final newline too. -/
def run_dir_re (name : String) : Option Groups :=
  match match_run name.toList with
  | some (m, []) => some m
  | some (m, ['\n']) => some m
  | _ => none

/-- The groups of a run id. -/
def groups_of (pid : ℕ) (uuid : Hex8) : Groups := ⟨Nat.toDigits 10 pid, uuid.chars⟩

@[simp] theorem groups_of_pid (pid : ℕ) (uuid : Hex8) : (groups_of pid uuid).pid = pid :=
  decimal_value_toDigits pid

@[simp] theorem groups_of_run_id (pid : ℕ) (uuid : Hex8) :
    (groups_of pid uuid).run_id = make_run_id pid uuid := by
  unfold groups_of Groups.run_id make_run_id
  rw [← toList_toString, String.ofList_toList]

theorem toList_make_run_id (pid : ℕ) (uuid : Hex8) :
    (make_run_id pid uuid).toList = Nat.toDigits 10 pid ++ '_' :: uuid.chars := by
  unfold make_run_id
  rw [String.toList_append, String.toList_append, toList_toString, String.toList_ofList,
    List.append_assoc]
  simp

/-- The pattern splits a run id where it was put together, whatever follows. -/
theorem match_run_id (pid : ℕ) (uuid : Hex8) (rest : List Char) :
    match_run (Nat.toDigits 10 pid ++ '_' :: (uuid.chars ++ rest)) =
      some (groups_of pid uuid, rest) := by
  have hdigits : ∀ c ∈ Nat.toDigits 10 pid, is_decimal c = true :=
    List.all_eq_true.1 (toDigits_all_decimal pid)
  have hunderscore : ¬ is_decimal '_' = true := by decide
  have htake : (Nat.toDigits 10 pid ++ '_' :: (uuid.chars ++ rest)).takeWhile is_decimal =
      Nat.toDigits 10 pid := by
    rw [List.takeWhile_append_of_pos hdigits, List.takeWhile_cons_of_neg hunderscore,
      List.append_nil]
  have hdrop : (Nat.toDigits 10 pid ++ '_' :: (uuid.chars ++ rest)).dropWhile is_decimal =
      '_' :: (uuid.chars ++ rest) := by
    rw [List.dropWhile_append_of_pos hdigits, List.dropWhile_cons_of_neg hunderscore]
  have hhex : (uuid.chars ++ rest).take 8 = uuid.chars := by
    rw [← uuid.length, List.take_left']
    rfl
  have hrest : (uuid.chars ++ rest).drop 8 = rest := by
    rw [← uuid.length, List.drop_left']
    rfl
  unfold match_run
  rw [htake, hdrop]
  simp only [hhex, hrest]
  rw [if_pos ⟨Nat.toDigits_ne_nil, by rw [List.length_append, uuid.length]; omega,
    List.all_eq_true.2 uuid.hex⟩]
  rfl

/-- A run's directory is recognised. -/
theorem run_dir_re_make_run_id (pid : ℕ) (uuid : Hex8) :
    run_dir_re (make_run_id pid uuid) = some (groups_of pid uuid) := by
  have hmatch := match_run_id pid uuid []
  rw [List.append_nil] at hmatch
  unfold run_dir_re
  rw [toList_make_run_id, hmatch]

/-! ## Segments -/

/-- Safe characters stay as they are. -/
theorem collapse_of_safe {cs : List Char} (h : ∀ c ∈ cs, is_safe c = true) :
    collapse false cs = cs := by
  induction cs with
  | nil => rfl
  | cons c cs ih =>
    rw [collapse, if_pos (h c List.mem_cons_self),
      ih fun c' hc' => h c' (List.mem_cons_of_mem c hc')]

theorem is_safe_of_isDigit {c : Char} (h : c.isDigit = true) : is_safe c = true := by
  simp [is_safe, Char.isAlphanum, h]

theorem is_safe_of_is_hex {c : Char} (h : is_hex c = true) : is_safe c = true := by
  unfold is_hex at h
  rw [Bool.or_eq_true] at h
  rcases h with h | h
  · exact is_safe_of_isDigit h
  · have hlower : c.isLower = true := by
      simp only [Bool.and_eq_true, decide_eq_true_eq, Char.le_def, UInt32.le_iff_toNat_le] at h
      have hval : ('a'.val.toNat = 97) ∧ ('f'.val.toNat = 102) := ⟨rfl, rfl⟩
      change (decide ('a'.val ≤ c.val) && decide (c.val ≤ 'z'.val)) = true
      simp only [Bool.and_eq_true, decide_eq_true_eq, UInt32.le_iff_toNat_le]
      have hz : 'z'.val.toNat = 122 := rfl
      omega
    have halpha : c.isAlpha = true := by
      change (c.isUpper || c.isLower) = true
      rw [hlower, Bool.or_true]
    simp [is_safe, Char.isAlphanum, halpha]

/-- `sanitize` does nothing to a run id, as it consists of safe characters. -/
theorem sanitize_make_run_id (pid : ℕ) (uuid : Hex8) :
    sanitize (make_run_id pid uuid) = make_run_id pid uuid := by
  have hsafe : ∀ c ∈ (make_run_id pid uuid).toList, is_safe c = true := by
    intro c hc
    rw [toList_make_run_id, List.mem_append, List.mem_cons] at hc
    rcases hc with hc | rfl | hc
    · exact is_safe_of_isDigit (Nat.isDigit_of_mem_toDigits (by omega) (by omega) hc)
    · rfl
    · exact is_safe_of_is_hex (uuid.hex c hc)
  unfold sanitize
  rw [collapse_of_safe hsafe, String.ofList_toList]

/-- A segment's name gives back the run it was made for, whatever its stream is called. -/
theorem shm_re_shm_name_for (pid : ℕ) (uuid : Hex8) (stream_name : String) :
    shm_re (shm_name_for (make_run_id pid uuid) stream_name) = some (groups_of pid uuid) := by
  have hlist : (shm_name_for (make_run_id pid uuid) stream_name).toList =
      'd' :: 'f' :: 'c' :: '_' :: (Nat.toDigits 10 pid ++
        '_' :: (uuid.chars ++ '_' :: (sanitize stream_name).toList)) := by
    unfold shm_name_for
    rw [sanitize_make_run_id]
    simp only [String.toList_append, toList_make_run_id, List.append_assoc, List.cons_append]
    rfl
  unfold shm_re
  rw [hlist]
  simp only [match_run_id]

end DualFlexivControl.Processes
