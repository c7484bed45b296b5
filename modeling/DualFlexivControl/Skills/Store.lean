/-
The skill store: one JSON file for each skill, under its name (`skills.py`).

`save_skill`, `load_skill`, `rename_skill` and `delete_skill` work on a directory of files and
have no index beside it. The directory nevertheless is a map from names to skills: a name and its
file determine each other, a temporary file is never a skill's, and what is loaded is what was
saved. [`Spec`] is that map on its own, and [`store_refines_map`] relates the two over every
sequence of operations.

File operations succeed. The text of a document is identified with the document, which is what
`json.loads(json.dumps(payload))` gives back.
-/
import Mathlib.Logic.Function.Basic
import DualFlexivControl.Lib.Effects
import DualFlexivControl.Lib.Runs
import DualFlexivControl.Documents
import DualFlexivControl.Skills.Episode

set_option autoImplicit false

namespace DualFlexivControl.Skills.Store

open Effect Results Documents
open Daemon (Json)

/-! ## Skills and their files -/

/-- A `Skill` as it is stored: with any JSON object for where it came from. -/
abbrev StoredSkill := Skill Ieee (List (String × Json))

/-- What the store raises; all but `python` are `ValueError`s. -/
inductive StoreError
  | invalid_name (name : String)
  | skill (raised : SkillError)
  | none_selected
  | not_found (name : String)
  | unreadable (file : String)
  | newer_version (name : String) (version : ℤ)
  | already_exists (name : String)
  | python (raised : PyError)

/-- `FORMAT_VERSION` -/
def FORMAT_VERSION : ℤ := 1

/-- `list.tolist()` of numbers. -/
def numbers (xs : List Ieee) : Json := .arr (xs.map .float)

/-- What `save_skill` writes. -/
def payload (skill : StoredSkill) (created : String) : Json :=
  .obj [("version", .int FORMAT_VERSION),
    ("name", .str skill.name),
    ("created", .str created),
    ("fps", .float skill.fps),
    ("sides", .arr (skill.q.map fun e => .str e.1)),
    ("frames", .int skill.frames),
    ("source", .obj skill.source),
    ("q", .obj (skill.q.map fun e => (e.1, .arr (e.2.rows.map numbers)))),
    ("gripper", .obj (skill.gripper.map fun e => (e.1, numbers e.2)))]

section Reading

/-- The texts that `str` makes of values that are no strings. -/
abbrev Repr := Json → String

/-- `str(value)` -/
def str (repr : Repr) : Json → String
  | .str s => s
  | value => repr value

variable (numerals : Numerals)

/-- A list of numbers, as an array. -/
def vector : Json → Except PyError (List Ieee)
  | .arr xs => collect (float numerals) xs
  | _ => .error .value_error

/-- A list of rows of numbers, as an array with two axes; other arrays do not get past
`validate`. -/
def matrix : Json → Except PyError (Array2 Ieee)
  | .arr xs => do
    let rows ← collect (vector numerals) xs
    let width := (rows.headD []).length
    if h : ∀ row ∈ rows, row.length = width then pure ⟨rows, width, h⟩
    else throw .value_error
  | _ => .error .value_error

/-- `{key: read(value) for key, value in (payload.get(field) or {}).items()}` -/
def entries {α : Type} (read : Json → Except PyError α) (doc : Json) (field : String) :
    Except PyError (List (String × α)) := do
  let value ← get doc field
  let fields ← items (or_default (value.getD .null) (.obj []))
  collect (fun e => do pure (e.1, ← read e.2)) fields

/-- `dict(value)` of an object. -/
def as_dict : Json → Except PyError (List (String × Json))
  | .obj fields => .ok fields
  | .arr _ => .error .value_error
  | .str _ => .error .value_error
  | _ => .error .type_error

variable (repr : Repr)

/-- The skill a document describes. -/
def decode (doc : Json) (name : String) : Except PyError StoredSkill := do
  let stored_name ← get doc "name"
  let fps ← float numerals (or_default ((← get doc "fps").getD .null) (.float (.fin 0)))
  let q ← entries (matrix numerals) doc "q"
  let gripper ← entries (vector numerals) doc "gripper"
  let source ← as_dict (or_default ((← get doc "source").getD .null) (.obj []))
  let created ← get doc "created"
  pure ⟨str repr (or_default (stored_name.getD .null) (.str name)), fps, q, gripper, source,
    str repr (or_default (created.getD .null) (.str ""))⟩

/-- `load_skill`, once the file is read. -/
def read_skill (file name : String) : FileText → Except StoreError StoredSkill
  | .unreadable => .error (.unreadable file)
  | .not_json => .error (.unreadable file)
  | .nested_too_deep => .error (.python .recursion_error)
  | .document doc => do
    let version ← (do
      int numerals (or_default ((← get doc "version").getD .null) (.int 0))).mapError .python
    if FORMAT_VERSION < version then throw (.newer_version name version)
    else
      let skill ← (decode numerals repr doc name).mapError .python
      skill.validate.mapError .skill
      pure skill

end Reading

/-! ## The operations -/

/-- The files of the skills directory. -/
abbrev Dir := String → Option FileText

/-- The text `time.strftime` gives for a date, which is never empty. -/
structure Stamp where
  text : String
  nonempty : text ≠ ""

/-- `skill_file`: the name of the file. -/
def skill_file (name : String) : Except StoreError String :=
  if name_matches name = true then .ok (name ++ ".json") else .error (.invalid_name name)

/-- `path.with_suffix(".json.tmp")` of a skill's file. -/
def tmp_of (file : String) : String := file ++ ".tmp"

/-- `tmp.write_text(text)`, then `os.replace(tmp, path)`. -/
def write_atomically (file : String) (text : FileText) (dir : Dir) : Dir :=
  let dir := Function.update dir (tmp_of file) (some text)
  Function.update (Function.update dir file (dir (tmp_of file))) (tmp_of file) none

/-- `skill.created or time.strftime(...)` -/
def stamped (skill : StoredSkill) (now : Stamp) : String :=
  if skill.created = "" then now.text else skill.created

variable (numerals : Numerals) (repr : Repr)

/-- `save_skill` -/
def save_skill (skill : StoredSkill) (now : Stamp) : Effect StoreError Dir String := do
  call (skill.validate.mapError .skill)
  let file ← call (skill_file skill.name)
  update (write_atomically file (.document (payload skill (stamped skill now))))
  pure file

/-- `load_skill` -/
def load_skill (name : Option String) : Effect StoreError Dir StoredSkill := do
  let name := name.getD ""
  if name = "" then throw .none_selected
  else
    let file ← call (skill_file name)
    match (← MonadState.get) file with
    | none => throw (.not_found name)
    | some text => call (read_skill numerals repr file name text)

/-- `delete_skill` -/
def delete_skill (name : String) : Effect StoreError Dir Unit := do
  let file ← call (skill_file name)
  update fun dir => Function.update dir file none

/-- `rename_skill` -/
def rename_skill (old new : String) (now : Stamp) : Effect StoreError Dir String := do
  let src ← call (skill_file old)
  let dst ← call (skill_file new)
  let skill ← load_skill numerals repr (some old)
  if dst = src then pure src
  else
    let dir ← MonadState.get
    if (dir dst).isSome then throw (.already_exists new)
    else
      let path ← save_skill { skill with name := new } now
      update fun dir => Function.update dir src none
      pure path

/-- One operation. -/
inductive Op
  | save (skill : StoredSkill) (now : Stamp)
  | load (name : Option String)
  | rename (old new : String) (now : Stamp)
  | delete (name : String)

/-- What an operation returns. -/
inductive Answer
  | path (file : String)
  | skill (skill : StoredSkill)
  | done

/-- An operation on the directory. -/
def perform : Op → Effect StoreError Dir Answer
  | .save skill now => do return .path (← save_skill skill now)
  | .load name => do return .skill (← load_skill numerals repr name)
  | .rename old new now => do return .path (← rename_skill numerals repr old new now)
  | .delete name => do
    delete_skill name
    return .done

/-- What an operation returns, if it does not raise, and the directory it leaves. -/
def answer (dir : Dir) (op : Op) : Option Answer × Dir :=
  ((exec (perform numerals repr op) dir).1.toOption, (exec (perform numerals repr op) dir).2)

/-! ## The map -/

/-- The skills by name. -/
abbrev SkillMap := String → Option StoredSkill

/-- What each operation is on the map: saving sets one name, renaming moves one entry to a name
that is free, deleting clears one name, and what raises changes nothing. -/
def Spec (skills : SkillMap) : Op → Option Answer × SkillMap
  | .save skill now =>
    match skill.validate with
    | .error _ => (none, skills)
    | .ok _ => (some (.path (skill.name ++ ".json")),
        Function.update skills skill.name (some { skill with created := stamped skill now }))
  | .load none => (none, skills)
  | .load (some name) => ((skills name).map .skill, skills)
  | .rename old new _ =>
    match skills old with
    | none => (none, skills)
    | some skill =>
      if ¬ name_matches new = true then (none, skills)
      else if new = old then (some (.path (old ++ ".json")), skills)
      else if (skills new).isSome then (none, skills)
      else (some (.path (new ++ ".json")), Function.update
        (Function.update skills new (some { skill with name := new })) old none)
  | .delete name =>
    if name_matches name = true then (some .done, Function.update skills name none)
    else (none, skills)

/-- The files are those of the skills in the map, each under its own name. -/
structure Represents (dir : Dir) (skills : SkillMap) : Prop where
  stored : ∀ name skill, skills name = some skill →
    dir (name ++ ".json") = some (.document (payload skill skill.created))
  only : ∀ file text, dir file = some text →
    ∃ name skill, skills name = some skill ∧ file = name ++ ".json"
  named : ∀ name skill, skills name = some skill → skill.name = name
  valid : ∀ name skill, skills name = some skill → skill.validate = .ok ()
  dated : ∀ name skill, skills name = some skill → skill.created ≠ ""

/-! ## Names and files -/

/-- Names of unlike skills give unlike files, since both end alike. -/
theorem file_inj {name name' : String} (h : name ++ ".json" = name' ++ ".json") :
    name = name' := by
  apply String.toList_inj.1
  have hlist := congrArg String.toList h
  rw [String.toList_append, String.toList_append] at hlist
  exact List.append_cancel_right hlist

/-- A temporary file is no skill's file, whatever the names are, because their endings differ. -/
theorem tmp_ne_file {file name : String} : tmp_of file ≠ name ++ ".json" := by
  intro h
  have hlast := congrArg (fun s : String => s.toList.getLast?) h
  unfold tmp_of at hlast
  rw [String.toList_append, String.toList_append, List.getLast?_append, List.getLast?_append]
    at hlast
  have htmp : ".tmp".toList.getLast? = some 'p' := by decide
  have hjson : ".json".toList.getLast? = some 'n' := by decide
  rw [htmp, hjson, Option.some_or, Option.some_or, Option.some_inj] at hlast
  exact absurd hlast (by decide)

section Represents

variable {dir : Dir} {skills : SkillMap} {name : String} {skill : StoredSkill}

/-- What a name's file holds: the document of the skill that the map has under the name, or nothing
where it has none. -/
theorem Represents.lookup (h : Represents dir skills) (name : String) :
    dir (name ++ ".json") =
      (skills name).map fun skill => .document (payload skill skill.created) := by
  rcases hskill : skills name with _ | skill
  · rcases htext : dir (name ++ ".json") with _ | text
    · rfl
    · obtain ⟨name', skill, hskill', hfile⟩ := h.only _ text htext
      rw [← file_inj hfile, hskill] at hskill'
      exact nomatch hskill'
  · exact h.stored name skill hskill

/-- No temporary file is left behind by any operation. -/
theorem Represents.tmp_free (h : Represents dir skills) (file : String) :
    dir (tmp_of file) = none := by
  rcases htext : dir (tmp_of file) with _ | text
  · rfl
  · obtain ⟨name, _, _, hfile⟩ := h.only _ text htext
    exact absurd hfile tmp_ne_file

/-- Writing through the temporary file writes the file and nothing else: the temporary file did not
exist before and is renamed away. -/
theorem Represents.write (h : Represents dir skills) (name : String) (text : FileText) :
    write_atomically (name ++ ".json") text dir =
      Function.update dir (name ++ ".json") (some text) := by
  funext file
  unfold write_atomically
  rw [Function.update_self]
  by_cases htmp : file = tmp_of (name ++ ".json")
  · rw [htmp, Function.update_self, Function.update_of_ne tmp_ne_file]
    exact (h.tmp_free _).symm
  · rw [Function.update_of_ne htmp]
    by_cases hfile : file = name ++ ".json"
    · rw [hfile, Function.update_self, Function.update_self]
    · rw [Function.update_of_ne hfile, Function.update_of_ne hfile, Function.update_of_ne htmp]

/-- Setting a name's file sets the name in the map: the file's other names are not touched, since a
file belongs to one name. -/
theorem Represents.set (h : Represents dir skills) (hname : skill.name = name)
    (hvalid : skill.validate = .ok ()) (hdated : skill.created ≠ "") :
    Represents (Function.update dir (name ++ ".json")
        (some (.document (payload skill skill.created))))
      (Function.update skills name (some skill)) := by
  -- each entry of the new map is the new one or an old one under another name
  have hentry : ∀ name' skill', Function.update skills name (some skill) name' = some skill' →
      name' = name ∧ skill' = skill ∨ name' ≠ name ∧ skills name' = some skill' := by
    intro name' skill' hskill'
    by_cases hsame : name' = name
    · rw [hsame, Function.update_self, Option.some_inj] at hskill'
      exact Or.inl ⟨hsame, hskill'.symm⟩
    · rw [Function.update_of_ne hsame] at hskill'
      exact Or.inr ⟨hsame, hskill'⟩
  constructor
  · intro name' skill' hskill'
    rcases hentry name' skill' hskill' with ⟨rfl, rfl⟩ | ⟨hne, hold⟩
    · exact Function.update_self _ _ _
    · rw [Function.update_of_ne fun hfile => hne (file_inj hfile)]
      exact h.stored name' skill' hold
  · intro file text htext
    by_cases hfile : file = name ++ ".json"
    · exact ⟨name, skill, Function.update_self _ _ _, hfile⟩
    · rw [Function.update_of_ne hfile] at htext
      obtain ⟨name', skill', hskill', hfile'⟩ := h.only file text htext
      refine ⟨name', skill', ?_, hfile'⟩
      rw [Function.update_of_ne fun hsame => hfile (by rw [hfile', hsame])]
      exact hskill'
  · intro name' skill' hskill'
    rcases hentry name' skill' hskill' with ⟨rfl, rfl⟩ | ⟨_, hold⟩
    · exact hname
    · exact h.named name' skill' hold
  · intro name' skill' hskill'
    rcases hentry name' skill' hskill' with ⟨_, rfl⟩ | ⟨_, hold⟩
    · exact hvalid
    · exact h.valid name' skill' hold
  · intro name' skill' hskill'
    rcases hentry name' skill' hskill' with ⟨_, rfl⟩ | ⟨_, hold⟩
    · exact hdated
    · exact h.dated name' skill' hold

/-- Removing a name's file clears the name in the map and no other, for the same reason. -/
theorem Represents.clear (h : Represents dir skills) (name : String) :
    Represents (Function.update dir (name ++ ".json") none)
      (Function.update skills name none) := by
  have hentry : ∀ name' skill', Function.update skills name none name' = some skill' →
      name' ≠ name ∧ skills name' = some skill' := by
    intro name' skill' hskill'
    by_cases hsame : name' = name
    · rw [hsame, Function.update_self] at hskill'
      exact nomatch hskill'
    · rw [Function.update_of_ne hsame] at hskill'
      exact ⟨hsame, hskill'⟩
  constructor
  · intro name' skill' hskill'
    obtain ⟨hne, hold⟩ := hentry name' skill' hskill'
    rw [Function.update_of_ne fun hfile => hne (file_inj hfile)]
    exact h.stored name' skill' hold
  · intro file text htext
    by_cases hfile : file = name ++ ".json"
    · rw [hfile, Function.update_self] at htext
      exact nomatch htext
    · rw [Function.update_of_ne hfile] at htext
      obtain ⟨name', skill', hskill', hfile'⟩ := h.only file text htext
      refine ⟨name', skill', ?_, hfile'⟩
      rw [Function.update_of_ne fun hsame => hfile (by rw [hfile', hsame])]
      exact hskill'
  · intro name' skill' hskill'
    exact h.named name' skill' (hentry name' skill' hskill').2
  · intro name' skill' hskill'
    exact h.valid name' skill' (hentry name' skill' hskill').2
  · intro name' skill' hskill'
    exact h.dated name' skill' (hentry name' skill' hskill').2

end Represents

/-! ## What is loaded is what was saved -/

section RoundTrip

variable {numerals : Numerals} {repr : Repr} {skill : StoredSkill}

/-- A skill is valid when its name is, it has a side, a positive rate, and every side has rows and
columns. -/
theorem validate_ok : skill.validate = .ok () ↔
    name_matches skill.name = true ∧ skill.q ≠ [] ∧ ¬ skill.fps.le (.fin 0) = true ∧
      ∀ e ∈ skill.q, ¬ (e.2.rows.length < 1 ∨ e.2.width < 1) := by
  unfold Skill.validate
  rw [guard_ok, guard_ok, guard_ok, not_not, List.isEmpty_iff, bind_ok]
  refine and_congr_right fun _ => and_congr_right fun _ => and_congr_right fun _ => ?_
  simp only [pure_ok, and_true]
  rw [exists_collect_iff]
  refine forall₂_congr fun e _ => ?_
  unfold check_side
  simp only [guard_ok, and_true, exists_const]

/-- Numbers that were written as a list are read back as they were. -/
theorem numbers_read (xs : List Ieee) : vector numerals (numbers xs) = .ok xs :=
  collect_map fun _ _ => rfl

/-- A trajectory with a frame is read back row by row; one without would be refused, as it has no
second axis. -/
theorem matrix_read {arr : Array2 Ieee} (hframes : ¬ arr.rows.length < 1) :
    matrix numerals (.arr (arr.rows.map numbers)) = .ok arr := by
  unfold matrix
  rw [bind_ok]
  refine ⟨arr.rows, collect_map fun row _ => numbers_read row, ?_⟩
  have hwidth : (arr.rows.headD []).length = arr.width := by
    rcases hrows : arr.rows with _ | ⟨row, rest⟩
    · rw [hrows] at hframes
      exact absurd Nat.zero_lt_one hframes
    · apply arr.rect
      rw [hrows]
      exact List.mem_cons_self
  obtain ⟨rows, width, rect⟩ := arr
  dsimp only at hwidth ⊢
  subst hwidth
  rw [dif_pos rect]
  rfl

/-- An empty object is replaced by an empty object. -/
theorem or_default_obj (fields : List (String × Json)) :
    or_default (.obj fields) (.obj []) = .obj fields := by
  rcases fields with _ | ⟨e, rest⟩
  · rfl
  · rfl

/-- A text that is not empty is not replaced by the default. -/
theorem or_default_str {s default : String} (h : s ≠ "" ∨ default = "") :
    or_default (.str s) (.str default) = .str s := by
  unfold or_default Json.truthy
  by_cases hempty : s = ""
  · rw [hempty, h.resolve_left (not_not_intro hempty)]
    rfl
  · rw [if_pos (bne_iff_ne.2 hempty)]

/-- Nor is a number, zero included: its default is zero. -/
theorem or_default_float (x : Ieee) :
    or_default (.float x) (.float (.fin 0)) = .float x := by
  unfold or_default Json.truthy
  by_cases hzero : x = .fin 0
  · rw [hzero]
    rfl
  · rw [if_pos (bne_iff_ne.2 hzero)]

/-- A field of encoded entries is read back key by key, if each value is; the order of the entries
stays. -/
theorem entries_read {α : Type} {read : Json → Except PyError α} (write : α → Json)
    {doc : Json} {field : String} {xs : List (String × α)}
    (hfield : get doc field = .ok (some (.obj (xs.map fun e => (e.1, write e.2)))))
    (hread : ∀ e ∈ xs, read (write e.2) = .ok e.2) : entries read doc field = .ok xs := by
  unfold entries
  rw [hfield]
  show (items (or_default (.obj _) (.obj [])) >>= fun fields => collect _ fields) = .ok xs
  rw [or_default_obj, bind_ok]
  refine ⟨_, rfl, collect_map fun e he => ?_⟩
  rw [hread e he]
  rfl

/-- **What is read from a saved skill's file is the skill**, with the date it was saved at: every
field is found under its key and decodes to what was encoded. -/
theorem decode_payload (hvalid : skill.validate = .ok ()) (created fallback : String) :
    decode numerals repr (payload skill created) fallback =
      .ok { skill with created := created } := by
  obtain ⟨hname, _, _, hsides⟩ := validate_ok.1 hvalid
  have hnonempty : skill.name ≠ "" := by
    intro hempty
    rw [hempty] at hname
    exact absurd hname (by decide)
  have hq : entries (matrix numerals) (payload skill created) "q" = .ok skill.q :=
    entries_read (fun arr => .arr (arr.rows.map numbers)) rfl fun e he =>
      matrix_read fun hframes => hsides e he (Or.inl hframes)
  have hgripper : entries (vector numerals) (payload skill created) "gripper" =
      .ok skill.gripper := entries_read numbers rfl fun e _ => numbers_read e.2
  have hfps : float numerals (or_default (.float skill.fps) (.float (.fin 0))) =
      .ok skill.fps := by
    rw [or_default_float]
    rfl
  have hsource : as_dict (or_default (.obj skill.source) (.obj [])) = .ok skill.source := by
    rw [or_default_obj]
    rfl
  have hstr : str repr (or_default (.str skill.name) (.str fallback)) = skill.name := by
    rw [or_default_str (Or.inl hnonempty)]
    rfl
  have hcreated : str repr (or_default (.str created) (.str "")) = created := by
    rw [or_default_str (Or.inr rfl)]
    rfl
  unfold decode
  refine bind_ok.2 ⟨some (.str skill.name), rfl, ?_⟩
  refine bind_ok.2 ⟨some (.float skill.fps), rfl, ?_⟩
  refine bind_ok.2 ⟨skill.fps, hfps, ?_⟩
  refine bind_ok.2 ⟨skill.q, hq, ?_⟩
  refine bind_ok.2 ⟨skill.gripper, hgripper, ?_⟩
  refine bind_ok.2 ⟨some (.obj skill.source), rfl, ?_⟩
  refine bind_ok.2 ⟨skill.source, hsource, ?_⟩
  refine bind_ok.2 ⟨some (.str created), rfl, ?_⟩
  rw [pure_ok, Option.getD_some, Option.getD_some, hstr, hcreated]

/-- What was saved of a valid skill is read as that skill, with the date it was saved at. -/
theorem read_payload (hvalid : skill.validate = .ok ()) (file name created : String) :
    read_skill numerals repr file name (.document (payload skill created)) =
      .ok { skill with created := created } := by
  unfold read_skill
  refine bind_ok.2 ⟨FORMAT_VERSION, rfl, ?_⟩
  rw [if_neg (lt_irrefl _)]
  refine bind_ok.2 ⟨_, mapError_ok.2 (decode_payload hvalid created name), ?_⟩
  refine bind_ok.2 ⟨(), mapError_ok.2 hvalid, ?_⟩
  rfl

end RoundTrip

/-! ## The directory is the map -/

section Refinement

variable {numerals : Numerals} {repr : Repr} {dir : Dir} {skills : SkillMap}
  {name : String} {skill : StoredSkill}

/-- A valid name has a file. -/
theorem skill_file_valid (h : name_matches name = true) :
    skill_file name = .ok (name ++ ".json") := if_pos h

/-- An invalid name has none, and the error names it. -/
theorem skill_file_invalid (h : ¬ name_matches name = true) :
    skill_file name = .error (.invalid_name name) := if_neg h

/-- The empty text is no name. -/
theorem not_matches_empty : ¬ name_matches "" = true := by decide

/-- A name in the map is valid. -/
theorem Represents.name_valid (h : Represents dir skills) (hskill : skills name = some skill) :
    name_matches name = true := by
  rw [← h.named name skill hskill]
  exact (validate_ok.1 (h.valid name skill hskill)).1

/-- The map has no skill under a name that is not valid. -/
theorem Represents.none_of_invalid (h : Represents dir skills)
    (hname : ¬ name_matches name = true) : skills name = none := by
  rcases hskill : skills name with _ | skill
  · rfl
  · exact absurd (h.name_valid hskill) hname

/-- Saving a valid skill sets its name to it, dated if it was not, and answers with the file;
nothing else in the directory changes. -/
theorem save_ensures (h : Represents dir skills) (hvalid : skill.validate = .ok ()) (now : Stamp) :
    Ensures (save_skill skill now) dir fun r dir' =>
      r = .ok (skill.name ++ ".json") ∧ Represents dir'
        (Function.update skills skill.name
          (some { skill with created := stamped skill now })) := by
  have hdated : stamped skill now ≠ "" := by
    unfold stamped
    by_cases hcreated : skill.created = ""
    · rw [if_pos hcreated]
      exact now.nonempty
    · rw [if_neg hcreated]
      exact hcreated
  unfold save_skill
  rw [ensures_bind, ensures_call, mapError_ok.2 hvalid]
  dsimp only
  rw [ensures_bind, ensures_call, skill_file_valid (validate_ok.1 hvalid).1]
  dsimp only
  rw [ensures_bind, ensures_update]
  dsimp only
  rw [ensures_pure, h.write]
  have hvalid' : Skill.validate { skill with created := stamped skill now } = .ok () :=
    hvalid
  exact ⟨rfl, h.set rfl hvalid' hdated⟩

/-- Loading reads the map: it answers the skill under the name, or raises where the name has none,
and leaves the directory. -/
theorem load_ensures (h : Represents dir skills) (name : Option String) :
    Ensures (load_skill numerals repr name) dir fun r dir' =>
      r.toOption = name.bind skills ∧ dir' = dir := by
  unfold load_skill
  dsimp only
  rcases name with _ | name
  · rw [Option.getD_none, if_pos rfl, ensures_throw]
    exact ⟨rfl, rfl⟩
  rw [Option.getD_some, Option.bind_some]
  by_cases hempty : name = ""
  · rw [if_pos hempty, ensures_throw, hempty, h.none_of_invalid not_matches_empty]
    exact ⟨rfl, rfl⟩
  rw [if_neg hempty, ensures_bind, ensures_call]
  by_cases hname : name_matches name = true
  swap
  · rw [skill_file_invalid hname, h.none_of_invalid hname]
    exact ⟨rfl, rfl⟩
  rw [skill_file_valid hname]
  dsimp only
  rw [ensures_get_bind, h.lookup name]
  rcases hskill : skills name with _ | skill
  · exact ⟨rfl, rfl⟩
  · show Ensures (call (read_skill _ _ _ _ _)) dir _
    rw [ensures_call, read_payload (h.valid name skill hskill)]
    exact ⟨rfl, rfl⟩

/-- A valid skill is valid under another valid name. -/
theorem validate_rename (hvalid : skill.validate = .ok ()) (hname : name_matches name = true) :
    Skill.validate { skill with name := name } = .ok () :=
  validate_ok.2 ⟨hname, (validate_ok.1 hvalid).2⟩

/-- Renaming moves one entry to a free name, or raises and changes nothing. -/
theorem rename_ensures (h : Represents dir skills) (old new : String) (now : Stamp) :
    Ensures (rename_skill numerals repr old new now) dir fun r dir' =>
      r.toOption.map Answer.path = (Spec skills (.rename old new now)).1 ∧
        Represents dir' (Spec skills (.rename old new now)).2 := by
  unfold rename_skill Spec
  dsimp only
  rw [ensures_bind, ensures_call]
  by_cases hold : name_matches old = true
  swap
  · rw [skill_file_invalid hold, h.none_of_invalid hold]
    exact ⟨rfl, h⟩
  rw [skill_file_valid hold]
  dsimp only
  rw [ensures_bind, ensures_call]
  by_cases hnew : name_matches new = true
  swap
  · rw [skill_file_invalid hnew]
    rcases skills old with _ | skill
    · exact ⟨rfl, h⟩
    · dsimp only
      rw [if_pos hnew]
      exact ⟨rfl, h⟩
  rw [skill_file_valid hnew]
  dsimp only
  rw [ensures_bind]
  refine (load_ensures h (some old)).imp fun r dir' hload => ?_
  obtain ⟨hr, rfl⟩ := hload
  rw [Option.bind_some] at hr
  rcases r with raised | skill
  · rw [← show none = skills old from hr]
    exact ⟨rfl, h⟩
  have hskill : skills old = some skill := hr.symm
  rw [hskill]
  dsimp only
  rw [if_neg (not_not_intro hnew)]
  by_cases hsame : new = old
  · rw [if_pos (by rw [hsame]), if_pos hsame, ensures_pure]
    exact ⟨rfl, h⟩
  rw [if_neg fun hfile => hsame (file_inj hfile), if_neg hsame, ensures_get_bind, h.lookup new,
    Option.isSome_map]
  by_cases htaken : (skills new).isSome = true
  · rw [if_pos htaken, if_pos htaken, ensures_throw]
    exact ⟨rfl, h⟩
  rw [if_neg htaken, if_neg htaken, ensures_bind]
  have hvalid := validate_rename (h.valid old skill hskill) hnew
  refine (save_ensures h hvalid now).imp fun r dir'' hsaved => ?_
  obtain ⟨rfl, hrepresents⟩ := hsaved
  -- a stored skill has a date, so the saved one is the old one under its new name
  have hdate : stamped { skill with name := new } now = skill.created :=
    if_neg (h.dated old skill hskill)
  rw [hdate] at hrepresents
  dsimp only
  rw [ensures_bind, ensures_update]
  dsimp only
  rw [ensures_pure]
  exact ⟨rfl, hrepresents.clear old⟩

/-- **One operation.** It answers what the map answers, and leaves the map's files. -/
theorem perform_ensures (h : Represents dir skills) (op : Op) :
    Ensures (perform numerals repr op) dir fun r dir' =>
      r.toOption = (Spec skills op).1 ∧ Represents dir' (Spec skills op).2 := by
  -- save, load, rename and delete, each by its own lemma
  rcases op with ⟨skill, now⟩ | name | ⟨old, new, now⟩ | name
  · unfold perform Spec
    dsimp only
    rw [ensures_bind]
    rcases hvalid : skill.validate with raised | _
    · unfold save_skill
      rw [ensures_bind, ensures_call, hvalid]
      exact ⟨rfl, h⟩
    · refine (save_ensures h hvalid now).imp fun r dir' hsaved => ?_
      obtain ⟨rfl, hrepresents⟩ := hsaved
      exact ⟨rfl, hrepresents⟩
  · unfold perform
    rw [ensures_bind]
    refine (load_ensures h name).imp fun r dir' hload => ?_
    obtain ⟨hr, rfl⟩ := hload
    have hspec : Spec skills (.load name) = ((name.bind skills).map .skill, skills) := by
      rcases name with _ | name <;> rfl
    rw [hspec, ← hr]
    rcases r with raised | skill
    · exact ⟨rfl, h⟩
    · exact ⟨rfl, h⟩
  · unfold perform
    rw [ensures_bind]
    refine (rename_ensures h old new now).imp fun r dir' hrenamed => ?_
    rw [← hrenamed.1]
    rcases r with raised | path
    · exact ⟨rfl, hrenamed.2⟩
    · exact ⟨rfl, hrenamed.2⟩
  · unfold perform delete_skill Spec
    dsimp only
    rw [ensures_bind, ensures_bind, ensures_call]
    by_cases hname : name_matches name = true
    · rw [skill_file_valid hname, if_pos hname]
      exact ⟨rfl, h.clear name⟩
    · rw [skill_file_invalid hname, if_neg hname]
      exact ⟨rfl, h⟩

/-- An empty directory is the empty map. -/
theorem represents_empty : Represents (fun _ => none) (fun _ => none) where
  stored _ _ h := nomatch h
  only _ _ h := nomatch h
  named _ _ h := nomatch h
  valid _ _ h := nomatch h
  dated _ _ h := nomatch h

end Refinement

/-- **The store is a finite map.** From an empty directory, every sequence of operations gives the
answers of the map, the directory holds the map's files and no other, and each of them names the
skill it is called after. -/
theorem store_refines_map (numerals : Numerals) (repr : Repr) (ops : List Op) :
    (Runs.trace (answer numerals repr) ops fun _ => none).1 =
        (Runs.trace Spec ops fun _ => none).1 ∧
      Represents (Runs.trace (answer numerals repr) ops fun _ => none).2
        (Runs.trace Spec ops fun _ => none).2 ∧
      ∀ file text, (Runs.trace (answer numerals repr) ops fun _ => none).2 file = some text →
        ∃ name doc, file = name ++ ".json" ∧ text = .document doc ∧
          get doc "name" = .ok (some (.str name)) := by
  have hstep : ∀ dir skills op, Represents dir skills →
      (answer numerals repr dir op).1 = (Spec skills op).1 ∧
        Represents (answer numerals repr dir op).2 (Spec skills op).2 :=
    fun dir skills op h => perform_ensures h op
  obtain ⟨hanswers, hrepresents⟩ :=
    Runs.trace_eq_of_represents hstep ops _ _ represents_empty
  refine ⟨hanswers, hrepresents, ?_⟩
  intro file text htext
  obtain ⟨name, skill, hskill, rfl⟩ := hrepresents.only file text htext
  rw [hrepresents.stored name skill hskill] at htext
  refine ⟨name, _, rfl, (Option.some.inj htext).symm, ?_⟩
  have hname : get (payload skill skill.created) "name" = .ok (some (.str skill.name)) := rfl
  rw [hname, hrepresents.named name skill hskill]

end DualFlexivControl.Skills.Store
