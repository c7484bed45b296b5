/-
Saving a measured calibration: `apply_to_leader` of `dashboard/calibration.py`.

The leader's YAML is loaded, changed in place, dumped, read back and compared, and only then put in
the file's place by an atomic replace; whatever raises before that leaves the file alone. The values
are rounded on the way: offsets to two decimals, gripper endpoints to four, the home pose to ten.
The convention that is saved is checked much later, by `_validate_convention`, when the FACTR
producer starts.

What PyYAML reads and writes, and how the typed configuration reads a scalar, are parameters. The
file is the one that `factr_path` selects.
-/
import DualFlexivControl.Control.Convention
import DualFlexivControl.Control.Message
import DualFlexivControl.Lib.Effects
import DualFlexivControl.Lib.Results
import DualFlexivControl.Lib.YamlTree

set_option autoImplicit false

/-- The double that a decimal is rounded to. -/
class NearestDouble where
  nearest : ℚ → ℚ

namespace DualFlexivControl.WriteBack

open Effect Results YamlTree Convention Control

/-- What a save raises. -/
inductive SaveError
  | os_error
  | yaml_error
  | attribute_error
  | value_error
  | overflow_error
  | runtime (message : String)
  deriving DecidableEq, Repr

/-- `ModelHomeFit`, as far as it is saved. -/
structure ModelHomeFit where
  home_q_rad : List Ieee
  signs : List Ieee

/-- What was measured for one leader. -/
structure Measured where
  offsets_deg : List Ieee
  sign_flip_joints : List ℤ
  gripper_open : Option Ieee
  gripper_closed : Option Ieee
  model_home : Option ModelHomeFit

/-! ## Numbers -/

/-- `round(x, n)`: half to even, and what is not finite stays. -/
def round [NearestDouble] (n : ℕ) : Ieee → Ieee
  | .fin q => .fin (NearestDouble.nearest (py_round (q * 10 ^ n) / 10 ^ n))
  | x => x

/-- `int(x)`, towards zero. -/
def int_of : Ieee → Except SaveError ℤ
  | .fin q => .ok (if 0 ≤ q then ⌊q⌋ else ⌈q⌉)
  | .inf _ => .error .overflow_error
  | .nan _ => .error .value_error

/-! ## The change to the document -/

section Edit

variable [NearestDouble] {K S : Type} [BEq K]

/-- `conv[key] = round(float(x), 4)`, where one is given. -/
def set_endpoint (conv : Entries K S) (key : String) : Option Ieee → Entries K S
  | none => conv
  | some x => set conv key (.float (round 4 x))

/-- What is written to `raw_to_dfc`. -/
def edit_convention (conv : Entries K S) (m : Measured) : Entries K S :=
  let conv := set conv "offsets_deg" (.list (m.offsets_deg.map fun o => .float (round 2 o)))
  let conv := set conv "sign_flip_joints"
    (.list ((m.sign_flip_joints.dedup.insertionSort (· ≤ ·)).map .int))
  let conv := pop conv "wrap_deg"
  let conv := setdefault conv "drop_trailing" (.int 1)
  let conv := set_endpoint conv "gripper_open" m.gripper_open
  set_endpoint conv "gripper_closed" m.gripper_closed

/-- What a model-home fit writes to the leader, for `dof` arm joints. -/
def edit_model_home (name side : String) (dof : ℕ) (home : ModelHomeFit) (leader : Entries K S) :
    Except SaveError (Entries K S) :=
  if ¬ (home.home_q_rad.length = home.signs.length ∧ home.signs.length = dof) then
    .error (.runtime s!"model-home calibration must contain {dof} arm joints")
  else
    let leader := set leader "home_q_rad" (.list (home.home_q_rad.map fun v => .float (round 10 v)))
    let leader := setdefault leader "dfc_to_factr" (.dict [])
    match leader.lookup (.str "dfc_to_factr") with
    | some (.dict transform) => do
      let signs ← collect int_of home.signs
      pure (set leader "dfc_to_factr" (.dict (set transform "signs" (.list (signs.map .int)))))
    | _ => .error (.runtime s!"leaders.{side}.dfc_to_factr is not a YAML object in {name}")

/-- The derived offset is not kept. -/
def drop_offset (leader : Entries K S) : Entries K S :=
  match leader.lookup (.str "dfc_to_factr") with
  | some (.dict transform) => set leader "dfc_to_factr" (.dict (pop transform "offset_rad"))
  | _ => leader

/-- The changed document, and the two dicts in it that are compared later. -/
structure Edited (K S : Type) where
  data : Yaml K S
  conv : Entries K S
  leader : Entries K S

/-- `if model_home is not None` -/
def edit_fit (name side : String) (m : Measured) (leader : Entries K S) :
    Except SaveError (Entries K S) :=
  match m.model_home with
  | none => .ok leader
  | some home => edit_model_home name side m.offsets_deg.length home leader

/-- What is written to the leader. -/
def edit_leader (name side : String) (m : Measured) (leader conv : Entries K S) :
    Except SaveError (Entries K S) := do
  let leader ← edit_fit name side m (set leader "raw_to_dfc" (.dict (edit_convention conv m)))
  pure (drop_offset leader)

/-- The change that `apply_to_leader` makes to the loaded document. -/
def edit (name side : String) (m : Measured) : Yaml K S → Except SaveError (Edited K S)
  | .dict entries =>
    match entries.lookup (.str "leaders") with
    | some (.dict leaders) =>
      match leaders.lookup (.str side) with
      | none => .error (.runtime s!"no `leaders.{side}` object in {name}")
      | some (.dict leader) =>
        match leader.lookup (.str "raw_to_dfc") with
        | some (.dict conv) => do
          let leader ← edit_leader name side m leader conv
          pure ⟨.dict (set entries "leaders" (.dict (set leaders side (.dict leader)))),
            edit_convention conv m, leader⟩
        | _ => .error (.runtime s!"`leaders.{side}.raw_to_dfc` is not a YAML object in {name}")
      | some _ => .error (.runtime s!"`leaders.{side}` is not a YAML object in {name}")
    | _ => .error (.runtime s!"no `leaders.{side}` object in {name}")
  | _ => .error .attribute_error

end Edit

/-! ## Reading back and saving -/

section Save

variable {K S : Type} [BEq K] [BEq S]

/-- PyYAML: `yaml.safe_load`, which can raise, and `yaml.safe_dump`. -/
structure PyYaml (K S : Type) where
  load : String → Option (Yaml K S)
  dump : Yaml K S → String

/-- How the calls to the outside go: finding the file and reading it, the steps of the temporary
file, the replace, and the removal of what is left over. -/
structure Calls where
  locate : Except SaveError Unit
  read : Except SaveError Unit
  create : Except SaveError Unit
  write : Except SaveError Unit
  sync : Except SaveError Unit
  replace : Except SaveError Unit
  unlink : Except SaveError Unit

/-- The leader's YAML, and this save's temporary file. -/
structure Disk where
  text : String
  temp : Option String

/-- `v or {}` -/
def or_empty : Option (Yaml K S) → Yaml K S
  | none => .dict []
  | some v => if v.truthy then v else .dict []

/-- `v.get(key)`, which only a dict has. -/
def get_key (v : Yaml K S) (key : String) : Except SaveError (Option (Yaml K S)) :=
  match v with
  | .dict entries => .ok (entries.lookup (.str key))
  | _ => .error .attribute_error

/-- `a == b`, where a key that is missing on either side is equal to nothing that was written. -/
def same : Option (Yaml K S) → Option (Yaml K S) → Bool
  | some v, some w => v.eq w
  | _, _ => false

/-- `yaml.safe_load(text) or {}` -/
def load_dict (yaml : PyYaml K S) (text : String) : Except SaveError (Yaml K S) :=
  match yaml.load text with
  | none => .error .yaml_error
  | some v => .ok (or_empty (some v))

/-- The rendered text is read back and compared with what was written. -/
def read_back (yaml : PyYaml K S) (name side : String) (m : Measured) (edited : Edited K S) :
    Except SaveError Unit := do
  let reparsed ← load_dict yaml (yaml.dump edited.data)
  let leaders ← get_key reparsed "leaders"
  let got_leader ← get_key (or_empty leaders) side
  let got ← get_key (or_empty got_leader) "raw_to_dfc"
  if !(or_empty got).eq (.dict edited.conv) then
    .error (.runtime s!"write-back validation failed for leaders.{side}.raw_to_dfc in {name}")
  else if m.model_home.isSome then do
    let home ← get_key (or_empty got_leader) "home_q_rad"
    let transform ← get_key (or_empty got_leader) "dfc_to_factr"
    if !same home (edited.leader.lookup (.str "home_q_rad")) ||
        !same transform (edited.leader.lookup (.str "dfc_to_factr")) then
      .error (.runtime
        s!"write-back validation failed for leaders.{side} model transform in {name}")
    else pure ()
  else pure ()

/-- The temporary file is written next to the file, and replaces it. -/
def replace_file (calls : Calls) (rendered : String) : Effect SaveError Disk Unit := do
  call calls.create
  update fun disk => { disk with temp := some "" }
  call calls.write
  update fun disk => { disk with temp := some rendered }
  call calls.sync
  call calls.replace
  update fun disk => ⟨disk.temp.getD disk.text, none⟩

/-- A temporary file that is left is removed. -/
def remove_temp (calls : Calls) : Effect SaveError Disk Unit := do
  match (← get).temp with
  | none => pure ()
  | some _ =>
    call calls.unlink
    update fun disk => { disk with temp := none }

/-- The last block of `apply_to_leader`. -/
def save (calls : Calls) (rendered : String) : Effect SaveError Disk Unit :=
  finallyDo (replace_file calls rendered) (remove_temp calls)

/-- `apply_to_leader` -/
def apply_to_leader [NearestDouble] (yaml : PyYaml K S) (calls : Calls) (name side : String)
    (m : Measured) : Effect SaveError Disk Unit := do
  call calls.locate
  call calls.read
  let disk ← get
  let data ← call (load_dict yaml disk.text)
  let edited ← call (edit name side m data)
  call (read_back yaml name side m edited)
  save calls (yaml.dump edited.data)

end Save

/-! ## The file changes only when the save succeeds -/

section Atomic

variable {K S : Type} [BEq K] [BEq S] {calls : Calls} {rendered : String} {disk : Disk}

/-- The replace is the last step that can raise, and the only one that touches the file. -/
theorem ensures_replace_file : Ensures (replace_file calls rendered) disk fun r disk' =>
    (r = .ok () ∧ disk'.text = rendered ∧ disk'.temp = none) ∨
      ((∃ e, r = .error e) ∧ disk'.text = disk.text) := by
  unfold replace_file
  rcases hcreate : calls.create with e | _
  · exact Or.inr ⟨⟨e, rfl⟩, rfl⟩
  rcases hwrite : calls.write with e | _
  · exact Or.inr ⟨⟨e, rfl⟩, rfl⟩
  rcases hsync : calls.sync with e | _
  · exact Or.inr ⟨⟨e, rfl⟩, rfl⟩
  rcases hreplace : calls.replace with e | _
  · exact Or.inr ⟨⟨e, rfl⟩, rfl⟩
  · exact Or.inl ⟨rfl, rfl, rfl⟩

/-- Removing the temporary file can raise only where there is one, and it never touches the file
itself. -/
theorem ensures_remove_temp : Ensures (remove_temp calls) disk fun r disk' =>
    disk'.text = disk.text ∧ (disk.temp = none → r = .ok ()) := by
  have hexec : exec (remove_temp calls) disk = exec (match disk.temp with
      | none => (pure () : Effect SaveError Disk Unit)
      | some _ => do
        call calls.unlink
        update fun disk => { disk with temp := none }) disk := rfl
  unfold Ensures
  rw [hexec]
  -- without a temporary file the call is not made at all
  cases disk.temp with
  | none => exact ⟨rfl, fun _ => rfl⟩
  | some _ =>
    cases calls.unlink with
    | error e => exact ⟨rfl, nofun⟩
    | ok _ => exact ⟨rfl, nofun⟩

/-- Saving either replaces the text of the file by the rendered one or raises and leaves the old
text. -/
theorem ensures_save : Ensures (save calls rendered) disk fun r disk' =>
    (r = .ok () ∧ disk'.text = rendered) ∨ ((∃ e, r = .error e) ∧ disk'.text = disk.text) := by
  unfold save
  rw [ensures_finallyDo]
  refine ensures_replace_file.imp fun r disk' hbody => ?_
  refine ensures_remove_temp.imp fun r' disk'' hblock => ?_
  rcases hbody with ⟨rfl, htext, htemp⟩ | ⟨⟨e, rfl⟩, htext⟩
  · rw [hblock.2 htemp]
    exact Or.inl ⟨rfl, hblock.1.trans htext⟩
  · cases r' with
    | ok _ => exact Or.inr ⟨⟨e, rfl⟩, hblock.1.trans htext⟩
    | error e' => exact Or.inr ⟨⟨e', rfl⟩, hblock.1.trans htext⟩

/-- A save that raises leaves the file; one that succeeds puts the rendered document there. -/
theorem ensures_apply [NearestDouble] {yaml : PyYaml K S} {name side : String} {m : Measured} :
    Ensures (apply_to_leader yaml calls name side m) disk fun r disk' =>
      (∃ data edited, load_dict yaml disk.text = .ok data ∧ edit name side m data = .ok edited ∧
        r = .ok () ∧ disk'.text = yaml.dump edited.data) ∨
      ((∃ e, r = .error e) ∧ disk'.text = disk.text) := by
  unfold apply_to_leader
  rw [ensures_bind, ensures_call]
  rcases hlocate : calls.locate with e | _
  · exact Or.inr ⟨⟨e, rfl⟩, rfl⟩
  dsimp only
  rw [ensures_bind, ensures_call]
  rcases hread : calls.read with e | _
  · exact Or.inr ⟨⟨e, rfl⟩, rfl⟩
  dsimp only
  rw [ensures_get_bind, ensures_bind, ensures_call]
  rcases hload : load_dict yaml disk.text with e | data
  · exact Or.inr ⟨⟨e, rfl⟩, rfl⟩
  dsimp only
  rw [ensures_bind, ensures_call]
  rcases hedit : edit name side m data with e | edited
  · exact Or.inr ⟨⟨e, rfl⟩, rfl⟩
  dsimp only
  rw [ensures_bind, ensures_call]
  rcases hback : read_back yaml name side m edited with e | _
  · exact Or.inr ⟨⟨e, rfl⟩, rfl⟩
  dsimp only
  refine ensures_save.imp fun r disk' hsave => ?_
  rcases hsave with ⟨hr, htext⟩ | hsave
  · exact Or.inl ⟨data, edited, rfl, hedit, hr, htext⟩
  · exact Or.inr hsave

end Atomic

/-! ## What a save leaves alone -/

section Frame

variable {K S : Type} [BEq K] {name side : String} {m : Measured}

/-- The dicts on the way to one leader's `raw_to_dfc`. -/
structure Path (side : String) (doc : Yaml K S) (entries leaders leader conv : Entries K S) :
    Prop where
  is_dict : doc = .dict entries
  has_leaders : entries.lookup (.str "leaders") = some (.dict leaders)
  has_leader : leaders.lookup (.str side) = some (.dict leader)
  has_conv : leader.lookup (.str "raw_to_dfc") = some (.dict conv)

/-- The second dict has what the first has, but under these keys. -/
def SameBut (keys : List String) (entries entries' : Entries K S) : Prop :=
  ∀ k, (∀ key ∈ keys, k ≠ .str key) → entries'.lookup k = entries.lookup k

/-- Two documents that differ at most in these entries of the leader. -/
def SameElsewhere (side : String) (doc doc' : Yaml K S) : Prop :=
  ∃ entries leaders leader conv entries' leaders' leader' conv',
    Path side doc entries leaders leader conv ∧ Path side doc' entries' leaders' leader' conv' ∧
    SameBut ["leaders"] entries entries' ∧ SameBut [side] leaders leaders' ∧
    SameBut ["raw_to_dfc", "home_q_rad", "dfc_to_factr"] leader leader'

/-- Documents that agree outside of some keys, pair by pair, agree outside of them from first to
last. -/
theorem SameBut.trans {keys : List String} {a b c : Entries K S} (hab : SameBut keys a b)
    (hbc : SameBut keys b c) : SameBut keys a c :=
  fun k hk => (hbc k hk).trans (hab k hk)

/-- A document agrees with itself everywhere. -/
theorem sameBut_refl {keys : List String} (a : Entries K S) : SameBut keys a a := fun _ _ => rfl

/-- Setting one of the keys changes nothing outside of them. -/
theorem sameBut_set {keys : List String} {key : String} (hkey : key ∈ keys) (a : Entries K S)
    (v : Yaml K S) : SameBut keys a (set a key v) :=
  fun _ hk => lookup_set_ne (hk key hkey)

/-- So does filling one of them in where it is missing. -/
theorem sameBut_setdefault {keys : List String} {key : String} (hkey : key ∈ keys)
    (a : Entries K S) (v : Yaml K S) : SameBut keys a (setdefault a key v) :=
  fun _ hk => lookup_setdefault_ne (hk key hkey)

/-- Leaving the offset out changes one entry. -/
theorem sameBut_drop_offset (leader : Entries K S) :
    SameBut ["dfc_to_factr"] leader (drop_offset leader) := by
  unfold drop_offset
  split
  · exact sameBut_set List.mem_cons_self _ _
  · exact sameBut_refl leader

/-- A document that has a leader is the loaded one, not the empty dict put in its place. -/
theorem load_of_path {yaml : PyYaml K S} {text : String} {data : Yaml K S}
    {entries leaders leader conv : Entries K S} (h : load_dict yaml text = .ok data)
    (hpath : Path side data entries leaders leader conv) : yaml.load text = some data := by
  unfold load_dict at h
  cases hload : yaml.load text with
  | none =>
    rw [hload] at h
    exact nomatch h
  | some v =>
    rw [hload] at h
    have hv : (if v.truthy then v else .dict []) = data := Except.ok.inj h
    split at hv
    · rw [hv]
    · -- the empty dict has no leaders
      rw [← hv] at hpath
      have hempty := Yaml.dict.inj hpath.is_dict
      have hleaders := hpath.has_leaders
      rw [← hempty] at hleaders
      exact nomatch hleaders

variable [NearestDouble]

/-- A model-home fit changes two entries of its leader, the home pose and the convention back, and
no other. -/
theorem sameBut_model_home {dof : ℕ} {home : ModelHomeFit} {leader leader' : Entries K S}
    (h : edit_model_home name side dof home leader = .ok leader') :
    SameBut ["home_q_rad", "dfc_to_factr"] leader leader' := by
  unfold edit_model_home at h
  rw [guard_ok] at h
  obtain ⟨-, h⟩ := h
  dsimp only at h
  split at h
  · obtain ⟨signs, -, h⟩ := bind_ok.1 h
    rw [← pure_ok.1 h]
    refine ((sameBut_set ?_ _ _).trans (sameBut_setdefault ?_ _ _)).trans (sameBut_set ?_ _ _)
    · exact List.mem_cons_self
    · exact List.mem_cons_of_mem _ List.mem_cons_self
    · exact List.mem_cons_of_mem _ List.mem_cons_self
  · exact nomatch h

/-- The leader is changed in three entries, and its `raw_to_dfc` is the edited one. -/
theorem edit_leader_ok {leader conv leader' : Entries K S}
    (h : edit_leader name side m leader conv = .ok leader') :
    leader'.lookup (.str "raw_to_dfc") = some (.dict (edit_convention conv m)) ∧
      SameBut ["raw_to_dfc", "home_q_rad", "dfc_to_factr"] leader leader' := by
  unfold edit_leader at h
  obtain ⟨fitted, hfitted, h⟩ := bind_ok.1 h
  have hmodel : SameBut ["home_q_rad", "dfc_to_factr"]
      (set leader "raw_to_dfc" (.dict (edit_convention conv m))) fitted := by
    unfold edit_fit at hfitted
    split at hfitted
    · rw [← Except.ok.inj hfitted]
      exact sameBut_refl _
    · exact sameBut_model_home hfitted
  rw [← pure_ok.1 h]
  constructor
  · rw [sameBut_drop_offset fitted _ (by simp), hmodel _ (by simp), lookup_set_self]
  · intro k hk
    simp only [List.forall_mem_cons] at hk
    obtain ⟨hraw, hhome, htransform, -⟩ := hk
    rw [sameBut_drop_offset fitted k (by simpa using htransform),
      hmodel k (by simp [hhome, htransform]), lookup_set_ne hraw]

/-- A change goes through when the leader is where it belongs in the document, and then only that
leader is another one. -/
theorem edit_ok {data : Yaml K S} {edited : Edited K S} (h : edit name side m data = .ok edited) :
    ∃ entries leaders leader conv leader', Path side data entries leaders leader conv ∧
      edit_leader name side m leader conv = .ok leader' ∧
      edited.data = .dict (set entries "leaders" (.dict (set leaders side (.dict leader')))) := by
  unfold edit at h
  split at h
  · rename_i entries
    split at h
    · rename_i leaders hleaders
      split at h
      · exact nomatch h
      · rename_i leader hleader
        split at h
        · rename_i conv hconv
          obtain ⟨leader', hedit, h⟩ := bind_ok.1 h
          exact ⟨entries, leaders, leader, conv, leader', ⟨rfl, hleaders, hleader, hconv⟩, hedit,
            by rw [← pure_ok.1 h]⟩
        · exact nomatch h
      · exact nomatch h
    · exact nomatch h
  · exact nomatch h

/-- The edited document has the leader in the same place, with the edited convention, and is
otherwise the document that was edited. -/
theorem edit_spec {data : Yaml K S} {edited : Edited K S} (h : edit name side m data = .ok edited) :
    SameElsewhere side data edited.data ∧
      ∃ entries leaders leader conv entries' leaders' leader',
        Path side data entries leaders leader conv ∧
        Path side edited.data entries' leaders' leader' (edit_convention conv m) := by
  obtain ⟨entries, leaders, leader, conv, leader', hpath, hedit, hdata⟩ := edit_ok h
  obtain ⟨hconv, hsame⟩ := edit_leader_ok hedit
  have hpath' : Path side edited.data
      (set entries "leaders" (.dict (set leaders side (.dict leader'))))
      (set leaders side (.dict leader')) leader' (edit_convention conv m) :=
    ⟨hdata, lookup_set_self, lookup_set_self, hconv⟩
  exact ⟨⟨_, _, _, _, _, _, _, _, hpath, hpath', sameBut_set List.mem_cons_self _ _,
    sameBut_set List.mem_cons_self _ _, hsame⟩, _, _, _, _, _, _, _, hpath, hpath'⟩

end Frame

/-! ## The convention before and after -/

section Conventions

variable {K S : Type} [BEq K]

/-- How the typed configuration reads a scalar; one of the field's own type is taken as it is. -/
structure Reader (K S : Type) where
  float : Yaml K S → Option Ieee
  integer : Yaml K S → Option ℤ
  float_float : ∀ x, float (.float x) = some x
  integer_int : ∀ i, integer (.int i) = some i

variable (reader : Reader K S)

/-- A `List` field, empty where the key is missing. -/
def list_field {α : Type} (read : Yaml K S → Option α) : Option (Yaml K S) → Option (List α)
  | none => some []
  | some (.list xs) => xs.mapM read
  | some _ => none

/-- `Optional[float] = None` -/
def optional_field : Option (Yaml K S) → Option (Option Ieee)
  | none => some none
  | some .null => some none
  | some v => (reader.float v).map some

/-- `drop_trailing: int = 1` -/
def drop_field : Option (Yaml K S) → Option ℤ
  | none => some 1
  | some v => reader.integer v

/-- The `JointConventionCfg` that is read from a `raw_to_dfc`. -/
def joint_convention (conv : Entries K S) : Option (JointConventionCfg Ieee) := do
  let offsets ← list_field reader.float (conv.lookup (.str "offsets_deg"))
  let flips ← list_field reader.integer (conv.lookup (.str "sign_flip_joints"))
  let drop ← drop_field reader (conv.lookup (.str "drop_trailing"))
  let opened ← optional_field reader (conv.lookup (.str "gripper_open"))
  let closed ← optional_field reader (conv.lookup (.str "gripper_closed"))
  return ⟨offsets, flips, drop, opened, closed⟩

/-- An endpoint: the one that is given, or the one that stands in the file. -/
def endpoint_field (given : Option Ieee) (standing : Option (Yaml K S)) : Option (Option Ieee) :=
  match given with
  | some x => some (some x)
  | none => optional_field reader standing

/-- The convention that the measured values form, with what is not measured as it stands. -/
def measured_convention (conv : Entries K S) (m : Measured) : Option (JointConventionCfg Ieee) := do
  let drop ← drop_field reader (conv.lookup (.str "drop_trailing"))
  let opened ← endpoint_field reader m.gripper_open (conv.lookup (.str "gripper_open"))
  let closed ← endpoint_field reader m.gripper_closed (conv.lookup (.str "gripper_closed"))
  return ⟨m.offsets_deg, m.sign_flip_joints, drop, opened, closed⟩

variable {reader} [NearestDouble] {conv : Entries K S} {m : Measured}
  {measured : JointConventionCfg Ieee}

/-- What an endpoint is after the save: a given one is rounded, another one stays. -/
def saved_endpoint (given standing : Option Ieee) : Option Ieee :=
  match given with
  | some x => some (round 4 x)
  | none => standing

/-- Setting one endpoint leaves the other fields of the convention. -/
theorem lookup_set_endpoint_ne {key : String} {k : Key K} {given : Option Ieee}
    (hk : k ≠ .str key) : (set_endpoint conv key given).lookup k = conv.lookup k := by
  cases given with
  | none => rfl
  | some x => exact lookup_set_ne hk

/-- The endpoint that is read from a dict in which it was set. -/
theorem endpoint_saved {key : String} {given : Option Ieee} {endpoint : Option Ieee}
    (h : endpoint_field reader given (conv.lookup (.str key)) = some endpoint) :
    optional_field reader ((set_endpoint conv key given).lookup (.str key)) =
      some (saved_endpoint given endpoint) := by
  cases given with
  | none => exact h
  | some x =>
    show optional_field reader ((set conv key _).lookup _) = _
    rw [lookup_set_self]
    exact congrArg (Option.map some) (reader.float_float _)

omit [BEq K] [NearestDouble] in
/-- A list of scalars of the field's own type is read as it is. -/
theorem list_field_map {α β : Type} {read : Yaml K S → Option α} {f : β → Yaml K S} {g : β → α}
    (h : ∀ b, read (f b) = some (g b)) (xs : List β) :
    list_field read (some (.list (xs.map f))) = some (xs.map g) := by
  show (xs.map f).mapM read = _
  rw [List.mapM_map, show read ∘ f = fun b => pure (g b) from funext h]
  exact List.mapM_pure

/-- The keys that a save has written, in the edited dict: rounded offsets, flipped joints in order
and once each, and the endpoints. -/
theorem lookup_edit_convention :
    (edit_convention conv m).lookup (.str "offsets_deg") =
      some (.list (m.offsets_deg.map fun o => .float (round 2 o))) ∧
    (edit_convention conv m).lookup (.str "sign_flip_joints") =
      some (.list ((m.sign_flip_joints.dedup.insertionSort (· ≤ ·)).map .int)) ∧
    (edit_convention conv m).lookup (.str "drop_trailing") =
      some ((conv.lookup (.str "drop_trailing")).getD (.int 1)) := by
  unfold edit_convention
  refine ⟨?_, ?_, ?_⟩
  · -- the later writes are to other keys
    rw [lookup_set_endpoint_ne (by simp), lookup_set_endpoint_ne (by simp),
      lookup_setdefault_ne (by simp), lookup_pop_ne (by simp), lookup_set_ne (by simp),
      lookup_set_self]
  · rw [lookup_set_endpoint_ne (by simp), lookup_set_endpoint_ne (by simp),
      lookup_setdefault_ne (by simp), lookup_pop_ne (by simp), lookup_set_self]
  · rw [lookup_set_endpoint_ne (by simp), lookup_set_endpoint_ne (by simp),
      lookup_setdefault_self, lookup_pop_ne (by simp), lookup_set_ne (by simp),
      lookup_set_ne (by simp)]

/-- The endpoints are read from the file's entries, or from what was written in their place. -/
theorem endpoints_edit_convention {opened closed : Option Ieee}
    (hopened : endpoint_field reader m.gripper_open (conv.lookup (.str "gripper_open")) =
      some opened)
    (hclosed : endpoint_field reader m.gripper_closed (conv.lookup (.str "gripper_closed")) =
      some closed) :
    optional_field reader ((edit_convention conv m).lookup (.str "gripper_open")) =
      some (saved_endpoint m.gripper_open opened) ∧
    optional_field reader ((edit_convention conv m).lookup (.str "gripper_closed")) =
      some (saved_endpoint m.gripper_closed closed) := by
  unfold edit_convention
  constructor
  · rw [lookup_set_endpoint_ne (by simp)]
    refine endpoint_saved ?_
    rw [lookup_setdefault_ne (by simp), lookup_pop_ne (by simp), lookup_set_ne (by simp),
      lookup_set_ne (by simp)]
    exact hopened
  · refine endpoint_saved ?_
    rw [lookup_set_endpoint_ne (by simp), lookup_setdefault_ne (by simp), lookup_pop_ne (by simp),
      lookup_set_ne (by simp), lookup_set_ne (by simp)]
    exact hclosed

omit [NearestDouble] in
/-- What is measured of a convention that reads: the joints to drop and both endpoints, each by its
own field's reader. -/
theorem measured_convention_ok (h : measured_convention reader conv m = some measured) :
    drop_field reader (conv.lookup (.str "drop_trailing")) = some measured.drop_trailing ∧
    endpoint_field reader m.gripper_open (conv.lookup (.str "gripper_open")) =
      some measured.gripper_open ∧
    endpoint_field reader m.gripper_closed (conv.lookup (.str "gripper_closed")) =
      some measured.gripper_closed ∧
    measured.offsets_deg = m.offsets_deg ∧ measured.sign_flip_joints = m.sign_flip_joints := by
  unfold measured_convention at h
  obtain ⟨drop, hdrop, h⟩ := Option.bind_eq_some_iff.1 h
  obtain ⟨opened, hopened, h⟩ := Option.bind_eq_some_iff.1 h
  obtain ⟨closed, hclosed, h⟩ := Option.bind_eq_some_iff.1 h
  obtain rfl := Option.some.inj h
  exact ⟨hdrop, hopened, hclosed, rfl, rfl⟩

/-- The convention that is read back from what a save has written. -/
theorem saved_convention (h : measured_convention reader conv m = some measured) :
    joint_convention reader (edit_convention conv m) = some
      ⟨m.offsets_deg.map (round 2), m.sign_flip_joints.dedup.insertionSort (· ≤ ·),
        measured.drop_trailing, saved_endpoint m.gripper_open measured.gripper_open,
        saved_endpoint m.gripper_closed measured.gripper_closed⟩ := by
  obtain ⟨hdrop, hopened, hclosed, -, -⟩ := measured_convention_ok h
  obtain ⟨hoffsets, hflips, hkept⟩ := @lookup_edit_convention K S _ _ conv m
  obtain ⟨hopen, hclose⟩ := endpoints_edit_convention hopened hclosed
  have hinteger : drop_field reader (some ((conv.lookup (.str "drop_trailing")).getD (.int 1))) =
      some measured.drop_trailing := by
    rw [← hdrop]
    cases conv.lookup (.str "drop_trailing") with
    | none => exact reader.integer_int 1
    | some v => rfl
  unfold joint_convention
  rw [hoffsets, hflips, hkept, hopen, hclose, hinteger,
    list_field_map fun o => reader.float_float (round 2 o), list_field_map reader.integer_int,
    List.map_id']
  rfl

/-! ## When the saved convention is accepted -/

variable [RatSqrt]

/-- The endpoints that stand after the save are two different numbers. -/
def EndpointsApart (m : Measured) (measured : JointConventionCfg Ieee) : Prop :=
  ∃ opened closed, saved_endpoint m.gripper_open measured.gripper_open = some opened ∧
    saved_endpoint m.gripper_closed measured.gripper_closed = some closed ∧
    equal opened closed = false

omit [RatSqrt] in
/-- Rounding to some digits neither makes a number infinite nor an infinity finite. -/
@[simp] theorem isFinite_round (n : ℕ) (x : Ieee) : (round n x).isFinite = x.isFinite := by
  cases x <;> rfl

omit [BEq K] [RatSqrt] in
/-- An endpoint that is finite is saved as one that is, whether it was given now or stood in the
file before. -/
theorem saved_endpoint_finite {given endpoint : Option Ieee} {standing : Option (Yaml K S)}
    {x y : Ieee} (h : endpoint_field reader given standing = some endpoint)
    (hx : endpoint = some x) (hfinite : x.isFinite = true)
    (hy : saved_endpoint given endpoint = some y) : y.isFinite = true := by
  cases given with
  | none =>
    obtain rfl := Option.some.inj (hx.symm.trans hy)
    exact hfinite
  | some z =>
    obtain rfl := Option.some.inj ((Option.some.inj h).trans hx)
    rw [← Option.some.inj hy, isFinite_round]
    exact hfinite

omit [NearestDouble] in
/-- A convention that the check lets through is accepted. -/
theorem accepted_of_valid {side : String} {dof : ℤ} {conv conv' : JointConventionCfg Ieee}
    (h : validate_convention Ieee.isFinite side dof conv = .ok conv') :
    Accepted Ieee.isFinite dof conv :=
  (validate_convention_iff.1 h).2

/-- What a save makes of an accepted convention is accepted when its endpoints are kept apart. -/
theorem accepted_saved_iff {dof : ℤ} {saved : JointConventionCfg Ieee}
    (h : measured_convention reader conv m = some measured)
    (haccepted : Accepted Ieee.isFinite dof measured)
    (hsaved : joint_convention reader (edit_convention conv m) = some saved) :
    Accepted Ieee.isFinite dof saved ↔ EndpointsApart m measured := by
  obtain ⟨-, hopened, hclosed, hoffsets, hflips⟩ := measured_convention_ok h
  obtain rfl := Option.some.inj ((saved_convention h).symm.trans hsaved)
  constructor
  · intro hacc
    obtain ⟨opened, closed, ho, hc, -, hne⟩ := hacc.endpoints
    exact ⟨opened, closed, ho, hc, hne⟩
  · rintro ⟨opened, closed, ho, hc, hne⟩
    obtain ⟨o, c, hmo, hmc, hfinite, -⟩ := haccepted.endpoints
    rw [List.all_append, Bool.and_eq_true, List.all_eq_true, List.all_eq_true] at hfinite
    -- sorting and leaving out repetitions keeps the joints in range
    have hperm : (m.sign_flip_joints.dedup.insertionSort (· ≤ ·)).Perm m.sign_flip_joints.dedup :=
      List.perm_insertionSort _ _
    refine ⟨haccepted.drop, haccepted.arm, ?_, hperm.nodup_iff.2 (List.nodup_dedup _), ?_,
      opened, closed, ho, hc, ?_, hne⟩
    · rw [List.length_map, ← hoffsets]
      exact haccepted.count
    · intro j hj
      apply haccepted.range
      rw [hflips]
      exact List.mem_dedup.1 (hperm.mem_iff.1 hj)
    · rw [List.all_append, Bool.and_eq_true, List.all_eq_true, List.all_eq_true]
      constructor
      · rintro _ hoffset
        obtain ⟨x, hx, rfl⟩ := List.mem_map.1 hoffset
        rw [isFinite_round]
        exact hfinite.1 x (by rwa [hoffsets])
      · rintro y hy
        rcases List.mem_cons.1 hy with rfl | hy
        · exact saved_endpoint_finite hopened hmo (hfinite.2 o List.mem_cons_self) ho
        · rw [List.mem_singleton.1 hy]
          exact saved_endpoint_finite hclosed hmc
            (hfinite.2 c (List.mem_cons_of_mem _ List.mem_cons_self)) hc

end Conventions

/-! ## The write-back -/

section WriteBack

variable {K S : Type} [BEq K] [BEq S]

/-- A leader's `raw_to_dfc` in a document. -/
def raw_to_dfc (side : String) (doc : Yaml K S) : Option (Entries K S) := do
  let .dict entries := doc | none
  let .dict leaders ← entries.lookup (.str "leaders") | none
  let .dict leader ← leaders.lookup (.str side) | none
  let .dict conv ← leader.lookup (.str "raw_to_dfc") | none
  return conv

omit [BEq S] in
/-- Where the document has the way to a side's convention, that is the convention that is read. -/
theorem raw_to_dfc_of_path {side : String} {doc : Yaml K S}
    {entries leaders leader conv : Entries K S} (h : Path side doc entries leaders leader conv) :
    raw_to_dfc side doc = some conv := by
  obtain ⟨rfl, hleaders, hleader, hconv⟩ := h
  unfold raw_to_dfc
  simp [hleaders, hleader, hconv]

/-- A save that raises leaves the file as it was. One that succeeds changes three entries of its
leader at most, and where the measured values form a convention that the server's check accepts,
the saved one is accepted exactly when the endpoints are still two numbers after the rounding. -/
theorem write_back [NearestDouble] [RatSqrt] (yaml : PyYaml K S) (reader : Reader K S)
    (calls : Calls) (name side : String) (m : Measured) (dof : ℤ) (disk : Disk)
    (hround : ∀ doc edited, yaml.load disk.text = some doc → edit name side m doc = .ok edited →
      yaml.load (yaml.dump edited.data) = some edited.data) :
    (∀ e, (exec (apply_to_leader yaml calls name side m) disk).1 = .error e →
      (exec (apply_to_leader yaml calls name side m) disk).2.text = disk.text) ∧
    ((exec (apply_to_leader yaml calls name side m) disk).1 = .ok () →
      ∃ doc doc', yaml.load disk.text = some doc ∧
        yaml.load (exec (apply_to_leader yaml calls name side m) disk).2.text = some doc' ∧
        SameElsewhere side doc doc' ∧
        ∀ conv measured accepted, raw_to_dfc side doc = some conv →
          measured_convention reader conv m = some measured →
          validate_convention Ieee.isFinite side dof measured = .ok accepted →
          ∃ conv' saved, raw_to_dfc side doc' = some conv' ∧
            joint_convention reader conv' = some saved ∧
            ((∃ accepted', validate_convention Ieee.isFinite side dof saved = .ok accepted') ↔
              EndpointsApart m measured)) := by
  have hrun : Ensures (apply_to_leader yaml calls name side m) disk _ := ensures_apply
  unfold Ensures at hrun
  rcases hrun with ⟨doc, edited, hload, hedit, hok, htext⟩ | ⟨⟨e, herror⟩, htext⟩
  · rw [hok, htext]
    refine ⟨nofun, fun _ => ?_⟩
    -- the edit is made at one path, in the document that was loaded
    obtain ⟨hsame, entries, leaders, leader, conv, entries', leaders', leader', hpath, hpath'⟩ :=
      edit_spec hedit
    have hdoc := load_of_path hload hpath
    refine ⟨doc, edited.data, hdoc, hround doc edited hdoc hedit, hsame, ?_⟩
    intro conv₀ measured accepted hconv hmeasured hvalid
    obtain rfl := Option.some.inj ((raw_to_dfc_of_path hpath).symm.trans hconv)
    have haccepted := accepted_of_valid hvalid
    have hsaved := saved_convention hmeasured
    refine ⟨_, _, raw_to_dfc_of_path hpath', hsaved, ?_⟩
    rw [← accepted_saved_iff hmeasured haccepted hsaved]
    constructor
    · rintro ⟨accepted', h⟩
      exact accepted_of_valid h
    · intro h
      exact ⟨_, validate_convention_iff.2 ⟨rfl, h⟩⟩
  · rw [herror, htext]
    exact ⟨fun _ _ => rfl, nofun⟩

end WriteBack

/-! ## Two saves -/

section Saves

/-- Where the calls return and the comparison passes, the save goes through. -/
theorem apply_succeeds {K S : Type} [BEq K] [BEq S] [NearestDouble] {yaml : PyYaml K S}
    {name side : String} {m : Measured} {text : String} {data : Yaml K S} {edited : Edited K S}
    (hload : load_dict yaml text = .ok data) (hedit : edit name side m data = .ok edited)
    (hback : read_back yaml name side m edited = .ok ()) :
    exec (apply_to_leader yaml ⟨.ok (), .ok (), .ok (), .ok (), .ok (), .ok (), .ok ()⟩ name side m)
      ⟨text, none⟩ = (.ok (), ⟨yaml.dump edited.data, none⟩) := by
  unfold apply_to_leader
  rw [exec_call_ok_bind, exec_call_ok_bind]
  show exec (call (load_dict yaml text) >>= _) _ = _
  rw [hload, exec_call_ok_bind, hedit, exec_call_ok_bind, hback, exec_call_ok_bind]
  rfl

/-- A leader whose `raw_to_dfc` is this. -/
def document (conv : Entries Empty Empty) : Yaml Empty Empty :=
  .dict [(.str "leaders", .dict [(.str "left", .dict [(.str "raw_to_dfc", .dict conv)])])]

/-- Seven joints at zero, and these endpoints. -/
def straight (opened closed : ℚ) : Measured :=
  ⟨List.replicate 7 (.fin 0), [], some (.fin opened), some (.fin closed), none⟩

def before : String := "leaders:\n  left:\n    raw_to_dfc: \x7b\x7d\n"

/-- What the save of [`straight`] leaves in the file, for two texts of its endpoints. -/
def after (opened closed : String) : String :=
  "leaders:\n  left:\n    raw_to_dfc:\n      offsets_deg:\n" ++
  "      - 0.0\n      - 0.0\n      - 0.0\n      - 0.0\n      - 0.0\n      - 0.0\n      - 0.0\n" ++
  "      sign_flip_joints: []\n      drop_trailing: 1\n      gripper_open: " ++ opened ++
  "\n      gripper_closed: " ++ closed ++ "\n"

/-- PyYAML on the two texts of a save. -/
def two_texts (saved : String) (doc : Yaml Empty Empty) : PyYaml Empty Empty where
  load text :=
    if text = before then some (document []) else if text = saved then some doc else none
  dump _ := saved

/-- The edit of the example document, written out: the convention of its one leader is filled in. -/
theorem edit_document [NearestDouble] (name : String) (opened closed : ℚ) :
    edit name "left" (straight opened closed) (document []) =
      .ok ⟨document (edit_convention [] (straight opened closed)),
        edit_convention [] (straight opened closed),
        [(.str "raw_to_dfc", .dict (edit_convention [] (straight opened closed)))]⟩ := by
  rfl

/-- The `raw_to_dfc` that the save of [`straight`] writes. -/
def written (offset opened closed : ℚ) : Entries Empty Empty :=
  [(.str "offsets_deg", .list (List.replicate 7 (.float (.fin offset)))),
    (.str "sign_flip_joints", .list []), (.str "drop_trailing", .int 1),
    (.str "gripper_open", .float (.fin opened)), (.str "gripper_closed", .float (.fin closed))]

/-- The fields that are written compare equal to themselves, as they hold no NaN. -/
theorem written_eq_self (offset opened closed : ℚ) :
    Yaml.eq (.dict (written offset opened closed)) (.dict (written offset opened closed)) =
      true := by
  simp [Yaml.eq, eq_entries, eq_list, equals_number, written, Ieee.isNaN,
    List.lookup_cons, List.replicate]

/-- A straight measurement writes three numbers, whichever they are. -/
theorem edit_straight [NearestDouble] (opened closed : ℚ) : ∃ offset opened' closed',
    edit_convention [] (straight opened closed) = written offset opened' closed' :=
  ⟨_, _, _, rfl⟩

/-- The save of [`straight`] goes through: no call of it raises, and the file has the text that the
renderer gave. -/
theorem save_straight [NearestDouble] {opened closed : ℚ} {saved : String}
    (hsaved : saved ≠ before) :
    exec (apply_to_leader
        (two_texts saved (document (edit_convention [] (straight opened closed))))
        ⟨.ok (), .ok (), .ok (), .ok (), .ok (), .ok (), .ok ()⟩ "factr.yaml" "left"
        (straight opened closed)) ⟨before, none⟩ = (.ok (), ⟨saved, none⟩) := by
  have hback : load_dict (two_texts saved (document (edit_convention [] (straight opened closed))))
      saved = .ok (document (edit_convention [] (straight opened closed))) := by
    unfold load_dict two_texts
    dsimp only
    rw [if_neg hsaved, if_pos rfl]
    rfl
  obtain ⟨offset, opened', closed', hwritten⟩ := edit_straight opened closed
  refine apply_succeeds rfl (edit_document _ opened closed) ?_
  unfold read_back
  dsimp only [two_texts] at hback ⊢
  rw [hback, hwritten]
  show (if !Yaml.eq (.dict (written offset opened' closed')) _ then _ else _) = _
  rw [written_eq_self]
  rfl

/-- The text that was saved is loaded as the edited document. -/
theorem load_saved {saved : String} {doc : Yaml Empty Empty} (hsaved : saved ≠ before) :
    (two_texts saved doc).load saved = some doc :=
  (if_neg hsaved).trans (if_pos rfl)

/-- PyYAML reads back what the save of [`straight`] writes, at the only document that the two texts
are about. -/
theorem round_straight [NearestDouble] {opened closed : ℚ} {saved : String}
    (hsaved : saved ≠ before) : ∀ doc edited,
    (two_texts saved (document (edit_convention [] (straight opened closed)))).load before =
      some doc → edit "factr.yaml" "left" (straight opened closed) doc = .ok edited →
    (two_texts saved (document (edit_convention [] (straight opened closed)))).load
      ((two_texts saved (document (edit_convention [] (straight opened closed)))).dump
        edited.data) = some edited.data := by
  intro doc edited hload hedit
  have hbefore : (two_texts saved (document (edit_convention [] (straight opened closed)))).load
      before = some (document []) := rfl
  obtain rfl := Option.some.inj (hbefore.symm.trans hload)
  obtain rfl := Except.ok.inj ((edit_document _ opened closed).symm.trans hedit)
  exact load_saved hsaved

/-- A reader of plain scalars. -/
def plain : Reader Empty Empty where
  float
    | .float x => some x
    | .int i => some (.fin i)
    | _ => none
  integer
    | .int i => some i
    | _ => none
  float_float _ := rfl
  integer_int _ := rfl

/-- The convention that the values of [`straight`] form. -/
def straight_convention (opened closed : ℚ) : JointConventionCfg Ieee :=
  ⟨List.replicate 7 (.fin 0), [], 1, some (.fin opened), some (.fin closed)⟩

/-- Doubles that are read as they are, as those of few binary places are. -/
@[reducible] def exact_doubles : NearestDouble := ⟨id⟩

/-- No square root is taken. -/
@[reducible] def no_roots : RatSqrt := ⟨id⟩

/-- Unlike numbers do not compare equal as floats either. -/
theorem equal_eq_false [RatSqrt] {a b : ℚ} (hne : a ≠ b) :
    equal (.fin a) (.fin b : Ieee) = false := by
  apply Bool.eq_false_of_not_eq_true
  intro h
  rw [equal, Bool.and_eq_true] at h
  exact hne (le_antisymm (of_decide_eq_true h.1) (of_decide_eq_true h.2))

/-- It is accepted for a server of eight values, if its endpoints differ. -/
theorem straight_valid [RatSqrt] {opened closed : ℚ} (hne : opened ≠ closed) :
    ∃ accepted, validate_convention Ieee.isFinite "left" 8 (straight_convention opened closed) =
      .ok accepted := by
  have hdrop : (straight_convention opened closed).drop_trailing = 1 := rfl
  exact ⟨_, validate_convention_iff.2 ⟨rfl, by omega, by omega, rfl, List.nodup_nil, nofun, _, _,
    rfl, rfl, rfl, equal_eq_false hne⟩⟩

/-- An endpoint, to four decimals. -/
theorem round_endpoint {q r : ℚ} (h : (py_round (q * 10 ^ 4) : ℚ) / 10 ^ 4 = r) :
    @round exact_doubles 4 (.fin q) = .fin r :=
  congrArg Ieee.fin h

/-- Endpoints that stay apart give a convention that is accepted after the save. -/
theorem write_back_apart :
    letI := exact_doubles
    letI := no_roots
    ∃ doc' conv' saved accepted,
      (two_texts (after "0.5" "1.0") (document (edit_convention [] (straight (1 / 2) 1)))).load
        (exec (apply_to_leader
          (two_texts (after "0.5" "1.0") (document (edit_convention [] (straight (1 / 2) 1))))
          ⟨.ok (), .ok (), .ok (), .ok (), .ok (), .ok (), .ok ()⟩ "factr.yaml" "left"
          (straight (1 / 2) 1)) ⟨before, none⟩).2.text = some doc' ∧
      SameElsewhere "left" (document []) doc' ∧ raw_to_dfc "left" doc' = some conv' ∧
      joint_convention plain conv' = some saved ∧
      validate_convention Ieee.isFinite "left" 8 saved = .ok accepted := by
  have hsaved : after "0.5" "1.0" ≠ before := by decide
  obtain ⟨doc, doc', hdoc, hdoc', hsame, hconv⟩ := (@write_back Empty Empty _ _ exact_doubles
    no_roots _ plain ⟨.ok (), .ok (), .ok (), .ok (), .ok (), .ok (), .ok ()⟩ "factr.yaml" "left"
    (straight (1 / 2) 1) 8 ⟨before, none⟩ (@round_straight exact_doubles (1 / 2) 1 _ hsaved)).2
    (congrArg Prod.fst (@save_straight exact_doubles (1 / 2) 1 _ hsaved))
  obtain rfl : document [] = doc := Option.some.inj hdoc
  obtain ⟨accepted₀, hvalid⟩ := @straight_valid no_roots (1 / 2) 1 (by norm_num)
  obtain ⟨conv', saved, hraw, hjoint, hiff⟩ := hconv [] _ accepted₀ rfl rfl hvalid
  have hopened : @round exact_doubles 4 (.fin (1 / 2)) = .fin (1 / 2) :=
    round_endpoint (by decide +kernel)
  have hclosed : @round exact_doubles 4 (.fin 1) = .fin 1 := round_endpoint (by decide +kernel)
  have hapart : @EndpointsApart exact_doubles no_roots (straight (1 / 2) 1)
      (straight_convention (1 / 2) 1) :=
    ⟨_, _, congrArg some hopened, congrArg some hclosed,
      @equal_eq_false no_roots _ _ (by norm_num)⟩
  obtain ⟨accepted, haccepted⟩ := hiff.2 hapart
  exact ⟨doc', conv', saved, accepted, hdoc', hsame, hraw, hjoint, haccepted⟩

/-- Two endpoints that differ are saved as one number, and the check refuses what was saved. -/
theorem close_endpoints_refused : ¬ ∀ [NearestDouble] [RatSqrt]
    (yaml : PyYaml Empty Empty) (reader : Reader Empty Empty) (calls : Calls) (name side : String)
    (m : Measured) (dof : ℤ) (disk : Disk),
    (∀ doc edited, yaml.load disk.text = some doc → edit name side m doc = .ok edited →
      yaml.load (yaml.dump edited.data) = some edited.data) →
    (exec (apply_to_leader yaml calls name side m) disk).1 = .ok () →
    ∀ doc doc' conv measured accepted, yaml.load disk.text = some doc →
      yaml.load (exec (apply_to_leader yaml calls name side m) disk).2.text = some doc' →
      raw_to_dfc side doc = some conv → measured_convention reader conv m = some measured →
      validate_convention Ieee.isFinite side dof measured = .ok accepted →
      ∃ conv' saved accepted', raw_to_dfc side doc' = some conv' ∧
        joint_convention reader conv' = some saved ∧
        validate_convention Ieee.isFinite side dof saved = .ok accepted' := by
  intro h
  have hsaved : after "0.5" "0.5" ≠ before := by decide
  have hrun := @save_straight exact_doubles (1 / 2) (32769 / 65536) _ hsaved
  obtain ⟨accepted, hvalid⟩ := @straight_valid no_roots (1 / 2) (32769 / 65536) (by norm_num)
  have hlost := @h exact_doubles no_roots _ plain _ "factr.yaml" "left" _ 8 ⟨before, none⟩
    (@round_straight exact_doubles (1 / 2) (32769 / 65536) _ hsaved) (congrArg Prod.fst hrun)
  rw [hrun] at hlost
  obtain ⟨conv', saved, accepted', hraw, hjoint, hvalid'⟩ :=
    hlost (document []) _ [] _ accepted rfl (load_saved hsaved) rfl rfl hvalid
  obtain rfl := Option.some.inj ((show raw_to_dfc "left" (document _) = some _ from rfl).symm.trans
    hraw)
  obtain ⟨opened, closed, hopened, hclosed, hne⟩ := (@accepted_saved_iff Empty Empty _ plain
    exact_doubles [] (straight (1 / 2) (32769 / 65536)) _ no_roots 8 saved rfl
    (@accepted_of_valid no_roots _ _ _ _ hvalid) hjoint).1
    (@accepted_of_valid no_roots _ _ _ _ hvalid')
  -- both endpoints are one half, to four decimals
  have hhalf : @round exact_doubles 4 (.fin (1 / 2)) = .fin (1 / 2) :=
    round_endpoint (by decide +kernel)
  have hclose : @round exact_doubles 4 (.fin (32769 / 65536)) = .fin (1 / 2) :=
    round_endpoint (by decide +kernel)
  obtain rfl := Option.some.inj ((congrArg some hhalf).symm.trans hopened)
  obtain rfl := Option.some.inj ((congrArg some hclose).symm.trans hclosed)
  exact absurd hne (by simp [equal, Scalar.le, Ieee.le])

end Saves

end DualFlexivControl.WriteBack
