/-
Kinematic chains in `visualization/geometry.py`, and the meshes that were drawn in the base frame.

`parse_chain` follows the joints of a URDF from a root link; each link carries the pose of its
frame in the frame before it, and the root that of the world ([`Chain`]). Some assets have their
meshes in the coordinates of the world, although the file attaches them to links.
`localize_factr_base_meshes` undoes the pose of such a link: it accumulates the rigid motion to
each link and gives the visual the motion back ([`localize_from_getElem?`]).

The motion back is stored as roll, pitch and yaw. These are read off the transposed rotation, so
it is the pitch of that one which must not be next to a right angle: [`Readable`] is the test of
`rpy_from_rot`, where exactly a right angle is good again.
-/
import DualFlexivControl.Visualization.Geometry

set_option autoImplicit false

namespace DualFlexivControl.Visualization

open Matrix Rotation
open scoped Maths
open Scalar (lit)

/-! ## Links -/

structure Visual (F : Type) where
  name : String
  mesh : String
  xyz : Fin 3 → F
  rpy : F × F × F
  scale : Fin 3 → F

structure Link (F : Type) where
  name : String
  xyz : Fin 3 → F
  rpy : F × F × F
  axis : Fin 3 → F
  child_offset : Option (Fin 3 → F)
  visuals : List (Visual F)

/-- A joint of a URDF file, as `parse_chain` reads it. -/
structure Joint (F : Type) where
  parent : String
  child : String
  xyz : Fin 3 → F
  rpy : F × F × F
  axis : Fin 3 → F

/-- A `<visual>` of a URDF file. One that is not a mesh has no file. -/
structure VisualElement (F : Type) where
  name : Option String
  filename : Option String
  xyz : Fin 3 → F
  rpy : F × F × F
  scale : Fin 3 → F

/-- What `parse_chain` reads of a URDF file, the elements in their order. The files of its meshes
are named from its own directory; `resolve` says where they lie. -/
structure Urdf (F : Type) where
  joints : List (Joint F)
  links : List (String × List (VisualElement F))
  resolve : String → String

/-- The links from a root link on, which has its own frame. -/
structure Chain (F : Type) [Zero F] where
  links : List (Link F)
  root : ∀ link, links.head? = some link → link.xyz = 0 ∧ link.rpy = (0, 0, 0)

section Functions

variable {F : Type} [Field F] [Maths F]

/-- The name that the file gives a visual; an empty one does not count. -/
def VisualElement.given (element : VisualElement F) : Option String := element.name.filter (· ≠ "")

/-- `visual.get("name") or f"visual_{i}"` -/
def VisualElement.title (i : ℕ) (element : VisualElement F) : String :=
  element.given.getD s!"visual_{i}"

/-- The inner loop of `_parse_visuals`, which counts the visuals that have no mesh too. -/
def parse_link_visuals (resolve : String → String) (elements : List (VisualElement F)) :
    List (Visual F) :=
  elements.zipIdx.filterMap fun entry =>
    (entry.1.filename.filter (· ≠ "")).map fun filename =>
      ⟨entry.1.title entry.2, resolve filename, entry.1.xyz, entry.1.rpy, entry.1.scale⟩

/-- `_parse_visuals` -/
def parse_visuals (urdf : Urdf F) : List (String × List (Visual F)) :=
  urdf.links.map fun link => (link.1, parse_link_visuals urdf.resolve link.2)

/-- `while current in by_parent`: a link's last joint in the file leads on, and a loop of joints
never ends. -/
def follow (joints : List (Joint F)) : ℕ → String → Option (List (Link F))
  | 0, _ => none
  | fuel + 1, current =>
    match joints.reverse.find? (·.parent == current) with
    | none => some []
    | some joint => (follow joints fuel joint.child).map
        (⟨joint.child, joint.xyz, joint.rpy, joint.axis, none, []⟩ :: ·)

/-- The end of `parse_chain`: offsets and visuals are filled in. -/
def filled (visuals : List (String × List (Visual F))) (links : List (Link F)) : List (Link F) :=
  links.mapIdx fun i link =>
    { link with
      child_offset := links[i + 1]?.map (·.xyz)
      visuals := (visuals.reverse.lookup link.name).getD [] }

/-- `parse_chain` -/
def parse_chain (fuel : ℕ) (urdf : Urdf F) (root_link : String) : Option (Chain F) :=
  (follow urdf.joints fuel root_link).map fun sequence =>
    { links := filled (parse_visuals urdf)
        (⟨root_link, 0, (0, 0, 0), ![0, 0, 1], none, []⟩ :: sequence)
      root := by
        intro link hlink
        rw [filled, List.mapIdx_cons, List.head?_cons] at hlink
        obtain rfl := Option.some.inj hlink
        exact ⟨rfl, rfl⟩ }

/-- `np.allclose` with its tolerances -/
def allclose (a b : Fin 3 → F) : Bool :=
  (List.finRange 3).all fun i =>
    Scalar.le (Scalar.abs (a i - b i))
      (lit (1 / 100000000) + lit (1 / 100000) * Scalar.abs (b i))

def explicitly_placed (visual : Visual F) : Bool :=
  !allclose visual.xyz 0 ||
    !allclose ![visual.rpy.1, visual.rpy.2.1, visual.rpy.2.2] 0 || !allclose visual.scale 1

/-- The visuals that stay as they are. -/
def kept (visual : Visual F) : Bool :=
  decide ("ros_zup_local".toList <:+: visual.mesh.toList) || explicitly_placed visual

/-- The loop over a link's visuals, with the pose accumulated so far. -/
def localize_visual (translation : Fin 3 → F) (rotation : Matrix (Fin 3) (Fin 3) F)
    (visual : Visual F) : Visual F :=
  if kept visual then visual
  else
    let inv := rotationᵀ
    { visual with xyz := -inv *ᵥ translation, rpy := rpy_from_rot inv }

/-- The loop over the links. The first one's own pose is not looked at. -/
def localize_from : ℕ → (Fin 3 → F) → Matrix (Fin 3) (Fin 3) F → List (Link F) → List (Link F)
  | _, _, _, [] => []
  | index, translation, rotation, link :: rest =>
    let t := if index = 0 then translation else translation + rotation *ᵥ link.xyz
    let r := if index = 0 then rotation
      else rotation * rot_from_rpy link.rpy.1 link.rpy.2.1 link.rpy.2.2
    { link with visuals := link.visuals.map (localize_visual t r) } ::
      localize_from (index + 1) t r rest

/-- `localize_factr_base_meshes` -/
def localize_factr_base_meshes (chain : List (Link F)) : List (Link F) :=
  localize_from 0 0 1 chain

/-! ## Names -/

/-- A link is not called as the nodes between links and visuals are; no two of its visuals have
one name, and none has that of the gripper. -/
structure Link.WellNamed (link : Link F) : Prop where
  name : link.name ≠ "visual"
  visuals : (link.visuals.map Visual.name).Nodup
  gripper : "grav_gripper" ∉ link.visuals.map Visual.name

/-- The same of a file: the names that it gives to the visuals of a link differ, and none of them
reads as one that is counted, or as the gripper's. -/
structure Urdf.WellNamed (urdf : Urdf F) : Prop where
  joints : ∀ joint ∈ urdf.joints, joint.child ≠ "visual"
  distinct : ∀ link ∈ urdf.links, link.2.Pairwise fun element element' =>
    element.given = none ∨ element.given ≠ element'.given
  reserved : ∀ link ∈ urdf.links, ∀ element ∈ link.2, ∀ name, element.given = some name →
    name ≠ "grav_gripper" ∧ ∀ i : ℕ, name ≠ s!"visual_{i}"

/-! ## Poses -/

/-- The rigid motion that `xyz` and `rpy` mean. -/
def origin (xyz : Fin 3 → F) (rpy : F × F × F) : Rigid F :=
  ⟨xyz, rot_from_rpy rpy.1 rpy.2.1 rpy.2.2⟩

def Link.origin (link : Link F) : Rigid F := Visualization.origin link.xyz link.rpy

def Visual.origin (visual : Visual F) : Rigid F := Visualization.origin visual.xyz visual.rpy

/-- The pose of link `i` in the world when all joints are at zero. -/
def world (chain : Chain F) (i : ℕ) : Rigid F :=
  ((chain.links.take (i + 1)).map Link.origin).prod

/-- The pitch that `rpy_from_rot` finds. -/
def pitch (m : Matrix (Fin 3) (Fin 3) F) : F :=
  Maths.atan2 (-m 2 0) (Maths.hypot (m 0 0) (m 1 0))

/-- The pitch is exactly a right angle, or clear of one. -/
def Readable (m : Matrix (Fin 3) (Fin 3) F) : Prop :=
  Maths.cos (pitch m) = 0 ∨ Scalar.lt (lit (1 / 1000000000)) (Maths.cos (pitch m)) = true

end Functions

/-! ## What a file gives -/

section Files

variable {F : Type}

/-- Each number makes a name of its own. -/
theorem visual_name_inj {i j : ℕ} (h : s!"visual_{i}" = s!"visual_{j}") : i = j := by
  have hlists := congrArg String.toList h
  simp only [toString, String.toList_append, List.append_cancel_left_eq, Nat.toList_repr] at hlists
  have hvalues := congrArg (fun digits => Nat.ofDigitChars 10 digits 0) hlists
  simpa only [Nat.ofDigitChars_ten_toDigits] using hvalues

theorem visual_name_ne_gripper (i : ℕ) : s!"visual_{i}" ≠ "grav_gripper" := by
  intro h
  have hhead := congrArg (fun s : String => s.toList.head?) h
  simp [toString] at hhead

namespace Urdf.WellNamed

variable {urdf : Urdf F} (h : urdf.WellNamed) {link : String × List (VisualElement F)}
  (hlink : link ∈ urdf.links)
include h hlink

/-- Two visuals of a link have two names, whether given or counted. -/
theorem title_ne {i j : ℕ} (hij : i < j) {element element' : VisualElement F}
    (hi : link.2[i]? = some element) (hj : link.2[j]? = some element') :
    element.title i ≠ element'.title j := by
  obtain ⟨hilt, hi⟩ := List.getElem?_eq_some_iff.1 hi
  obtain ⟨hjlt, hj⟩ := List.getElem?_eq_some_iff.1 hj
  have hdistinct := List.pairwise_iff_getElem.1 (h.distinct link hlink) i j hilt hjlt hij
  rw [hi, hj] at hdistinct
  have hreserved := h.reserved link hlink element (hi ▸ List.getElem_mem hilt)
  have hreserved' := h.reserved link hlink element' (hj ▸ List.getElem_mem hjlt)
  unfold VisualElement.title
  cases hgiven : element.given with
  | none =>
    cases hgiven' : element'.given with
    | none => exact fun hsame => absurd (visual_name_inj hsame) hij.ne
    | some name' => exact ((hreserved' name' hgiven').2 i).symm
  | some name =>
    cases hgiven' : element'.given with
    | none => exact (hreserved name hgiven).2 j
    | some name' =>
      rw [hgiven, hgiven'] at hdistinct
      rintro hsame
      rcases hdistinct with hnone | hne
      · cases hnone
      · exact hne (congrArg some hsame)

theorem names_nodup (resolve : String → String) :
    ((parse_link_visuals resolve link.2).map Visual.name).Nodup := by
  have hentries : link.2.zipIdx.Pairwise fun entry entry' =>
      entry.1.title entry.2 ≠ entry'.1.title entry'.2 := by
    refine List.pairwise_iff_getElem.2 fun i j hi hj hij => ?_
    rw [List.length_zipIdx] at hi hj
    simpa using h.title_ne hlink hij (List.getElem?_eq_getElem hi) (List.getElem?_eq_getElem hj)
  refine List.Pairwise.map _ (fun _ _ hne => hne) (List.Pairwise.filterMap _ ?_ hentries)
  intro entry entry' hne visual hvisual visual' hvisual'
  obtain ⟨_, _, rfl⟩ := Option.map_eq_some_iff.1 hvisual
  obtain ⟨_, _, rfl⟩ := Option.map_eq_some_iff.1 hvisual'
  exact hne

theorem not_gripper (resolve : String → String) :
    "grav_gripper" ∉ (parse_link_visuals resolve link.2).map Visual.name := by
  intro hmem
  obtain ⟨visual, hvisual, hname⟩ := List.mem_map.1 hmem
  obtain ⟨⟨element, i⟩, hentry, hsome⟩ := List.mem_filterMap.1 hvisual
  obtain ⟨_, _, rfl⟩ := Option.map_eq_some_iff.1 hsome
  have helement : element ∈ link.2 := by
    have hfst := List.mem_map_of_mem (f := Prod.fst) hentry
    rwa [List.zipIdx_map_fst] at hfst
  cases hgiven : element.given with
  | none =>
    refine visual_name_ne_gripper i ?_
    simpa [VisualElement.title, hgiven] using hname
  | some name =>
    refine (h.reserved link hlink element helement name hgiven).1 ?_
    simpa [VisualElement.title, hgiven] using hname

end Urdf.WellNamed

theorem follow_names {joints : List (Joint F)} {fuel : ℕ} {current : String}
    {links : List (Link F)} (h : follow joints fuel current = some links) :
    ∀ link ∈ links, ∃ joint ∈ joints, link.name = joint.child := by
  induction fuel generalizing current links with
  | zero => cases h
  | succ fuel ih =>
    unfold follow at h
    cases hjoint : joints.reverse.find? (·.parent == current) with
    | none =>
      rw [hjoint] at h
      obtain rfl := Option.some.inj h
      exact fun _ hlink => absurd hlink List.not_mem_nil
    | some joint =>
      rw [hjoint] at h
      obtain ⟨rest, hrest, rfl⟩ := Option.map_eq_some_iff.1 h
      intro link hlink
      rcases List.mem_cons.1 hlink with rfl | hlink
      · exact ⟨joint, List.mem_reverse.1 (List.mem_of_find?_eq_some hjoint), rfl⟩
      · exact ih hrest link hlink

variable [Field F]

/-- Each link of a chain is the root or a joint leads to it, and has the visuals of the file. -/
theorem parse_chain_links {fuel : ℕ} {urdf : Urdf F} {root_link : String} {chain : Chain F}
    (h : parse_chain fuel urdf root_link = some chain) {link : Link F} (hlink : link ∈ chain.links) :
    (link.name = root_link ∨ ∃ joint ∈ urdf.joints, link.name = joint.child) ∧
      (link.visuals = [] ∨ ∃ entry ∈ urdf.links,
        link.visuals = parse_link_visuals urdf.resolve entry.2) := by
  obtain ⟨sequence, hsequence, rfl⟩ := Option.map_eq_some_iff.1 h
  obtain ⟨i, hi, rfl⟩ := List.mem_mapIdx.1 hlink
  constructor
  · rcases List.mem_cons.1 (List.getElem_mem hi) with hroot | hrest
    · exact .inl (congrArg Link.name hroot)
    · obtain ⟨joint, hjoint, hname⟩ := follow_names hsequence _ hrest
      exact .inr ⟨joint, hjoint, hname⟩
  · generalize ((_ :: sequence : List (Link F))[i]).name = name
    cases hlookup : (parse_visuals urdf).reverse.lookup name with
    | none => exact .inl rfl
    | some visuals =>
      obtain ⟨before, after, hlist, _⟩ := List.lookup_eq_some_iff.1 hlookup
      have hmem : (name, visuals) ∈ parse_visuals urdf := by
        rw [← List.mem_reverse, hlist]
        exact List.mem_append_right before List.mem_cons_self
      obtain ⟨entry, hentry, heq⟩ := List.mem_map.1 hmem
      exact .inr ⟨entry, hentry, (Prod.mk.inj heq).2.symm⟩

/-- The links of a well named file are so, from any root that is. -/
theorem parse_chain_wellNamed {fuel : ℕ} {urdf : Urdf F} (hnamed : urdf.WellNamed)
    {root_link : String} (hroot : root_link ≠ "visual") {chain : Chain F}
    (h : parse_chain fuel urdf root_link = some chain) : ∀ link ∈ chain.links, link.WellNamed := by
  intro link hlink
  obtain ⟨hname, hvisuals⟩ := parse_chain_links h hlink
  have hlink_name : link.name ≠ "visual" := by
    rcases hname with heq | ⟨joint, hjoint, heq⟩
    · rwa [heq]
    · rw [heq]
      exact hnamed.joints joint hjoint
  rcases hvisuals with heq | ⟨entry, hentry, heq⟩
  · refine ⟨hlink_name, ?_, ?_⟩ <;> simp [heq]
  · refine ⟨hlink_name, ?_, ?_⟩ <;> rw [heq]
    · exact hnamed.names_nodup hentry _
    · exact hnamed.not_gripper hentry _

variable [Maths F]

/-- Meshes that are moved keep their names, so a tree that was well named is so afterwards. -/
theorem localize_wellNamed {links : List (Link F)} (h : ∀ link ∈ links, link.WellNamed) :
    ∀ link ∈ localize_factr_base_meshes links, link.WellNamed := by
  have hfrom : ∀ (links : List (Link F)) (index : ℕ) (t : Fin 3 → F)
      (r : Matrix (Fin 3) (Fin 3) F), (∀ link ∈ links, link.WellNamed) →
      ∀ link ∈ localize_from index t r links, link.WellNamed := by
    intro links
    induction links with
    | nil => exact fun _ _ _ h => h
    | cons first rest ih =>
      intro index t r h link hlink
      rcases List.mem_cons.1 hlink with rfl | hlink
      · have hfirst := h first List.mem_cons_self
        have hnames : ∀ (t : Fin 3 → F) (r : Matrix (Fin 3) (Fin 3) F),
            (first.visuals.map (localize_visual t r)).map Visual.name =
              first.visuals.map Visual.name := by
          intro t r
          rw [List.map_map]
          refine List.map_congr_left fun visual _ => ?_
          show (localize_visual t r visual).name = visual.name
          unfold localize_visual
          split
          · rfl
          · rfl
        refine ⟨hfirst.name, ?_, ?_⟩
        · show ((first.visuals.map _).map Visual.name).Nodup
          rw [hnames]
          exact hfirst.visuals
        · show _ ∉ (first.visuals.map _).map Visual.name
          rw [hnames]
          exact hfirst.gripper
      · exact ih _ _ _ (fun link hlink => h link (List.mem_cons_of_mem _ hlink)) link hlink
  exact hfrom links 0 0 1 h

end Files

/-! ## Reading the angles back -/

section Real

theorem rot_from_rpy_mem (roll pitch yaw : ℝ) : rot_from_rpy roll pitch yaw ∈ SO3 ℝ := by
  rw [← rot_quat_from_rpy, quaternion_from_rpy]
  exact rot_mem (normSq_euler_turns roll pitch yaw)

variable {m : Matrix (Fin 3) (Fin 3) ℝ}

/-- The pitch of a rotation has the sine and the cosine that its first column says. -/
theorem cos_pitch (h : m ∈ SO3 ℝ) :
    Real.cos (pitch m) = Maths.hypot (m 0 0) (m 1 0) ∧ Real.sin (pitch m) = -m 2 0 := by
  have hcolumn := (entries_of_mem h).columns 0 0
  simp at hcolumn
  have hunit : Maths.hypot (m 0 0) (m 1 0) ^ 2 + (-m 2 0) ^ 2 = 1 := by
    rw [Maths.hypot_sq]
    linear_combination hcolumn
  exact ⟨Maths.cos_atan2 hunit, Maths.sin_atan2 hunit⟩

/-- `rpy_from_rot` is a right inverse of `rot_from_rpy` where it can read the angles. -/
theorem rot_from_rpy_from_rot (h : m ∈ SO3 ℝ) (hreadable : Readable m) :
    rot_from_rpy (rpy_from_rot m).1 (rpy_from_rot m).2.1 (rpy_from_rot m).2.2 = m := by
  obtain ⟨hcos, hsin⟩ := cos_pitch h
  have hentries := entries_of_mem h
  rcases hreadable with hlock | hclear
  · -- a right angle: the second branch, with the yaw zero
    have hhypot : Maths.hypot (m 0 0) (m 1 0) = 0 := by rw [← hcos, ← Maths.cos_real, hlock]
    have hbranch :
        rpy_from_rot m = (Maths.atan2 (-m 1 2) (m 1 1), pitch m, 0) := by
      apply if_neg
      show ¬ Scalar.lt (lit (1 / 1000000000)) (Scalar.abs (Maths.cos (pitch m))) = true
      rw [hlock, Scalar.lt_real, Scalar.abs_real, abs_zero, Scalar.lit_real]
      norm_num
    rw [hbranch]
    show euler (Real.cos (Maths.atan2 (-m 1 2) (m 1 1))) (Real.sin (Maths.atan2 (-m 1 2) (m 1 1)))
      (Real.cos (pitch m)) (Real.sin (pitch m)) (Real.cos 0) (Real.sin 0) = m
    rw [hcos, hsin, hhypot, Real.cos_zero, Real.sin_zero]
    exact (eq_euler_atan2_of_lock hentries hhypot).symm
  · rw [Scalar.lt_real, Scalar.lit_real] at hclear
    have hbranch : rpy_from_rot m =
        (Maths.atan2 (m 2 1) (m 2 2), pitch m, Maths.atan2 (m 1 0) (m 0 0)) := by
      apply if_pos
      show Scalar.lt (lit (1 / 1000000000)) (Scalar.abs (Maths.cos (pitch m))) = true
      rw [Scalar.lt_real, Scalar.lit_real]
      exact hclear.trans_le (le_abs_self _)
    have hhypot : Maths.hypot (m 0 0) (m 1 0) ≠ 0 := by
      rw [← hcos]
      have hpositive : (0 : ℝ) < ((1 / 1000000000 : ℚ) : ℝ) := by norm_num
      exact (hpositive.trans hclear).ne'
    have heuler := eq_euler_atan2 hentries hhypot
    rw [← hsin, ← hcos] at heuler
    rw [hbranch]
    exact heuler.symm

/-! ## The loop -/

/-- A rewritten visual has the motion back from its link, so the two together are no motion at all.
-/
theorem mul_origin_localize_visual {g : Rigid ℝ} (hg : g.rotation ∈ SO3 ℝ)
    (hreadable : Readable g.rotationᵀ) {visual : Visual ℝ} (hkept : kept visual = false) :
    g * (localize_visual g.translation g.rotation visual).origin = 1 := by
  have horigin : (localize_visual g.translation g.rotation visual).origin =
      ⟨-g.rotationᵀ *ᵥ g.translation, g.rotationᵀ⟩ := by
    unfold localize_visual
    rw [if_neg (by rw [hkept]; exact Bool.false_ne_true)]
    exact congrArg (Rigid.mk _) (rot_from_rpy_from_rot (transpose_mem hg) hreadable)
  rw [horigin]
  exact Rigid.mul_back hg

variable {F : Type} [Field F] [Maths F]

/-- The pass over one link whose pose is `g`. -/
def localize_link (g : Rigid F) (link : Link F) : Link F :=
  { link with visuals := link.visuals.map (localize_visual g.translation g.rotation) }

/-- After the first link the loop carries the product of the poses. -/
theorem localize_from_getElem? (links : List (Link F)) (index : ℕ) (g : Rigid F) (i : ℕ) :
    (localize_from (index + 1) g.translation g.rotation links)[i]? = links[i]?.map
      (localize_link (g * ((links.take (i + 1)).map Link.origin).prod)) := by
  induction links generalizing index g i with
  | nil => rfl
  | cons link rest ih =>
    cases i with
    | zero => simp [localize_from, localize_link, Link.origin, origin]
    | succ i =>
      have hrest := ih (index + 1) (g * link.origin) i
      rw [mul_assoc] at hrest
      exact hrest

theorem rot_from_rpy_zero : rot_from_rpy (0 : ℝ) 0 0 = 1 := by
  ext i j
  fin_cases i <;> fin_cases j <;> simp [rot_from_rpy]

theorem localize_getElem? (chain : Chain ℝ) (i : ℕ) :
    (localize_factr_base_meshes chain.links)[i]? =
      chain.links[i]?.map (localize_link (world chain i)) := by
  obtain ⟨links, hroot⟩ := chain
  cases links with
  | nil => rfl
  | cons root rest =>
    -- the root's pose is the identity, so that it makes no difference to leave it out
    have horigin : root.origin = 1 := by
      obtain ⟨hxyz, hrpy⟩ := hroot root rfl
      rw [Link.origin, origin, hxyz, hrpy, rot_from_rpy_zero]
      rfl
    cases i with
    | zero => simp [localize_factr_base_meshes, localize_from, localize_link, world, horigin]
    | succ i =>
      have hrest := localize_from_getElem? rest 0 (1 : Rigid ℝ) i
      show (localize_from 1 0 1 rest)[i]? = rest[i]?.map
        (localize_link (root.origin * ((rest.take (i + 1)).map Link.origin).prod))
      rw [horigin]
      exact hrest

theorem localize_length (index : ℕ) (t : Fin 3 → F) (r : Matrix (Fin 3) (Fin 3) F)
    (links : List (Link F)) : (localize_from index t r links).length = links.length := by
  induction links generalizing index t r with
  | nil => rfl
  | cons link rest ih => exact congrArg (· + 1) (ih _ _ _)

theorem world_mem (chain : Chain ℝ) (i : ℕ) : (world chain i).rotation ∈ SO3 ℝ := by
  have hprod : ∀ links : List (Link ℝ), ((links.map Link.origin).prod).rotation ∈ SO3 ℝ := by
    intro links
    induction links with
    | nil => exact one_mem _
    | cons link rest ih =>
      rw [List.map_cons, List.prod_cons, Rigid.mul_rotation]
      exact mul_mem (rot_from_rpy_mem _ _ _) ih
  exact hprod _

/-- Each mesh that is moved lies where it did in the frame of the world, if the angles of the
motion back can be read; and nothing else changes. -/
theorem localized_meshes (chain : Chain ℝ) :
    (localize_factr_base_meshes chain.links).length = chain.links.length ∧
    ∀ (i : ℕ) (link : Link ℝ), chain.links[i]? = some link →
      ∃ link' : Link ℝ, (localize_factr_base_meshes chain.links)[i]? = some link' ∧
        link' = { link with visuals := link'.visuals } ∧
        link'.visuals.length = link.visuals.length ∧
        ∀ (j : ℕ) (visual : Visual ℝ), link.visuals[j]? = some visual →
          ∃ visual' : Visual ℝ, link'.visuals[j]? = some visual' ∧
            visual' = { visual with xyz := visual'.xyz, rpy := visual'.rpy } ∧
            (kept visual = true → visual' = visual) ∧
            (kept visual = false → Readable (world chain i).rotationᵀ →
              world chain i * visual'.origin = 1) := by
  refine ⟨localize_length _ _ _ _, fun i link hlink => ?_⟩
  refine ⟨localize_link (world chain i) link, ?_, rfl, List.length_map _, ?_⟩
  · rw [localize_getElem?, hlink]
    rfl
  intro j visual hvisual
  refine ⟨localize_visual (world chain i).translation (world chain i).rotation visual, ?_, ?_, ?_,
    fun hkept hreadable => mul_origin_localize_visual (world_mem chain i) hreadable hkept⟩
  · show (link.visuals.map _)[j]? = _
    rw [List.getElem?_map, hvisual]
    rfl
  · unfold localize_visual
    split
    · rfl
    · rfl
  · intro hkept
    exact if_pos hkept

/-! ## A pitch next to a right angle -/

/-- A mesh that is not placed. -/
def unplaced : Visual ℝ := ⟨"", "link.stl", 0, (0, 0, 0), 1⟩

/-- A link turned by a right angle and rolled. -/
noncomputable def rolled (roll : ℝ) : Chain ℝ where
  links := [⟨"base_link", 0, (0, 0, 0), ![0, 0, 1], none, []⟩,
    ⟨"link1", 0, (roll, 0, Real.pi / 2), ![0, 0, 1], none, [unplaced]⟩]
  root := by
    intro link hlink
    obtain rfl := Option.some.inj hlink
    exact ⟨rfl, rfl⟩

theorem kept_unplaced : kept unplaced = false := by
  have hclose : ∀ a : Fin 3 → ℝ, allclose a a = true := by
    intro a
    unfold allclose
    rw [List.all_eq_true]
    intro i _
    rw [Scalar.le_real, Scalar.lit_real, Scalar.lit_real, Scalar.abs_real, sub_self, abs_zero]
    have habs := abs_nonneg (a i)
    show (0 : ℝ) ≤ ((1 / 100000000 : ℚ) : ℝ) + ((1 / 100000 : ℚ) : ℝ) * |a i|
    positivity
  have hrpy : (![0, 0, 0] : Fin 3 → ℝ) = 0 := by
    ext i
    fin_cases i <;> rfl
  have hplaced : explicitly_placed unplaced = false := by
    show (!allclose (0 : Fin 3 → ℝ) 0 || !allclose ![0, 0, 0] 0 || !allclose (1 : Fin 3 → ℝ) 1)
      = false
    rw [hrpy, hclose, hclose]
    rfl
  have hname : decide ("ros_zup_local".toList <:+: "link.stl".toList) = false := by decide
  show (decide ("ros_zup_local".toList <:+: "link.stl".toList) || explicitly_placed unplaced)
    = false
  rw [hname, hplaced]
  rfl

theorem world_rolled (roll : ℝ) : (world (rolled roll) 1).rotation =
    !![0, -Real.cos roll, Real.sin roll; 1, 0, 0; 0, Real.sin roll, Real.cos roll] := by
  have hworld : (world (rolled roll) 1).rotation =
      rot_from_rpy 0 0 0 * (rot_from_rpy roll 0 (Real.pi / 2) * 1) := rfl
  rw [hworld, rot_from_rpy_zero]
  ext i j
  fin_cases i <;> fin_cases j <;> simp [rot_from_rpy]

/-- The accumulated rotation of every link has the pitch zero, and its angles can be read off it. -/
theorem readable_rolled (roll : ℝ) (i : ℕ) (hi : i < 2) :
    Readable (world (rolled roll) i).rotation := by
  have hone : (1 / 1000000000 : ℝ) < 1 := by norm_num
  right
  rw [Scalar.lt_real, Scalar.lit_real, Maths.cos_real, (cos_pitch (world_mem _ _)).1,
    Maths.hypot_real]
  have hcases : i = 0 ∨ i = 1 := by omega
  rcases hcases with rfl | rfl
  · have hworld : (world (rolled roll) 0).rotation = rot_from_rpy 0 0 0 * 1 := rfl
    rw [hworld, rot_from_rpy_zero]
    simpa using hone
  · rw [world_rolled]
    simpa using hone

/-- The transposed one has the cosine of the roll there. -/
theorem cos_pitch_rolled {roll : ℝ} (hroll : 0 ≤ Real.cos roll) :
    Real.cos (pitch (world (rolled roll) 1).rotationᵀ) = Real.cos roll := by
  rw [(cos_pitch (transpose_mem (world_mem _ _))).1, world_rolled, Maths.hypot_real]
  simp [Real.sqrt_sq hroll]

/-- A mesh on the link that is not rolled is where it was. -/
theorem localized_meshes_unrolled :
    ∃ visual' : Visual ℝ, world (rolled 0) 1 * visual'.origin = 1 := by
  obtain ⟨link', _, _, _, hvisuals⟩ := (localized_meshes (rolled 0)).2 1 _ rfl
  obtain ⟨visual', _, _, _, hback⟩ := hvisuals 0 unplaced rfl
  refine ⟨visual', hback kept_unplaced ?_⟩
  right
  rw [Scalar.lt_real, Scalar.lit_real, Maths.cos_real,
    cos_pitch_rolled (by rw [Real.cos_zero]; norm_num), Real.cos_zero]
  norm_num

/-- The pitch of the accumulated rotation itself says nothing about the transposed one: a roll
next to a right angle leaves a mesh turned. -/
theorem pitch_of_transpose : ¬ ∀ chain : Chain ℝ,
    (∀ i < chain.links.length, Readable (world chain i).rotation) →
    ∀ (i : ℕ) (link' : Link ℝ), (localize_factr_base_meshes chain.links)[i]? = some link' →
      ∀ (j : ℕ) (link : Link ℝ) (visual visual' : Visual ℝ), chain.links[i]? = some link →
        link.visuals[j]? = some visual → link'.visuals[j]? = some visual' →
        kept visual = false → world chain i * visual'.origin = 1 := by
  intro hclaim
  have hcos : Real.cos (Real.arccos (1 / 10000000000)) = 1 / 10000000000 :=
    Real.cos_arccos (by norm_num) (by norm_num)
  generalize Real.arccos (1 / 10000000000) = roll at hcos
  set inv := (world (rolled roll) 1).rotationᵀ with hinv
  have hpitch : Real.cos (pitch inv) = 1 / 10000000000 := by
    rw [hinv, cos_pitch_rolled (by rw [hcos]; norm_num), hcos]
  have hback := hclaim (rolled roll) (readable_rolled roll) 1
    (localize_link (world (rolled roll) 1) _) (by rw [localize_getElem?]; rfl) 0 _ unplaced
    (localize_visual (world (rolled roll) 1).translation (world (rolled roll) 1).rotation unplaced)
    rfl rfl rfl kept_unplaced
  -- the branch of gimbal lock is taken, and stores the yaw as zero
  have hrpy : (localize_visual (world (rolled roll) 1).translation
      (world (rolled roll) 1).rotation unplaced).rpy =
      (Maths.atan2 (-inv 1 2) (inv 1 1), pitch inv, 0) := by
    unfold localize_visual
    rw [if_neg (by rw [kept_unplaced]; exact Bool.false_ne_true)]
    apply if_neg
    show ¬ Scalar.lt (lit (1 / 1000000000)) (Scalar.abs (Maths.cos (pitch inv))) = true
    rw [Scalar.lt_real, Scalar.abs_real, Scalar.lit_real, Maths.cos_real, hpitch]
    norm_num
  have hentry := congrFun (congrFun (congrArg Rigid.rotation hback) 1) 0
  have hrotation : (localize_visual (world (rolled roll) 1).translation
      (world (rolled roll) 1).rotation unplaced).origin.rotation =
      rot_from_rpy (Maths.atan2 (-inv 1 2) (inv 1 1)) (pitch inv) 0 := by
    rw [Visual.origin, origin, hrpy]
  rw [Rigid.mul_rotation, hrotation, world_rolled, Matrix.mul_apply, Fin.sum_univ_three] at hentry
  simp [rot_from_rpy, hpitch] at hentry

end Real

end DualFlexivControl.Visualization
