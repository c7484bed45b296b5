/-
The image keys of a frame builder, and when two views come under one.

A camera with one RGB view gives the feature its own name, a camera with more of them appends the
view. So a camera `wrist_left` of one view meets the left view of a camera `wrist`: both are
`observation.images.wrist_left`, and of the two entries that `features` and `build` write under
that key the second takes the place of the first. [`CameraMap.Separate`] says that no camera is
called like this, and [`own_features_iff`] that nothing else goes wrong: an appended view can be
read back from a key, since no view is the end of another with an underscore before it.
-/
import Mathlib.Data.List.Lattice
import Mathlib.Data.List.Pairwise
import DualFlexivControl.Collection.Controllers
import DualFlexivControl.Control.Codec

set_option autoImplicit false

namespace DualFlexivControl.Collection

open Results Control

/-! ## Cameras and their keys -/

/-- `cameras`, a dict from names, each with its views. -/
structure CameraMap where
  entries : List (String × CameraCfg)
  names_distinct : (entries.map Prod.fst).Nodup
  views_distinct : ∀ camera ∈ entries, camera.2.views.Nodup
  views_nonempty : ∀ camera ∈ entries, camera.2.views ≠ []

section Keys

variable (camera : String × CameraCfg)

/-- The views that are exported. -/
def rgb_views : List String := camera.2.views.filter RGB_VIEWS.contains

/-- `f"observation.images.{name}{suffix}"` -/
def image_key (view : String) : String :=
  let suffix := if (rgb_views camera).length = 1 then "" else s!"_{view}"
  s!"observation.images.{camera.1}{suffix}"

/-- The entry of one view. -/
def view_image (view : String) : Image :=
  ⟨image_key camera view, s!"cam/{camera.1}/{view}", [camera.2.height, camera.2.width, 3]⟩

theorem camera_images_eq : camera_images camera = (rgb_views camera).map (view_image camera) := rfl

end Keys

/-- The keys of image features. -/
def is_image (key : String) : Bool := "observation.images.".toList.isPrefixOf key.toList

/-- No camera of one RGB view is called like a view of a camera of more. -/
def CameraMap.Separate (cameras : CameraMap) : Prop :=
  ∀ camera ∈ cameras.entries, (rgb_views camera).length = 1 →
    ∀ other ∈ cameras.entries, 1 < (rgb_views other).length →
      ∀ view ∈ rgb_views other, camera.1 ≠ s!"{other.1}_{view}"

/-- `frame[key]`: what was stored under a key last. -/
def Frame.image {F32 U8 : Type} (frame : Frame F32 U8) (key : String) :
    Option (List ℕ × List U8) :=
  frame.images.reverse.lookup key

/-- A feature for every RGB view and no other image feature, and in every frame that is built the
view's own newest picture under the view's own key. -/
structure OwnFeatures (fb : FrameBuilder) (cameras : CameraMap) : Prop where
  keys : (cameras.entries.flatMap fun camera =>
    (rgb_views camera).map (image_key camera)).Nodup
  features : ∃ feats, fb.features = .ok feats ∧
    feats.filter (fun entry => is_image entry.1) = cameras.entries.flatMap fun camera =>
      (rgb_views camera).map fun view => fb.image_feature (view_image camera view)
  frames : ∀ {F F32 U8 : Type} [Zero F] (f32 : F → F32) (u8 : F → U8)
    (observation : Observation F) (targets : Targets F) (frame : Frame F32 U8),
    fb.build f32 u8 observation targets = .ok (some frame) →
      ∀ camera ∈ cameras.entries, ∀ view ∈ rgb_views camera,
        ∃ newest, observation s!"cam/{camera.1}/{view}" = some newest ∧
          frame.image (image_key camera view) =
            some ([camera.2.height, camera.2.width, 3], newest.map u8)

/-! ## Which keys meet -/

/-- The last two letters of a view. -/
def view_ending (view : String) : List Char := view.toList.reverse.take 2

theorem ending_append {view : String} (hview : view ∈ RGB_VIEWS) (cs : List Char) :
    (cs ++ ("_" ++ view).toList).reverse.take 2 = view_ending view := by
  have hlong : ∀ view ∈ RGB_VIEWS,
      (("_" ++ view).toList.reverse).take 2 = view_ending view ∧
        2 ≤ ("_" ++ view).toList.reverse.length := by
    decide
  rw [List.reverse_append, List.take_append_of_le_length (hlong view hview).2]
  exact (hlong view hview).1

/-- The end of a key tells its view: no RGB view's name ends another one's, so camera and view are
read back from the two put together. -/
theorem append_view_inj {name other view seen : String} (hview : view ∈ RGB_VIEWS)
    (hseen : seen ∈ RGB_VIEWS) (h : s!"{name}_{view}" = s!"{other}_{seen}") :
    name = other ∧ view = seen := by
  have hkeys : name ++ ("_" ++ view) = other ++ ("_" ++ seen) := by
    rw [← String.append_assoc, ← String.append_assoc]
    exact h
  have hlist : name.toList ++ ("_" ++ view).toList = other.toList ++ ("_" ++ seen).toList := by
    rw [← String.toList_append, ← String.toList_append, hkeys]
  -- two views differ in one of their last two letters
  have hending : view_ending view = view_ending seen := by
    rw [← ending_append hview name.toList, hlist, ending_append hseen]
  have hinj : ∀ view ∈ RGB_VIEWS, ∀ view' ∈ RGB_VIEWS,
      view_ending view = view_ending view' → view = view' := by
    decide
  have hsame := hinj view hview seen hseen hending
  rw [hsame] at hkeys
  exact ⟨(String.append_left_inj _).1 hkeys, hsame⟩

section Meet

variable {cameras : CameraMap} {camera other : String × CameraCfg} {view view' : String}

theorem mem_rgb_views : view ∈ rgb_views camera ↔ view ∈ camera.2.views ∧ view ∈ RGB_VIEWS := by
  unfold rgb_views
  rw [List.mem_filter, List.contains_iff_mem]

/-- The key of the only view of a camera. -/
theorem image_key_single (hsingle : (rgb_views camera).length = 1) :
    image_key camera view = "observation.images." ++ camera.1 := by
  unfold image_key
  rw [if_pos hsingle]
  exact String.append_empty

theorem image_key_multi (hmulti : (rgb_views camera).length ≠ 1) :
    image_key camera view = "observation.images." ++ s!"{camera.1}_{view}" := by
  unfold image_key
  rw [if_neg hmulti]
  show "observation.images." ++ camera.1 ++ ("_" ++ view) =
    "observation.images." ++ (camera.1 ++ "_" ++ view)
  rw [String.append_assoc, String.append_assoc]

theorem length_rgb_views (hview : view ∈ rgb_views camera)
    (hmulti : (rgb_views camera).length ≠ 1) :
    1 < (rgb_views camera).length := by
  have hpos := List.length_pos_of_mem hview
  omega

/-- Within one camera the keys differ, as its views are listed once each and a key is either the
camera's or ends with the view. -/
theorem keys_distinct (hviews : camera.2.views.Nodup) :
    ((rgb_views camera).map (image_key camera)).Nodup := by
  have hnodup : (rgb_views camera).Nodup := hviews.filter _
  by_cases hsingle : (rgb_views camera).length = 1
  · obtain ⟨view, hview⟩ := List.length_eq_one_iff.1 hsingle
    rw [hview]
    exact List.nodup_singleton _
  · refine hnodup.map_on ?_
    intro view hview view' hview' h
    rw [image_key_multi hsingle, image_key_multi hsingle] at h
    have hend := (String.append_right_inj _).1 h
    exact (append_view_inj (mem_rgb_views.1 hview).2 (mem_rgb_views.1 hview').2 hend).2

/-- Between two cameras the keys differ where the cameras are separate, which is all that is known
of cameras of unlike names. -/
theorem keys_disjoint (hseparate : cameras.Separate) (hcamera : camera ∈ cameras.entries)
    (hother : other ∈ cameras.entries) (hne : camera.1 ≠ other.1) {view view' : String}
    (hview : view ∈ rgb_views camera) (hview' : view' ∈ rgb_views other) :
    image_key camera view ≠ image_key other view' := by
  intro h
  by_cases hsingle : (rgb_views camera).length = 1
  · rw [image_key_single hsingle] at h
    by_cases hsingle' : (rgb_views other).length = 1
    · rw [image_key_single hsingle'] at h
      exact hne ((String.append_right_inj _).1 h)
    · rw [image_key_multi hsingle'] at h
      have hmulti := length_rgb_views hview' hsingle'
      exact hseparate camera hcamera hsingle other hother hmulti view' hview'
        ((String.append_right_inj _).1 h)
  · rw [image_key_multi hsingle] at h
    have hmulti := length_rgb_views hview hsingle
    by_cases hsingle' : (rgb_views other).length = 1
    · rw [image_key_single hsingle'] at h
      exact hseparate other hother hsingle' camera hcamera hmulti view hview
        ((String.append_right_inj _).1 h.symm)
    · rw [image_key_multi hsingle'] at h
      have hend := (String.append_right_inj _).1 h
      exact hne (append_view_inj (mem_rgb_views.1 hview).2 (mem_rgb_views.1 hview').2 hend).1

/-- All keys of a rig differ exactly where its cameras are separate. -/
theorem all_keys_distinct_iff :
    (cameras.entries.flatMap fun camera => (rgb_views camera).map (image_key camera)).Nodup ↔
      cameras.Separate := by
  rw [List.nodup_flatMap]
  constructor
  · rintro ⟨_, hpairwise⟩ camera hcamera hsingle other hother hmulti view hview hname
    have hne : camera ≠ other := by
      rintro rfl
      omega
    have hsymm : Std.Symm (Function.onFun List.Disjoint fun camera =>
        (rgb_views camera).map (image_key camera)) := ⟨fun _ _ h => List.Disjoint.symm h⟩
    have hdisjoint : List.Disjoint ((rgb_views camera).map (image_key camera))
        ((rgb_views other).map (image_key other)) := hpairwise.forall hcamera hother hne
    -- the one view of the first camera and the view of the second come under one key
    obtain ⟨view', hview'⟩ := List.length_eq_one_iff.1 hsingle
    apply hdisjoint (a := image_key other view)
    · rw [hview', List.map_singleton, List.mem_singleton, image_key_single hsingle,
        image_key_multi (by omega), hname]
    · exact List.mem_map_of_mem hview
  · intro hseparate
    refine ⟨fun camera hcamera => keys_distinct (cameras.views_distinct camera hcamera), ?_⟩
    refine (List.pairwise_map.1 cameras.names_distinct).imp_of_mem ?_
    intro camera other hcamera hother hne key hkey hkey'
    obtain ⟨view, hview, rfl⟩ := List.mem_map.1 hkey
    obtain ⟨view', hview', heq⟩ := List.mem_map.1 hkey'
    exact keys_disjoint hseparate hcamera hother hne hview hview' heq.symm

end Meet

/-! ## What is stored under the keys -/

/-- Storing what is not an image leaves the images, both those that are there and their order. -/
theorem filter_set_feature {p : String → Bool} {feats : List (String × Feature)} {key : String}
    {feature : Feature} (hkey : p key = false) :
    (set_feature feats key feature).filter (fun entry => p entry.1) =
      feats.filter fun entry => p entry.1 := by
  unfold set_feature
  split
  · clear * - hkey
    induction feats with
    | nil => rfl
    | cons entry rest ih =>
      by_cases hentry : entry.1 = key
      · have hentry' : p entry.1 = false := by rw [hentry, hkey]
        simp [hentry, hkey, ih]
      · simp [hentry, List.filter_cons, ih]
  · simp [List.filter_append, hkey]

/-- A new key comes last. -/
theorem set_feature_new {feats : List (String × Feature)} {key : String} {feature : Feature}
    (hkey : key ∉ feats.map Prod.fst) :
    set_feature feats key feature = feats ++ [(key, feature)] := by
  unfold set_feature
  rw [if_neg]
  rwa [List.contains_iff_mem]

/-- Entries with new keys of their own are stored one after the other. -/
theorem foldl_set_feature_new {entries : List (String × Feature)} :
    ∀ {feats : List (String × Feature)}, (entries.map Prod.fst).Nodup →
      (∀ entry ∈ entries, entry.1 ∉ feats.map Prod.fst) →
      entries.foldl (fun feats entry => set_feature feats entry.1 entry.2) feats =
        feats ++ entries := by
  induction entries with
  | nil =>
    intro feats _ _
    exact (List.append_nil feats).symm
  | cons entry rest ih =>
    intro feats hnodup hnew
    rw [List.map_cons, List.nodup_cons] at hnodup
    have hfirst : set_feature feats entry.1 entry.2 = feats ++ [(entry.1, entry.2)] :=
      set_feature_new (hnew entry List.mem_cons_self)
    rw [List.foldl_cons, hfirst, ih hnodup.2, List.append_assoc]
    · rfl
    · intro other hother
      rw [List.map_append, List.mem_append, not_or]
      refine ⟨hnew other (List.mem_cons_of_mem _ hother), ?_⟩
      rw [List.map_singleton, List.mem_singleton]
      rintro heq
      exact hnodup.1 (heq ▸ List.mem_map_of_mem hother)

theorem filter_foldl_set_feature {p : String → Bool} {entries : List (String × Feature)} :
    ∀ {feats : List (String × Feature)}, (∀ entry ∈ entries, p entry.1 = false) →
      (entries.foldl (fun feats entry => set_feature feats entry.1 entry.2) feats).filter
          (fun entry => p entry.1) = feats.filter fun entry => p entry.1 := by
  induction entries with
  | nil =>
    intro feats _
    rfl
  | cons entry rest ih =>
    intro feats hkeys
    rw [List.foldl_cons, ih fun other hother => hkeys other (List.mem_cons_of_mem _ hother)]
    exact filter_set_feature (hkeys entry List.mem_cons_self)

section Features

variable {cameras : CameraMap} {arms : Arms} {teleop_sides state_signals : List String}
  {instruction : String} {video : Bool} {fb : FrameBuilder}

theorem is_image_key (camera : String × CameraCfg) (view : String) :
    is_image (image_key camera view) = true := by
  unfold is_image image_key
  dsimp only
  apply List.isPrefixOf_iff_prefix.2
  show _ <+: (("observation.images." ++ camera.1) ++ _ : String).toList
  rw [String.append_assoc, String.toList_append]
  exact List.prefix_append _ _

/-- A key that parts from `observation.images.` early is no image's, whatever follows in it. -/
theorem not_image {start rest : String} (hlong : 13 ≤ start.toList.length)
    (hstart : start.toList.take 13 = "observation.f".toList) :
    is_image (start ++ rest) = false := by
  apply Bool.eq_false_of_not_eq_true
  intro himage
  have hprefix := List.prefix_iff_eq_take.1 (List.isPrefixOf_iff_prefix.1 himage)
  have htake := congrArg (List.take 13) hprefix
  rw [String.toList_append, List.take_take, List.take_append_of_le_length, min_eq_left (by decide),
    hstart] at htake
  · exact absurd htake (by decide)
  · exact (min_le_left _ _).trans hlong

/-- The FACTR features of a side are no images: their keys begin with `observation.factr`. -/
theorem factr_not_image {side : String} {entries : List (String × Feature)}
    (h : fb.factr_features side = .ok entries) :
    ∀ entry ∈ entries, is_image entry.1 = false := by
  obtain ⟨arm, _, hentries⟩ := bind_ok.1 h
  rw [← pure_ok.1 hentries]
  intro entry hentry
  rcases List.mem_cons.1 hentry with rfl | hentry
  · exact @not_image "observation.factr." _ (by decide) (by decide)
  · rw [List.mem_singleton.1 hentry]
    exact @not_image "observation.factr_raw." _ (by decide) (by decide)

/-- The sides of a layout are sides of the rig. -/
theorem sides_of_layout {layout : DFCStateActionLayout}
    (h : DFCStateActionLayout.from_arms arms state_signals teleop_sides = .ok layout) :
    ∀ side ∈ layout.sides, side ∈ arms.sides := by
  intro side hside
  obtain ⟨part, hpart, rfl⟩ := List.mem_map.1 hside
  obtain ⟨side, hdriven, hbuilt⟩ := element_of_collect (from_arms_ok h).2.2 part hpart
  obtain ⟨_, _, _, _, hside⟩ := action_part_ok.1 hbuilt
  rw [hside]
  exact (from_arms_ok h).1 side (List.contains_iff_mem.1 (List.mem_filter.1 hdriven).2)

/-- What `features` stores for the images of a rig whose keys differ. -/
theorem features_of_distinct
    (hfb : FrameBuilder.init arms teleop_sides cameras.entries instruction state_signals video =
      .ok fb)
    (hkeys : (cameras.entries.flatMap fun camera =>
      (rgb_views camera).map (image_key camera)).Nodup) :
    ∃ feats, fb.features = .ok feats ∧
      feats.filter (fun entry => is_image entry.1) = cameras.entries.flatMap fun camera =>
        (rgb_views camera).map fun view => fb.image_feature (view_image camera view) := by
  obtain ⟨layout, hlayout, rfl⟩ := init_ok hfb
  set fb : FrameBuilder := ⟨arms, instruction, state_signals, video, layout,
    cameras.entries.flatMap camera_images⟩
  obtain ⟨factr, hfactr⟩ : ∃ factr, collect fb.factr_features fb.layout.sides = .ok factr := by
    refine exists_collect fun side hside => ?_
    obtain ⟨arm, harm⟩ := get_arm_of_mem (sides_of_layout hlayout side hside)
    exact ⟨_, bind_ok.2 ⟨arm, harm, rfl⟩⟩
  refine ⟨_, bind_ok.2 ⟨factr, hfactr, rfl⟩, ?_⟩
  -- the vectors come first, none of them an image; then the images, under new keys
  set start : List (String × Feature) :=
    [("observation.state", fb.state_feature), ("action", fb.action_feature)]
  set images := fb.images.map fb.image_feature
  have himages : images = cameras.entries.flatMap fun camera =>
      (rgb_views camera).map fun view => fb.image_feature (view_image camera view) := by
    show (cameras.entries.flatMap camera_images).map fb.image_feature = _
    rw [List.map_flatMap]
    refine List.flatMap_congr fun camera _ => ?_
    rw [camera_images_eq, List.map_map]
    rfl
  have hvectors : ∀ entry ∈ factr.flatten, is_image entry.1 = false := by
    intro entry hentry
    obtain ⟨entries, hentries, hentry⟩ := List.mem_flatten.1 hentry
    obtain ⟨side, _, hside⟩ := element_of_collect hfactr entries hentries
    exact factr_not_image hside entry hentry
  have hall : ∀ entry ∈ images, is_image entry.1 = true := by
    rw [himages]
    intro entry hentry
    obtain ⟨camera, _, hentry⟩ := List.mem_flatMap.1 hentry
    obtain ⟨view, _, rfl⟩ := List.mem_map.1 hentry
    exact is_image_key camera view
  set vectors := factr.flatten.foldl (fun feats entry => set_feature feats entry.1 entry.2) start
  have hnone : vectors.filter (fun entry => is_image entry.1) = [] := by
    rw [filter_foldl_set_feature hvectors]
    apply List.filter_eq_nil_iff.2
    intro entry hentry
    have hplain : is_image "observation.state" = false ∧ is_image "action" = false := by decide
    rcases List.mem_cons.1 hentry with rfl | hentry
    · exact Bool.eq_false_iff.1 hplain.1
    · rw [List.mem_singleton.1 hentry]
      exact Bool.eq_false_iff.1 hplain.2
  have hnew : ∀ entry ∈ images, entry.1 ∉ vectors.map Prod.fst := by
    intro entry hentry hstored
    obtain ⟨stored, hmem, hsame⟩ := List.mem_map.1 hstored
    have himage : stored ∈ vectors.filter fun entry => is_image entry.1 :=
      List.mem_filter.2 ⟨hmem, (congrArg is_image hsame).trans (hall entry hentry)⟩
    rw [hnone] at himage
    exact List.not_mem_nil himage
  have hnodup : (images.map Prod.fst).Nodup := by
    rw [himages, List.map_flatMap]
    convert hkeys using 2
    funext camera
    rw [List.map_map]
    rfl
  rw [List.foldl_append, foldl_set_feature_new hnodup hnew, List.filter_append, hnone,
    List.filter_eq_self.2 hall, List.nil_append, himages]

end Features

section Frames

variable {F F32 U8 : Type} [Zero F] {f32 : F → F32} {u8 : F → U8} {observation : Observation F}

omit [Zero F] in
/-- The images of a frame, entry by entry: each is under its own key and has its own shape and the
newest pixels of its own stream. -/
theorem image_entries_ok {images : List Image} :
    ∀ {entries : List (String × List ℕ × List U8)},
      image_entries u8 observation images = .ok (some entries) →
        List.Forall₂ (fun image entry => ∃ newest, observation image.stream = some newest ∧
          entry = (image.key, image.shape, newest.map u8)) images entries := by
  induction images with
  | nil =>
    intro entries h
    rw [← Option.some.inj (Except.ok.inj h)]
    exact .nil
  | cons image rest ih =>
    intro entries h
    unfold image_entries at h
    cases hnewest : observation image.stream with
    | none =>
      rw [hnewest] at h
      exact nomatch Except.ok.inj h
    | some newest =>
      rw [hnewest] at h
      obtain ⟨entry, hentry, h⟩ := bind_ok.1 h
      obtain ⟨others, hothers, h⟩ := bind_ok.1 h
      obtain ⟨others', rfl, rfl⟩ := Option.map_eq_some_iff.1 (pure_ok.1 h)
      obtain ⟨_, hreshaped⟩ := guard_ok.1 hentry
      exact .cons ⟨newest, hnewest, (Except.ok.inj hreshaped).symm⟩ (ih hothers)

/-- A frame that is built has the images of its builder, and none of them is missing: without a
sample there is no frame. -/
theorem images_of_build {fb : FrameBuilder} {targets : Targets F} {frame : Frame F32 U8}
    (h : fb.build f32 u8 observation targets = .ok (some frame)) :
    image_entries u8 observation fb.images = .ok (some frame.images) := by
  unfold FrameBuilder.build at h
  cases hstate : newest_of observation fb.layout.state_stream_names with
  | none =>
    rw [hstate] at h
    exact nomatch Except.ok.inj h
  | some _ =>
    rw [hstate] at h
    obtain ⟨state, _, h⟩ := bind_ok.1 h
    split at h
    · exact nomatch Except.ok.inj h
    · obtain ⟨action, _, h⟩ := bind_ok.1 h
      split at h
      · obtain ⟨images, himages, h⟩ := bind_ok.1 h
        obtain ⟨images', rfl, rfl⟩ := Option.map_eq_some_iff.1 (pure_ok.1 h)
        exact himages
      · exact nomatch Except.ok.inj h

/-- Where the keys of a builder differ, a frame has each image's own picture. -/
theorem frame_image_of_distinct {fb : FrameBuilder} {targets : Targets F}
    {frame : Frame F32 U8} (h : fb.build f32 u8 observation targets = .ok (some frame))
    (hkeys : (fb.images.map Image.key).Nodup) {image : Image} (himage : image ∈ fb.images) :
    ∃ newest, observation image.stream = some newest ∧
      frame.image image.key = some (image.shape, newest.map u8) := by
  have hentries := image_entries_ok (images_of_build h)
  have hsame : frame.images.map Prod.fst = fb.images.map Image.key := by
    have hsame : List.Forall₂ (fun image entry => image.key = entry.1) fb.images frame.images :=
      hentries.imp fun image entry ⟨_, _, hentry⟩ => (congrArg Prod.fst hentry).symm
    have hmapped := List.forall₂_map_left_iff.2 (List.forall₂_map_right_iff.2 hsame)
    rw [List.forall₂_eq_eq_eq] at hmapped
    exact hmapped.symm
  have hnodup : (frame.images.reverse.map Prod.fst).Nodup := by
    rw [List.map_reverse, List.nodup_reverse, hsame]
    exact hkeys
  obtain ⟨entry, hentry, newest, hnewest, rfl⟩ : ∃ entry ∈ frame.images, ∃ newest,
      observation image.stream = some newest ∧
        entry = (image.key, image.shape, newest.map u8) := by
    obtain ⟨i, hi, hget⟩ := List.getElem_of_mem himage
    have hi' : i < frame.images.length := hentries.length_eq ▸ hi
    refine ⟨frame.images[i], List.getElem_mem hi', ?_⟩
    have hat := (List.forall₂_iff_get.1 hentries).2 i hi hi'
    simp only [List.get_eq_getElem, hget] at hat
    exact hat
  refine ⟨newest, hnewest, ?_⟩
  exact (Control.lookup_eq_some hnodup).2 (List.mem_reverse.2 hentry)

end Frames

/-! ## The claim of a key -/

/-- A builder has a feature and a picture for each RGB view exactly where its cameras are
separate. -/
theorem own_features_iff {cameras : CameraMap} {arms : Arms}
    {teleop_sides state_signals : List String} {instruction : String} {video : Bool}
    {fb : FrameBuilder}
    (hfb : FrameBuilder.init arms teleop_sides cameras.entries instruction state_signals video =
      .ok fb) :
    OwnFeatures fb cameras ↔ cameras.Separate := by
  constructor
  · intro h
    exact all_keys_distinct_iff.1 h.keys
  · intro hseparate
    have hkeys := all_keys_distinct_iff.2 hseparate
    refine ⟨hkeys, features_of_distinct hfb hkeys, ?_⟩
    intro F F32 U8 _ f32 u8 observation targets frame hbuild camera hcamera view hview
    have himages : fb.images = cameras.entries.flatMap camera_images := by
      obtain ⟨layout, _, rfl⟩ := init_ok hfb
      rfl
    have hnodup : (fb.images.map Image.key).Nodup := by
      rw [himages, List.map_flatMap]
      convert hkeys using 2
      funext camera
      rw [camera_images_eq, List.map_map]
      rfl
    have hmem : view_image camera view ∈ fb.images := by
      rw [himages]
      exact List.mem_flatMap.2 ⟨camera, hcamera, List.mem_map_of_mem hview⟩
    exact frame_image_of_distinct hbuild hnodup hmem

/-! ## A wrist camera beside a left wrist camera -/

def one_arm : Arms where
  entries := [("left", ⟨7, [("q", 7)], ⟨.qpos, [("q_d", 7)], ["q_d"]⟩⟩)]
  nodup := by decide

/-- Cameras of one size, by their names and views. -/
def wrist_cameras (entries : List (String × List String))
    (names_distinct : (entries.map Prod.fst).Nodup)
    (views_distinct : ∀ camera ∈ entries, camera.2.Nodup ∧ camera.2 ≠ []) : CameraMap where
  entries := entries.map fun camera => (camera.1, ⟨camera.2, 2, 2⟩)
  names_distinct := by
    rw [List.map_map]
    exact names_distinct
  views_distinct camera hcamera := by
    obtain ⟨entry, hentry, rfl⟩ := List.mem_map.1 hcamera
    exact (views_distinct entry hentry).1
  views_nonempty camera hcamera := by
    obtain ⟨entry, hentry, rfl⟩ := List.mem_map.1 hcamera
    exact (views_distinct entry hentry).2

def one_layout : DFCStateActionLayout :=
  ⟨["q"], ["left"], [(("left", "q"), 7)], [⟨"left", "q_d", 7⟩], by decide⟩

theorem one_arm_init (cameras : List (String × CameraCfg)) :
    FrameBuilder.init one_arm ["left"] cameras "pick" ["q"] false =
      .ok ⟨one_arm, "pick", ["q"], false, one_layout, cameras.flatMap camera_images⟩ := by
  have hlayout : DFCStateActionLayout.from_arms one_arm ["q"] ["left"] = .ok one_layout :=
    from_arms_iff.2 ⟨by decide, rfl, by decide, rfl, rfl⟩
  unfold FrameBuilder.init
  rw [hlayout]
  rfl

/-- A stereo camera and a scene camera have their features. -/
theorem own_features_iff_wrist_and_scene :
    OwnFeatures ⟨one_arm, "pick", ["q"], false, one_layout,
        (wrist_cameras [("wrist", ["left", "right"]), ("scene", ["color"])] (by decide)
          (by decide)).entries.flatMap camera_images⟩
      (wrist_cameras [("wrist", ["left", "right"]), ("scene", ["color"])] (by decide)
        (by decide)) :=
  (own_features_iff (one_arm_init _)).2 (by unfold CameraMap.Separate; decide)

/-- The left view of `wrist` and the camera `wrist_left` share a key. -/
theorem wrist_left_is_taken :
    ¬ ∀ (cameras : CameraMap) (arms : Arms) (teleop_sides state_signals : List String)
      (instruction : String) (video : Bool) (fb : FrameBuilder),
      FrameBuilder.init arms teleop_sides cameras.entries instruction state_signals video =
        .ok fb → OwnFeatures fb cameras := by
  intro h
  have hown := h (wrist_cameras [("wrist", ["left", "right"]), ("wrist_left", ["color"])]
    (by decide) (by decide)) _ _ _ _ _ _ (one_arm_init _)
  exact absurd hown.keys (by decide)

end DualFlexivControl.Collection
