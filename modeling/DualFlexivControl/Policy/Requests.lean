/-
What is in a request for a policy server.

An OpenPI config lists the views it wants, each with a key and a layout, or it takes every view of
the observation under the key that a template or a dict gives its camera. Either way it asks for a
list of images ([`asked`]), and a payload has them in itself or in a dict of their own
([`picture_at`]). The prompt is stored after the images and an image after those before it, so an
image is there if no other one and no prompt comes under its key ([`Alone`],
[`picture_of_asked`]). That an image is not refused is a matter of the image and of nothing else
([`image_entries_ok_iff`]).

An ACME server has a slot for each image and takes one arm's joints out of the state:
`AcmeEndpointAdapter`. Its slots are the keys of a dict, so no two images meet.
-/
import DualFlexivControl.Control.Codec
import DualFlexivControl.Policy.Adapter

set_option autoImplicit false

namespace DualFlexivControl.Policy

open Results Effect

/-! ## Dicts -/

section Dicts

variable {α β : Type}

/-- What is read after an update is the last of the new entries under the key, or the old one. -/
theorem lookup_update_items_eq (d entries : List (String × α)) (key : String) :
    (update_items d entries).lookup key = (entries.reverse.lookup key).or (d.lookup key) := by
  unfold update_items
  induction entries generalizing d with
  | nil => rfl
  | cons entry rest ih =>
    rw [List.foldl_cons, ih, List.reverse_cons, List.lookup_append, Option.or_assoc,
      lookup_set_item, Gather.lookup_cons_if, List.lookup_nil]
    split_ifs
    · rw [Option.some_or]
    · rw [Option.none_or]

/-- An entry whose key has no other value is what a lookup of the key finds, wherever it stands. -/
theorem lookup_of_unique {d : List (String × α)} {key : String} {a : α} (h : (key, a) ∈ d)
    (hunique : ∀ b, (key, b) ∈ d → b = a) : d.lookup key = some a := by
  have hsome : (d.lookup key).isSome :=
    List.lookup_isSome_iff.2 ⟨_, h, beq_self_eq_true key⟩
  obtain ⟨b, hb⟩ := Option.isSome_iff_exists.1 hsome
  obtain ⟨before, after, hd, _⟩ := List.lookup_eq_some_iff.1 hb
  have hmem : (key, b) ∈ d := by
    rw [hd]
    exact List.mem_append_right _ List.mem_cons_self
  rw [hb, hunique b hmem]

/-- And after an update with it too. -/
theorem lookup_update_of_unique {d entries : List (String × α)} {key : String} {a : α}
    (h : (key, a) ∈ entries) (hunique : ∀ b, (key, b) ∈ entries → b = a) :
    (update_items d entries).lookup key = some a := by
  have hlast : entries.reverse.lookup key = some a :=
    lookup_of_unique (List.mem_reverse.2 h) fun b hb => hunique b (List.mem_reverse.1 hb)
  rw [lookup_update_items_eq, hlast, Option.some_or]

/-- A dict's values, each changed. -/
theorem lookup_map_values (d : List (String × α)) (f : α → β) (key : String) :
    (d.map fun entry => (entry.1, f entry.2)).lookup key = (d.lookup key).map f := by
  induction d with
  | nil => rfl
  | cons entry rest ih =>
    rw [List.map_cons, Gather.lookup_cons_if, Gather.lookup_cons_if, ih]
    split_ifs
    · rfl
    · rfl

/-- An assignment makes no second entry of a key: it replaces the one there is, or adds the first.
-/
theorem nodup_set_item {d : List (String × α)} (h : (d.map Prod.fst).Nodup)
    (entry : String × α) : ((set_item d entry).map Prod.fst).Nodup := by
  unfold set_item
  split_ifs with hmem
  · have hkeys : (d.map fun old => if old.1 = entry.1 then entry else old).map Prod.fst =
        d.map Prod.fst := by
      rw [List.map_map]
      refine List.map_congr_left fun old _ => ?_
      show (if old.1 = entry.1 then entry else old).1 = old.1
      split_ifs with hkey
      · exact hkey.symm
      · rfl
    rw [hkeys]
    exact h
  · rw [List.map_append, List.map_singleton]
    rw [List.contains_iff_mem] at hmem
    rw [← List.concat_eq_append]
    exact h.concat hmem

/-- Updating a dict entry by entry never makes a key come twice. -/
theorem nodup_update_items {d : List (String × α)} (h : (d.map Prod.fst).Nodup)
    (entries : List (String × α)) : ((update_items d entries).map Prod.fst).Nodup := by
  unfold update_items
  induction entries generalizing d with
  | nil => exact h
  | cons entry rest ih => exact ih (nodup_set_item h entry)

end Dicts

/-! ## The images of an OpenPI request -/

section OpenPI

variable {Value Pixels F32 F64 : Type} (py : Runtime Value Pixels F32 F64)
  (request : OpenPIRequestCfg F64)

/-- A view of the observation, as an image that the template asks for. -/
def templated (entry : String × Value) : Option OpenPIImageCfg := do
  let camera ← view_of entry.1
  let named ← py.format_camera request.image_key_template camera
  let key := (request.image_keys.lookup camera).getD named
  if key = "" then none else some ⟨camera, key, "hwc"⟩

/-- `str.format` takes a view's camera. -/
def Formats (key : String) : Prop :=
  ∀ camera, view_of key = some camera →
    (py.format_camera request.image_key_template camera).isSome

/-- The images that a config asks for: those it lists, or one of every view there is. -/
def asked (observation : List (String × Value)) : List OpenPIImageCfg :=
  if request.images ≠ [] then request.images else observation.filterMap (templated py request)

/-- The images are in a dict of their own. -/
def Nested : Prop := request.images ≠ [] ∧ request.images_key ≠ ""

instance : Decidable (Nested request) := by unfold Nested; infer_instance

/-- The picture that a payload has under a key. -/
def picture_at (payload : List (String × Wire Value Pixels F32)) (key : String) : Option Pixels :=
  if Nested request then
    match payload.lookup request.images_key with
    | some (.images images) => images.lookup key
    | _ => none
  else
    match payload.lookup key with
    | some (.image pixels) => some pixels
    | _ => none

/-- Neither another image nor the prompt comes under an image's key. -/
structure Alone (images : List OpenPIImageCfg) (image : OpenPIImageCfg) : Prop where
  among : ∀ other ∈ images, other.key = image.key → other = image
  prompt : request.prompt_key ≠ if Nested request then request.images_key else image.key

/-- The picture of an image: its view of the observation, in its layout. -/
def Shown (observation : List (String × Value)) (image : OpenPIImageCfg) (pixels : Pixels) : Prop :=
  ∃ value, observation.lookup (IMAGE_PREFIX ++ image.source) = some value ∧
    Policy.image py value image.layout image.source = .ok pixels

variable {py request} {observation : List (String × Value)}

/-- A request shows one picture for an image: the observation's value under its source, in its
layout, is determined. -/
theorem Shown.unique {image : OpenPIImageCfg} {pixels pixels' : Pixels}
    (h : Shown py observation image pixels) (h' : Shown py observation image pixels') :
    pixels = pixels' := by
  obtain ⟨value, hvalue, hpixels⟩ := h
  obtain ⟨value', hvalue', hpixels'⟩ := h'
  obtain rfl := Option.some.inj (hvalue.symm.trans hvalue')
  exact Except.ok.inj (hpixels.symm.trans hpixels')

/-- The view of an image key is what stands behind the prefix. -/
theorem view_of_append (camera : String) : view_of (IMAGE_PREFIX ++ camera) = some camera := by
  have hprefix : IMAGE_PREFIX.toList <+: (IMAGE_PREFIX ++ camera).toList := by
    rw [String.toList_append]
    exact List.prefix_append _ _
  unfold view_of
  rw [if_pos hprefix, String.toList_append, ← String.length_toList, List.drop_left,
    String.ofList_toList]

/-- A key of a view is the prefix and the view's camera. -/
theorem view_of_eq_some {key camera : String} :
    view_of key = some camera ↔ key = IMAGE_PREFIX ++ camera := by
  constructor
  · intro h
    unfold view_of at h
    split_ifs at h with hprefix
    obtain ⟨rest, hrest⟩ := hprefix
    rw [← hrest, ← String.length_toList, List.drop_left] at h
    rw [← Option.some.inj h]
    apply String.toList_inj.1
    rw [String.toList_append, String.toList_ofList, hrest]
  · rintro rfl
    exact view_of_append camera

/-- The pictures of a request, with their keys. -/
def pictures (py : Runtime Value Pixels F32 F64) (request : OpenPIRequestCfg F64)
    (observation : List (String × Value)) : Except AdapterError (List (String × Pixels)) :=
  if request.images ≠ [] then collect (mapped_image py observation) request.images
  else (collect (template_image py request) observation).map List.flatten

/-- How the pictures are added to a payload. -/
def wrap (request : OpenPIRequestCfg F64) (images : List (String × Pixels)) :
    List (String × Wire Value Pixels F32) :=
  if Nested request then [(request.images_key, .images (update_items [] images))]
  else images.map fun entry => (entry.1, .image entry.2)

/-- A request with a key for its images packs them into one dict, in which a later image replaces an
earlier one of its key. -/
theorem wrap_nested (h : Nested request) (images : List (String × Pixels)) :
    (wrap request images : List (String × Wire Value Pixels F32)) =
      [(request.images_key, .images (update_items [] images))] := if_pos h

/-- Without such a key the images are entries of the request itself. -/
theorem wrap_flat (h : ¬ Nested request) (images : List (String × Pixels)) :
    (wrap request images : List (String × Wire Value Pixels F32)) =
      images.map fun entry => (entry.1, .image entry.2) := if_neg h

/-- The entries of the images are the pictures of the request, wrapped. Whether they are listed or
taken from the template makes no difference to how they are stored. -/
theorem image_entries_eq :
    (image_entries py request observation : Except _ (List (String × Wire Value Pixels F32))) =
      (pictures py request observation).map (wrap request) := by
  unfold image_entries pictures
  by_cases himages : request.images = []
  · rw [if_neg (not_not.2 himages), if_neg (not_not.2 himages)]
    cases collect (template_image py request) observation with
    | error e => rfl
    | ok images => exact congrArg Except.ok (wrap_flat (fun h => h.1 himages) images.flatten).symm
  · rw [if_pos himages, if_pos himages]
    cases collect (mapped_image py observation) request.images with
    | error e => rfl
    | ok images =>
      show (if request.images_key ≠ "" then _ else _) = Except.ok (wrap request images)
      by_cases hkey : request.images_key = ""
      · rw [if_neg (not_not.2 hkey), wrap_flat (fun h => h.2 hkey)]
        rfl
      · rw [if_pos hkey, wrap_nested ⟨himages, hkey⟩]
        rfl

/-- A listed image is sent under its own key, with the picture that its source shows. -/
theorem mapped_image_ok {image : OpenPIImageCfg} {entry : String × Pixels} :
    mapped_image py observation image = .ok entry ↔
      entry.1 = image.key ∧ Shown py observation image entry.2 := by
  unfold mapped_image Shown
  cases observation.lookup (IMAGE_PREFIX ++ image.source) with
  | none => simp
  | some value =>
    dsimp only
    rw [bind_ok]
    constructor
    · rintro ⟨pixels, hpixels, hentry⟩
      obtain rfl := pure_ok.1 hentry
      exact ⟨rfl, value, rfl, hpixels⟩
    · rintro ⟨hkey, value', hvalue, hpixels⟩
      obtain rfl := Option.some.inj hvalue
      exact ⟨entry.2, hpixels, pure_ok.2 (Prod.ext hkey.symm rfl)⟩

/-- What a view contributes under the template: nothing if it is not asked for, and otherwise its
picture. The template is formatted for it in any case. -/
theorem template_image_ok {entry : String × Value} {images : List (String × Pixels)} :
    template_image py request entry = .ok images ↔
      Formats py request entry.1 ∧
      match templated py request entry with
      | none => images = []
      | some image => ∃ pixels, Policy.image py entry.2 image.layout image.source = .ok pixels ∧
          images = [(image.key, pixels)] := by
  unfold template_image templated Formats
  cases view_of entry.1 with
  | none =>
    constructor
    · intro h
      exact ⟨nofun, (Except.ok.inj h).symm⟩
    · rintro ⟨_, rfl⟩
      rfl
  | some camera =>
    dsimp only [Option.bind_eq_bind, Option.bind_some]
    -- the template is formatted even where the camera has a key of its own
    cases hformat : py.format_camera request.image_key_template camera with
    | none =>
      constructor
      · intro h
        exact nomatch h
      · rintro ⟨h, _⟩
        exact absurd (h camera rfl) (by rw [hformat]; exact Bool.false_ne_true)
    | some named =>
      have hformats : ∀ seen, some camera = some seen →
          (py.format_camera request.image_key_template seen).isSome := by
        intro seen hseen
        rw [← Option.some.inj hseen, hformat]
        rfl
      dsimp only [Option.bind_some]
      -- an empty key leaves the view out
      by_cases hkey : (request.image_keys.lookup camera).getD named = ""
      · show (if _ then pure [] else _) = Except.ok images ↔ _
        rw [if_pos hkey, if_pos hkey, pure_ok]
        exact ⟨fun h => ⟨hformats, h.symm⟩, fun h => h.2.symm⟩
      · show (if _ then pure [] else _) = Except.ok images ↔ _
        rw [if_neg hkey, if_neg hkey, bind_ok]
        constructor
        · rintro ⟨pixels, hpixels, himages⟩
          exact ⟨hformats, pixels, hpixels, (pure_ok.1 himages).symm⟩
        · rintro ⟨_, pixels, hpixels, himages⟩
          exact ⟨pixels, hpixels, pure_ok.2 himages.symm⟩

/-- A templated image is made from the observation's entry that it is named after. -/
theorem templated_source {entry : String × Value} {image : OpenPIImageCfg}
    (h : templated py request entry = some image) : entry.1 = IMAGE_PREFIX ++ image.source := by
  obtain ⟨camera, hcamera, h⟩ := Option.bind_eq_some_iff.1 h
  obtain ⟨named, _, h⟩ := Option.bind_eq_some_iff.1 h
  dsimp only at h
  split_ifs at h
  rw [← Option.some.inj h]
  exact view_of_eq_some.1 hcamera

/-- A templated image is sent as the observation has it, with the channels last. -/
theorem templated_layout {entry : String × Value} {image : OpenPIImageCfg}
    (h : templated py request entry = some image) : image.layout = "hwc" := by
  obtain ⟨camera, _, h⟩ := Option.bind_eq_some_iff.1 h
  obtain ⟨named, _, h⟩ := Option.bind_eq_some_iff.1 h
  dsimp only at h
  split_ifs at h
  rw [← Option.some.inj h]

/-- Among the keys of a dict a view is found by its name. -/
theorem shown_templated (hkeys : (observation.map Prod.fst).Nodup) {entry : String × Value}
    (hentry : entry ∈ observation) {image : OpenPIImageCfg}
    (h : templated py request entry = some image) (pixels : Pixels) :
    Shown py observation image pixels ↔
      Policy.image py entry.2 image.layout image.source = .ok pixels := by
  have hvalue : observation.lookup (IMAGE_PREFIX ++ image.source) = some entry.2 := by
    rw [← templated_source h]
    exact (Control.lookup_eq_some hkeys).2 hentry
  unfold Shown
  rw [hvalue]
  constructor
  · rintro ⟨value, hsame, hpixels⟩
    rw [Option.some.inj hsame]
    exact hpixels
  · intro hpixels
    exact ⟨entry.2, rfl, hpixels⟩

/-- Without a list of images every picture of the observation is offered to the template. -/
theorem pictures_of_template {images : List (String × Pixels)} (himages : request.images = []) :
    pictures py request observation = .ok images ↔
      ∃ groups, collect (template_image py request) observation = .ok groups ∧
        images = groups.flatten := by
  unfold pictures
  rw [if_neg (not_not.2 himages)]
  cases collect (template_image py request) observation with
  | error e =>
    constructor
    · intro h
      exact nomatch h
    · rintro ⟨groups, hgroups, _⟩
      exact nomatch hgroups
  | ok groups =>
    constructor
    · intro h
      exact ⟨groups, rfl, (Except.ok.inj h).symm⟩
    · rintro ⟨groups', hgroups, rfl⟩
      rw [Except.ok.inj hgroups]
      rfl

/-- With a list of images the pictures are those that it names, in its order. -/
theorem pictures_of_list {images : List (String × Pixels)} (himages : request.images ≠ []) :
    pictures py request observation = .ok images ↔
      collect (mapped_image py observation) request.images = .ok images := by
  unfold pictures
  rw [if_pos himages]

/-- The pictures of a request are those of the images it asks for. -/
theorem pictures_spec (hkeys : (observation.map Prod.fst).Nodup) {images : List (String × Pixels)}
    (h : pictures py request observation = .ok images) :
    (∀ image ∈ asked py request observation, ∃ pixels, Shown py observation image pixels ∧
      (image.key, pixels) ∈ images) ∧
    ∀ picture ∈ images, ∃ image ∈ asked py request observation, image.key = picture.1 ∧
      Shown py observation image picture.2 := by
  unfold asked
  -- by the template, each view of the observation is a request of its own
  by_cases himages : request.images = []
  · obtain ⟨groups, hgroups, rfl⟩ := (pictures_of_template himages).1 h
    rw [if_neg (not_not.2 himages)]
    constructor
    · intro image himage
      obtain ⟨entry, hentry, htemplated⟩ := List.mem_filterMap.1 himage
      obtain ⟨group, hgroup, hok⟩ := entry_of_collect hgroups entry hentry
      obtain ⟨_, hshows⟩ := template_image_ok.1 hok
      rw [htemplated] at hshows
      obtain ⟨pixels, hpixels, rfl⟩ := hshows
      exact ⟨pixels, (shown_templated hkeys hentry htemplated pixels).2 hpixels,
        List.mem_flatten.2 ⟨_, hgroup, List.mem_singleton_self _⟩⟩
    · intro picture hpicture
      obtain ⟨group, hgroup, hpicture⟩ := List.mem_flatten.1 hpicture
      obtain ⟨entry, hentry, hok⟩ := element_of_collect hgroups group hgroup
      obtain ⟨_, hshows⟩ := template_image_ok.1 hok
      cases htemplated : templated py request entry with
      | none =>
        rw [htemplated] at hshows
        rw [hshows] at hpicture
        exact absurd hpicture List.not_mem_nil
      | some image =>
        rw [htemplated] at hshows
        obtain ⟨pixels, hpixels, rfl⟩ := hshows
        rw [List.mem_singleton.1 hpicture]
        exact ⟨image, List.mem_filterMap.2 ⟨entry, hentry, htemplated⟩, rfl,
          (shown_templated hkeys hentry htemplated pixels).2 hpixels⟩
  · -- by the list, the requests are its entries
    rw [pictures_of_list himages] at h
    rw [if_pos himages]
    constructor
    · intro image himage
      obtain ⟨picture, hpicture, hok⟩ := entry_of_collect h image himage
      obtain ⟨hkey, hshown⟩ := mapped_image_ok.1 hok
      exact ⟨picture.2, hshown, hkey ▸ hpicture⟩
    · intro picture hpicture
      obtain ⟨image, himage, hok⟩ := element_of_collect h picture hpicture
      obtain ⟨hkey, hshown⟩ := mapped_image_ok.1 hok
      exact ⟨image, himage, hkey.symm, hshown⟩

/-- The image part of a request is built when all pictures are, and is these pictures, wrapped. -/
theorem image_entries_ok {entries : List (String × Wire Value Pixels F32)} :
    image_entries py request observation = .ok entries ↔
      ∃ images, pictures py request observation = .ok images ∧ entries = wrap request images := by
  rw [image_entries_eq]
  cases pictures py request observation with
  | error e =>
    constructor
    · intro h
      exact nomatch h
    · rintro ⟨images, himages, _⟩
      exact nomatch himages
  | ok images =>
    constructor
    · intro h
      exact ⟨images, rfl, (Except.ok.inj h).symm⟩
    · rintro ⟨images', himages, rfl⟩
      rw [Except.ok.inj himages]
      rfl

/-- A request is refused for its images exactly where one of them cannot be shown, or the template
does not take a view's camera. -/
theorem image_entries_ok_iff (hkeys : (observation.map Prod.fst).Nodup) :
    (∃ entries : List (String × Wire Value Pixels F32),
      image_entries py request observation = .ok entries) ↔
      (∀ image ∈ asked py request observation, ∃ pixels, Shown py observation image pixels) ∧
      (request.images = [] → ∀ entry ∈ observation, Formats py request entry.1) := by
  constructor
  · rintro ⟨entries, hentries⟩
    obtain ⟨images, hpictures, _⟩ := image_entries_ok.1 hentries
    constructor
    · intro image himage
      obtain ⟨pixels, hpixels, _⟩ := (pictures_spec hkeys hpictures).1 image himage
      exact ⟨pixels, hpixels⟩
    · intro himages entry hentry
      obtain ⟨groups, hgroups, _⟩ := (pictures_of_template himages).1 hpictures
      obtain ⟨group, _, hok⟩ := entry_of_collect hgroups entry hentry
      exact (template_image_ok.1 hok).1
  · rintro ⟨hshown, hformats⟩
    -- each picture is converted on its own, so one by one they suffice
    obtain ⟨images, hpictures⟩ : ∃ images, pictures py request observation = .ok images := by
      unfold asked at hshown
      by_cases himages : request.images = []
      · rw [if_neg (not_not.2 himages)] at hshown
        obtain ⟨groups, hgroups⟩ : ∃ groups,
            collect (template_image py request) observation = .ok groups := by
          refine exists_collect fun entry hentry => ?_
          have hformat := hformats himages entry hentry
          cases htemplated : templated py request entry with
          | none => exact ⟨[], template_image_ok.2 ⟨hformat, by rw [htemplated]⟩⟩
          | some image =>
            obtain ⟨pixels, hpixels⟩ :=
              hshown image (List.mem_filterMap.2 ⟨entry, hentry, htemplated⟩)
            have hpicture := (shown_templated hkeys hentry htemplated pixels).1 hpixels
            refine ⟨[(image.key, pixels)], template_image_ok.2 ⟨hformat, ?_⟩⟩
            rw [htemplated]
            exact ⟨pixels, hpicture, rfl⟩
        exact ⟨_, (pictures_of_template himages).2 ⟨groups, hgroups, rfl⟩⟩
      · rw [if_pos himages] at hshown
        obtain ⟨images, hcollect⟩ := exists_collect fun image himage => by
          obtain ⟨pixels, hpixels⟩ := hshown image himage
          exact ⟨(image.key, pixels), mapped_image_ok.2 ⟨rfl, hpixels⟩⟩
        exact ⟨images, (pictures_of_list himages).2 hcollect⟩
    exact ⟨_, image_entries_ok.2 ⟨images, hpictures, rfl⟩⟩

/-- The last picture under a key is the only one there, for an image that is alone. -/
theorem unique_picture (hkeys : (observation.map Prod.fst).Nodup) {images : List (String × Pixels)}
    (h : pictures py request observation = .ok images) {image : OpenPIImageCfg} {pixels : Pixels}
    (hshown : Shown py observation image pixels)
    (halone : Alone request (asked py request observation) image) :
    ∀ pixels', (image.key, pixels') ∈ images → pixels' = pixels := by
  intro pixels' hpicture
  obtain ⟨other, hother, hkey, hshown'⟩ := (pictures_spec hkeys h).2 _ hpicture
  rw [halone.among other hother hkey] at hshown'
  exact hshown'.unique hshown

/-- A payload has the picture of every image that is asked for and alone under its key. -/
theorem picture_of_asked (hkeys : (observation.map Prod.fst).Nodup)
    {entries : List (String × Wire Value Pixels F32)}
    (hentries : image_entries py request observation = .ok entries) {image : OpenPIImageCfg}
    (himage : image ∈ asked py request observation)
    (halone : Alone request (asked py request observation) image) :
    ∃ pixels, Shown py observation image pixels ∧
      ∀ base task, picture_at request
        (set_item (update_items base entries) (request.prompt_key, .task task)) image.key =
          some pixels := by
  obtain ⟨images, hpictures, rfl⟩ := image_entries_ok.1 hentries
  obtain ⟨pixels, hshown, hmem⟩ := (pictures_spec hkeys hpictures).1 image himage
  have hunique := unique_picture hkeys hpictures hshown halone
  refine ⟨pixels, hshown, fun base task => ?_⟩
  have hprompt := halone.prompt
  unfold picture_at
  by_cases hnested : Nested request
  · rw [if_pos hnested] at hprompt ⊢
    have hdict : (update_items base (wrap request images)).lookup request.images_key =
        some (Wire.images (update_items [] images)) := by
      rw [wrap_nested hnested]
      exact lookup_update_of_unique (List.mem_singleton_self _) fun b hb =>
        (Prod.mk.inj (List.mem_singleton.1 hb)).2
    rw [lookup_set_item, if_neg (Ne.symm hprompt), hdict]
    exact lookup_update_of_unique hmem hunique
  · rw [if_neg hnested] at hprompt ⊢
    have hpicture : (update_items base (wrap request images)).lookup image.key =
        some (Wire.image pixels) := by
      rw [wrap_flat hnested]
      refine lookup_update_of_unique
        (List.mem_map_of_mem (f := fun entry => (entry.1, Wire.image entry.2)) hmem) ?_
      intro wire hwire
      obtain ⟨picture, hpicture, hsame⟩ := List.mem_map.1 hwire
      obtain ⟨hkey, rfl⟩ := Prod.mk.inj hsame
      rw [hunique picture.2 (hkey ▸ hpicture)]
    rw [lookup_set_item, if_neg (Ne.symm hprompt), hpicture]

/-- So does every request that is encoded: what the request has under an image's key is the picture
of the view that the image asks for. -/
theorem picture_requested [Zero F32] (hkeys : (observation.map Prod.fst).Nodup)
    {cfg : OpenPIEndpointCfg F64} {adapter : Adapter F32}
    {payload : List (String × Wire Value Pixels F32)}
    (h : (exec (encode_request py cfg observation) adapter).1 = .ok payload)
    {image : OpenPIImageCfg} (himage : image ∈ asked py cfg.request observation)
    (halone : Alone cfg.request (asked py cfg.request observation) image) :
    ∃ pixels, Shown py observation image pixels ∧
      picture_at cfg.request payload image.key = some pixels := by
  rcases encode_request_cases py cfg adapter observation with
    ⟨e, hexec⟩ | ⟨_, sent, _, hexec, state, entries, task, _, hentries, _, hsent⟩
  · rw [hexec] at h
    exact nomatch h
  · rw [hexec] at h
    obtain rfl := Except.ok.inj h
    obtain ⟨pixels, hshown, hpicture⟩ := picture_of_asked hkeys hentries himage halone
    rw [hsent]
    exact ⟨pixels, hshown, hpicture _ task⟩

end OpenPI

/-! ## ACME requests -/

/-- What an ACME config says: a slot of the request for each image, with the view it is mapped to,
the joints to take out of the state, and two constants. -/
structure AcmeCfg (F : Type) where
  acme_image_keys : List (String × String)
  qpos_slice : List ℤ
  obs_steps : ℤ
  gripper_force : F
  slots_distinct : (acme_image_keys.map Prod.fst).Nodup

/-- A `PolicyError` of the ACME adapter, by what its message shows. -/
inductive AcmePolicyError
  | qpos_slice (slice : List ℤ) (size : ℕ)
  | absent_view (slot camera : String) (available : List String)
  | no_action (got : List Key)
  | not_a_dict (type_name : String)
  | batch (size : ℕ)
  | action_shape (shape : List ℕ)
  deriving DecidableEq, Repr

/-- What the ACME adapter raises. -/
inductive AcmeError
  | policy (error : AcmePolicyError)
  | raised
  deriving DecidableEq, Repr

/-- The payload: `images`, `lowdim` and `form`. -/
structure AcmePayload (Value F32 : Type) where
  images : List (String × Value)
  qpos : List F32
  gripper_force : List F32
  prompt : Value
  obs_steps : ℤ

/-- A position of a slice: from the end if it is negative, and never before the start. -/
def slice_bound (size : ℕ) (k : ℤ) : ℕ := (if k < 0 then size + k else k).toNat

/-- `xs[lo:hi]` -/
def slice {α : Type} (xs : List α) (lo hi : ℤ) : List α :=
  (xs.take (slice_bound xs.length hi)).drop (slice_bound xs.length lo)

namespace AcmeEndpointAdapter

section

variable {Value Pixels F32 F64 : Type} (py : Runtime Value Pixels F32 F64)

/-- The result of Python, or its exception. -/
def python {α : Type} : Option α → Except AcmeError α
  | some a => .ok a
  | none => .error .raised

/-- One slot with a view. -/
def slot_image (observation : List (String × Value)) (slot : String × String) :
    Except AcmeError (String × Value) :=
  match observation.lookup (IMAGE_PREFIX ++ slot.2) with
  | some value => .ok (slot.1, value)
  | none =>
    let available := (observation.filterMap fun entry => view_of entry.1).mergeSort
    .error (.policy (.absent_view slot.1 slot.2 available))

/-- The joints of one arm, between the two ends of the config's slice. -/
def qpos_of (qpos_slice : List ℤ) (state : List F32) : Except AcmeError (List F32) :=
  match qpos_slice with
  | [lo, hi] =>
    let qpos := slice state lo hi
    if (qpos.length : ℤ) ≠ hi - lo ∨ (state.length : ℤ) < hi then
      .error (.policy (.qpos_slice [lo, hi] state.length))
    else .ok qpos
  | _ => .error .raised

/-- `encode_request` -/
def encode_request (cfg : AcmeCfg F64) (observation : List (String × Value)) :
    Except AcmeError (AcmePayload Value F32) := do
  let value ← python (observation.lookup "observation.state")
  let array ← python (py.float32_array value)
  let qpos ← qpos_of cfg.qpos_slice array.data
  let images ← collect (slot_image observation)
    (cfg.acme_image_keys.filter fun slot => slot.2 ≠ "")
  let task ← python (observation.lookup "task")
  pure ⟨images, qpos, [py.f32 cfg.gripper_force], task, cfg.obs_steps⟩

/-- The rows of a matrix of actions. -/
def action_rows (h w : ℕ) (data : List F64) : Except AcmeError (List (List F64)) :=
  if h = 0 then .error (.policy (.action_shape [h, w])) else .ok (rows h w data)

/-- `decode_actions` -/
def decode_actions : Response Value → Except AcmeError (List (List F64))
  | .other type_name => .error (.policy (.not_a_dict type_name))
  | .dict entries =>
    match entries.lookup (.str "action") with
    | none => do
      let got ← python (py.sorted (entries.map Prod.fst))
      throw (.policy (.no_action got))
    | some value => do
      let actions ← python (py.float64_array value)
      match actions.shape with
      | [_] => pure [actions.data]
      | [h, w] => action_rows h w actions.data
      | [b, h, w] =>
        if b ≠ 1 then throw (.policy (.batch b)) else action_rows h w actions.data
      | shape => throw (.policy (.action_shape shape))

end

variable {Value Pixels F32 F64 : Type} {py : Runtime Value Pixels F32 F64} {cfg : AcmeCfg F64}
  {observation : List (String × Value)}

/-- A value that Python computes is there or an exception was raised. -/
theorem python_ok {α : Type} {x : Option α} {a : α} : python x = .ok a ↔ x = some a := by
  cases x with
  | none =>
    constructor
    · intro h
      exact nomatch h
    · intro h
      exact nomatch h
  | some b =>
    constructor
    · intro h
      exact congrArg some (Except.ok.inj h)
    · intro h
      exact congrArg Except.ok (Option.some.inj h)

/-- What a payload has: in each slot with a view that view of the observation, the joints between
the two ends of the slice, as many as there are between them, and the constants. -/
structure Encoded (py : Runtime Value Pixels F32 F64) (cfg : AcmeCfg F64)
    (observation : List (String × Value)) (payload : AcmePayload Value F32) : Prop where
  shown : ∀ slot ∈ cfg.acme_image_keys, slot.2 ≠ "" → ∃ value,
    observation.lookup (IMAGE_PREFIX ++ slot.2) = some value ∧
      payload.images.lookup slot.1 = some value
  only : ∀ entry ∈ payload.images, ∃ slot ∈ cfg.acme_image_keys, slot.2 ≠ "" ∧
    slot.1 = entry.1 ∧ observation.lookup (IMAGE_PREFIX ++ slot.2) = some entry.2
  slots : (payload.images.map Prod.fst).Nodup
  joints : ∃ value state lo hi, observation.lookup "observation.state" = some value ∧
    py.float32_array value = some state ∧ cfg.qpos_slice = [lo, hi] ∧
    (payload.qpos.length : ℤ) = hi - lo ∧
    ∀ k < payload.qpos.length,
      payload.qpos[k]? = state.data[slice_bound state.data.length lo + k]?
  constants : payload.gripper_force = [py.f32 cfg.gripper_force] ∧
    payload.obs_steps = cfg.obs_steps ∧ observation.lookup "task" = some payload.prompt

/-- A slice has the elements from its lower end on. -/
theorem getElem?_slice {α : Type} {xs : List α} {lo hi : ℤ} {k : ℕ}
    (hk : k < (slice xs lo hi).length) :
    (slice xs lo hi)[k]? = xs[slice_bound xs.length lo + k]? := by
  unfold slice at hk ⊢
  rw [List.length_drop, List.length_take] at hk
  rw [List.getElem?_drop, List.getElem?_take_of_lt (by omega)]

/-- A slot's image is the observation's picture under the slot's camera, and a camera without one
fails the request. -/
theorem slot_image_ok {slot : String × String} {entry : String × Value} :
    slot_image observation slot = .ok entry ↔
      slot.1 = entry.1 ∧ observation.lookup (IMAGE_PREFIX ++ slot.2) = some entry.2 := by
  unfold slot_image
  cases observation.lookup (IMAGE_PREFIX ++ slot.2) with
  | none =>
    constructor
    · intro h
      exact nomatch h
    · rintro ⟨_, h⟩
      exact nomatch h
  | some value =>
    constructor
    · intro h
      rw [← Except.ok.inj h]
      exact ⟨rfl, rfl⟩
    · rintro ⟨hslot, hvalue⟩
      exact congrArg Except.ok (Prod.ext hslot (Option.some.inj hvalue))

/-- The joints are as many as there are between the ends, and lie there in the state. -/
theorem qpos_of_ok {qpos_slice : List ℤ} {state qpos : List F32}
    (h : qpos_of qpos_slice state = .ok qpos) : ∃ lo hi, qpos_slice = [lo, hi] ∧
      (qpos.length : ℤ) = hi - lo ∧
      ∀ k < qpos.length, qpos[k]? = state[slice_bound state.length lo + k]? := by
  unfold qpos_of at h
  split at h
  · rename_i lo hi
    obtain ⟨hfits, h⟩ := guard_ok.1 h
    obtain rfl := Except.ok.inj h
    rw [not_or, not_not] at hfits
    exact ⟨lo, hi, rfl, hfits.1, fun k hk => getElem?_slice hk⟩
  · exact nomatch h

/-- Every request that is encoded has all of it: the instruction, the state and, in each slot, the
tensor of its own picture. -/
theorem encoded {payload : AcmePayload Value F32}
    (h : encode_request py cfg observation = .ok payload) : Encoded py cfg observation payload := by
  unfold encode_request at h
  obtain ⟨value, hvalue, h⟩ := bind_ok.1 h
  obtain ⟨array, harray, h⟩ := bind_ok.1 h
  obtain ⟨qpos, hqpos, h⟩ := bind_ok.1 h
  obtain ⟨images, himages, h⟩ := bind_ok.1 h
  obtain ⟨task, htask, h⟩ := bind_ok.1 h
  obtain rfl := pure_ok.1 h
  obtain ⟨lo, hi, hends, hlength, hjoints⟩ := qpos_of_ok hqpos
  have hslots : (images.map Prod.fst).Nodup := by
    have hsame : List.Forall₂ (fun slot entry => slot.1 = entry.1)
        (cfg.acme_image_keys.filter fun slot => slot.2 ≠ "") images :=
      (collect_ok.1 himages).imp fun slot entry hslot => (slot_image_ok.1 hslot).1
    have hkeys := List.forall₂_map_left_iff.2 (List.forall₂_map_right_iff.2 hsame)
    rw [List.forall₂_eq_eq_eq] at hkeys
    rw [← hkeys]
    exact cfg.slots_distinct.sublist (List.filter_sublist.map _)
  refine ⟨?_, ?_, hslots, ?_, ⟨rfl, rfl, python_ok.1 htask⟩⟩
  · intro slot hslot hview
    have hkept : slot ∈ cfg.acme_image_keys.filter fun slot => slot.2 ≠ "" :=
      List.mem_filter.2 ⟨hslot, decide_eq_true hview⟩
    obtain ⟨entry, hentry, hok⟩ := entry_of_collect himages slot hkept
    obtain ⟨hkey, hlookup⟩ := slot_image_ok.1 hok
    exact ⟨entry.2, hlookup, (Control.lookup_eq_some hslots).2 (hkey ▸ hentry)⟩
  · intro entry hentry
    obtain ⟨slot, hkept, hok⟩ := element_of_collect himages entry hentry
    obtain ⟨hslot, hview⟩ := List.mem_filter.1 hkept
    obtain ⟨hkey, hlookup⟩ := slot_image_ok.1 hok
    exact ⟨slot, hslot, of_decide_eq_true hview, hkey, hlookup⟩
  · exact ⟨value, array, lo, hi, python_ok.1 hvalue, python_ok.1 harray, hends, hlength, hjoints⟩

/-- An answer that is accepted has rows, all as wide as it says. -/
theorem action_rows_ok {h w : ℕ} {data : List F64} {output : List (List F64)}
    (hdata : data.length = h * w) (hrows : action_rows h w data = .ok output) :
    output ≠ [] ∧ ∀ row ∈ output, row.length = w := by
  unfold action_rows at hrows
  obtain ⟨hpos, hrows⟩ := guard_ok.1 hrows
  obtain rfl := Except.ok.inj hrows
  have hsize : data.length = [h, w].prod := by simpa using hdata
  have hmatrix : action_matrix ⟨[h, w], data, hsize⟩ = .ok (w, rows h w data) := if_neg hpos
  exact action_matrix_rows hmatrix

/-- A response that is accepted is a row of actions or more, and its rows are of one width. -/
theorem decoded {response : Response Value} {output : List (List F64)}
    (h : decode_actions py response = .ok output) :
    output ≠ [] ∧ ∃ width, ∀ row ∈ output, row.length = width := by
  unfold decode_actions at h
  split at h
  · exact nomatch h
  · split at h
    · obtain ⟨got, _, h⟩ := bind_ok.1 h
      exact nomatch h
    · obtain ⟨actions, _, h⟩ := bind_ok.1 h
      have hsize := actions.size_eq
      split at h
      · obtain rfl := pure_ok.1 h
        exact ⟨List.cons_ne_nil _ _, actions.data.length, fun row hrow => by
          rw [List.mem_singleton.1 hrow]⟩
      · rename_i rows width hshape
        rw [hshape] at hsize
        obtain ⟨hne, hwidth⟩ := action_rows_ok (by simpa using hsize) h
        exact ⟨hne, width, hwidth⟩
      · rename_i batch rows width hshape
        obtain ⟨hone, h⟩ := guard_ok.1 h
        rw [hshape, not_not.1 hone] at hsize
        obtain ⟨hne, hwidth⟩ := action_rows_ok (by simpa using hsize) h
        exact ⟨hne, width, hwidth⟩
      · exact nomatch h

end AcmeEndpointAdapter

end DualFlexivControl.Policy
