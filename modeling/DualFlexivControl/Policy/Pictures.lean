/-
The pictures of a policy's requests, pixel by pixel.

`ObservationBuilder` builds the frame that collection records, less its action; the adapters take
pictures out of it, and the ACME transport makes a tensor of each. Three things together say that
a server sees what the camera saw ([`pictures_reach_policy`]): the frame has under every view's key
the bytes that the camera wrote ([`canonical_picture`]), a request has under the key of an image the
picture of the view that the image asks for (`picture_requested`, `AcmeEndpointAdapter.encoded`),
and the layouts only move pixels ([`pictured_of_image`], [`tensor_of_picture`]).

Two views that come under one key of the frame are told apart by nothing later on: that no two do
is assumed of the cameras (`CameraMap.Separate`).
-/
import DualFlexivControl.Collection.Pixels
import DualFlexivControl.Policy.Requests

set_option autoImplicit false

namespace DualFlexivControl.Policy.Pictures

open Collection Collection.Pixels Results Effect
open Strided (View Inside)

/-! ## The canonical observation -/

/-- A value of the canonical observation; a picture is a `uint8` array. -/
inductive Canonical (F32 : Type)
  | vector (values : List F32)
  | picture (pixels : View)
  | text (text : String)

section Observations

variable {F F32 : Type}

/-- The FACTR entries of a frame. -/
def factr_entries (frame : Frame F32 UInt8) : List (String × Canonical F32) :=
  (frame.factr.zip frame.factr_raw).flatMap fun side =>
    [(s!"observation.factr.{side.1.1}", .vector side.1.2),
      (s!"observation.factr_raw.{side.2.1}", .vector side.2.2)]

/-- The picture entries. -/
def picture_entries (frame : Frame F32 UInt8) : List (String × Canonical F32) :=
  frame.images.map fun entry => (entry.1, .picture (Strided.contiguous 1 entry.2.1 entry.2.2))

/-- A frame's dict without its action. -/
def canonical (frame : Frame F32 UInt8) : List (String × Canonical F32) :=
  update_items [("observation.state", .vector frame.state), ("task", .text frame.task)]
    (factr_entries frame ++ picture_entries frame)

/-- `ObservationBuilder.__init__`: a frame builder with no teleop sides. -/
def ObservationBuilder.init (arms : Arms) (cameras : List (String × CameraCfg))
    (instruction : String) (state_signals : List String) : Except LayoutError FrameBuilder :=
  FrameBuilder.init arms [] cameras instruction state_signals true

/-- `ObservationBuilder.build` -/
def ObservationBuilder.build [Zero F] (frames : FrameBuilder) (f32 : F → F32) (u8 : F → UInt8)
    (observation : Observation F) : Except FrameError (Option (List (String × Canonical F32))) := do
  let frame ← frames.build f32 u8 observation ⟨fun _ => none, fun _ => none⟩
  pure (frame.map canonical)

end Observations

/-! ## The files of an ACME request -/

/-- `permute(2, 0, 1)`, and `np.moveaxis(hwc, -1, 0)` -/
def channels_first (hwc : View) : View := hwc.transpose [2, 0, 1]

/-- `torch.from_numpy(arr).permute(2, 0, 1).contiguous()[None, None]` -/
def image_tensor (arr : View) : View := (channels_first arr).ascontiguousarray.newaxis.newaxis

/-- A part of the multipart request: the tensor of an image, or `lowdim_data.npz`. -/
inductive Part (F32 : Type)
  | tensor (tensor : View)
  | npz (arrays : List (String × NdArray F32))

section Files

variable {F32 : Type}

/-- `np.array(image, dtype=np.uint8)` and its tensor. Only an array of three axes is permuted. -/
def slot_tensor (image : String × Canonical F32) : Except AcmeError (String × Part F32) :=
  match image.2 with
  | .picture pixels =>
    if pixels.shape.length ≠ 3 then .error .raised
    else .ok (image.1, .tensor (image_tensor pixels.ascontiguousarray))
  | .vector _ | .text _ => .error .raised

/-- `np.asarray(v, dtype=np.float32).reshape(1, 1, -1)` -/
def single_step (values : List F32) : NdArray F32 where
  shape := [1, 1, values.length]
  data := values
  size_eq := by simp

/-- `_encode_files` -/
def encode_files (payload : AcmePayload (Canonical F32) F32) :
    Except AcmeError (List (String × Part F32)) := do
  let tensors ← collect slot_tensor payload.images
  pure (set_item (update_items [] tensors) ("lowdim_data",
    .npz [("qpos", single_step payload.qpos), ("gripper_force", single_step payload.gripper_force)]))

end Files

/-! ## What the frame has under a view's key -/

section Keys

variable {F32 : Type} {frame : Frame F32 UInt8}

/-- A picture of the frame is a picture of the observation, of the same shape and bytes, laid out in
C order. -/
theorem canonical_picture {key : String} {shape : List ℕ} {pixels : List UInt8}
    (h : frame.image key = some (shape, pixels)) :
    (canonical frame).lookup key = some (.picture (Strided.contiguous 1 shape pixels)) := by
  have hpicture : (picture_entries frame).reverse.lookup key =
      some (.picture (Strided.contiguous 1 shape pixels)) := by
    unfold picture_entries
    rw [← List.map_reverse, lookup_map_values frame.images.reverse fun image : List ℕ × List UInt8 =>
      Canonical.picture (Strided.contiguous 1 image.1 image.2)]
    unfold Frame.image at h
    rw [h]
    rfl
  unfold canonical
  rw [lookup_update_items_eq, List.reverse_append, List.lookup_append, hpicture, Option.some_or,
    Option.some_or]

theorem canonical_keys : ((canonical frame).map Prod.fst).Nodup := by
  refine nodup_update_items ?_ _
  show ["observation.state", "task"].Nodup
  decide

theorem is_image_append (camera : String) : is_image (IMAGE_PREFIX ++ camera) = true := by
  apply List.isPrefixOf_iff_prefix.2
  rw [String.toList_append]
  exact List.prefix_append _ _

/-- The FACTR entries are no pictures: their keys are not those of any camera's image. -/
theorem factr_not_view {entry : String × Canonical F32} (h : entry ∈ factr_entries frame)
    {camera : String} : entry.1 ≠ IMAGE_PREFIX ++ camera := by
  intro hkey
  have himage := is_image_append camera
  rw [← hkey] at himage
  obtain ⟨side, _, hentry⟩ := List.mem_flatMap.1 h
  rcases List.mem_cons.1 hentry with rfl | hentry
  · have hplain := @not_image "observation.factr." side.1.1 (by decide) (by decide)
    exact absurd himage (Bool.eq_false_iff.1 hplain)
  · rw [List.mem_singleton.1 hentry] at himage
    have hplain := @not_image "observation.factr_raw." side.2.1 (by decide) (by decide)
    exact absurd himage (Bool.eq_false_iff.1 hplain)

theorem mem_set_item {α : Type} {d : List (String × α)} {new entry : String × α}
    (h : entry ∈ set_item d new) : entry ∈ d ∨ entry = new := by
  unfold set_item at h
  split_ifs at h
  · obtain ⟨old, hold, rfl⟩ := List.mem_map.1 h
    split_ifs
    · exact .inr rfl
    · exact .inl hold
  · rcases List.mem_append.1 h with h | h
    · exact .inl h
    · exact .inr (List.mem_singleton.1 h)

theorem mem_update_items {α : Type} {d entries : List (String × α)} {entry : String × α}
    (h : entry ∈ update_items d entries) : entry ∈ d ∨ entry ∈ entries := by
  unfold update_items at h
  induction entries generalizing d with
  | nil => exact .inl h
  | cons new rest ih =>
    rcases ih h with hold | hrest
    · rcases mem_set_item hold with hold | rfl
      · exact .inl hold
      · exact .inr List.mem_cons_self
    · exact .inr (List.mem_cons_of_mem _ hrest)

/-- Every view of the observation is a picture of the frame, so a template over all views sends what
the frame has. -/
theorem picture_of_view {entry : String × Canonical F32} (h : entry ∈ canonical frame)
    {camera : String} (hview : view_of entry.1 = some camera) :
    ∃ image ∈ frame.images, entry.2 = .picture (Strided.contiguous 1 image.2.1 image.2.2) := by
  have hkey := view_of_eq_some.1 hview
  rcases mem_update_items h with hplain | hentry
  · have hnot : ∀ key ∈ ["observation.state", "task"], view_of key = none := by decide
    rw [hnot entry.1 (by
      rcases List.mem_cons.1 hplain with rfl | hplain
      · exact List.mem_cons_self
      · rw [List.mem_singleton.1 hplain]
        exact List.mem_cons_of_mem _ List.mem_cons_self)] at hview
    exact nomatch hview
  · rcases List.mem_append.1 hentry with hfactr | hpicture
    · exact absurd hkey (factr_not_view hfactr)
    · obtain ⟨image, himage, rfl⟩ := List.mem_map.1 hpicture
      exact ⟨image, himage, rfl⟩

end Keys

/-! ## Layouts -/

/-- What numpy does with a picture: it is an array already, and one of bytes is a `uint8` array. -/
structure Numpy {F32 F64 : Type} (py : Runtime (Canonical F32) View F32 F64) : Prop where
  pixels : ∀ a, py.pixels (.picture a) = some a
  shape : ∀ a, py.shape a = a.shape
  moveaxis : ∀ a, a.shape.length = 3 → py.moveaxis a (-1) 0 = channels_first a
  to_uint8 : ∀ a, a.itemsize = 1 → py.to_uint8 a = some a

/-- An array of red, green and blue has the pixels of the array it was taken from. -/
structure Rgb (device : Device) (cam : CameraCfg) (source rgb : View) : Prop where
  shape : rgb.shape = [cam.height, cam.width, 3]
  itemsize : rgb.itemsize = 1
  strides : rgb.strides.length = 3
  pixels : ∀ r c k, r < cam.height → c < cam.width → k < 3 →
    rgb.item [r, c, k] = source.item [r, c, device.channel k]

/-- And so has a picture in a layout of an OpenPI server. -/
def Pictured (device : Device) (cam : CameraCfg) (source : View) (layout : String)
    (pixels : View) : Prop :=
  (layout = "hwc" ∧ pixels.shape = [cam.height, cam.width, 3] ∧
    ∀ r c k, r < cam.height → c < cam.width → k < 3 →
      pixels.item [r, c, k] = source.item [r, c, device.channel k]) ∨
  (layout = "chw" ∧ pixels.shape = [3, cam.height, cam.width] ∧
    ∀ r c k, r < cam.height → c < cam.width → k < 3 →
      pixels.item [k, r, c] = source.item [r, c, device.channel k])

/-- And the tensor of an ACME server, which has a batch and a time step of one. -/
def Tensored (device : Device) (cam : CameraCfg) (source tensor : View) : Prop :=
  tensor.shape = [1, 1, 3, cam.height, cam.width] ∧
    ∀ r c k, r < cam.height → c < cam.width → k < 3 →
      tensor.item [0, 0, k, r, c] = source.item [r, c, device.channel k]

section Layouts

variable {F32 F64 : Type} {py : Runtime (Canonical F32) View F32 F64} {device : Device}
  {cam : CameraCfg} {source rgb : View} {h w r c k : ℕ}

/-- The channels come first, the rows and columns after them. -/
theorem item_channels_first (hstrides : rgb.strides.length = 3) :
    (channels_first rgb).item [k, r, c] = rgb.item [r, c, k] :=
  @View.item_transpose rgb [2, 0, 1] [r, c, k] hstrides.symm
    (show [2, 0, 1].Perm [0, 1, 2] by decide)

theorem shape_channels_first (hshape : rgb.shape = [h, w, 3]) :
    (channels_first rgb).shape = [3, h, w] := by
  unfold channels_first View.transpose
  rw [hshape]
  rfl

/-- A picture of three channels is taken as it is, and turned where the layout says so. -/
theorem image_rgb (hpy : Numpy py) (hshape : rgb.shape = [h, w, 3]) (hitem : rgb.itemsize = 1)
    {layout label : String} : Policy.image py (.picture rgb) layout label =
      if layout = "hwc" then pure rgb
      else if layout = "chw" then pure (channels_first rgb)
      else throw (.policy (.unknown_layout layout)) := by
  have hpixels : Policy.python (py.pixels (.picture rgb)) = .ok rgb := by
    rw [hpy.pixels rgb]
    rfl
  have huint8 : Policy.python (py.to_uint8 rgb) = .ok rgb := by
    rw [hpy.to_uint8 rgb hitem]
    rfl
  have hpicture : py.shape rgb = [h, w, 3] := (hpy.shape rgb).trans hshape
  unfold Policy.image
  rw [hpixels]
  show (if (py.shape rgb).length ≠ 3 then _ else _) = _
  rw [hpicture, if_neg (fun h => h rfl), if_pos (show [h, w, 3].getLast? = some 3 from rfl)]
  show Policy.python (py.to_uint8 rgb) >>= _ = _
  rw [huint8, ← hpy.moveaxis rgb (congrArg List.length hshape)]
  rfl

/-- An image of a picture is the picture in the layout that was asked for, with the axes moved and
no pixel changed. -/
theorem pictured_of_image (hpy : Numpy py) (hrgb : Rgb device cam source rgb)
    {layout label : String} {pixels : View}
    (himage : Policy.image py (.picture rgb) layout label = .ok pixels) :
    Pictured device cam source layout pixels := by
  rw [image_rgb hpy hrgb.shape hrgb.itemsize] at himage
  split_ifs at himage with hhwc hchw
  · rw [← pure_ok.1 himage]
    exact .inl ⟨hhwc, hrgb.shape, hrgb.pixels⟩
  · rw [← pure_ok.1 himage]
    refine .inr ⟨hchw, shape_channels_first hrgb.shape, fun r c k hr hc hk => ?_⟩
    rw [item_channels_first hrgb.strides]
    exact hrgb.pixels r c k hr hc hk

/-- A picture in contiguous memory is no other picture: every pixel has the bytes that it had. -/
theorem Rgb.ascontiguousarray (hrgb : Rgb device cam source rgb) :
    Rgb device cam source rgb.ascontiguousarray where
  shape := hrgb.shape
  itemsize := hrgb.itemsize
  strides := by
    show (Strided.c_strides rgb.itemsize rgb.shape).length = 3
    rw [hrgb.shape]
    rfl
  pixels r c k hr hc hk := by
    rw [View.item_ascontiguousarray rgb (hrgb.shape ▸ inside_channel hr hc hk)]
    exact hrgb.pixels r c k hr hc hk

/-- The tensor of a picture has the picture's pixels at their places, behind a first axis of one. -/
theorem tensor_of_picture (hrgb : Rgb device cam source rgb) :
    Tensored device cam source (image_tensor rgb) := by
  have hfirst := shape_channels_first hrgb.shape
  constructor
  · show 1 :: 1 :: (channels_first rgb).shape = _
    rw [hfirst]
  · intro r c k hr hc hk
    have hinside : Inside (channels_first rgb).shape [k, r, c] :=
      hfirst ▸ .cons hk (inside_pixel hr hc)
    unfold image_tensor
    rw [View.item_newaxis, View.item_newaxis, View.item_ascontiguousarray _ hinside,
      item_channels_first hrgb.strides]
    exact hrgb.pixels r c k hr hc hk

end Layouts

/-! ## From the camera to the request -/

/-- What the servers see of one view, through every request that is encoded: the pixels of the
array it was taken from, in every image that asks for it and is alone under its key, and in the
tensor of every slot that is mapped to it. The form's `lowdim_data` part is no picture and is left
out. -/
structure Reaches {F32 : Type} [Zero F32] (device : Device) (cam : CameraCfg) (source : View)
    (key : String) (observation : List (String × Canonical F32)) : Prop where
  openpi : ∀ {F64 : Type} (py : Runtime (Canonical F32) View F32 F64), Numpy py →
    ∀ (cfg : OpenPIEndpointCfg F64) (adapter : Adapter F32)
      (payload : List (String × Wire (Canonical F32) View F32)),
      (exec (Policy.encode_request py cfg observation) adapter).1 = .ok payload →
        ∀ image ∈ asked py cfg.request observation, IMAGE_PREFIX ++ image.source = key →
          Alone cfg.request (asked py cfg.request observation) image →
            ∃ pixels, picture_at cfg.request payload image.key = some pixels ∧
              Pictured device cam source image.layout pixels
  acme : ∀ {F64 : Type} (py : Runtime (Canonical F32) View F32 F64) (cfg : AcmeCfg F64)
      (payload : AcmePayload (Canonical F32) F32) (files : List (String × Part F32)),
      AcmeEndpointAdapter.encode_request py cfg observation = .ok payload →
        encode_files payload = .ok files →
          ∀ slot ∈ cfg.acme_image_keys, slot.2 ≠ "" → slot.1 ≠ "lowdim_data" →
            IMAGE_PREFIX ++ slot.2 = key →
              ∃ tensor, files.lookup slot.1 = some (.tensor tensor) ∧
                Tensored device cam source tensor

/-- A key of the rig's pictures. -/
def OfRig (cameras : CameraMap) (key : String) : Prop :=
  ∃ camera ∈ cameras.entries, ∃ view ∈ rgb_views camera, key = image_key camera view

/-- No request is refused for its pictures, as long as it lists views of the rig in layouts that
there are, or lists none and has a template that takes the name of every view. -/
structure Accepted {F32 : Type} (cameras : CameraMap) (observation : List (String × Canonical F32)) :
    Prop where
  openpi : ∀ {F64 : Type} (py : Runtime (Canonical F32) View F32 F64), Numpy py →
    ∀ request : OpenPIRequestCfg F64,
      (∀ image ∈ request.images, (image.layout = "hwc" ∨ image.layout = "chw") ∧
        OfRig cameras (IMAGE_PREFIX ++ image.source)) →
      (request.images = [] → ∀ entry ∈ observation, Formats py request entry.1) →
        ∃ entries : List (String × Wire (Canonical F32) View F32),
          image_entries py request observation = .ok entries
  slots : ∀ slot : String × String, OfRig cameras (IMAGE_PREFIX ++ slot.2) →
    ∃ image, AcmeEndpointAdapter.slot_image observation slot = .ok image
  files : ∀ {F64 : Type} (py : Runtime (Canonical F32) View F32 F64) (cfg : AcmeCfg F64)
      (payload : AcmePayload (Canonical F32) F32),
      AcmeEndpointAdapter.encode_request py cfg observation = .ok payload →
        ∃ files, encode_files payload = .ok files

section Policies

variable {camera : String × CameraCfg} {view : String} {device : Device}
  {samples : List (String × List UInt8)} {bytes : List UInt8}

/-- The bytes of a picture's sample are those of the picture that the SDK gave for the view in this
tick. -/
theorem picture_of_sample (hviews : ∀ view ∈ camera.2.views, view ∈ RGB_VIEWS ++ [VIEW_DEPTH])
    (hsized : device.Sized camera.2) (hview : view ∈ RGB_VIEWS)
    (htick : Pixels.tick camera device = .ok samples)
    (hsample : (camera_stream_name camera.1 view, bytes) ∈ samples) :
    ∃ source, device.source view = some source ∧
      Rgb device camera.2 source
        (Strided.contiguous 1 [camera.2.height, camera.2.width, 3] bytes) := by
  have hdepth : view ≠ VIEW_DEPTH := by
    rintro rfl
    exact absurd hview (by decide)
  obtain rfl := Except.ok.inj ((Pixels.tick_eq hviews hsized).symm.trans htick)
  cases hread : device.read camera.2 with
  | none =>
    rw [hread] at hsample
    exact absurd hsample List.not_mem_nil
  | some frames =>
    rw [hread] at hsample
    obtain ⟨⟨view', frame⟩, hframe, hpair⟩ := List.mem_map.1 hsample
    obtain ⟨hname, rfl⟩ := Prod.mk.inj hpair
    obtain rfl := camera_stream_name_inj hname
    obtain ⟨_, hfits, source, hsource, hshows⟩ := frame_of_read hviews hsized hread hframe
    have hshape := hfits.shape_picture hdepth
    have hitem : frame.itemsize = 1 :=
      Option.some.inj (hfits.itemsize.symm.trans (view_itemsize_rgb hview))
    have hpicture : Strided.contiguous 1 [camera.2.height, camera.2.width, 3] frame.tobytes =
        frame.ascontiguousarray := by
      unfold View.ascontiguousarray
      rw [hshape, hitem]
    rw [hpicture]
    refine ⟨source, hsource, hshape, hitem, ?_, (hshows.ascontiguousarray hfits).picture hdepth⟩
    show (Strided.c_strides frame.itemsize frame.shape).length = 3
    rw [hshape]
    rfl

theorem slot_tensor_ok {F32 : Type} {image : String × Canonical F32} {entry : String × Part F32}
    (h : slot_tensor image = .ok entry) : ∃ pixels, image.2 = .picture pixels ∧
      entry = (image.1, .tensor (image_tensor pixels.ascontiguousarray)) := by
  unfold slot_tensor at h
  split at h
  · rename_i pixels hpixels
    obtain ⟨_, h⟩ := guard_ok.1 h
    exact ⟨pixels, hpixels, (Except.ok.inj h).symm⟩
  · exact nomatch h
  · exact nomatch h

/-- A view whose picture is in the observation reaches the servers, by whichever adapter and in
whichever layout the request is made. -/
theorem reaches_of_lookup {F32 : Type} [Zero F32] {cam : CameraCfg} {source rgb : View}
    {key : String} {observation : List (String × Canonical F32)}
    (hkeys : (observation.map Prod.fst).Nodup) (hrgb : Rgb device cam source rgb)
    (hlookup : observation.lookup key = some (.picture rgb)) :
    Reaches device cam source key observation where
  openpi py hpy cfg adapter payload hpayload image himage hsource halone := by
    obtain ⟨pixels, ⟨value, hvalue, hpixels⟩, hpicture⟩ :=
      picture_requested hkeys hpayload himage halone
    rw [hsource] at hvalue
    obtain rfl := Option.some.inj (hvalue.symm.trans hlookup)
    exact ⟨pixels, hpicture, pictured_of_image hpy hrgb hpixels⟩
  acme py cfg payload files hpayload hfiles slot hslot hview hname hsource := by
    have hencoded := AcmeEndpointAdapter.encoded hpayload
    obtain ⟨value, hvalue, himage⟩ := hencoded.shown slot hslot hview
    rw [hsource] at hvalue
    obtain rfl := Option.some.inj (hvalue.symm.trans hlookup)
    have hmem := (Control.lookup_eq_some hencoded.slots).1 himage
    obtain ⟨tensors, htensors, hparts⟩ := bind_ok.1 hfiles
    obtain rfl := pure_ok.1 hparts
    refine ⟨_, ?_, tensor_of_picture hrgb.ascontiguousarray⟩
    rw [lookup_set_item, if_neg hname]
    refine lookup_update_of_unique ?_ fun part hpart => ?_
    · obtain ⟨entry, hentry, hok⟩ := entry_of_collect htensors _ hmem
      obtain ⟨_, hpixels, rfl⟩ := slot_tensor_ok hok
      obtain rfl := Canonical.picture.inj hpixels
      exact hentry
    · obtain ⟨image, himages, hok⟩ := element_of_collect htensors _ hpart
      obtain ⟨pixels, hpixels, hentry⟩ := slot_tensor_ok hok
      obtain ⟨hslot', rfl⟩ := Prod.mk.inj hentry
      have hsame : payload.images.lookup slot.1 = some image.2 := by
        rw [hslot']
        exact (Control.lookup_eq_some hencoded.slots).2 himages
      rw [himage, hpixels] at hsame
      rw [Canonical.picture.inj (Option.some.inj hsame)]

/-- Every key of the rig has a picture in the observation, and every picture has three channels. -/
theorem rig_pictures {F F32 : Type} [Zero F] {f32 : F → F32} {u8 : F → UInt8}
    {cameras : CameraMap} {frames : FrameBuilder} {snapshot : Observation F} {targets : Targets F}
    {frame : Frame F32 UInt8} (himages : frames.images = cameras.entries.flatMap camera_images)
    (hseparate : cameras.Separate)
    (hframe : frames.build f32 u8 snapshot targets = .ok (some frame)) :
    (∀ camera ∈ cameras.entries, ∀ view ∈ rgb_views camera,
      ∃ newest, snapshot (camera_stream_name camera.1 view) = some newest ∧
        (canonical frame).lookup (image_key camera view) = some (.picture
          (Strided.contiguous 1 [camera.2.height, camera.2.width, 3] (newest.map u8)))) ∧
    ∀ image ∈ frame.images, ∃ h w, image.2.1 = [h, w, 3] := by
  have hkeys : (frames.images.map Image.key).Nodup := by
    rw [himages, List.map_flatMap]
    convert all_keys_distinct_iff.2 hseparate using 2
    funext camera
    rw [camera_images_eq, List.map_map]
    rfl
  constructor
  · intro camera hcamera view hview
    have hmem : view_image camera view ∈ frames.images := by
      rw [himages]
      exact List.mem_flatMap.2 ⟨camera, hcamera, List.mem_map_of_mem hview⟩
    obtain ⟨newest, hnewest, himage⟩ := frame_image_of_distinct hframe hkeys hmem
    exact ⟨newest, hnewest, canonical_picture himage⟩
  · intro picture hpicture
    obtain ⟨image, himage, newest, _, rfl⟩ : ∃ image ∈ frames.images, ∃ newest,
        snapshot image.stream = some newest ∧ picture = (image.key, image.shape, newest.map u8) := by
      obtain ⟨k, hk⟩ := List.getElem?_of_mem hpicture
      obtain ⟨image, himage, hentry⟩ :=
        entry_of_forall₂ (Collection.image_entries_ok (images_of_build hframe)) hk
      exact ⟨image, List.mem_of_getElem? himage, hentry⟩
    rw [himages] at himage
    obtain ⟨camera, _, himage⟩ := List.mem_flatMap.1 himage
    obtain ⟨view, _, rfl⟩ := List.mem_map.1 himage
    exact ⟨camera.2.height, camera.2.width, rfl⟩

/-- What is asked of the rig in a layout that there is can be shown. -/
theorem shown_of_lookup {F32 F64 : Type} {py : Runtime (Canonical F32) View F32 F64}
    (hpy : Numpy py) {observation : List (String × Canonical F32)} {image : OpenPIImageCfg}
    {h w : ℕ} {pixels : List UInt8}
    (hlookup : observation.lookup (IMAGE_PREFIX ++ image.source) =
      some (.picture (Strided.contiguous 1 [h, w, 3] pixels)))
    (hlayout : image.layout = "hwc" ∨ image.layout = "chw") :
    ∃ shown, Shown py observation image shown := by
  set rgb := Strided.contiguous 1 [h, w, 3] pixels
  rcases hlayout with hhwc | hchw
  · refine ⟨rgb, .picture rgb, hlookup, ?_⟩
    rw [image_rgb hpy rfl rfl, if_pos hhwc]
    rfl
  · refine ⟨channels_first rgb, .picture rgb, hlookup, ?_⟩
    rw [image_rgb hpy rfl rfl, if_neg (by rw [hchw]; decide), if_pos hchw]
    rfl

/-- The observation of a frame is accepted by every adapter: no request for its views is refused on
account of a picture. -/
theorem accepted_of_frame {F F32 : Type} [Zero F] {f32 : F → F32} {u8 : F → UInt8}
    {cameras : CameraMap} {frames : FrameBuilder} {snapshot : Observation F} {targets : Targets F}
    {frame : Frame F32 UInt8} (himages : frames.images = cameras.entries.flatMap camera_images)
    (hseparate : cameras.Separate)
    (hframe : frames.build f32 u8 snapshot targets = .ok (some frame)) :
    Accepted cameras (canonical frame) := by
  obtain ⟨hrig, hthree⟩ := rig_pictures himages hseparate hframe
  -- every view of the observation is a picture with three channels
  have hview : ∀ entry ∈ canonical frame, ∀ camera, view_of entry.1 = some camera →
      ∃ h w pixels, entry.2 = .picture (Strided.contiguous 1 [h, w, 3] pixels) := by
    intro entry hentry camera hcamera
    obtain ⟨image, himage, hvalue⟩ := picture_of_view hentry hcamera
    obtain ⟨h, w, hshape⟩ := hthree image himage
    exact ⟨h, w, image.2.2, by rw [hvalue, hshape]⟩
  refine ⟨?_, ?_, ?_⟩
  · intro F64 py hpy request hasks hformats
    refine (image_entries_ok_iff canonical_keys).2 ⟨?_, hformats⟩
    intro image himage
    unfold asked at himage
    split_ifs at himage with hlisted
    · obtain ⟨hlayout, camera, hcamera, view, hview, hkey⟩ := hasks image himage
      obtain ⟨newest, _, hlookup⟩ := hrig camera hcamera view hview
      exact shown_of_lookup hpy (hkey ▸ hlookup) hlayout
    · obtain ⟨entry, hentry, htemplated⟩ := List.mem_filterMap.1 himage
      have hkey := templated_source htemplated
      obtain ⟨h, w, pixels, hvalue⟩ := hview entry hentry _ (view_of_eq_some.2 hkey)
      have hlookup := (Control.lookup_eq_some canonical_keys).2 hentry
      rw [hkey, hvalue] at hlookup
      exact shown_of_lookup hpy hlookup (.inl (templated_layout htemplated))
  · intro slot hslot
    obtain ⟨camera, hcamera, view, hview, hkey⟩ := hslot
    obtain ⟨newest, _, hlookup⟩ := hrig camera hcamera view hview
    rw [← hkey] at hlookup
    exact ⟨(slot.1, _), AcmeEndpointAdapter.slot_image_ok.2 ⟨rfl, hlookup⟩⟩
  · intro F64 py cfg payload hpayload
    obtain ⟨tensors, htensors⟩ : ∃ tensors, collect slot_tensor payload.images = .ok tensors := by
      refine exists_collect fun image himage => ?_
      obtain ⟨slot, _, _, _, hlookup⟩ := (AcmeEndpointAdapter.encoded hpayload).only image himage
      have hmem := (Control.lookup_eq_some canonical_keys).1 hlookup
      obtain ⟨h, w, pixels, hvalue⟩ := hview _ hmem slot.2 (view_of_append slot.2)
      unfold slot_tensor
      rw [show image.2 = .picture (Strided.contiguous 1 [h, w, 3] pixels) from hvalue]
      exact ⟨_, if_neg fun hrank => hrank rfl⟩
    exact ⟨_, bind_ok.2 ⟨tensors, htensors, rfl⟩⟩

/-- What a policy server gets to see of a view is what the camera saw, pixel by pixel, wherever and
in whatever layout a request has it, and no request is refused for its pictures. The SDK's array
may lie in memory in any way. -/
theorem pictures_reach_policy {arms : Arms} {cameras : CameraMap} {instruction : String}
    {state_signals : List String} {frames : FrameBuilder}
    (hinit : ObservationBuilder.init arms cameras.entries instruction state_signals = .ok frames)
    (hseparate : cameras.Separate) (hcamera : camera ∈ cameras.entries)
    (hviews : ∀ view ∈ camera.2.views, view ∈ RGB_VIEWS ++ [VIEW_DEPTH])
    (hsized : device.Sized camera.2) (hview : view ∈ rgb_views camera)
    (htick : Pixels.tick camera device = .ok samples)
    (hsample : (camera_stream_name camera.1 view, bytes) ∈ samples)
    {F F32 : Type} [Zero F] [Zero F32] {f32 : F → F32} {u8 : F → UInt8} {number : UInt8 → F}
    (hnumber : ∀ b, u8 (number b) = b) {snapshot : Observation F}
    (hsnapshot : snapshot (camera_stream_name camera.1 view) = some (bytes.map number))
    {observation : List (String × Canonical F32)}
    (hbuild : ObservationBuilder.build frames f32 u8 snapshot = .ok (some observation)) :
    (∃ source, device.source view = some source ∧
      Reaches device camera.2 source (image_key camera view) observation) ∧
    Accepted cameras observation := by
  have himages : frames.images = cameras.entries.flatMap camera_images := by
    obtain ⟨layout, _, rfl⟩ := init_ok hinit
    rfl
  obtain ⟨built, hframe, hobservation⟩ := bind_ok.1 hbuild
  obtain ⟨frame, rfl, rfl⟩ := Option.map_eq_some_iff.1 (pure_ok.1 hobservation)
  refine ⟨?_, accepted_of_frame himages hseparate hframe⟩
  obtain ⟨source, hsource, hrgb⟩ :=
    picture_of_sample hviews hsized (mem_rgb_views.1 hview).2 htick hsample
  obtain ⟨newest, hnewest, hlookup⟩ :=
    (rig_pictures himages hseparate hframe).1 camera hcamera view hview
  obtain rfl := Option.some.inj (hnewest.symm.trans hsnapshot)
  have hbytes : (bytes.map number).map u8 = bytes := by
    rw [List.map_map]
    exact List.map_id'' hnumber bytes
  rw [hbytes] at hlookup
  exact ⟨source, hsource, reaches_of_lookup canonical_keys hrgb hlookup⟩

end Policies

/-! ## A wrist camera -/

/-- Numpy, for bytes in place of floats. -/
def numpy : Runtime (Canonical UInt8) View UInt8 UInt8 where
  float32_array
    | .vector values => some ⟨[values.length], values, List.prod_singleton.symm⟩
    | _ => none
  float64_array
    | .vector values => some ⟨[values.length], values, List.prod_singleton.symm⟩
    | _ => none
  pixels
    | .picture a => some a
    | _ => none
  shape a := a.shape
  moveaxis a source _ := a.transpose (if source = 0 then [1, 2, 0] else [2, 0, 1])
  to_uint8 a := if a.itemsize = 1 then some a else none
  f32 := id
  f64 := id
  format_camera template camera := some (template.replace "\x7bcamera\x7d" camera)
  sorted := some

theorem numpy_lawful : Numpy numpy where
  pixels _ := rfl
  shape _ := rfl
  moveaxis _ _ := rfl
  to_uint8 _ h := if_pos h

/-- The left picture as it is stored: of every pixel its third byte, its second and its first. -/
def left_bytes : List UInt8 := [4, 3, 2, 8, 7, 6, 20, 19, 18, 24, 23, 22]

def wrist_snapshot : Observation UInt8 := fun stream =>
  if stream = "cam/wrist/left" ∨ stream = "cam/wrist/right" then some left_bytes
  else some [0, 0, 0, 0, 0, 0, 0]

def wrist_map : CameraMap := wrist_cameras [("wrist", ["left", "right"])] (by decide) (by decide)

def wrist_frames : FrameBuilder :=
  ⟨one_arm, "pick", ["q"], true, ⟨["q"], ["left"], [(("left", "q"), 7)], [], by decide⟩,
    wrist_map.entries.flatMap camera_images⟩

theorem wrist_init :
    ObservationBuilder.init one_arm wrist_map.entries "pick" ["q"] = .ok wrist_frames := by
  have hlayout : DFCStateActionLayout.from_arms one_arm ["q"] [] =
      .ok ⟨["q"], ["left"], [(("left", "q"), 7)], [], by decide⟩ :=
    from_arms_iff.2 ⟨by decide, rfl, by decide, rfl, rfl⟩
  unfold ObservationBuilder.init FrameBuilder.init
  rw [hlayout]
  rfl

/-- A config that asks for the left view, channels first. -/
def wrist_cfg : OpenPIEndpointCfg UInt8 :=
  ⟨⟨⟨"state", 0, [], []⟩, "", [⟨"wrist_left", "image", "chw"⟩], "prompt", "", []⟩,
    ⟨"actions", 0, [], [], []⟩⟩

def wrist_picture : View := Strided.contiguous 1 [2, 2, 3] left_bytes

def wrist_observation : List (String × Canonical UInt8) :=
  [("observation.state", .vector [0, 0, 0, 0, 0, 0, 0]), ("task", .text "pick"),
    ("observation.images.wrist_left", .picture wrist_picture),
    ("observation.images.wrist_right", .picture wrist_picture)]

def wrist_payload : List (String × Wire (Canonical UInt8) View UInt8) :=
  [("state", .state [0, 0, 0, 0, 0, 0, 0]), ("image", .image (channels_first wrist_picture)),
    ("prompt", .task (.text "pick"))]

/-- The left picture of a wrist camera is in the request, with its channels first and every pixel as
the camera had it. -/
theorem wrist_picture_reaches_policy :
    ∃ source pixels, (Device.zed wrist_grab).source "left" = some source ∧
      picture_at wrist_cfg.request wrist_payload "image" = some pixels ∧
      Pictured (.zed wrist_grab) ⟨["left", "right"], 2, 2⟩ source "chw" pixels := by
  obtain ⟨⟨source, hsource, hreaches⟩, _⟩ :=
    @pictures_reach_policy ("wrist", ⟨["left", "right"], 2, 2⟩) "left" (.zed wrist_grab)
      [("cam/wrist/left", left_bytes), ("cam/wrist/right", left_bytes)] left_bytes one_arm wrist_map
      "pick" ["q"] wrist_frames wrist_init (by unfold CameraMap.Separate; decide)
      List.mem_cons_self (by decide) (wrist_sized _) (by decide) rfl List.mem_cons_self UInt8 UInt8
      _ _ id id id (fun _ => rfl) wrist_snapshot rfl wrist_observation rfl
  obtain ⟨pixels, hpixels, hpictured⟩ :=
    hreaches.openpi numpy numpy_lawful wrist_cfg ⟨none⟩ wrist_payload rfl
      ⟨"wrist_left", "image", "chw"⟩ List.mem_cons_self rfl
      ⟨fun other hother _ => List.mem_singleton.1 hother, by decide⟩
  exact ⟨source, pixels, hsource, hpixels, hpictured⟩

end DualFlexivControl.Policy.Pictures
