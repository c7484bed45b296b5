/-
A picture on its way from a camera to a consumer, pixel by pixel.

A camera process takes the SDK's array of a view (`zed/source.py`, `realsense/source.py`), flattens
it and writes it to the view's stream (`zed/interface.py`, `cameras.py`); a consumer reads the
sample back into its shape (`reshape_frame`). A ZED's pictures are BGRA and become RGB, a
RealSense's are RGB already ([`Device.channel`]). A ZED measures metres, a RealSense counts steps of
a scale, and its node multiplies them out in `float32` ([`Device.Measures`]).

Arrays are views of bytes ([`Strided.View`]): what the SDK hands out may be padded or a view of a
larger buffer. Of a dtype the item's size is kept; a writer's cast to its stream's dtype is one of
an array to the dtype that it has. That a reader's newest sample is one that was written is the
ring's business.
-/
import DualFlexivControl.Collection.Images
import DualFlexivControl.Lib.FloatFormat
import DualFlexivControl.Lib.Strided

set_option autoImplicit false

namespace DualFlexivControl.Collection.Pixels

open Results
open Strided (View Inside)

/-! ## Views and their streams -/

/-- `VIEW_DEPTH` -/
def VIEW_DEPTH : String := "depth"

/-- `view_channels` -/
def view_channels (view : String) : Option ℕ :=
  if view ∈ RGB_VIEWS then some 3 else if view = VIEW_DEPTH then some 1 else none

/-- The size of an item of `view_dtype`. -/
def view_itemsize (view : String) : Option ℕ :=
  if view ∈ RGB_VIEWS then some 1 else if view = VIEW_DEPTH then some 4 else none

/-- `view_shape` -/
def view_shape (cam : CameraCfg) (view : String) : Option (List ℕ) :=
  if view = VIEW_DEPTH then some [cam.height, cam.width]
  else (view_channels view).map fun channels => [cam.height, cam.width, channels]

/-- `StreamSpec`, with its dtype's size. -/
structure StreamSpec where
  name : String
  dim : ℕ
  itemsize : ℕ
  deriving DecidableEq, Repr

/-- `camera_stream_name` -/
def camera_stream_name (name view : String) : String := s!"cam/{name}/{view}"

/-- What `declare_streams` and a write raise. -/
inductive WriteError
  | unknown_view (view : String)
  | no_writer (stream : String)
  | sample_shape (shape : List ℕ) (dim : ℕ)
  deriving DecidableEq, Repr

/-- The spec of one view. -/
def stream_spec (name : String) (cam : CameraCfg) (view : String) : Except WriteError StreamSpec :=
  match view_channels view, view_itemsize view with
  | some channels, some itemsize =>
    .ok ⟨camera_stream_name name view, cam.height * cam.width * channels, itemsize⟩
  | _, _ => .error (.unknown_view view)

/-- `camera_streams_to_specs` -/
def camera_streams_to_specs (camera : String × CameraCfg) : Except WriteError (List StreamSpec) :=
  collect (stream_spec camera.1 camera.2) camera.2.views

/-! ## What a camera reads -/

/-- `sl.VIEW` -/
inductive ZedView
  | left
  | right
  deriving DecidableEq, Repr

/-- What the SDK raises. -/
inductive SdkError
  | raised
  deriving DecidableEq, Repr

/-- A `grab`, and what is retrieved after it: a picture of four channels, or metres. -/
structure Grab where
  success : Bool
  image : ZedView → Except SdkError View
  measure : Except SdkError View

/-- The SDK's view of a picture. -/
def zed_view (view : String) : ZedView := if view = "right" then .right else .left

/-- One entry of a read; alpha is dropped, and BGR becomes RGB. -/
def zed_frame (grab : Grab) (view : String) : Except SdkError (String × View) :=
  if view = VIEW_DEPTH then do
    let data ← grab.measure
    pure (view, data.ascontiguousarray)
  else do
    let data ← grab.image (zed_view view)
    pure (view, (data.take_last [2, 1, 0]).ascontiguousarray)

/-- `ZedSource.read` -/
def ZedSource.read (cam : CameraCfg) (grab : Grab) : Option (List (String × View)) :=
  if grab.success = true then (collect (zed_frame grab) cam.views).toOption else none

/-- A frameset, or a `wait_for_frames` that raises. -/
structure FrameSet where
  arrives : Bool
  color : Option View
  depth : Option View

/-- `VIEW_COLOR` -/
def VIEW_COLOR : String := "color"

/-- One entry of a read, if the camera has the view. -/
def realsense_frame (cam : CameraCfg) (view : String) (data : Option View) :
    Option (List (String × View)) :=
  if view ∈ cam.views then data.map fun data => [(view, data.ascontiguousarray)] else some []

/-- `np.float32(x)` -/
def float32 (x : Ieee) : Ieee := Ieee.Format.single.rounding.fl x

/-- `data.astype(np.float32) * self._depth_scale`, item by item: the scale, a `float`, is taken to
`float32`, and so is the product. -/
def metres (depth_scale : Ieee) (data : View) : View :=
  data.map_items 4 fun raw =>
    Strided.to_bytes 4 (Ieee.Format.single.encode
      (float32 (.fin (Strided.of_bytes raw)) * float32 depth_scale))

/-- `RealSenseSource.read` -/
def RealSenseSource.read (cam : CameraCfg) (depth_scale : Ieee) (frames : FrameSet) :
    Option (List (String × View)) :=
  if frames.arrives = false then none
  else do
    let color ← realsense_frame cam VIEW_COLOR frames.color
    let depth ← realsense_frame cam VIEW_DEPTH (frames.depth.map (metres depth_scale))
    some (color ++ depth)

/-- A camera, and what its SDK has at a tick. A RealSense has told its depth sensor's scale. -/
inductive Device
  | zed (grab : Grab)
  | realsense (depth_scale : Ieee) (frames : FrameSet)

namespace Device

/-- `_source.read()` -/
def read (cam : CameraCfg) : Device → Option (List (String × View))
  | .zed grab => ZedSource.read cam grab
  | .realsense depth_scale frames => RealSenseSource.read cam depth_scale frames

/-- The array a view is taken from. -/
def source (view : String) : Device → Option View
  | .zed grab =>
    if view = VIEW_DEPTH then grab.measure.toOption else (grab.image (zed_view view)).toOption
  | .realsense _ frames => if view = VIEW_DEPTH then frames.depth else frames.color

/-- A frame is there. -/
def arrives : Device → Bool
  | .zed grab => grab.success
  | .realsense _ frames => frames.arrives

/-- It has an array of every view of the camera. -/
structure Has (device : Device) (cam : CameraCfg) : Prop where
  arrives : device.arrives = true
  views : ∀ view ∈ cam.views, ∃ data, device.source view = some data

/-- The channel of red, green and blue there. -/
def channel : Device → ℕ → ℕ
  | .zed _, k => 2 - k
  | .realsense _ _, k => k

/-- The channels there. -/
def channels : Device → ℕ
  | .zed _ => 4
  | .realsense _ _ => 3

/-- The bytes of a depth item there: a `float32`, and a number of 16 bits. -/
def depth_itemsize : Device → ℕ
  | .zed _ => 4
  | .realsense _ _ => 2

/-- A depth item of a frame has the distance that the SDK's item stands for. A ZED's items are
metres as they are; a RealSense's count steps of its scale, and the product is a `float32`. -/
def Measures (item pixel : List UInt8) : Device → Prop
  | .zed _ => pixel = item
  | .realsense depth_scale _ =>
    Ieee.Format.single.decode (Strided.of_bytes pixel) =
      float32 (.fin (Strided.of_bytes item) * float32 depth_scale)

/-- The arrays have the resolution and the formats that `open` has checked or asked for. -/
structure Sized (device : Device) (cam : CameraCfg) : Prop where
  picture : ∀ view data, view ≠ VIEW_DEPTH → device.source view = some data →
    data.itemsize = 1 ∧ data.shape = [cam.height, cam.width, device.channels]
  depth : ∀ data, device.source VIEW_DEPTH = some data →
    data.itemsize = device.depth_itemsize ∧ data.shape = [cam.height, cam.width]

/-- The views that `open` takes; a ZED has all of them. -/
def Opens (cam : CameraCfg) : Device → Prop
  | .zed _ => True
  | .realsense _ _ => ∀ view ∈ cam.views, view ∈ [VIEW_COLOR, VIEW_DEPTH]

end Device

/-! ## The node -/

/-- `poll` -/
def poll (name : String) : Option (List (String × View)) → Option (List (String × View))
  | none | some [] => none
  | some frames => some (frames.map fun frame =>
      (camera_stream_name name frame.1,
        frame.2.ascontiguousarray.reshape [frame.2.shape.prod]))

/-- `append`, for the bytes that are stored. -/
def append (spec : StreamSpec) (vec : View) : Except WriteError (List UInt8) :=
  if vec.shape ≠ [spec.dim] then .error (.sample_shape vec.shape spec.dim)
  else .ok vec.tobytes

/-- `self._writers[stream_name].write(vec, t_ns)` -/
def write (specs : List StreamSpec) (sample : String × View) :
    Except WriteError (String × List UInt8) :=
  match specs.find? fun spec => spec.name = sample.1 with
  | none => .error (.no_writer sample.1)
  | some spec => do
    let bytes ← append spec sample.2
    pure (sample.1, bytes)

/-- A tick of the node, whose writers are those of its streams: what it writes. -/
def tick (camera : String × CameraCfg) (device : Device) :
    Except WriteError (List (String × List UInt8)) := do
  let specs ← camera_streams_to_specs camera
  match poll camera.1 (device.read camera.2) with
  | none => pure []
  | some samples => collect (write specs) samples

/-! ## The consumers -/

/-- A reader's `newest`, from the bytes in the ring. -/
def newest (spec : StreamSpec) (bytes : List UInt8) : View :=
  Strided.contiguous spec.itemsize [spec.dim] bytes

/-- `reshape_frame` -/
def reshape_frame (vec : View) (cam : CameraCfg) (view : String) : Option View := do
  let shape ← view_shape cam view
  if vec.shape.prod = shape.prod then some (vec.reshape shape) else none

/-! ## From the source to the sample -/

/-- A frame of a view has the shape and the items that the view's stream is declared with. -/
structure Fits (cam : CameraCfg) (view : String) (frame : View) : Prop where
  shape : view_shape cam view = some frame.shape
  itemsize : view_itemsize view = some frame.itemsize

/-- A frame has the pixels of the array it was taken from, and its distances. -/
structure Shows (device : Device) (cam : CameraCfg) (view : String) (source frame : View) :
    Prop where
  depth : view = VIEW_DEPTH → ∀ r c, r < cam.height → c < cam.width →
    device.Measures (source.item [r, c]) (frame.item [r, c])
  picture : view ≠ VIEW_DEPTH → ∀ r c k, r < cam.height → c < cam.width → k < 3 →
    frame.item [r, c, k] = source.item [r, c, device.channel k]

section Frames

variable {device : Device} {cam : CameraCfg} {view : String} {source frame : View}

/-- A row and a column of a picture without channels are an index of its array. -/
theorem inside_pixel {h w : ℕ} {r c : ℕ} (hr : r < h) (hc : c < w) : Inside [h, w] [r, c] :=
  .cons hr (.cons hc .nil)

/-- A row, a column and a channel are an index of a picture's array. -/
theorem inside_channel {h w n : ℕ} {r c k : ℕ} (hr : r < h) (hc : c < w) (hk : k < n) :
    Inside [h, w, n] [r, c, k] := .cons hr (.cons hc (.cons hk .nil))

/-- A view is a picture or the depth map, and which of the two its name says. -/
theorem rgb_of_ne_depth (h : view ∈ RGB_VIEWS ++ [VIEW_DEPTH]) (hdepth : view ≠ VIEW_DEPTH) :
    view ∈ RGB_VIEWS := by
  rcases List.mem_append.1 h with h | h
  · exact h
  · exact absurd (List.mem_singleton.1 h) hdepth

/-- Pictures have three channels. -/
theorem view_channels_rgb (h : view ∈ RGB_VIEWS) : view_channels view = some 3 := if_pos h

/-- The samples of pictures are bytes. -/
theorem view_itemsize_rgb (h : view ∈ RGB_VIEWS) : view_itemsize view = some 1 := if_pos h

/-- The depth map has one value for each pixel. -/
theorem view_channels_depth : view_channels VIEW_DEPTH = some 1 := by decide

/-- A depth is a float32, of four bytes. -/
theorem view_itemsize_depth : view_itemsize VIEW_DEPTH = some 4 := by decide

/-- An array of the camera's height and width with items of four bytes is a frame of the depth map.
-/
theorem fits_depth (hshape : frame.shape = [cam.height, cam.width]) (hitem : frame.itemsize = 4) :
    Fits cam VIEW_DEPTH frame where
  shape := by rw [view_shape, if_pos rfl, hshape]
  itemsize := by rw [view_itemsize_depth, hitem]

/-- An array of bytes with the camera's height, its width and three channels is a frame of a
picture. -/
theorem fits_picture (hview : view ∈ RGB_VIEWS) (hdepth : view ≠ VIEW_DEPTH)
    (hshape : frame.shape = [cam.height, cam.width, 3]) (hitem : frame.itemsize = 1) :
    Fits cam view frame where
  shape := by
    rw [view_shape, if_neg hdepth, view_channels_rgb hview, hshape]
    rfl
  itemsize := by rw [view_itemsize_rgb hview, hitem]

/-- A frame of the depth map has the camera's height and width, without an axis for channels. -/
theorem Fits.shape_depth (h : Fits cam VIEW_DEPTH frame) :
    frame.shape = [cam.height, cam.width] := by
  have hshape := h.shape
  rw [view_shape, if_pos rfl] at hshape
  exact (Option.some.inj hshape).symm

/-- A frame that is not the depth map is one of a picture, so its items are bytes. -/
theorem Fits.rgb (h : Fits cam view frame) (hdepth : view ≠ VIEW_DEPTH) : view ∈ RGB_VIEWS := by
  have hitem := h.itemsize
  rw [view_itemsize, if_neg hdepth] at hitem
  split_ifs at hitem with hview
  exact hview

/-- A frame of a picture has the camera's height and width and three channels. -/
theorem Fits.shape_picture (h : Fits cam view frame) (hdepth : view ≠ VIEW_DEPTH) :
    frame.shape = [cam.height, cam.width, 3] := by
  have hshape := h.shape
  rw [view_shape, if_neg hdepth, view_channels_rgb (h.rgb hdepth)] at hshape
  exact (Option.some.inj hshape).symm

/-- A frame in contiguous memory has the same pixels and distances, so copying it for the ring shows
nothing else. -/
theorem Shows.ascontiguousarray (h : Shows device cam view source frame)
    (hfits : Fits cam view frame) : Shows device cam view source frame.ascontiguousarray where
  depth hdepth r c hr hc := by
    subst hdepth
    rw [View.item_ascontiguousarray frame (hfits.shape_depth ▸ inside_pixel hr hc)]
    exact h.depth rfl r c hr hc
  picture hdepth r c k hr hc hk := by
    rw [View.item_ascontiguousarray frame
      (hfits.shape_picture hdepth ▸ inside_channel hr hc hk)]
    exact h.picture hdepth r c k hr hc hk

/-- A depth frame of a ZED. -/
theorem zed_depth {grab : Grab} {data : View} (hshape : data.shape = [cam.height, cam.width])
    (hitem : data.itemsize = 4) :
    Fits cam VIEW_DEPTH data.ascontiguousarray ∧
      Shows (.zed grab) cam VIEW_DEPTH data data.ascontiguousarray := by
  refine ⟨fits_depth hshape hitem, ⟨fun _ r c hr hc => ?_, fun hdepth => absurd rfl hdepth⟩⟩
  exact View.item_ascontiguousarray data (hshape ▸ inside_pixel hr hc)

/-- A number of 16 bits has a `float32` of its own. -/
theorem float32_raw {raw : List UInt8} (h : raw.length = 2) :
    float32 (.fin (Strided.of_bytes raw)) = .fin (Strided.of_bytes raw) := by
  have hlt : Strided.of_bytes raw < 256 ^ 2 := h ▸ Strided.of_bytes_lt raw
  have hdigits : Strided.of_bytes raw < 2 ^ 24 := hlt.trans (by decide)
  exact Ieee.Format.single.round_natCast hdigits (by decide) (by decide)

/-- A depth frame of a RealSense: of every item the bytes of its metres. -/
theorem realsense_depth {depth_scale : Ieee} {frames : FrameSet} {data : View}
    (hshape : data.shape = [cam.height, cam.width]) (hitem : data.itemsize = 2) :
    Fits cam VIEW_DEPTH (metres depth_scale data).ascontiguousarray ∧
      Shows (.realsense depth_scale frames) cam VIEW_DEPTH data
        (metres depth_scale data).ascontiguousarray := by
  refine ⟨fits_depth hshape rfl, ⟨fun _ r c hr hc => ?_, fun hdepth => absurd rfl hdepth⟩⟩
  have hinside : Inside data.shape [r, c] := hshape ▸ inside_pixel hr hc
  have hraw := float32_raw ((data.length_item [r, c]).trans hitem)
  set product := Ieee.fin (Strided.of_bytes (data.item [r, c])) * float32 depth_scale
    with hproduct
  have hpixel : (metres depth_scale data).ascontiguousarray.item [r, c] =
      Strided.to_bytes 4 (Ieee.Format.single.encode product) := by
    rw [View.item_ascontiguousarray (metres depth_scale data) hinside, metres,
      View.item_map_items data (fun _ => Strided.length_to_bytes _ _) hinside, hraw]
  have hword : Ieee.Format.single.encode product < 256 ^ 4 :=
    (Ieee.Format.single.encode_lt product).trans_le (by decide)
  show Ieee.Format.single.decode (Strided.of_bytes _) = float32 product
  rw [hpixel, Strided.of_bytes_to_bytes hword]
  exact Ieee.Format.single.decode_encode product

/-- A thousand steps of a millimetre are a metre, although the scale is not a `float32`. -/
example : Strided.to_bytes 4 (Ieee.Format.single.encode
    (float32 (.fin (Strided.of_bytes [232, 3])) * float32 (.fin (1 / 1000)))) = [0, 0, 128, 63] := by
  decide +kernel

/-- A picture of a ZED: of four channels, blue first, three are taken the other way round. -/
theorem zed_picture {grab : Grab} {data : View} (hview : view ∈ RGB_VIEWS)
    (hdepth : view ≠ VIEW_DEPTH) (hshape : data.shape = [cam.height, cam.width, 4])
    (hitem : data.itemsize = 1) :
    Fits cam view (data.take_last [2, 1, 0]).ascontiguousarray ∧
      Shows (.zed grab) cam view data (data.take_last [2, 1, 0]).ascontiguousarray := by
  have htaken : (data.take_last [2, 1, 0]).shape = [cam.height, cam.width, 3] := by
    show data.shape.dropLast ++ [3] = _
    rw [hshape]
    rfl
  have hfits : Fits cam view (data.take_last [2, 1, 0]) := fits_picture hview hdepth htaken hitem
  have hshows : Shows (.zed grab) cam view data (data.take_last [2, 1, 0]) := by
    refine ⟨fun h => absurd h hdepth, fun _ r c k hr hc hk => ?_⟩
    have hinside : Inside (data.shape.dropLast ++ [[2, 1, 0].length]) ([r, c] ++ [k]) := by
      rw [hshape]
      exact inside_channel hr hc hk
    have hpick : [2, 1, 0].getD k 0 = 2 - k := by
      obtain rfl | rfl | rfl : k = 0 ∨ k = 1 ∨ k = 2 := by omega
      · rfl
      · rfl
      · rfl
    have hitem := data.item_take_last hinside
    rw [hpick] at hitem
    exact hitem
  exact ⟨fits_picture hview hdepth htaken hitem, hshows.ascontiguousarray hfits⟩

/-- A picture of a RealSense. -/
theorem realsense_picture {depth_scale : Ieee} {frames : FrameSet} {data : View}
    (hview : view ∈ RGB_VIEWS) (hdepth : view ≠ VIEW_DEPTH)
    (hshape : data.shape = [cam.height, cam.width, 3]) (hitem : data.itemsize = 1) :
    Fits cam view data.ascontiguousarray ∧
      Shows (.realsense depth_scale frames) cam view data data.ascontiguousarray := by
  refine ⟨fits_picture hview hdepth hshape hitem, ⟨fun h => absurd h hdepth, ?_⟩⟩
  intro _ r c k hr hc hk
  exact View.item_ascontiguousarray data (hshape ▸ inside_channel hr hc hk)

/-- The depth map of a ZED is what the grab measured. -/
theorem source_measure {grab : Grab} {data : View} (h : grab.measure = .ok data) :
    (Device.zed grab).source VIEW_DEPTH = some data := by
  unfold Device.source
  dsimp only
  rw [if_pos rfl, h]
  rfl

/-- A picture of a ZED is the image that the grab retrieved for the view's name. -/
theorem source_image {grab : Grab} {data : View} (hdepth : view ≠ VIEW_DEPTH)
    (h : grab.image (zed_view view) = .ok data) : (Device.zed grab).source view = some data := by
  unfold Device.source
  dsimp only
  rw [if_neg hdepth, h]
  rfl

/-- What a RealSense reads is under the name of the view that it was read for, laid out in C order,
and only for the camera's views. -/
theorem realsense_frame_mem {seen : String} {data : Option View} {read : List (String × View)}
    (h : realsense_frame cam seen data = some read) (hmem : (view, frame) ∈ read) :
    seen ∈ cam.views ∧ ∃ array, data = some array ∧ view = seen ∧
      frame = array.ascontiguousarray := by
  unfold realsense_frame at h
  split_ifs at h with hseen
  · obtain ⟨array, harray, rfl⟩ := Option.map_eq_some_iff.1 h
    obtain ⟨hview, hframe⟩ := Prod.mk.inj (List.mem_singleton.1 hmem)
    exact ⟨hseen, array, harray, hview, hframe⟩
  · obtain rfl := Option.some.inj h
    exact absurd hmem List.not_mem_nil

/-- What a camera reads: of a view it has, with the pixels of the SDK's array. -/
theorem frame_of_read (hviews : ∀ view ∈ cam.views, view ∈ RGB_VIEWS ++ [VIEW_DEPTH])
    (hsized : device.Sized cam) {frames : List (String × View)}
    (hread : device.read cam = some frames) (hframe : (view, frame) ∈ frames) :
    view ∈ cam.views ∧ Fits cam view frame ∧
      ∃ source, device.source view = some source ∧ Shows device cam view source frame := by
  cases device with
  | zed grab =>
    unfold Device.read ZedSource.read at hread
    dsimp only at hread
    split_ifs at hread
    cases hcollect : collect (zed_frame grab) cam.views with
    | error e =>
      rw [hcollect] at hread
      exact nomatch hread
    | ok read =>
      rw [hcollect] at hread
      obtain rfl := Option.some.inj hread
      obtain ⟨seen, hseen, hzed⟩ := element_of_collect hcollect _ hframe
      -- a measure for the depth, an image for every other view
      unfold zed_frame at hzed
      split_ifs at hzed with hdepth
      · obtain ⟨data, hdata, hpair⟩ := bind_ok.1 hzed
        obtain ⟨rfl, rfl⟩ := Prod.mk.inj (pure_ok.1 hpair)
        obtain rfl := hdepth
        obtain ⟨hitem, hshape⟩ := hsized.depth data (source_measure hdata)
        obtain ⟨hfits, hshows⟩ := @zed_depth _ grab _ hshape hitem
        exact ⟨hseen, hfits, data, source_measure hdata, hshows⟩
      · obtain ⟨data, hdata, hpair⟩ := bind_ok.1 hzed
        obtain ⟨rfl, rfl⟩ := Prod.mk.inj (pure_ok.1 hpair)
        have hsource := source_image hdepth hdata
        obtain ⟨hitem, hshape⟩ := hsized.picture seen data hdepth hsource
        have hrgb := rgb_of_ne_depth (hviews seen hseen) hdepth
        obtain ⟨hfits, hshows⟩ := @zed_picture _ _ grab _ hrgb hdepth hshape hitem
        exact ⟨hseen, hfits, data, hsource, hshows⟩
  | realsense depth_scale set =>
    unfold Device.read RealSenseSource.read at hread
    dsimp only at hread
    split_ifs at hread
    obtain ⟨color, hcolor, hread⟩ := Option.bind_eq_some_iff.1 hread
    obtain ⟨depth, hdepth, hread⟩ := Option.bind_eq_some_iff.1 hread
    obtain rfl := Option.some.inj hread
    -- the colour comes as it is, the depth in metres
    rcases List.mem_append.1 hframe with hmem | hmem
    · obtain ⟨hseen, data, hdata, rfl, rfl⟩ := realsense_frame_mem hcolor hmem
      have hne : VIEW_COLOR ≠ VIEW_DEPTH := by decide
      have hsource : (Device.realsense depth_scale set).source VIEW_COLOR = some data := hdata
      obtain ⟨hitem, hshape⟩ := hsized.picture VIEW_COLOR data hne hsource
      have hrgb := rgb_of_ne_depth (hviews _ hseen) hne
      obtain ⟨hfits, hshows⟩ := @realsense_picture _ _ depth_scale set _ hrgb hne hshape hitem
      exact ⟨hseen, hfits, data, hsource, hshows⟩
    · obtain ⟨hseen, scaled, hscaled, rfl, rfl⟩ := realsense_frame_mem hdepth hmem
      obtain ⟨data, hdata, rfl⟩ := Option.map_eq_some_iff.1 hscaled
      have hsource : (Device.realsense depth_scale set).source VIEW_DEPTH = some data := hdata
      obtain ⟨hitem, hshape⟩ := hsized.depth data hsource
      obtain ⟨hfits, hshows⟩ := @realsense_depth _ depth_scale set _ hshape hitem
      exact ⟨hseen, hfits, data, hsource, hshows⟩

end Frames

/-! ## From the sample to the frame -/

section Samples

variable {camera : String × CameraCfg} {device : Device} {cam : CameraCfg} {name view : String}
  {frame : View} {spec : StreamSpec}

/-- The views of one camera have streams of their own. -/
theorem camera_stream_name_inj {view' : String}
    (h : camera_stream_name name view = camera_stream_name name view') : view = view' :=
  (String.append_right_inj _).1 (show "cam/" ++ name ++ "/" ++ view = "cam/" ++ name ++ "/" ++ view'
    from h)

/-- A stream is declared under the name that the frame of its view is written under. -/
theorem stream_spec_name (h : stream_spec name cam view = .ok spec) :
    spec.name = camera_stream_name name view := by
  unfold stream_spec at h
  split at h
  · rw [← Except.ok.inj h]
  · exact nomatch h

/-- A view's frame goes with its stream: as many entries as the stream's dimension, and items of its
size. -/
theorem spec_of_fits (h : Fits cam view frame) :
    ∃ spec, stream_spec name cam view = .ok spec ∧ spec.dim = frame.shape.prod ∧
      spec.itemsize = frame.itemsize := by
  by_cases hdepth : view = VIEW_DEPTH
  · subst hdepth
    refine ⟨⟨camera_stream_name name VIEW_DEPTH, cam.height * cam.width * 1, 4⟩, ?_, ?_, ?_⟩
    · rw [stream_spec, view_channels_depth, view_itemsize_depth]
    · rw [h.shape_depth]
      simp
    · exact Option.some.inj (view_itemsize_depth.symm.trans h.itemsize)
  · have hrgb := h.rgb hdepth
    refine ⟨⟨camera_stream_name name view, cam.height * cam.width * 3, 1⟩, ?_, ?_, ?_⟩
    · rw [stream_spec, view_channels_rgb hrgb, view_itemsize_rgb hrgb]
    · rw [h.shape_picture hdepth]
      simp [Nat.mul_assoc]
    · exact Option.some.inj ((view_itemsize_rgb hrgb).symm.trans h.itemsize)

/-- Flattening an array for the ring moves no byte of it. -/
theorem reshaped_sample (frame : View) :
    (frame.ascontiguousarray.reshape [frame.shape.prod]).tobytes = frame.tobytes := by
  rw [View.tobytes_reshape, View.tobytes_ascontiguousarray]
  exact List.prod_singleton

/-- The writers of a node are found by the names of its views. -/
theorem find_spec {specs : List StreamSpec} (hspecs : camera_streams_to_specs camera = .ok specs)
    (hview : view ∈ camera.2.views) (hspec : stream_spec camera.1 camera.2 view = .ok spec) :
    specs.find? (fun spec => spec.name = camera_stream_name camera.1 view) = some spec := by
  obtain ⟨own, hown, hown'⟩ := entry_of_collect hspecs view hview
  obtain rfl := Except.ok.inj (hspec.symm.trans hown')
  cases hfound : specs.find? fun spec => spec.name = camera_stream_name camera.1 view with
  | none =>
    have hname := List.find?_eq_none.1 hfound spec hown
    exact absurd (decide_eq_true (stream_spec_name hspec)) hname
  | some found =>
    obtain ⟨view', _, hfound'⟩ := element_of_collect hspecs found (List.mem_of_find?_eq_some hfound)
    have hfind := List.find?_some hfound
    have hname : found.name = camera_stream_name camera.1 view := of_decide_eq_true hfind
    rw [stream_spec_name hfound'] at hname
    rw [camera_stream_name_inj hname] at hfound'
    rw [Except.ok.inj (hfound'.symm.trans hspec)]

/-- The sample of a frame is written: the shape that is checked before the write is that of the
view's own stream. -/
theorem write_frame {specs : List StreamSpec} (hspecs : camera_streams_to_specs camera = .ok specs)
    (hview : view ∈ camera.2.views) (hspec : stream_spec camera.1 camera.2 view = .ok spec)
    (hdim : spec.dim = frame.shape.prod) :
    write specs (camera_stream_name camera.1 view,
        frame.ascontiguousarray.reshape [frame.shape.prod]) =
      .ok (camera_stream_name camera.1 view, frame.tobytes) := by
  unfold write
  dsimp only
  rw [find_spec hspecs hview hspec]
  dsimp only
  have hshape : (frame.ascontiguousarray.reshape [frame.shape.prod]).shape = [spec.dim] := by
    rw [hdim]
    rfl
  unfold append
  rw [if_neg (fun h => h hshape), reshaped_sample]
  rfl

/-- A sample that is read back is the frame that was written. -/
theorem reshape_newest (hfits : Fits cam view frame) (hdim : spec.dim = frame.shape.prod)
    (hitem : spec.itemsize = frame.itemsize) :
    reshape_frame (newest spec frame.tobytes) cam view = some frame.ascontiguousarray := by
  have hbytes : (newest spec frame.tobytes).tobytes = frame.tobytes := by
    apply Strided.tobytes_contiguous
    rw [View.length_tobytes, hdim, hitem, List.prod_singleton]
  unfold reshape_frame
  rw [hfits.shape]
  show (if [spec.dim].prod = frame.shape.prod then some ((newest spec frame.tobytes).reshape
    frame.shape) else none) = _
  rw [List.prod_singleton, if_pos hdim]
  unfold View.reshape View.ascontiguousarray
  rw [hbytes, ← hitem]
  rfl

/-- Every view of the canonical set has a stream. -/
theorem exists_specs (hviews : ∀ view ∈ camera.2.views, view ∈ RGB_VIEWS ++ [VIEW_DEPTH]) :
    ∃ specs, camera_streams_to_specs camera = .ok specs := by
  refine exists_collect fun view hview => ?_
  unfold stream_spec
  rcases List.mem_append.1 (hviews view hview) with hrgb | hdepth
  · rw [view_channels_rgb hrgb, view_itemsize_rgb hrgb]
    exact ⟨_, rfl⟩
  · rw [List.mem_singleton.1 hdepth, view_channels_depth, view_itemsize_depth]
    exact ⟨_, rfl⟩

/-- A tick writes the bytes of the frames it reads, one sample for each of them, and fails on none.
-/
theorem tick_eq (hviews : ∀ view ∈ camera.2.views, view ∈ RGB_VIEWS ++ [VIEW_DEPTH])
    (hsized : device.Sized camera.2) :
    tick camera device = .ok (((device.read camera.2).getD []).map fun frame =>
      (camera_stream_name camera.1 frame.1, frame.2.tobytes)) := by
  obtain ⟨specs, hspecs⟩ := exists_specs hviews
  refine bind_ok.2 ⟨specs, hspecs, ?_⟩
  cases hread : device.read camera.2 with
  | none => rfl
  | some frames =>
    have hwrites : collect (write specs) (frames.map fun frame =>
        (camera_stream_name camera.1 frame.1,
          frame.2.ascontiguousarray.reshape [frame.2.shape.prod])) =
        .ok (frames.map fun frame => (camera_stream_name camera.1 frame.1, frame.2.tobytes)) := by
      apply collect_ok.2
      rw [List.forall₂_map_left_iff, List.forall₂_map_right_iff]
      refine List.forall₂_same.2 fun frame hframe => ?_
      obtain ⟨hview, hfits, _⟩ := frame_of_read hviews hsized hread hframe
      obtain ⟨spec, hspec, hdim, _⟩ := @spec_of_fits _ camera.1 _ _ hfits
      exact write_frame hspecs hview hspec hdim
    cases frames with
    | nil => rfl
    | cons frame rest => exact hwrites

/-- A read that succeeds has a frame for each view that was asked for. -/
theorem realsense_frame_of_view {frames : List (String × View)} {data : Option View}
    (h : realsense_frame cam view data = some frames) (hview : view ∈ cam.views) :
    ∃ frame, (view, frame) ∈ frames := by
  unfold realsense_frame at h
  rw [if_pos hview] at h
  obtain ⟨array, _, rfl⟩ := Option.map_eq_some_iff.1 h
  exact ⟨_, List.mem_singleton_self _⟩

/-- A ZED has a frame of a view exactly when the grab gave its array. -/
theorem zed_frame_ok {grab : Grab} : (∃ entry, zed_frame grab view = .ok entry) ↔
    ∃ data, (Device.zed grab).source view = some data := by
  unfold zed_frame Device.source
  dsimp only
  split_ifs with hdepth
  · cases grab.measure with
    | ok data => exact ⟨fun _ => ⟨data, rfl⟩, fun _ => ⟨_, rfl⟩⟩
    | error e => exact ⟨nofun, nofun⟩
  · cases grab.image (zed_view view) with
    | ok data => exact ⟨fun _ => ⟨data, rfl⟩, fun _ => ⟨_, rfl⟩⟩
    | error e => exact ⟨nofun, nofun⟩

/-- A RealSense fails a read only by the view of the camera that has no array. -/
theorem realsense_frame_some {data : Option View} :
    (∃ frames, realsense_frame cam view data = some frames) ↔
      (view ∈ cam.views → ∃ array, data = some array) := by
  unfold realsense_frame
  split_ifs with hview
  · cases data with
    | none => exact ⟨nofun, fun h => nomatch h hview⟩
    | some array => exact ⟨fun _ _ => ⟨array, rfl⟩, fun _ => ⟨_, rfl⟩⟩
  · exact ⟨fun _ h => absurd h hview, fun _ => ⟨[], rfl⟩⟩

/-- A read succeeds exactly where the SDK has everything that the camera's views ask for; otherwise
it reads nothing at all. -/
theorem read_some_iff (hopens : device.Opens cam) :
    (∃ frames, device.read cam = some frames) ↔ device.Has cam := by
  cases device with
  | zed grab =>
    -- a grab succeeds as a whole or not at all, and then each view is retrieved in turn
    have hcollect : (∃ frames, collect (zed_frame grab) cam.views = .ok frames) ↔
        ∀ view ∈ cam.views, ∃ data, (Device.zed grab).source view = some data := by
      rw [exists_collect_iff]
      exact forall₂_congr fun view _ => zed_frame_ok
    unfold Device.read ZedSource.read
    dsimp only
    split_ifs with hsuccess
    · constructor
      · rintro ⟨frames, hframes⟩
        refine ⟨hsuccess, hcollect.1 ?_⟩
        cases hread : collect (zed_frame grab) cam.views with
        | error e =>
          rw [hread] at hframes
          exact nomatch hframes
        | ok read => exact ⟨read, rfl⟩
      · rintro ⟨_, hviews⟩
        obtain ⟨frames, hframes⟩ := hcollect.2 hviews
        refine ⟨frames, ?_⟩
        rw [hframes]
        rfl
    · exact ⟨nofun, fun h => absurd h.arrives hsuccess⟩
  | realsense depth_scale set =>
    -- only colour and depth can have been opened, so the two branches cover the views
    have hsources : (∀ view ∈ cam.views, ∃ data,
        (Device.realsense depth_scale set).source view = some data) ↔
        (VIEW_COLOR ∈ cam.views → ∃ data, set.color = some data) ∧
          (VIEW_DEPTH ∈ cam.views → ∃ data, set.depth = some data) := by
      constructor
      · intro h
        exact ⟨h VIEW_COLOR, h VIEW_DEPTH⟩
      · rintro ⟨hcolor, hdepth⟩ view hview
        rcases List.mem_cons.1 (hopens view hview) with rfl | hlast
        · exact hcolor hview
        · obtain rfl := List.mem_singleton.1 hlast
          exact hdepth hview
    unfold Device.read RealSenseSource.read
    dsimp only
    split_ifs with hlost
    · refine ⟨nofun, fun h => ?_⟩
      exact absurd h.arrives (by rw [Device.arrives, hlost]; exact Bool.false_ne_true)
    · have harrives : set.arrives = true := Bool.eq_true_of_not_eq_false hlost
      have hdepths : (∃ data, set.depth = some data) ↔
          ∃ data, set.depth.map (metres depth_scale) = some data := by
        cases set.depth with
        | none => exact ⟨nofun, nofun⟩
        | some data => exact ⟨fun _ => ⟨_, rfl⟩, fun _ => ⟨data, rfl⟩⟩
      constructor
      · rintro ⟨frames, hread⟩
        obtain ⟨color, hcolor, hread⟩ := Option.bind_eq_some_iff.1 hread
        obtain ⟨depth, hdepth, _⟩ := Option.bind_eq_some_iff.1 hread
        refine ⟨harrives, hsources.2 ⟨realsense_frame_some.1 ⟨color, hcolor⟩, fun hview => ?_⟩⟩
        exact hdepths.2 (realsense_frame_some.1 ⟨depth, hdepth⟩ hview)
      · rintro ⟨_, hviews⟩
        obtain ⟨hcolors, hseen⟩ := hsources.1 hviews
        obtain ⟨color, hcolor⟩ := realsense_frame_some.2 hcolors
        obtain ⟨depth, hdepth⟩ := realsense_frame_some.2 fun hview => hdepths.1 (hseen hview)
        exact ⟨color ++ depth, Option.bind_eq_some_iff.2
          ⟨color, hcolor, Option.bind_eq_some_iff.2 ⟨depth, hdepth, rfl⟩⟩⟩

/-- A read has a frame of every view, or it would not have succeeded. -/
theorem read_all (hopens : device.Opens cam) {frames : List (String × View)}
    (hread : device.read cam = some frames) (hview : view ∈ cam.views) :
    ∃ frame, (view, frame) ∈ frames := by
  cases device with
  | zed grab =>
    unfold Device.read ZedSource.read at hread
    dsimp only at hread
    split_ifs at hread
    cases hcollect : collect (zed_frame grab) cam.views with
    | error e =>
      rw [hcollect] at hread
      exact nomatch hread
    | ok read =>
      rw [hcollect] at hread
      obtain rfl := Option.some.inj hread
      obtain ⟨⟨seen, frame⟩, hmem, hzed⟩ := entry_of_collect hcollect view hview
      obtain rfl : seen = view := by
        unfold zed_frame at hzed
        split_ifs at hzed
        · obtain ⟨_, _, hpair⟩ := bind_ok.1 hzed
          exact (congrArg Prod.fst (pure_ok.1 hpair)).symm
        · obtain ⟨_, _, hpair⟩ := bind_ok.1 hzed
          exact (congrArg Prod.fst (pure_ok.1 hpair)).symm
      exact ⟨frame, hmem⟩
  | realsense depth_scale set =>
    unfold Device.read RealSenseSource.read at hread
    dsimp only at hread
    split_ifs at hread
    obtain ⟨color, hcolor, hread⟩ := Option.bind_eq_some_iff.1 hread
    obtain ⟨depth, hdepth, hread⟩ := Option.bind_eq_some_iff.1 hread
    obtain rfl := Option.some.inj hread
    rcases List.mem_cons.1 (hopens view hview) with rfl | hlast
    · obtain ⟨frame, hmem⟩ := realsense_frame_of_view hcolor hview
      exact ⟨frame, List.mem_append_left _ hmem⟩
    · obtain rfl := List.mem_singleton.1 hlast
      obtain ⟨frame, hmem⟩ := realsense_frame_of_view hdepth hview
      exact ⟨frame, List.mem_append_right _ hmem⟩

/-- A tick of a camera never fails on a sample's shape. It writes a sample to the stream of every
view if the SDK has an array of each, and otherwise none; and each sample reads back as a frame
with the pixels and the distances of the SDK's array. -/
theorem frames_read_back
    (hviews : ∀ view ∈ camera.2.views, view ∈ RGB_VIEWS ++ [VIEW_DEPTH])
    (hopens : device.Opens camera.2) (hsized : device.Sized camera.2) :
    ∃ samples, tick camera device = .ok samples ∧
      (device.Has camera.2 → ∀ view ∈ camera.2.views,
        ∃ bytes, (camera_stream_name camera.1 view, bytes) ∈ samples) ∧
      (¬ device.Has camera.2 → samples = []) ∧
      ∀ stream bytes, (stream, bytes) ∈ samples → ∃ view ∈ camera.2.views,
        ∃ spec source frame, stream = camera_stream_name camera.1 view ∧
          stream_spec camera.1 camera.2 view = .ok spec ∧ device.source view = some source ∧
          reshape_frame (newest spec bytes) camera.2 view = some frame ∧
          Shows device camera.2 view source frame := by
  refine ⟨_, tick_eq hviews hsized, ?_, ?_, ?_⟩
  · intro hhas view hview
    obtain ⟨frames, hread⟩ := (read_some_iff hopens).2 hhas
    obtain ⟨frame, hframe⟩ := read_all hopens hread hview
    rw [hread]
    exact ⟨frame.tobytes, List.mem_map_of_mem hframe⟩
  · intro hlacks
    cases hread : device.read camera.2 with
    | none => rfl
    | some frames => exact absurd ((read_some_iff hopens).1 ⟨frames, hread⟩) hlacks
  · intro stream bytes hsample
    cases hread : device.read camera.2 with
    | none =>
      rw [hread] at hsample
      exact absurd hsample List.not_mem_nil
    | some frames =>
      rw [hread] at hsample
      obtain ⟨⟨view, frame⟩, hframe, hpair⟩ := List.mem_map.1 hsample
      obtain ⟨rfl, rfl⟩ := Prod.mk.inj hpair
      obtain ⟨hview, hfits, source, hsource, hshows⟩ := frame_of_read hviews hsized hread hframe
      obtain ⟨spec, hspec, hdim, hitem⟩ := @spec_of_fits _ camera.1 _ _ hfits
      exact ⟨view, hview, spec, source, _, rfl, hspec, hsource, reshape_newest hfits hdim hitem,
        hshows.ascontiguousarray hfits⟩

end Samples

/-! ## A wrist camera -/

/-- A picture of two by two pixels, in rows of sixteen bytes. -/
def padded : View where
  memory k := UInt8.ofNat k.toNat
  offset := 2
  itemsize := 1
  shape := [2, 2, 4]
  strides := [16, 4, 1]

def distances : View where
  memory k := UInt8.ofNat k.toNat
  offset := 0
  itemsize := 4
  shape := [2, 2]
  strides := [8, 4]

def wrist_grab : Grab := ⟨true, fun _ => .ok padded, .ok distances⟩

/-- The wrist camera of the example has arrays of its own size for both its views. -/
theorem wrist_sized (views : List String) : (Device.zed wrist_grab).Sized ⟨views, 2, 2⟩ where
  picture view data hdepth hsource := by
    rw [@source_image _ wrist_grab padded hdepth rfl] at hsource
    obtain rfl := Option.some.inj hsource
    exact ⟨rfl, rfl⟩
  depth data hsource := by
    rw [@source_measure wrist_grab distances rfl] at hsource
    obtain rfl := Option.some.inj hsource
    exact ⟨rfl, rfl⟩

/-- The frames of the example are written and read back with every byte that the camera had. -/
theorem wrist_frames_read_back :
    ∃ samples, tick ("wrist", ⟨["left", "depth"], 2, 2⟩) (.zed wrist_grab) = .ok samples ∧
      ((Device.zed wrist_grab).Has ⟨["left", "depth"], 2, 2⟩ → ∀ view ∈ ["left", "depth"],
        ∃ bytes, (camera_stream_name "wrist" view, bytes) ∈ samples) ∧
      (¬ (Device.zed wrist_grab).Has ⟨["left", "depth"], 2, 2⟩ → samples = []) ∧
      ∀ stream bytes, (stream, bytes) ∈ samples → ∃ view ∈ ["left", "depth"],
        ∃ spec source frame, stream = camera_stream_name "wrist" view ∧
          stream_spec "wrist" ⟨["left", "depth"], 2, 2⟩ view = .ok spec ∧
          (Device.zed wrist_grab).source view = some source ∧
          reshape_frame (newest spec bytes) ⟨["left", "depth"], 2, 2⟩ view = some frame ∧
          Shows (.zed wrist_grab) ⟨["left", "depth"], 2, 2⟩ view source frame :=
  @frames_read_back ("wrist", ⟨["left", "depth"], 2, 2⟩) (.zed wrist_grab) (by decide) trivial
    (wrist_sized _)

end DualFlexivControl.Collection.Pixels
