import Mathlib.Algebra.GroupWithZero.Nat
import Mathlib.Algebra.Order.Ring.Int
import NeoRuntime.CameraDaemon.Injection

/-!
# Drawing an injected frame

`CameraDaemon::handle_video_frame_for_routing` (platform/camera-daemon/src/camera_daemon.cpp) draws
a frame: `inject_nv12_copy` copies both planes, `inject_argb_blend` mixes an overlay in blocks of
four pixels.  The checks before it bound the recorded accesses just when none of their 32-bit sums
wraps (`accesses_inside_iff`).
-/

namespace NeoRuntime.CameraDaemon

inductive Plane
  | y
  | uv
  deriving DecidableEq

/-- The buffer of a frame: whether the sync and the mapping of a plane succeed, and whether the
first plane is mapped already. -/
structure SourceBuffer extends HalFrameBuffer where
  uvStride : UInt32
  size : Plane → UInt32
  fd : Plane → Bool
  maps : Plane → Bool
  present : Bool
  bytes : Plane → ℕ → UInt8

structure TargetFrame where
  width : UInt32
  height : UInt32
  numPlanes : UInt32
  present : Bool
  stride : Plane → UInt32
  bytes : Plane → ℕ → UInt8

/-- An access of the drawing: a byte of a plane of the buffer, or a byte of the frame. -/
inductive Access
  | read (plane : Plane) (offset : ℕ)
  | write (plane : Plane) (row col : ℕ)
  deriving DecidableEq

section

variable (q : QueuedFrame) (src : SourceBuffer)

/-! ## `inject_nv12_copy` -/

def copyRows : Plane → UInt32
  | .y => q.height
  | .uv => q.height / 2

def copyStride : Plane → UInt32
  | .y => q.stride
  | .uv => if src.uvStride ≠ 0 then src.uvStride else q.stride

def planeFits (plane : Plane) : Bool :=
  src.fd plane && (copyRows q plane - 1) * copyStride q src plane + q.width ≤ src.size plane

variable (frame : TargetFrame)

def copyUsable : Bool :=
  2 ≤ src.numPlanes && 2 ≤ frame.numPlanes && frame.present && planeFits q src .y &&
    planeFits q src .uv && src.maps .y && src.maps .uv

def copyRow (plane : Plane) (dstX dstRow : ℕ) (frame : TargetFrame) (r : ℕ) :
    TargetFrame × List Access :=
  let offset := r * (copyStride q src plane).toNat
  let start := (dstRow + r) * (frame.stride plane).toNat + dstX
  ({ frame with
      bytes := Function.update frame.bytes plane fun a =>
        if start ≤ a ∧ a < start + q.width.toNat then src.bytes plane (offset + (a - start))
        else frame.bytes plane a },
    (List.range q.width.toNat).flatMap fun c =>
      [.read plane (offset + c), .write plane (dstRow + r) (dstX + c)])

def copyPlane (dstX dstY : UInt32) (frame : TargetFrame) (plane : Plane) :
    TargetFrame × List Access :=
  let dstRow : UInt32 := match plane with
    | .y => dstY
    | .uv => dstY / 2
  runLog (copyRow q src plane dstX.toNat dstRow.toNat) frame
    (List.range (copyRows q plane).toNat)

/-- `inject_nv12_copy` after its checks. -/
def injectNv12Copy (dstX dstY : UInt32) : TargetFrame × List Access :=
  runLog (copyPlane q src dstX dstY) frame [.y, .uv]

/-! ## `inject_argb_blend` -/

def clampByte (v : ℤ) : UInt8 := UInt8.ofNat (if v < 0 then 0 else if v > 255 then 255 else v).toNat

def argbYOf (r g b : UInt8) : UInt8 :=
  clampByte ((16829 * r.toNat + 33039 * g.toNat + 6416 * b.toNat + 32768) / 65536 + 16)

def argbUOf (r g b : UInt8) : UInt8 :=
  clampByte ((-9714 * r.toNat - 19076 * g.toNat + 28784 * b.toNat + 32768) / 65536 + 128)

def argbVOf (r g b : UInt8) : UInt8 :=
  clampByte ((28784 * r.toNat - 24113 * g.toNat - 4655 * b.toNat + 32768) / 65536 + 128)

structure Argb where
  a : UInt8
  r : UInt8
  g : UInt8
  b : UInt8

def lumaMix (pixel : Argb) (yd : UInt8) : UInt8 :=
  UInt8.ofNat ((pixel.a.toNat * (argbYOf pixel.r pixel.g pixel.b).toNat +
    (255 - pixel.a.toNat) * yd.toNat + 128) / 256)

/-- The mixed chroma of a block: the weighted average of the source, mixed with the old byte. -/
def chromaMix (sw sum : ℕ) (old : UInt8) : UInt8 :=
  let source := UInt8.ofNat ((sum + sw / 2) / sw)
  UInt8.ofNat ((sw * source.toNat + (1020 - sw) * old.toNat + 510) / 1020)

def blendUsable : Bool :=
  1 ≤ src.numPlanes && 2 ≤ frame.numPlanes && frame.present &&
    (q.height - 1) * q.stride + q.width * 4 ≤ src.size .y &&
    (src.present || (src.fd .y && src.maps .y))

def pixelOffset (row col : ℕ) : ℕ := row * q.stride.toNat + col * 4

def pixelAt (row col : ℕ) : Argb :=
  let byte (k : ℕ) := src.bytes .y (pixelOffset q row col + k)
  ⟨byte 0, byte 1, byte 2, byte 3⟩

structure BlockState where
  luma : ℕ → UInt8
  sw : ℕ := 0
  su : ℕ := 0
  sv : ℕ := 0

/-- The row of the frame for the first row of a block, in 32 bits. -/
def blockRow (top : ℕ) : ℕ := (q.destY.toNat + top) % 2 ^ 32

/-- One pixel `(py, px)` of the block at `(top, left)`. -/
def blendPixel (yStride : ℕ) (block : ℕ × ℕ) (st : BlockState) (pos : ℕ × ℕ) :
    BlockState × List Access :=
  let row := block.1 + pos.1
  let col := block.2 + pos.2
  let pixel := pixelAt q src row col
  let reads : List Access := (List.range 4).map fun k => .read .y (pixelOffset q row col + k)
  if pixel.a = 0 then (st, reads)
  else
    let toRow := blockRow q block.1 + pos.1
    let toCol := q.destX.toNat + col
    let address := toRow * yStride + toCol
    ({ luma := Function.update st.luma address (lumaMix pixel (st.luma address))
       sw := st.sw + pixel.a.toNat
       su := st.su + pixel.a.toNat * (argbUOf pixel.r pixel.g pixel.b).toNat
       sv := st.sv + pixel.a.toNat * (argbVOf pixel.r pixel.g pixel.b).toNat },
      reads ++ [.write .y toRow toCol])

/-- The pixels of a block; the last row and column of an odd frame have no neighbour. -/
def blockPixels (block : ℕ × ℕ) : List (ℕ × ℕ) :=
  [(0, 0), (0, 1), (1, 0), (1, 1)].filter fun pos =>
    block.1 + pos.1 < q.height.toNat ∧ block.2 + pos.2 < q.width.toNat

def blendBlock (stride : Plane → UInt32) (bytes : Plane → ℕ → UInt8) (block : ℕ × ℕ) :
    (Plane → ℕ → UInt8) × List Access :=
  let pixels := runLog (blendPixel q src (stride .y).toNat block) { luma := bytes .y }
    (blockPixels q block)
  let st := pixels.1
  let mixed := Function.update bytes .y st.luma
  if st.sw = 0 then (mixed, pixels.2)
  else
    let row := blockRow q block.1 / 2
    let col := q.destX.toNat + block.2
    let address := row * (stride .uv).toNat + col
    let uv := bytes .uv
    let uv := Function.update uv address (chromaMix st.sw st.su (uv address))
    let uv := Function.update uv (address + 1) (chromaMix st.sw st.sv (uv (address + 1)))
    (Function.update mixed .uv uv, pixels.2 ++ [.write .uv row col, .write .uv row (col + 1)])

def blendBlocks : List (ℕ × ℕ) :=
  (List.range ((q.height.toNat + 1) / 2)).flatMap fun i =>
    (List.range ((q.width.toNat + 1) / 2)).map fun j => (2 * i, 2 * j)

/-- `inject_argb_blend` after its checks. -/
def injectArgbBlend : TargetFrame × List Access :=
  let blended := runLog (blendBlock q src frame.stride) frame.bytes (blendBlocks q)
  ({ frame with bytes := blended.1 }, blended.2)

/-! ## The choice -/

inductive ComposeOp
  | copy (dstX dstY : UInt32)
  | blend
  deriving DecidableEq

/-- What `handle_video_frame_for_routing` draws, if all checks pass. -/
def composeOp : Option ComposeOp :=
  if q.mode = .replace then
    if q.width = frame.width ∧ q.height = frame.height ∧ src.format = .nv12 ∧
        copyUsable q src frame then some (.copy 0 0)
    else none
  else if q.destX + q.width ≤ frame.width ∧ q.destY + q.height ≤ frame.height then
    match src.format with
    | .nv12 => if copyUsable q src frame then some (.copy q.destX q.destY) else none
    | .argb32 => if blendUsable q src frame then some .blend else none
    | .other => none
  else none

def compose : TargetFrame × List Access :=
  match composeOp q src frame with
  | none => (frame, [])
  | some (.copy dstX dstY) => injectNv12Copy q src frame dstX dstY
  | some .blend => injectArgbBlend q src frame

end

def queued (desc : InjectionFrameDesc) (pin : BufferPin) (frameId : ℕ) : QueuedFrame where
  pin := pin
  bufferId := desc.bufferId
  width := desc.width
  height := desc.height
  stride := desc.stride
  ptsNs := desc.ptsNs
  frameId := frameId
  destX := desc.destX
  destY := desc.destY
  mode := desc.mode
  streamId := desc.streamId

/-! ## What is accepted -/

/-- What the service has checked of a frame. -/
structure Fitted (q : QueuedFrame) : Prop where
  width_pos : 0 < q.width.toNat
  height_pos : 0 < q.height.toNat
  width_even : q.width.toNat % 2 = 0
  height_even : q.height.toNat % 2 = 0
  destX_even : q.destX.toNat % 2 = 0
  destY_even : q.destY.toNat % 2 = 0

theorem even_of_and {v : UInt32} (even : v &&& 1 = 0) : v.toNat % 2 = 0 := by
  have bits := congrArg UInt32.toNat even
  rwa [UInt32.toNat_and, UInt32.toNat_one, Nat.and_one_is_mod] at bits

theorem fitted_of_checkDesc {cfg : InjectionServiceConfig} {desc : InjectionFrameDesc}
    (ok : checkDesc cfg desc = .ok ()) (pin : BufferPin) (frameId : ℕ) :
    Fitted (queued desc pin frameId) := by
  simp only [checkDesc, bind, Except.bind, throw, throwThe, MonadExceptOf.throw, pure,
    Except.pure] at ok
  split_ifs at ok with _ dest _ size
  obtain ⟨destX, destY⟩ := not_or.1 dest
  simp only [not_or, ne_eq, not_not] at size
  obtain ⟨width, height, width', height'⟩ := size
  have pos {v : UInt32} (nonzero : v ≠ 0) : 0 < v.toNat :=
    Nat.pos_of_ne_zero fun zero => nonzero (UInt32.toNat_inj.1 zero)
  exact ⟨pos width, pos height, even_of_and width', even_of_and height',
    even_of_and (not_not.1 destX), even_of_and (not_not.1 destY)⟩

theorem fitted_of_checkPush {cfg : InjectionServiceConfig} {running : Bool}
    {desc : InjectionFrameDesc} {pin : BufferPin}
    (accepted : checkPush cfg running desc (.ok pin) = .ok (.frame desc pin)) (frameId : ℕ) :
    Fitted (queued desc pin frameId) := by
  unfold checkPush at accepted
  split_ifs at accepted
  all_goals first | cases accepted | skip
  cases checked : checkDesc cfg desc with
  | error err =>
    rw [checked] at accepted
    cases accepted
  | ok _ => exact fitted_of_checkDesc checked pin frameId

theorem toNat_span {rows stride width : UInt32} (pos : 0 < rows.toNat) :
    ((rows - 1) * stride + width).toNat =
      ((rows.toNat - 1) * stride.toNat + width.toNat) % 2 ^ 32 := by
  have one_le : 1 ≤ rows := UInt32.le_iff_toNat_le.2 pos
  rw [UInt32.toNat_add, UInt32.toNat_mul, UInt32.toNat_sub_of_le _ _ one_le, UInt32.toNat_one,
    Nat.mod_add_mod]

theorem offsets_inside_iff {rows stride width size : ℕ} (rows_pos : 0 < rows)
    (width_pos : 0 < width) (small : size < 2 ^ 32)
    (checked : ((rows - 1) * stride + width) % 2 ^ 32 ≤ size) :
    (∀ r < rows, ∀ c < width, r * stride + c < size) ↔
      (rows - 1) * stride + width < 2 ^ 32 := by
  constructor
  · intro inside
    have last := inside (rows - 1) (by omega) (width - 1) (by omega)
    omega
  · intro fits r r_lt c c_lt
    rw [Nat.mod_eq_of_lt fits] at checked
    have below : r * stride ≤ (rows - 1) * stride := Nat.mul_le_mul_right _ (by omega)
    omega

theorem positions_inside_iff {start width size : ℕ} (width_pos : 0 < width)
    (small : size < 2 ^ 32) (checked : (start + width) % 2 ^ 32 ≤ size) :
    (∀ c < width, start + c < size) ↔ start + width < 2 ^ 32 := by
  constructor
  · intro inside
    have last := inside (width - 1) (by omega)
    omega
  · intro fits c c_lt
    rw [Nat.mod_eq_of_lt fits] at checked
    omega

/-! ## The accesses of a copy -/

section

variable {q : QueuedFrame} {src : SourceBuffer} {frame : TargetFrame}

/-- The first row of a plane that a copy to the row `dstY` writes. -/
def copyDstRow (dstY : ℕ) : Plane → ℕ
  | .y => dstY
  | .uv => dstY / 2

theorem copyPlane_log (dstX dstY : UInt32) (frame : TargetFrame) (plane : Plane) :
    (copyPlane q src dstX dstY frame plane).2 =
      (List.range (copyRows q plane).toNat).flatMap fun r =>
        (List.range q.width.toNat).flatMap fun c =>
          [.read plane (r * (copyStride q src plane).toNat + c),
            .write plane (copyDstRow dstY.toNat plane + r) (dstX.toNat + c)] := by
  have rows (dstRow : ℕ) (frame : TargetFrame) (r : ℕ) :
      (copyRow q src plane dstX.toNat dstRow frame r).2 =
        (List.range q.width.toNat).flatMap fun c =>
          [.read plane (r * (copyStride q src plane).toNat + c),
            .write plane (dstRow + r) (dstX.toNat + c)] := rfl
  have half : (dstY / 2).toNat = dstY.toNat / 2 := UInt32.toNat_div _ _
  cases plane with
  | y => exact runLog_outputs (rows dstY.toNat) frame _
  | uv =>
    rw [copyDstRow, ← half]
    exact runLog_outputs (rows (dstY / 2).toNat) frame _

theorem mem_injectNv12Copy {dstX dstY : UInt32} {access : Access} :
    access ∈ (injectNv12Copy q src frame dstX dstY).2 ↔
      ∃ plane, ∃ r < (copyRows q plane).toNat, ∃ c < q.width.toNat,
        access = .read plane (r * (copyStride q src plane).toNat + c) ∨
        access = .write plane (copyDstRow dstY.toNat plane + r) (dstX.toNat + c) := by
  rw [injectNv12Copy, runLog_outputs (copyPlane_log dstX dstY)]
  simp only [List.mem_flatMap, List.mem_range, List.mem_cons, List.not_mem_nil, or_false]
  constructor
  · rintro ⟨plane, -, r, r_lt, c, c_lt, eq⟩
    exact ⟨plane, r, r_lt, c, c_lt, eq⟩
  · rintro ⟨plane, r, r_lt, c, c_lt, eq⟩
    exact ⟨plane, by cases plane <;> simp, r, r_lt, c, c_lt, eq⟩

def Access.Inside (src : SourceBuffer) (frame : TargetFrame) : Access → Prop
  | .read plane offset => offset < (src.size plane).toNat
  | .write .y row col => row < frame.height.toNat ∧ col < frame.width.toNat
  | .write .uv row col => row < frame.height.toNat / 2 ∧ col < frame.width.toNat

theorem copyRows_pos (fitted : Fitted q) (plane : Plane) : 0 < (copyRows q plane).toNat := by
  have pos := fitted.height_pos
  have even := fitted.height_even
  cases plane with
  | y => exact pos
  | uv =>
    rw [copyRows, UInt32.toNat_div]
    show 0 < q.height.toNat / 2
    omega

theorem checked_of_copyUsable (usable : copyUsable q src frame = true) (fitted : Fitted q)
    (plane : Plane) :
    (((copyRows q plane).toNat - 1) * (copyStride q src plane).toNat + q.width.toNat) % 2 ^ 32 ≤
      (src.size plane).toNat := by
  simp only [copyUsable, planeFits, Bool.and_eq_true, decide_eq_true_eq] at usable
  rw [← toNat_span (copyRows_pos fitted plane)]
  cases plane with
  | y => exact UInt32.le_iff_toNat_le.1 usable.1.1.1.2.2
  | uv => exact UInt32.le_iff_toNat_le.1 usable.1.1.2.2

theorem copy_inside_iff {dstX dstY : UInt32} (fitted : Fitted q)
    (usable : copyUsable q src frame = true) (even : dstY.toNat % 2 = 0)
    (inX : (dstX.toNat + q.width.toNat) % 2 ^ 32 ≤ frame.width.toNat)
    (inY : (dstY.toNat + q.height.toNat) % 2 ^ 32 ≤ frame.height.toNat) :
    (∀ bytes, ∀ access ∈ (injectNv12Copy q { src with bytes } frame dstX dstY).2,
      access.Inside src frame) ↔
      (dstX.toNat + q.width.toNat < 2 ^ 32 ∧ dstY.toNat + q.height.toNat < 2 ^ 32) ∧
      ∀ plane, ((copyRows q plane).toNat - 1) * (copyStride q src plane).toNat + q.width.toNat <
        2 ^ 32 := by
  have columns := positions_inside_iff fitted.width_pos frame.width.toNat_lt inX
  have rows := positions_inside_iff fitted.height_pos frame.height.toNat_lt inY
  have reads (plane : Plane) := offsets_inside_iff (copyRows_pos fitted plane) fitted.width_pos
    (src.size plane).toNat_lt (checked_of_copyUsable usable fitted plane)
  rw [← columns, ← rows]
  simp only [← reads]
  constructor
  · intro inside
    refine ⟨⟨fun c c_lt => ?_, fun r r_lt => ?_⟩, fun plane r r_lt c c_lt => ?_⟩
    · exact (inside src.bytes _ (mem_injectNv12Copy.2
        ⟨.y, 0, fitted.height_pos, c, c_lt, .inr rfl⟩)).2
    · exact (inside src.bytes _ (mem_injectNv12Copy.2
        ⟨.y, r, r_lt, 0, fitted.width_pos, .inr rfl⟩)).1
    · exact inside src.bytes _ (mem_injectNv12Copy.2 ⟨plane, r, r_lt, c, c_lt, .inl rfl⟩)
  · rintro ⟨⟨inX, inY⟩, inPlane⟩ bytes access mem
    obtain ⟨plane, r, r_lt, c, c_lt, rfl | rfl⟩ := mem_injectNv12Copy.1 mem
    · exact inPlane plane r r_lt c c_lt
    · cases plane with
      | y => exact ⟨inY r r_lt, inX c c_lt⟩
      | uv =>
        have r_lt : r < q.height.toNat / 2 := by
          rw [copyRows, UInt32.toNat_div] at r_lt
          exact r_lt
        have last := inY (q.height.toNat - 1) (by omega)
        have height_even := fitted.height_even
        refine ⟨?_, inX c c_lt⟩
        rw [copyDstRow]
        omega

/-! ## The accesses of a blend -/

def blockSum (q : QueuedFrame) (src : SourceBuffer) (f : Argb → ℕ) (block : ℕ × ℕ) : ℕ :=
  ((blockPixels q block).map fun pos => f (pixelAt q src (block.1 + pos.1) (block.2 + pos.2))).sum

def coverage (q : QueuedFrame) (src : SourceBuffer) : ℕ × ℕ → ℕ := blockSum q src (·.a.toNat)

theorem runLog_blendPixel_sum (part : BlockState → ℕ) (f : Argb → ℕ) {yStride : ℕ} {block : ℕ × ℕ}
    (step : ∀ st pos, part (blendPixel q src yStride block st pos).1 =
      part st + f (pixelAt q src (block.1 + pos.1) (block.2 + pos.2)))
    {st : BlockState} (start : part st = 0) :
    part (runLog (blendPixel q src yStride block) st (blockPixels q block)).1 =
      blockSum q src f block := by
  let value (pos : ℕ × ℕ) := f (pixelAt q src (block.1 + pos.1) (block.2 + pos.2))
  have sum (l : List (ℕ × ℕ)) (n : ℕ) :
      l.foldl (fun n pos => n + value pos) n = n + (l.map value).sum := by
    induction l generalizing n with
    | nil => rfl
    | cons pos l ih => rw [List.foldl_cons, ih, List.map_cons, List.sum_cons, Nat.add_assoc]
  rw [runLog_part part (f := fun n pos => n + value pos) _ fun pos _ st => step st pos, sum, start,
    Nat.zero_add]
  rfl

theorem blendBlock_coverage (yStride : ℕ) (block : ℕ × ℕ) (luma : ℕ → UInt8) :
    (runLog (blendPixel q src yStride block) { luma } (blockPixels q block)).1.sw =
      coverage q src block := by
  refine runLog_blendPixel_sum (·.sw) (·.a.toNat) (fun st pos => ?_) rfl
  unfold blendPixel
  dsimp only
  split_ifs with transparent
  · rw [transparent]
    rfl
  · rfl

def pixelLog (q : QueuedFrame) (src : SourceBuffer) (block pos : ℕ × ℕ) : List Access :=
  (List.range 4).map (fun k => .read .y (pixelOffset q (block.1 + pos.1) (block.2 + pos.2) + k)) ++
    if (pixelAt q src (block.1 + pos.1) (block.2 + pos.2)).a = 0 then []
    else [.write .y (blockRow q block.1 + pos.1) (q.destX.toNat + (block.2 + pos.2))]

def chromaLog (q : QueuedFrame) (src : SourceBuffer) (block : ℕ × ℕ) : List Access :=
  if coverage q src block = 0 then []
  else [.write .uv (blockRow q block.1 / 2) (q.destX.toNat + block.2),
    .write .uv (blockRow q block.1 / 2) (q.destX.toNat + block.2 + 1)]

theorem injectArgbBlend_log : (injectArgbBlend q src frame).2 = (blendBlocks q).flatMap fun block =>
      (blockPixels q block).flatMap (pixelLog q src block) ++ chromaLog q src block := by
  have pixels (yStride : ℕ) (block : ℕ × ℕ) (st : BlockState) (pos : ℕ × ℕ) :
      (blendPixel q src yStride block st pos).2 = pixelLog q src block pos := by
    unfold blendPixel pixelLog
    dsimp only
    split_ifs
    · rw [List.append_nil]
    · rfl
  refine runLog_outputs (fun bytes block => ?_) frame.bytes _
  unfold blendBlock chromaLog
  dsimp only
  rw [blendBlock_coverage, runLog_outputs (pixels _ block)]
  split_ifs
  · rw [List.append_nil]
  · rfl

theorem mem_blendBlocks {block : ℕ × ℕ} :
    block ∈ blendBlocks q ↔ (block.1 % 2 = 0 ∧ block.1 < q.height.toNat) ∧
      block.2 % 2 = 0 ∧ block.2 < q.width.toNat := by
  obtain ⟨top, left⟩ := block
  simp only [blendBlocks, List.mem_flatMap, List.mem_map, List.mem_range, Prod.mk.injEq]
  constructor
  · rintro ⟨i, i_lt, j, j_lt, rfl, rfl⟩
    omega
  · rintro ⟨⟨top_even, top_lt⟩, left_even, left_lt⟩
    exact ⟨top / 2, by omega, left / 2, by omega, by omega, by omega⟩

theorem mem_blockPixels {block pos : ℕ × ℕ} :
    pos ∈ blockPixels q block ↔ (pos.1 < 2 ∧ block.1 + pos.1 < q.height.toNat) ∧
      pos.2 < 2 ∧ block.2 + pos.2 < q.width.toNat := by
  obtain ⟨py, px⟩ := pos
  simp only [blockPixels, List.mem_filter, List.mem_cons, Prod.mk.injEq, List.not_mem_nil, or_false,
    decide_eq_true_eq]
  constructor
  · omega
  · omega

/-- The block of a pixel, and its place there. -/
theorem exists_block {row col : ℕ} (row_lt : row < q.height.toNat) (col_lt : col < q.width.toNat) :
    ((row / 2 * 2, col / 2 * 2) : ℕ × ℕ) ∈ blendBlocks q ∧
      ((row % 2, col % 2) : ℕ × ℕ) ∈ blockPixels q (row / 2 * 2, col / 2 * 2) := by
  rw [mem_blendBlocks, mem_blockPixels]
  dsimp only
  omega

theorem mem_blend_of_pixel {row col : ℕ} (row_lt : row < q.height.toNat)
    (col_lt : col < q.width.toNat) {access : Access}
    (mem : access ∈ pixelLog q src (row / 2 * 2, col / 2 * 2) (row % 2, col % 2)) :
    access ∈ (injectArgbBlend q src frame).2 := by
  obtain ⟨block, pos⟩ := exists_block row_lt col_lt
  rw [injectArgbBlend_log]
  exact List.mem_flatMap.2 ⟨_, block, List.mem_append_left _ (List.mem_flatMap.2 ⟨_, pos, mem⟩)⟩

theorem mem_blend_read {row c : ℕ} (row_lt : row < q.height.toNat) (c_lt : c < q.width.toNat * 4) :
    .read .y (row * q.stride.toNat + c) ∈ (injectArgbBlend q src frame).2 := by
  refine mem_blend_of_pixel row_lt (show c / 4 < q.width.toNat by omega) ?_
  refine List.mem_append_left _ (List.mem_map.2 ⟨c % 4, List.mem_range.2 (by omega), ?_⟩)
  rw [pixelOffset, show row / 2 * 2 + row % 2 = row by omega,
    show c / 4 / 2 * 2 + c / 4 % 2 = c / 4 by omega]
  congr 1
  omega

/-- A pixel that is not transparent is written. -/
theorem mem_blend_write {row col : ℕ} (row_lt : row < q.height.toNat)
    (col_lt : col < q.width.toNat) (solid : (pixelAt q src row col).a ≠ 0) :
    .write .y (blockRow q (row / 2 * 2) + row % 2) (q.destX.toNat + col) ∈
      (injectArgbBlend q src frame).2 := by
  refine mem_blend_of_pixel row_lt col_lt (List.mem_append_right _ ?_)
  rw [show row / 2 * 2 + row % 2 = row by omega, show col / 2 * 2 + col % 2 = col by omega,
    if_neg solid]
  exact List.mem_singleton_self _

theorem checked_of_blendUsable (usable : blendUsable q src frame = true) (fitted : Fitted q) :
    ((q.height.toNat - 1) * q.stride.toNat + q.width.toNat * 4) % 2 ^ 32 ≤
      (src.size .y).toNat := by
  simp only [blendUsable, Bool.and_eq_true, decide_eq_true_eq] at usable
  have checked := UInt32.le_iff_toNat_le.1 usable.1.2
  rw [toNat_span fitted.height_pos, UInt32.toNat_mul, Nat.add_mod_mod] at checked
  exact checked

theorem blend_inside_iff (fitted : Fitted q) (usable : blendUsable q src frame = true)
    (inX : (q.destX.toNat + q.width.toNat) % 2 ^ 32 ≤ frame.width.toNat)
    (inY : (q.destY.toNat + q.height.toNat) % 2 ^ 32 ≤ frame.height.toNat) :
    (∀ bytes, ∀ access ∈ (injectArgbBlend q { src with bytes } frame).2,
      access.Inside src frame) ↔
      (q.destX.toNat + q.width.toNat < 2 ^ 32 ∧ q.destY.toNat + q.height.toNat < 2 ^ 32) ∧
      (q.height.toNat - 1) * q.stride.toNat + q.width.toNat * 4 < 2 ^ 32 := by
  have width_pos := fitted.width_pos
  have width_even := fitted.width_even
  have height_even := fitted.height_even
  have destY_even := fitted.destY_even
  have columns := positions_inside_iff width_pos frame.width.toNat_lt inX
  have reads := offsets_inside_iff fitted.height_pos (show 0 < q.width.toNat * 4 by omega)
    (src.size .y).toNat_lt (checked_of_blendUsable usable fitted)
  rw [← columns, ← reads]
  constructor
  · intro inside
    have written {row col : ℕ} (row_lt : row < q.height.toNat) (col_lt : col < q.width.toNat) :=
      inside (fun _ _ => 255) _ (mem_blend_write row_lt col_lt (by simp [pixelAt]))
    refine ⟨⟨fun c c_lt => (written fitted.height_pos c_lt).2, ?_⟩, fun r r_lt c c_lt => ?_⟩
    · -- The row below 2 ^ 32 is in no frame.
      by_contra wraps
      have small := q.destY.toNat_lt
      have above := (written (show 2 ^ 32 - 1 - q.destY.toNat < q.height.toNat by omega) width_pos).1
      have rows := frame.height.toNat_lt
      rw [blockRow] at above
      omega
    · exact inside src.bytes _ (mem_blend_read r_lt c_lt)
  · rintro ⟨⟨inX, fits⟩, inPlane⟩ bytes access mem
    rw [Nat.mod_eq_of_lt fits] at inY
    rw [injectArgbBlend_log] at mem
    obtain ⟨block, inBlocks, mem⟩ := List.mem_flatMap.1 mem
    obtain ⟨⟨top_even, top_lt⟩, left_even, left_lt⟩ := mem_blendBlocks.1 inBlocks
    have row : blockRow q block.1 = q.destY.toNat + block.1 := Nat.mod_eq_of_lt (by omega)
    obtain mem | mem := List.mem_append.1 mem
    · obtain ⟨pos, inBlock, mem⟩ := List.mem_flatMap.1 mem
      obtain ⟨⟨-, row_lt⟩, -, col_lt⟩ := mem_blockPixels.1 inBlock
      obtain mem | mem := List.mem_append.1 mem
      · obtain ⟨k, k_lt, rfl⟩ := List.mem_map.1 mem
        have k_lt := List.mem_range.1 k_lt
        have inside := inPlane _ row_lt ((block.2 + pos.2) * 4 + k) (by omega)
        show pixelOffset q _ _ + k < _
        rw [pixelOffset, Nat.add_assoc]
        exact inside
      · split_ifs at mem
        · cases mem
        · cases List.mem_singleton.1 mem
          refine ⟨?_, inX _ col_lt⟩
          rw [row]
          omega
    · unfold chromaLog at mem
      split_ifs at mem
      · cases mem
      · rw [row] at mem
        have rowInside : (q.destY.toNat + block.1) / 2 < frame.height.toNat / 2 := by omega
        rcases List.mem_pair.1 mem with rfl | rfl
        · exact ⟨rowInside, inX _ left_lt⟩
        · exact ⟨rowInside, inX (block.2 + 1) (by omega)⟩

end

/-- No sum of the checks wraps. -/
def NoWrap (q : QueuedFrame) (src : SourceBuffer) : Prop :=
  (q.mode = .overlay → q.destX.toNat + q.width.toNat < 2 ^ 32 ∧
    q.destY.toNat + q.height.toNat < 2 ^ 32) ∧
  match src.format with
  | .nv12 => ∀ plane, ((copyRows q plane).toNat - 1) * (copyStride q src plane).toNat +
      q.width.toNat < 2 ^ 32
  | .argb32 => (q.height.toNat - 1) * q.stride.toNat + q.width.toNat * 4 < 2 ^ 32
  | .other => True

/-- An accepted frame is drawn inside its buffer and the frame of the pipeline just when no sum of
the checks wraps. -/
theorem accesses_inside_iff (cfg : InjectionServiceConfig) (running : Bool)
    (desc : InjectionFrameDesc) (pin : BufferPin) (frameId : ℕ) (src : SourceBuffer)
    (frame : TargetFrame) (op : ComposeOp)
    (accepted : checkPush cfg running desc (.ok pin) = .ok (.frame desc pin))
    (composed : composeOp (queued desc pin frameId) src frame = some op) :
    (∀ bytes, ∀ access ∈ (compose (queued desc pin frameId) { src with bytes } frame).2,
      access.Inside src frame) ↔ NoWrap (queued desc pin frameId) src := by
  have fitted := fitted_of_checkPush accepted frameId
  generalize queued desc pin frameId = q at composed fitted
  have same (bytes : Plane → ℕ → UInt8) : composeOp q { src with bytes } frame = some op := composed
  simp only [compose, same]
  unfold composeOp at composed
  by_cases replace : q.mode = .replace
  · rw [if_pos replace] at composed
    split_ifs at composed with whole
    obtain ⟨width, height, format, usable⟩ := whole
    cases composed
    have copy := copy_inside_iff fitted usable (show (0 : UInt32).toNat % 2 = 0 from rfl)
      (show ((0 : UInt32).toNat + _) % 2 ^ 32 ≤ _ by
        simp [width, Nat.mod_eq_of_lt frame.width.toNat_lt])
      (by simp [height, Nat.mod_eq_of_lt frame.height.toNat_lt])
    have small : (0 : UInt32).toNat + q.width.toNat < 2 ^ 32 ∧
        (0 : UInt32).toNat + q.height.toNat < 2 ^ 32 := by
      simpa using ⟨q.width.toNat_lt, q.height.toNat_lt⟩
    rw [NoWrap, format, and_iff_right (by simp [replace])]
    exact copy.trans (and_iff_right small)
  · have overlay : q.mode = .overlay := by
      cases mode : q.mode with
      | replace => exact absurd mode replace
      | overlay => rfl
    rw [if_neg replace] at composed
    by_cases inside : q.destX + q.width ≤ frame.width ∧ q.destY + q.height ≤ frame.height
    · rw [if_pos inside] at composed
      have inX := UInt32.le_iff_toNat_le.1 inside.1
      have inY := UInt32.le_iff_toNat_le.1 inside.2
      rw [UInt32.toNat_add] at inX inY
      cases format : src.format with
      | nv12 =>
        simp only [format] at composed
        split_ifs at composed with usable
        cases composed
        rw [NoWrap, format, forall_prop_of_true overlay]
        exact copy_inside_iff fitted usable fitted.destY_even inX inY
      | argb32 =>
        simp only [format] at composed
        split_ifs at composed with usable
        cases composed
        rw [NoWrap, format, forall_prop_of_true overlay]
        exact blend_inside_iff fitted usable inX inY
      | other =>
        simp only [format] at composed
        cases composed
    · rw [if_neg inside] at composed
      cases composed

def sampleOverlay (destX : UInt32) : InjectionFrameDesc where
  bufferId := 7
  width := 2
  height := 2
  stride := 2
  mode := .overlay
  ptsNs := 0
  destX := destX
  destY := 0
  endOfStream := false
  streamId := "main"
  sessionId := ""

def overlayConfig : InjectionServiceConfig where
  enabled := true
  streamDimsResolver := some fun _ => some (64, 48)

def overlayBuffer : SourceBuffer where
  format := .nv12
  dmabuf := true
  numPlanes := 2
  width := 2
  height := 2
  uvStride := 2
  size := fun
    | .y => 4
    | .uv => 2
  fd := fun _ => true
  maps := fun _ => true
  present := false
  bytes := fun _ _ => 0

def overlayPin : BufferPin := ⟨some overlayBuffer.toHalFrameBuffer, 5⟩

def pipelineFrame : TargetFrame where
  width := 64
  height := 48
  numPlanes := 2
  present := true
  stride := fun _ => 64
  bytes := fun _ _ => 0

theorem accesses_inside_corner : checkPush overlayConfig true (sampleOverlay 0) (.ok overlayPin) =
      .ok (.frame (sampleOverlay 0) overlayPin) ∧
    ∀ bytes, ∀ access ∈
      (compose (queued (sampleOverlay 0) overlayPin 1) { overlayBuffer with bytes } pipelineFrame).2,
      access.Inside overlayBuffer pipelineFrame := by
  refine ⟨rfl, (accesses_inside_iff overlayConfig true (sampleOverlay 0) overlayPin 1 overlayBuffer
    pipelineFrame (.copy 0 0) rfl (by decide +kernel)).2 ⟨fun _ => by decide, ?_⟩⟩
  intro plane
  cases plane <;> decide

/-- An overlay at the last columns of 32 bits passes all checks and is written there. -/
theorem overlay_written_outside :
    checkPush overlayConfig true (sampleOverlay 0xFFFFFFFE) (.ok overlayPin) =
      .ok (.frame (sampleOverlay 0xFFFFFFFE) overlayPin) ∧
    .write .y 0 (2 ^ 32 - 2) ∈
      (compose (queued (sampleOverlay 0xFFFFFFFE) overlayPin 1) overlayBuffer pipelineFrame).2 ∧
    ¬ (Access.write .y 0 (2 ^ 32 - 2)).Inside overlayBuffer pipelineFrame := by
  refine ⟨rfl, by decide +kernel, ?_⟩
  rintro ⟨-, column⟩
  exact absurd column (by decide)

end NeoRuntime.CameraDaemon
