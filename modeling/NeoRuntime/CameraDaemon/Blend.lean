import NeoRuntime.CameraDaemon.Compose
import NeoRuntime.Lib.Poke

/-!
# Blending an overlay

What `inject_argb_blend` leaves in the planes of an NV12 frame, for an overlay inside it.  No byte
outside the rectangle changes, and the chroma is a rounded mix (`chromaMix_mixed`).  The luma is
divided by 256 although its weights sum to 255: a bright pixel comes out too dark
(`white_comes_out_darker`).  `blend_mixes_iff` says for which pixels it is right.
-/

namespace NeoRuntime.CameraDaemon

/-! ## Arithmetic of one byte -/

/-- The luma is between the old byte and that of the overlay, and one of them at the ends. -/
structure LumaMixed (pixel : Argb) (old new : UInt8) : Prop where
  lower : min (argbYOf pixel.r pixel.g pixel.b).toNat old.toNat ≤ new.toNat
  upper : new.toNat ≤ max (argbYOf pixel.r pixel.g pixel.b).toNat old.toNat
  transparent : pixel.a = 0 → new = old
  solid : pixel.a = 255 → new = argbYOf pixel.r pixel.g pixel.b

variable (pixel : Argb)

/-- The mix is not cut below both bytes, and that of a solid pixel not below its luma. -/
def LumaKept (old : UInt8) : Prop :=
  let y := (argbYOf pixel.r pixel.g pixel.b).toNat
  256 * min y old.toNat ≤ pixel.a.toNat * y + (255 - pixel.a.toNat) * old.toNat + 128 ∧
    (pixel.a = 255 → y ≤ 128)

theorem mix_bounds {n a x y lo hi : ℕ} (weight : a ≤ n) (lx : lo ≤ x) (ly : lo ≤ y) (xh : x ≤ hi)
    (yh : y ≤ hi) : n * lo ≤ a * x + (n - a) * y ∧ a * x + (n - a) * y ≤ n * hi := by
  obtain ⟨b, rfl⟩ := Nat.exists_eq_add_of_le weight
  rw [Nat.add_sub_cancel_left, Nat.add_mul, Nat.add_mul]
  exact ⟨Nat.add_le_add (Nat.mul_le_mul_left a lx) (Nat.mul_le_mul_left b ly),
    Nat.add_le_add (Nat.mul_le_mul_left a xh) (Nat.mul_le_mul_left b yh)⟩

theorem lumaMix_iff {pixel : Argb} (visible : pixel.a ≠ 0) (old : UInt8) :
    LumaMixed pixel old (lumaMix pixel old) ↔ LumaKept pixel old := by
  have alpha := pixel.a.toNat_lt
  have y_lt := (argbYOf pixel.r pixel.g pixel.b).toNat_lt
  have old_lt := old.toNat_lt
  obtain ⟨lower, upper⟩ := mix_bounds (n := 255) (a := pixel.a.toNat) (by omega)
    (Nat.min_le_left (argbYOf pixel.r pixel.g pixel.b).toNat old.toNat) (Nat.min_le_right _ _)
    (Nat.le_max_left _ _) (Nat.le_max_right _ _)
  have value : (lumaMix pixel old).toNat =
      (pixel.a.toNat * (argbYOf pixel.r pixel.g pixel.b).toNat +
        (255 - pixel.a.toNat) * old.toNat + 128) / 256 := by
    rw [lumaMix, UInt8.toNat_ofNat']
    omega
  have solid (full : pixel.a = 255) :
      pixel.a.toNat * (argbYOf pixel.r pixel.g pixel.b).toNat +
        (255 - pixel.a.toNat) * old.toNat =
        255 * (argbYOf pixel.r pixel.g pixel.b).toNat := by
    rw [full]
    simp
  rw [LumaKept]
  constructor
  · intro mixed
    have kept := mixed.lower
    rw [value] at kept
    refine ⟨by omega, fun full => ?_⟩
    have same := congrArg UInt8.toNat (mixed.solid full)
    rw [value, solid full] at same
    omega
  · rintro ⟨kept, bright⟩
    refine ⟨?_, ?_, fun none => absurd none visible, fun full => ?_⟩
    · rw [value]
      omega
    · rw [value]
      omega
    · have dark := bright full
      rw [← UInt8.toNat_inj, value, solid full]
      omega

/-- The chroma is between the old byte and those of the visible pixels, and averages four solid
ones. -/
structure ChromaMixed (convert : Argb → UInt8) (pixels : List Argb) (old new : UInt8) : Prop where
  between : ∀ lo hi, lo ≤ old → old ≤ hi →
    (∀ pixel ∈ pixels, pixel.a ≠ 0 → lo ≤ convert pixel ∧ convert pixel ≤ hi) → lo ≤ new ∧ new ≤ hi
  solid : (∀ pixel ∈ pixels, pixel.a = 255) →
    new.toNat = ((pixels.map fun pixel => (convert pixel).toNat).sum + 2) / 4

section

variable {convert : Argb → UInt8} {pixels : List Argb}

theorem weighted_bounds {lo hi : UInt8} (bounds : ∀ pixel ∈ pixels, pixel.a ≠ 0 →
    lo ≤ convert pixel ∧ convert pixel ≤ hi) :
    (pixels.map (·.a.toNat)).sum * lo.toNat ≤
        (pixels.map fun pixel => pixel.a.toNat * (convert pixel).toNat).sum ∧
      (pixels.map fun pixel => pixel.a.toNat * (convert pixel).toNat).sum ≤
        (pixels.map (·.a.toNat)).sum * hi.toNat := by
  induction pixels with
  | nil => simp
  | cons pixel pixels ih =>
    obtain ⟨first, rest⟩ := List.forall_mem_cons.1 bounds
    obtain ⟨lower, upper⟩ := ih rest
    simp only [List.map_cons, List.sum_cons, Nat.add_mul]
    by_cases none : pixel.a = 0
    · simpa [none] using ⟨lower, upper⟩
    · obtain ⟨lo_le, le_hi⟩ := first none
      exact ⟨Nat.add_le_add (Nat.mul_le_mul_left _ (UInt8.le_iff_toNat_le.1 lo_le)) lower,
        Nat.add_le_add (Nat.mul_le_mul_left _ (UInt8.le_iff_toNat_le.1 le_hi)) upper⟩

theorem sum_bytes_le (byte : Argb → UInt8) (pixels : List Argb) :
    (pixels.map fun pixel => (byte pixel).toNat).sum ≤ 255 * pixels.length := by
  induction pixels with
  | nil => rfl
  | cons pixel pixels ih =>
    have small := (byte pixel).toNat_lt
    rw [List.map_cons, List.sum_cons, List.length_cons]
    omega

theorem weighted_solid (solid : ∀ pixel ∈ pixels, pixel.a = 255) :
    (pixels.map fun pixel => pixel.a.toNat * (convert pixel).toNat).sum =
      255 * (pixels.map fun pixel => (convert pixel).toNat).sum ∧
    (pixels.map (·.a.toNat)).sum = 255 * pixels.length := by
  induction pixels with
  | nil => simp
  | cons pixel pixels ih =>
    obtain ⟨first, rest⟩ := List.forall_mem_cons.1 solid
    obtain ⟨sum, count⟩ := ih rest
    simp [first, sum, count, Nat.mul_add, Nat.add_comm]

def chromaChange (convert : Argb → UInt8) (pixels : List Argb) (old : UInt8) : UInt8 :=
  if (pixels.map (·.a.toNat)).sum = 0 then old
  else chromaMix (pixels.map (·.a.toNat)).sum
    (pixels.map fun pixel => pixel.a.toNat * (convert pixel).toNat).sum old

theorem chromaMix_toNat {sw sum lo hi : ℕ} (visible : 0 < sw) (most : sw ≤ 1020)
    (lower : sw * lo ≤ sum) (upper : sum ≤ sw * hi) (byte : hi < 256) {old : UInt8}
    (lo_le : lo ≤ old.toNat) (le_hi : old.toNat ≤ hi) :
    lo ≤ (chromaMix sw sum old).toNat ∧ (chromaMix sw sum old).toNat ≤ hi := by
  have source_ge : lo ≤ (sum + sw / 2) / sw := by
    rw [Nat.le_div_iff_mul_le visible, Nat.mul_comm]
    omega
  have source_le : (sum + sw / 2) / sw ≤ hi := by
    rw [← Nat.lt_succ_iff, Nat.div_lt_iff_lt_mul visible, Nat.succ_mul, Nat.mul_comm hi]
    omega
  obtain ⟨mixed_ge, mixed_le⟩ := mix_bounds most source_ge lo_le source_le le_hi
  have source : (UInt8.ofNat ((sum + sw / 2) / sw)).toNat = (sum + sw / 2) / sw := by
    rw [UInt8.toNat_ofNat', Nat.mod_eq_of_lt (by omega)]
  rw [chromaMix, source, UInt8.toNat_ofNat']
  omega

theorem chromaMix_mixed (four : pixels.length = 4) (old : UInt8) :
    ChromaMixed convert pixels old (chromaChange convert pixels old) := by
  have most := sum_bytes_le (·.a) pixels
  rw [four] at most
  refine ⟨fun lo hi lo_le le_hi bounds => ?_, fun solid => ?_⟩
  · unfold chromaChange
    split_ifs with none
    · exact ⟨lo_le, le_hi⟩
    · obtain ⟨lower, upper⟩ := weighted_bounds bounds
      rw [UInt8.le_iff_toNat_le, UInt8.le_iff_toNat_le]
      exact chromaMix_toNat (Nat.pos_of_ne_zero none) most lower upper hi.toNat_lt
        (UInt8.le_iff_toNat_le.1 lo_le) (UInt8.le_iff_toNat_le.1 le_hi)
  · obtain ⟨sum, count⟩ := @weighted_solid convert _ solid
    have average : (255 * (pixels.map fun pixel => (convert pixel).toNat).sum + 1020 / 2) / 1020 =
        ((pixels.map fun pixel => (convert pixel).toNat).sum + 2) / 4 := by
      omega
    have byte := sum_bytes_le convert pixels
    rw [four] at byte
    rw [chromaChange, count, four, sum, if_neg (by omega), chromaMix, average]
    simp only [UInt8.toNat_ofNat']
    omega

end

/-! ## The planes after the loops -/

/-- An overlay of even size at even coordinates inside the frame, with rows of enough width. -/
structure Placed (q : QueuedFrame) (frame : TargetFrame) : Prop where
  width_even : q.width.toNat % 2 = 0
  height_even : q.height.toNat % 2 = 0
  destX_even : q.destX.toNat % 2 = 0
  destY_even : q.destY.toNat % 2 = 0
  inX : q.destX.toNat + q.width.toNat ≤ frame.width.toNat
  inY : q.destY.toNat + q.height.toNat ≤ frame.height.toNat
  wide : ∀ plane, frame.width.toNat ≤ (frame.stride plane).toNat

section

variable (q : QueuedFrame) (src : SourceBuffer) (frame : TargetFrame)

def lumaAddress (row col : ℕ) : ℕ :=
  (q.destY.toNat + row) * (frame.stride .y).toNat + (q.destX.toNat + col)

def chromaAddress (row col : ℕ) : ℕ :=
  (q.destY.toNat / 2 + row) * (frame.stride .uv).toNat + (q.destX.toNat + col)

def lumaChange (old : UInt8) : UInt8 :=
  if pixel.a = 0 then old else lumaMix pixel old

def blockArgb (top left : ℕ) : List Argb :=
  [pixelAt q src top left, pixelAt q src top (left + 1), pixelAt q src (top + 1) left,
    pixelAt q src (top + 1) (left + 1)]

def argbU : UInt8 := argbUOf pixel.r pixel.g pixel.b

def argbV : UInt8 := argbVOf pixel.r pixel.g pixel.b

/-- Every byte of the rectangle is mixed from its old value, and nothing else changes. -/
structure Mixed (frame' : TargetFrame) : Prop where
  lumaOutside : ∀ a, (∀ row < q.height.toNat, ∀ col < q.width.toNat,
    lumaAddress q frame row col ≠ a) → frame'.bytes .y a = frame.bytes .y a
  chromaOutside : ∀ a, (∀ row < q.height.toNat / 2, ∀ col < q.width.toNat,
    chromaAddress q frame row col ≠ a) → frame'.bytes .uv a = frame.bytes .uv a
  luma : ∀ row < q.height.toNat, ∀ col < q.width.toNat, LumaMixed (pixelAt q src row col)
    (frame.bytes .y (lumaAddress q frame row col)) (frame'.bytes .y (lumaAddress q frame row col))
  chroma : ∀ i < q.height.toNat / 2, ∀ j < q.width.toNat / 2,
    ChromaMixed argbU (blockArgb q src (2 * i) (2 * j))
      (frame.bytes .uv (chromaAddress q frame i (2 * j)))
      (frame'.bytes .uv (chromaAddress q frame i (2 * j))) ∧
    ChromaMixed argbV (blockArgb q src (2 * i) (2 * j))
      (frame.bytes .uv (chromaAddress q frame i (2 * j + 1)))
      (frame'.bytes .uv (chromaAddress q frame i (2 * j + 1)))

def lumaBlock (block : ℕ × ℕ) : List (ℕ × (UInt8 → UInt8)) :=
  (blockPixels q block).map fun pos =>
    (lumaAddress q frame (block.1 + pos.1) (block.2 + pos.2),
      lumaChange (pixelAt q src (block.1 + pos.1) (block.2 + pos.2)))

def chromaBlock (block : ℕ × ℕ) : List (ℕ × (UInt8 → UInt8)) :=
  [(chromaAddress q frame (block.1 / 2) block.2,
      chromaChange argbU (blockArgb q src block.1 block.2)),
    (chromaAddress q frame (block.1 / 2) (block.2 + 1),
      chromaChange argbV (blockArgb q src block.1 block.2))]

variable {q src frame} {block : ℕ × ℕ} (placed : Placed q frame)

include placed

theorem blockRow_eq (mem : block ∈ blendBlocks q) :
    blockRow q block.1 = q.destY.toNat + block.1 := by
  have inside := (mem_blendBlocks.1 mem).1.2
  have inY := placed.inY
  have small := frame.height.toNat_lt
  exact Nat.mod_eq_of_lt (by omega)

theorem blockPixels_eq (mem : block ∈ blendBlocks q) :
    blockPixels q block = [(0, 0), (0, 1), (1, 0), (1, 1)] := by
  obtain ⟨⟨top_even, top_lt⟩, left_even, left_lt⟩ := mem_blendBlocks.1 mem
  have width_even := placed.width_even
  have height_even := placed.height_even
  rw [blockPixels, List.filter_eq_self]
  intro pos there
  rw [decide_eq_true_eq]
  simp only [List.mem_cons, List.not_mem_nil, or_false] at there
  rcases there with rfl | rfl | rfl | rfl <;> dsimp only <;> omega

theorem blockSum_eq (mem : block ∈ blendBlocks q)
    (f : Argb → ℕ) : blockSum q src f block = ((blockArgb q src block.1 block.2).map f).sum := by
  rw [blockSum, blockPixels_eq placed mem]
  rfl

theorem blendPixel_luma (mem : block ∈ blendBlocks q) (st : BlockState) (pos : ℕ × ℕ) :
    (blendPixel q src (frame.stride .y).toNat block st pos).1.luma =
      poke st.luma (lumaAddress q frame (block.1 + pos.1) (block.2 + pos.2),
        lumaChange (pixelAt q src (block.1 + pos.1) (block.2 + pos.2))) := by
  unfold blendPixel
  dsimp only
  rw [blockRow_eq placed mem, Nat.add_assoc]
  split_ifs with transparent
  · rw [poke_self]
    rw [lumaChange, if_pos transparent]
  · simp only [poke, lumaChange, if_neg transparent]
    rfl

omit placed in
theorem blendPixel_su (yStride : ℕ) (block : ℕ × ℕ) (st : BlockState) (pos : ℕ × ℕ) :
    (blendPixel q src yStride block st pos).1.su = st.su +
      (pixelAt q src (block.1 + pos.1) (block.2 + pos.2)).a.toNat *
        (argbU (pixelAt q src (block.1 + pos.1) (block.2 + pos.2))).toNat := by
  unfold blendPixel
  dsimp only
  split_ifs with transparent
  · simp [transparent]
  · rfl

omit placed in
theorem blendPixel_sv (yStride : ℕ) (block : ℕ × ℕ) (st : BlockState) (pos : ℕ × ℕ) :
    (blendPixel q src yStride block st pos).1.sv = st.sv +
      (pixelAt q src (block.1 + pos.1) (block.2 + pos.2)).a.toNat *
        (argbV (pixelAt q src (block.1 + pos.1) (block.2 + pos.2))).toNat := by
  unfold blendPixel
  dsimp only
  split_ifs with transparent
  · simp [transparent]
  · rfl

theorem blendBlock_luma (mem : block ∈ blendBlocks q) (bytes : Plane → ℕ → UInt8) :
    (blendBlock q src frame.stride bytes block).1 .y =
      (lumaBlock q src frame block).foldl poke (bytes .y) := by
  have pixels := runLog_part BlockState.luma (f := fun luma pos => poke luma
    (lumaAddress q frame (block.1 + pos.1) (block.2 + pos.2),
      lumaChange (pixelAt q src (block.1 + pos.1) (block.2 + pos.2))))
    (blockPixels q block) (fun pos _ st => blendPixel_luma placed mem st pos) { luma := bytes .y }
  rw [lumaBlock, List.foldl_map, ← pixels]
  unfold blendBlock
  dsimp only
  split_ifs <;> rfl

theorem blendBlock_chroma (mem : block ∈ blendBlocks q) (bytes : Plane → ℕ → UInt8) :
    (blendBlock q src frame.stride bytes block).1 .uv =
      (chromaBlock q src frame block).foldl poke (bytes .uv) := by
  obtain ⟨⟨top_even, -⟩, -⟩ := mem_blendBlocks.1 mem
  have destY_even := placed.destY_even
  have row : (q.destY.toNat + block.1) / 2 = q.destY.toNat / 2 + block.1 / 2 := by omega
  have sw := (@blendBlock_coverage q src (frame.stride .y).toNat block (bytes .y)).trans
    (blockSum_eq placed mem _)
  let start : BlockState := { luma := bytes .y }
  have su := (runLog_blendPixel_sum (·.su) (fun pixel => pixel.a.toNat * (argbU pixel).toNat)
    (@blendPixel_su q src (frame.stride .y).toNat block) (show start.su = 0 from rfl)).trans
      (blockSum_eq placed mem _)
  have sv := (runLog_blendPixel_sum (·.sv) (fun pixel => pixel.a.toNat * (argbV pixel).toNat)
    (@blendPixel_sv q src (frame.stride .y).toNat block) (show start.sv = 0 from rfl)).trans
      (blockSum_eq placed mem _)
  unfold blendBlock
  dsimp only
  rw [sw, su, sv, blockRow_eq placed mem, row]
  split_ifs with none
  · have same (convert : Argb → UInt8) (old : UInt8) :
        chromaChange convert (blockArgb q src block.1 block.2) old = old := if_pos none
    rw [chromaBlock, List.foldl_cons, List.foldl_cons, poke_self _ _ (same _ _),
      poke_self _ _ (same _ _)]
    rfl
  · have mixes (convert : Argb → UInt8) (old : UInt8) :
        chromaChange convert (blockArgb q src block.1 block.2) old = chromaMix _ _ old :=
      if_neg none
    simp only [chromaBlock, List.foldl_cons, List.foldl_nil, poke, mixes]
    rfl

/-! ## Each byte is changed once -/

omit placed in
theorem nodup_blendBlocks (q : QueuedFrame) : (blendBlocks q).Nodup := by
  rw [blendBlocks, List.nodup_flatMap]
  refine ⟨fun i _ => ?_, ?_⟩
  · refine List.nodup_range.map fun j j' same => ?_
    have cols := congrArg Prod.snd same
    dsimp only at cols
    omega
  · refine List.nodup_range.imp fun {i i'} ne => ?_
    simp only [Function.onFun, List.disjoint_left, List.mem_map, not_exists, not_and]
    rintro block ⟨j, -, rfl⟩ j' - same
    have rows := congrArg Prod.fst same
    dsimp only at rows
    omega

omit placed in
theorem nodup_flatMap_blocks {f : ℕ × ℕ → List ℕ} (each : ∀ block ∈ blendBlocks q, (f block).Nodup)
    (apart : ∀ block ∈ blendBlocks q, ∀ block' ∈ blendBlocks q, ∀ a ∈ f block, a ∈ f block' →
      block = block') : ((blendBlocks q).flatMap f).Nodup := by
  rw [List.nodup_flatMap]
  refine ⟨each, (nodup_blendBlocks q).imp_of_mem fun mem mem' ne => ?_⟩
  exact List.disjoint_left.2 fun a there there' => ne (apart _ mem _ mem' a there there')

omit placed in
theorem address_inj {stride left row row' col col' : ℕ} (col_lt : left + col < stride)
    (col_lt' : left + col' < stride)
    (same : row * stride + (left + col) = row' * stride + (left + col')) :
    row = row' ∧ col = col' := by
  have rows : row = row' := by
    have quotient := congrArg (· / stride) same
    have pos : 0 < stride := by omega
    simpa [Nat.mul_add_div, Nat.add_comm, Nat.add_mul_div_right _ _ pos, Nat.div_eq_of_lt col_lt,
      Nat.div_eq_of_lt col_lt'] using quotient
  subst rows
  omega

theorem lumaAddress_inj {row row' col col' : ℕ}
    (col_lt : col < q.width.toNat) (col_lt' : col' < q.width.toNat)
    (same : lumaAddress q frame row col = lumaAddress q frame row' col') :
    row = row' ∧ col = col' := by
  have inX := placed.inX
  have wide := placed.wide .y
  have eq := address_inj (by omega) (by omega) same
  omega

theorem chromaAddress_inj {row row' col col' : ℕ}
    (col_lt : col < q.width.toNat) (col_lt' : col' < q.width.toNat)
    (same : chromaAddress q frame row col = chromaAddress q frame row' col') :
    row = row' ∧ col = col' := by
  have inX := placed.inX
  have wide := placed.wide .uv
  have eq := address_inj (by omega) (by omega) same
  omega

theorem nodup_lumaBlocks :
    (((blendBlocks q).flatMap (lumaBlock q src frame)).map Prod.fst).Nodup := by
  rw [List.map_flatMap]
  simp only [lumaBlock, List.map_map]
  refine nodup_flatMap_blocks (fun block mem => ?_) fun block mem block' mem' a there there' => ?_
  · refine List.Nodup.map_on (fun pos inBlock pos' inBlock' same => ?_)
      (List.Nodup.filter _ (by decide))
    have eq := lumaAddress_inj placed (mem_blockPixels.1 inBlock).2.2
      (mem_blockPixels.1 inBlock').2.2 same
    exact Prod.ext (by omega) (by omega)
  · obtain ⟨pos, inBlock, rfl⟩ := List.mem_map.1 there
    obtain ⟨pos', inBlock', same⟩ := List.mem_map.1 there'
    have eq := lumaAddress_inj placed (mem_blockPixels.1 inBlock').2.2
      (mem_blockPixels.1 inBlock).2.2 same
    have even := mem_blendBlocks.1 mem
    have even' := mem_blendBlocks.1 mem'
    have small := mem_blockPixels.1 inBlock
    have small' := mem_blockPixels.1 inBlock'
    exact Prod.ext (by omega) (by omega)

theorem nodup_chromaBlocks :
    (((blendBlocks q).flatMap (chromaBlock q src frame)).map Prod.fst).Nodup := by
  have width_even := placed.width_even
  rw [List.map_flatMap]
  simp only [chromaBlock, List.map_cons, List.map_nil]
  refine nodup_flatMap_blocks (fun block mem => ?_) fun block mem block' mem' a there there' => ?_
  · have even := mem_blendBlocks.1 mem
    rw [List.nodup_cons, List.mem_singleton]
    refine ⟨fun same => ?_, List.nodup_singleton _⟩
    have eq := chromaAddress_inj placed (by omega) (by omega) same
    omega
  · have even := mem_blendBlocks.1 mem
    have even' := mem_blendBlocks.1 mem'
    have eq : block.1 / 2 = block'.1 / 2 ∧ block.2 / 2 = block'.2 / 2 := by
      rcases List.mem_pair.1 there with rfl | rfl <;> rcases List.mem_pair.1 there' with same | same
      all_goals
        have eq := chromaAddress_inj placed (by omega) (by omega) same
        omega
    exact Prod.ext (by omega) (by omega)

/-! ## The frame -/

theorem blend_luma : (injectArgbBlend q src frame).1.bytes .y =
      ((blendBlocks q).flatMap (lumaBlock q src frame)).foldl poke (frame.bytes .y) := by
  rw [List.foldl_flatMap]
  exact runLog_part (· .y) (f := fun luma block => (lumaBlock q src frame block).foldl poke luma)
    (blendBlocks q) (fun block mem bytes => blendBlock_luma placed mem bytes) frame.bytes

theorem blend_chroma : (injectArgbBlend q src frame).1.bytes .uv =
      ((blendBlocks q).flatMap (chromaBlock q src frame)).foldl poke (frame.bytes .uv) := by
  rw [List.foldl_flatMap]
  exact runLog_part (· .uv) (f := fun uv block => (chromaBlock q src frame block).foldl poke uv)
    (blendBlocks q) (fun block mem bytes => blendBlock_chroma placed mem bytes) frame.bytes

theorem blend_luma_at {row col : ℕ} (row_lt : row < q.height.toNat) (col_lt : col < q.width.toNat) :
    (injectArgbBlend q src frame).1.bytes .y (lumaAddress q frame row col) =
      lumaChange (pixelAt q src row col) (frame.bytes .y (lumaAddress q frame row col)) := by
  rw [blend_luma placed]
  refine foldl_poke_of_mem (nodup_lumaBlocks placed) ?_ _
  obtain ⟨block, pos⟩ := exists_block row_lt col_lt
  refine List.mem_flatMap.2 ⟨_, block, List.mem_map.2 ⟨_, pos, ?_⟩⟩
  dsimp only
  rw [show row / 2 * 2 + row % 2 = row by omega, show col / 2 * 2 + col % 2 = col by omega]

theorem blend_chroma_at {i j : ℕ} (i_lt : i < q.height.toNat / 2) (j_lt : j < q.width.toNat / 2) :
    (injectArgbBlend q src frame).1.bytes .uv (chromaAddress q frame i (2 * j)) =
      chromaChange argbU (blockArgb q src (2 * i) (2 * j))
        (frame.bytes .uv (chromaAddress q frame i (2 * j))) ∧
    (injectArgbBlend q src frame).1.bytes .uv (chromaAddress q frame i (2 * j + 1)) =
      chromaChange argbV (blockArgb q src (2 * i) (2 * j))
        (frame.bytes .uv (chromaAddress q frame i (2 * j + 1))) := by
  have block : (2 * i, 2 * j) ∈ blendBlocks q := mem_blendBlocks.2 (by dsimp only; omega)
  have half : 2 * i / 2 = i := by omega
  rw [blend_chroma placed]
  constructor
  · refine foldl_poke_of_mem (nodup_chromaBlocks placed) (List.mem_flatMap.2 ⟨_, block, ?_⟩) _
    simp only [chromaBlock, half]
    exact List.mem_cons_self
  · refine foldl_poke_of_mem (nodup_chromaBlocks placed) (List.mem_flatMap.2 ⟨_, block, ?_⟩) _
    simp only [chromaBlock, half]
    exact List.mem_cons_of_mem _ (List.mem_singleton_self _)

end

/-- An overlay is mixed into the frame just when the division cuts the luma of no visible pixel. -/
theorem blend_mixes_iff (q : QueuedFrame) (src : SourceBuffer) (frame : TargetFrame)
    (placed : Placed q frame) :
    Mixed q src frame (injectArgbBlend q src frame).1 ↔
      ∀ row < q.height.toNat, ∀ col < q.width.toNat, (pixelAt q src row col).a ≠ 0 →
        LumaKept (pixelAt q src row col) (frame.bytes .y (lumaAddress q frame row col)) := by
  constructor
  · intro mixed row row_lt col col_lt visible
    have luma := mixed.luma row row_lt col col_lt
    rw [blend_luma_at placed row_lt col_lt, lumaChange, if_neg visible] at luma
    exact (lumaMix_iff visible _).1 luma
  · intro kept
    refine ⟨fun a outside => ?_, fun a outside => ?_, fun row row_lt col col_lt => ?_,
      fun i i_lt j j_lt => ?_⟩
    · rw [blend_luma placed]
      refine foldl_poke_of_notMem (fun change mem => ?_) _
      obtain ⟨block, -, mem⟩ := List.mem_flatMap.1 mem
      obtain ⟨pos, inBlock, rfl⟩ := List.mem_map.1 mem
      have inside := mem_blockPixels.1 inBlock
      exact outside _ inside.1.2 _ inside.2.2
    · rw [blend_chroma placed]
      refine foldl_poke_of_notMem (fun change mem => ?_) _
      obtain ⟨block, inBlocks, mem⟩ := List.mem_flatMap.1 mem
      have inside := mem_blendBlocks.1 inBlocks
      have width_even := placed.width_even
      have height_even := placed.height_even
      rcases List.mem_pair.1 mem with rfl | rfl
      · exact outside _ (by omega) _ (by omega)
      · exact outside _ (by omega) _ (by omega)
    · rw [blend_luma_at placed row_lt col_lt]
      by_cases visible : (pixelAt q src row col).a = 0
      · rw [lumaChange, if_pos visible]
        exact ⟨Nat.min_le_right _ _, Nat.le_max_right _ _, fun _ => rfl,
          fun full => absurd (visible.symm.trans full) (by decide)⟩
      · rw [lumaChange, if_neg visible]
        exact (lumaMix_iff visible _).2 (kept row row_lt col col_lt visible)
    · obtain ⟨u, v⟩ := @blend_chroma_at q src frame placed i j i_lt j_lt
      rw [u, v]
      exact ⟨chromaMix_mixed rfl _, chromaMix_mixed rfl _⟩

def greyOverlay (grey : UInt8) : SourceBuffer where
  format := .argb32
  dmabuf := false
  numPlanes := 1
  width := 2
  height := 2
  uvStride := 0
  size := fun
    | .y => 16
    | .uv => 0
  fd := fun _ => false
  maps := fun _ => false
  present := true
  bytes := fun _ a => if a % 4 = 0 then 255 else grey

def greyFrame : QueuedFrame := { queued (sampleOverlay 0) overlayPin 1 with stride := 8 }

theorem greyFrame_placed : Placed greyFrame pipelineFrame :=
  ⟨rfl, rfl, rfl, rfl, by decide, by decide, fun _ => le_rfl⟩

theorem blend_mixes_black : Mixed greyFrame (greyOverlay 0) pipelineFrame
      (injectArgbBlend greyFrame (greyOverlay 0) pipelineFrame).1 := by
  have kept : ∀ row < 2, ∀ col < 2, LumaKept (pixelAt greyFrame (greyOverlay 0) row col) 0 := by
    unfold LumaKept
    decide +kernel
  exact (blend_mixes_iff greyFrame (greyOverlay 0) pipelineFrame greyFrame_placed).2
    fun row row_lt col col_lt _ => kept row row_lt col col_lt

/-- White comes out as luma 234, not 235. -/
theorem white_comes_out_darker : Placed greyFrame pipelineFrame ∧
    pixelAt greyFrame (greyOverlay 255) 0 0 = ⟨255, 255, 255, 255⟩ ∧
    argbYOf 255 255 255 = 235 ∧
    (injectArgbBlend greyFrame (greyOverlay 255) pipelineFrame).1.bytes .y 0 = 234 ∧
    ¬ Mixed greyFrame (greyOverlay 255) pipelineFrame
      (injectArgbBlend greyFrame (greyOverlay 255) pipelineFrame).1 := by
  have dark : (injectArgbBlend greyFrame (greyOverlay 255) pipelineFrame).1.bytes .y 0 = 234 := by
    decide +kernel
  refine ⟨greyFrame_placed, rfl, by decide, dark, fun mixed => ?_⟩
  have luma := (mixed.luma 0 (by decide) 0 (by decide)).solid rfl
  exact absurd (dark.symm.trans luma) (by decide)

end NeoRuntime.CameraDaemon
