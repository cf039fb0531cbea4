import SweepDSEmu.Lib.RowGrid
import SweepDSEmu.VideoCore.RasterizerCache
import Mathlib.Algebra.Order.BigOperators.Group.Finset

/-!
# The layout of a surface

The functions of `SurfaceParams` that pass between addresses, mip levels and rectangles.

* `mipmap_offsets` is a function of the other members, as `UpdateParams` leaves it.  Its entries behind the last level
  are read by an assertion of `FromInterval` only; they are zero here.
* A coordinate of a rectangle is a 32-bit number.

Under `Sized` the levels lie one behind the other.  Under `Regular` the tiles of a level are the cells of a `RowGrid`.
-/

namespace SweepDSEmu.VideoCore

open RasterizerCache (alignUp)

/-- What ends the emulation in the computations with layouts. -/
inductive LayoutFault where
  | cache (fault : CacheFault)
  /-- "Ensure provided interval is contained in a single level". -/
  | severalLevels
  /-- `ASSERT(stride == width || level == 0)`. -/
  | strideOfLevel
  /-- `ASSERT(aligned_end - aligned_start == stride_tiled_bytes)`. -/
  | rowSize
  /-- `ASSERT(levels > level)`. -/
  | noLevel
  | divisionByZero
  /-- The assertion on the copied interval in `CanCopy` and `CopySurface`. -/
  | copyInterval
  /-- The assertion on the uploaded parameters in `UploadSurface` and `UploadCustomSurface`. -/
  | uploadRange
  deriving DecidableEq

structure Rectangle where
  left : Nat
  top : Nat
  right : Nat
  bottom : Nat
  deriving DecidableEq

/-- The absolute value of a 32-bit number that is read as a signed one. -/
def absU32 (x : Nat) : Nat := if x < 2 ^ 31 then x else 2 ^ 32 - x

namespace Rectangle

def getWidth (rect : Rectangle) : Nat := absU32 (subU32 rect.right rect.left)

def getHeight (rect : Rectangle) : Nat := absU32 (subU32 rect.bottom rect.top)

end Rectangle

def alignDown (value size : Nat) : Nat := value - value % size

namespace SurfaceParams

/-- The part of the format in the sizes: its `bits_per_block`. -/
def formatBpp (params : SurfaceParams) : Nat := ((formatInfo params.pixelFormat).map Prod.snd).getD 0

def pixelsInBytes (bpp size : Nat) : Nat := mulU32 size 8 / bpp

def calculateMipLevelOffsets (bpp : Nat) : Nat → Nat → Nat → Nat → List Nat
  | 0, _, _, _ => []
  | levels + 1, width, height, offset =>
    offset :: calculateMipLevelOffsets bpp levels (width / 2) (height / 2)
      (addU32 offset (bytesInPixels bpp (mulU32 width height)))

def mipmapOffsets (params : SurfaceParams) : List Nat :=
  if params.levels ≠ 1 then
    calculateMipLevelOffsets params.formatBpp params.levels params.width params.height params.addr
  else [params.addr]

def mipmapOffset (params : SurfaceParams) (level : Nat) : Nat := params.mipmapOffsets.getD level 0

/-- The loop of `LevelOf`.  It stops at the base level, whose offset is the address. -/
def levelFrom (params : SurfaceParams) (levelAddr : Nat) : Nat → Nat
  | 0 => 0
  | level + 1 =>
    if params.mipmapOffset (level + 1) > levelAddr then levelFrom params levelAddr level else level + 1

def levelOf (params : SurfaceParams) (levelAddr : Nat) : Nat :=
  if levelAddr < params.addr ∨ levelAddr > params.endAddr then 0 else params.levelFrom levelAddr (params.levels - 1)

def levelInterval (params : SurfaceParams) (level : Nat) : Except LayoutFault (Nat × Nat) :=
  if params.levels > level then
    .ok (params.mipmapOffset level,
      if level = params.levels - 1 then params.endAddr else params.mipmapOffset (level + 1))
  else .error .noLevel

def tiledSize (params : SurfaceParams) : Nat := if params.isTiled then 8 else 1

/-- The interval, with its ends rounded outwards to multiples of a size that are counted from `start`. -/
def alignInterval (start lower upper size : Nat) : Nat × Nat :=
  (addU32 start (alignDown (subU32 lower start) size), addU32 start (alignUp (subU32 upper start) size))

/-- `UpdateParams`, at the end of `FromInterval`. -/
def finishParams (params : SurfaceParams) : Except LayoutFault SurfaceParams :=
  Except.mapError LayoutFault.cache { params with levels := 1 }.updateParams

/-- The outer rectangle of the interval `[lower, upper)`. -/
def fromInterval (params : SurfaceParams) (lower upper : Nat) : Except LayoutFault SurfaceParams :=
  let bpp := params.formatBpp
  let level := params.levelOf lower
  if ¬ (level = params.levelOf upper ∨ upper = params.endAddr ∨ upper = params.mipmapOffset (level + 1)) then
    .error .severalLevels
  else if ¬ (params.stride = params.width ∨ level = 0) then .error .strideOfLevel
  else
    let width := params.width / 2 ^ level
    let stride := params.stride / 2 ^ level
    let strideTiledBytes := bytesInPixels bpp (mulU32 stride params.tiledSize)
    let start := params.mipmapOffset level
    if strideTiledBytes = 0 then .error .divisionByZero
    else
      let aligned := alignInterval start lower upper strideTiledBytes
      if subU32 aligned.2 aligned.1 > strideTiledBytes then
        if bytesInPixels bpp stride = 0 then .error .divisionByZero
        else
          finishParams { params with
            width := width
            stride := stride
            addr := aligned.1
            height := subU32 aligned.2 aligned.1 / bytesInPixels bpp stride }
      else if subU32 aligned.2 aligned.1 ≠ strideTiledBytes then .error .rowSize
      else
        let tiledAlignment := bytesInPixels bpp (if params.isTiled then 8 * 8 else 1)
        if tiledAlignment = 0 then .error .divisionByZero
        else
          let aligned := alignInterval start lower upper tiledAlignment
          let width := pixelsInBytes bpp (subU32 aligned.2 aligned.1) / params.tiledSize
          finishParams { params with
            width := width
            stride := width
            addr := aligned.1
            height := params.tiledSize }

def getSubRect (params subSurface : SurfaceParams) : Except LayoutFault Rectangle :=
  let level := params.levelOf subSurface.addr
  let beginPixelIndex := pixelsInBytes params.formatBpp (subU32 subSurface.addr (params.mipmapOffset level))
  let strideLod := params.stride / 2 ^ level
  if ¬ (params.stride = params.width ∨ level = 0) then .error .strideOfLevel
  else if (if params.isTiled then mulU32 strideLod 8 else strideLod) = 0 then .error .divisionByZero
  else if params.isTiled then
    let x0 := beginPixelIndex % mulU32 strideLod 8 / 8
    let y0 := mulU32 (beginPixelIndex / mulU32 strideLod 8) 8
    let heightLod := params.height / 2 ^ level
    -- top to bottom
    .ok {
      left := x0
      top := subU32 heightLod y0
      right := addU32 x0 subSurface.width
      bottom := subU32 heightLod (addU32 y0 subSurface.height) }
  else
    let x0 := beginPixelIndex % strideLod
    let y0 := beginPixelIndex / strideLod
    -- bottom to top
    .ok {
      left := x0
      top := addU32 y0 subSurface.height
      right := addU32 x0 subSurface.width
      bottom := y0 }

/-- The corners of a rectangle, with the rows counted in tiles and the columns in pixels of a row of tiles. -/
def tiledRect (params : SurfaceParams) (rect : Rectangle) : Rectangle :=
  if params.isTiled then
    { left := mulU32 (alignDown rect.left 8) 8
      bottom := alignDown rect.bottom 8 / 8
      right := mulU32 (alignUp rect.right 8) 8
      top := alignUp rect.top 8 / 8 }
  else rect

def getSubRectInterval (params : SurfaceParams) (unscaledRect : Rectangle) (level : Nat) : Nat × Nat :=
  if unscaledRect.getHeight = 0 ∨ unscaledRect.getWidth = 0 then (0, 0)
  else
    let bpp := params.formatBpp
    let rect := params.tiledRect unscaledRect
    let strideTiled := (if !params.isTiled then params.stride else mulU32 params.stride 8) / 2 ^ level
    let pixels := addU32 (mulU32 (subU32 rect.getHeight 1) strideTiled) rect.getWidth
    -- the height is the one of the base level
    let row := if !params.isTiled then rect.bottom else subU32 (params.height / 8) rect.top
    let pixelOffset := addU32 (mulU32 strideTiled row) rect.left
    let start := params.mipmapOffset level
    (addU32 start (bytesInPixels bpp pixelOffset), addU32 start (bytesInPixels bpp (addU32 pixelOffset pixels)))

def interval (params : SurfaceParams) : Nat × Nat := (params.addr, params.endAddr)

theorem addU32_eq {a b : Nat} (h : a + b < 2 ^ 32) : addU32 a b = a + b := Nat.mod_eq_of_lt h

theorem mulU32_eq {a b : Nat} (h : a * b < 2 ^ 32) : mulU32 a b = a * b := Nat.mod_eq_of_lt h

theorem subU32_eq {a b : Nat} (h : b ≤ a) (ha : a < 2 ^ 32) : subU32 a b = a - b := by
  unfold subU32
  omega

theorem addU32_subU32 {start x : Nat} (h : start + x < 2 ^ 32) : subU32 (start + x) start = x := by
  rw [subU32_eq (Nat.le_add_right _ _) h, Nat.add_sub_cancel_left]

theorem bytesInPixels_eq {bpp pixels : Nat} (h : pixels * bpp < 2 ^ 32) :
    bytesInPixels bpp pixels = pixels * bpp / 8 := by
  unfold bytesInPixels
  rw [mulU32_eq h]

theorem bytesInPixels_mulU32 (bpp a b : Nat) : bytesInPixels bpp (mulU32 a b) = bytesInPixels bpp (a * b) := by
  unfold bytesInPixels mulU32
  rw [Nat.mod_mul_mod]

theorem alignDown_eq (value size : Nat) : alignDown value size = floorTo size value := (floorTo_eq_sub size value).symm

theorem alignUp_eq {value size : Nat} (hsize : 0 < size) (h : ceilTo size value < 2 ^ 32) :
    alignUp value size = ceilTo size value := by
  unfold RasterizerCache.alignUp
  by_cases hmod : value % size = 0
  · rw [if_pos hmod, ceilTo_of_dvd hsize (Nat.dvd_of_mod_eq_zero hmod)]
  · have hdvd : ¬ size ∣ value := fun hdvd => hmod (Nat.mod_eq_zero_of_dvd hdvd)
    rw [ceilTo_of_not_dvd hsize hdvd] at h ⊢
    rw [if_neg hmod, ← floorTo_eq_sub, addU32_eq h]

theorem alignInterval_eq {start x y size : Nat} (hsize : 0 < size) (hxy : x ≤ y)
    (h : start + ceilTo size y < 2 ^ 32) :
    alignInterval start (start + x) (start + y) size = (start + floorTo size x, start + ceilTo size y) := by
  have hx := floorTo_le size x
  have hy := le_ceilTo hsize y
  unfold alignInterval
  rw [addU32_subU32 (by omega), addU32_subU32 (by omega), alignDown_eq, alignUp_eq hsize (by omega),
    addU32_eq (by omega), addU32_eq h]

/-- A factor that wrapped around as `k - 1` is made good by one more summand. -/
theorem addU32_mulU32_pred (x k : Nat) : addU32 (mulU32 x (subU32 k 1)) x = x * k % 2 ^ 32 := by
  unfold addU32 mulU32 subU32
  rw [Nat.mod_add_mod]
  cases k with
  | zero =>
    have h : x * ((0 + 2 ^ 32 - 1) % 2 ^ 32) + x = x * 2 ^ 32 := by
      omega
    rw [h, Nat.mul_zero, Nat.mul_mod_left, Nat.zero_mod]
  | succ k =>
    have h : k + 1 + 2 ^ 32 - 1 = k + 2 ^ 32 := by omega
    rw [h, Nat.add_mod_right, Nat.mul_add, Nat.mul_one, Nat.add_mod, Nat.mul_mod, Nat.mod_mod, ← Nat.mul_mod,
      ← Nat.add_mod]

def lineBytes (params : SurfaceParams) : Nat := params.tiledSize * params.formatBpp / 8

def tileBytes (params : SurfaceParams) : Nat := params.tiledSize * params.lineBytes

def tileColumns (params : SurfaceParams) (level : Nat) : Nat := params.width / 2 ^ level / params.tiledSize

def tileRows (params : SurfaceParams) (level : Nat) : Nat := params.height / 2 ^ level / params.tiledSize

def levelBytes (params : SurfaceParams) (level : Nat) : Nat :=
  params.width / 2 ^ level * (params.height / 2 ^ level) * params.formatBpp / 8

def offset (params : SurfaceParams) (level : Nat) : Nat := params.addr + ∑ k ∈ Finset.range level, params.levelBytes k

/-- A surface without gaps whose size and end a 32-bit number holds, after `UpdateParams`. -/
structure Sized (params : SurfaceParams) : Prop where
  supported : formatInfo params.pixelFormat ≠ none
  updated : params.updateParams = .ok params
  stride : params.stride = params.width
  levels_pos : 0 < params.levels
  levels_le : params.levels ≤ maxPicaLevels
  tiledSize_dvd : params.tiledSize ∣ params.height
  bits_lt : params.width * params.height * params.formatBpp < 2 ^ 32
  end_lt : params.addr + params.size < 2 ^ 32

structure Regular (params : SurfaceParams) : Prop extends Sized params where
  width_dvd : params.tiledSize * 2 ^ (params.levels - 1) ∣ params.width
  height_dvd : params.tiledSize * 2 ^ (params.levels - 1) ∣ params.height
  /-- A line of a tile has whole bytes: the surface is tiled, or a pixel has whole bytes. -/
  line_dvd : 8 ∣ params.tiledSize * params.formatBpp

theorem tiledSize_pos (params : SurfaceParams) : 0 < params.tiledSize := by
  unfold tiledSize
  split_ifs <;> decide

theorem formatInfo_eq {params : SurfaceParams} (h : formatInfo params.pixelFormat ≠ none) :
    ∃ type, formatInfo params.pixelFormat = some (type, params.formatBpp) := by
  obtain ⟨⟨type, bpp⟩, hinfo⟩ := Option.ne_none_iff_exists'.mp h
  exact ⟨type, by simp [formatBpp, hinfo]⟩

theorem four_le_formatBpp {params : SurfaceParams} (h : formatInfo params.pixelFormat ≠ none) :
    4 ≤ params.formatBpp := by
  unfold formatBpp
  cases hformat : params.pixelFormat <;> first | decide | exact absurd (by rw [hformat]; rfl) h

theorem formatBpp_le (params : SurfaceParams) : params.formatBpp ≤ 32 := by
  unfold formatBpp
  cases params.pixelFormat <;> decide

theorem formatBpp_pos {params : SurfaceParams} (h : formatInfo params.pixelFormat ≠ none) : 0 < params.formatBpp :=
  Nat.lt_of_lt_of_le (by decide) (four_le_formatBpp h)

theorem updateParams_single {params : SurfaceParams} {type : SurfaceType}
    (hinfo : formatInfo params.pixelFormat = some (type, params.formatBpp)) (hlevels : params.levels = 1)
    (hstride : params.stride = params.width) (hheight : params.tiledSize ∣ params.height)
    (hbits : params.width * params.height * params.formatBpp < 2 ^ 32) :
    params.updateParams = .ok { params with
      type := type
      size := params.width * params.height * params.formatBpp / 8 } := by
  have hwrap (x k : Nat) (hx : x * k * params.formatBpp < 2 ^ 32) :
      bytesInPixels params.formatBpp (addU32 (mulU32 x (subU32 k 1)) x) = x * k * params.formatBpp / 8 := by
    rw [addU32_mulU32_pred]
    exact (bytesInPixels_mulU32 _ x k).trans (bytesInPixels_eq hx)
  have hkeep : (if params.stride = 0 then params.width else params.stride) = params.width := by
    rw [hstride, ite_self]
  unfold updateParams
  simp only [hinfo, hlevels, hkeep]
  rw [if_neg (by decide)]
  congr 1
  cases htiled : params.isTiled
  · simp only [Bool.not_false, if_true, hwrap _ _ hbits, hstride]
  · have hside : params.tiledSize = 8 := by rw [tiledSize, htiled, if_pos rfl]
    rw [hside] at hheight
    obtain ⟨k, hk⟩ := hheight
    have hrow : mulU32 params.width 8 * k % 2 ^ 32 = mulU32 (params.width * 8) k := by
      unfold mulU32
      rw [Nat.mod_mul_mod]
    have hpixels : params.width * 8 * k = params.width * params.height := by
      rw [hk]
      ring
    simp only [Bool.not_true, Bool.false_eq_true, if_false, hstride]
    rw [hk, Nat.mul_div_cancel_left k (by decide), addU32_mulU32_pred, hrow, bytesInPixels_mulU32, hpixels,
      bytesInPixels_eq hbits, hk]

namespace Sized

variable {params : SurfaceParams} (h : params.Sized) {level : Nat}

include h

theorem format : formatInfo params.pixelFormat = some (params.type, params.formatBpp) := by
  obtain ⟨type, hinfo⟩ := formatInfo_eq h.supported
  have htype : params.type = type := by
    have hupdated := h.updated
    unfold updateParams at hupdated
    simp only [hinfo] at hupdated
    split_ifs at hupdated <;> exact (congrArg SurfaceParams.type (Except.ok.inj hupdated)).symm
  rw [hinfo, htype]

theorem bits_le (level : Nat) :
    params.width / 2 ^ level * (params.height / 2 ^ level) * params.formatBpp < 2 ^ 32 := by
  refine Nat.lt_of_le_of_lt ?_ h.bits_lt
  exact Nat.mul_le_mul_right _ (Nat.mul_le_mul (Nat.div_le_self _ _) (Nat.div_le_self _ _))

theorem levelBytes_lt (level : Nat) : params.levelBytes level < 2 ^ 29 := by
  have := h.bits_le level
  unfold levelBytes
  omega

theorem bytesInPixels_level (level : Nat) :
    bytesInPixels params.formatBpp (mulU32 (params.width / 2 ^ level) (params.height / 2 ^ level)) =
      params.levelBytes level := by
  rw [bytesInPixels_mulU32, bytesInPixels_eq (h.bits_le level)]
  rfl

omit h in
private theorem halve (x level : Nat) : x / 2 ^ level / 2 = x / 2 ^ (level + 1) := by
  rw [Nat.div_div_eq_div_mul, Nat.pow_succ]

theorem sum_levelBytes_lt {n : Nat} (hn : n ≤ params.levels) :
    ∑ k ∈ Finset.range n, params.levelBytes k < 2 ^ 32 := by
  have hle : ∑ k ∈ Finset.range n, params.levelBytes k ≤ n * (2 ^ 29 - 1) := by
    have := Finset.sum_le_card_nsmul (Finset.range n) params.levelBytes (2 ^ 29 - 1) fun k hk => by
      have := h.levelBytes_lt k
      omega
    rwa [Finset.card_range, nsmul_eq_mul, Nat.cast_id] at this
  have := h.levels_le
  unfold maxPicaLevels at this
  omega

private theorem calculateSurfaceSize_from (n : Nat) {first : Nat} (hn : first + n ≤ params.levels) :
    calculateSurfaceSize params.formatBpp n (params.width / 2 ^ first) (params.height / 2 ^ first)
        (∑ k ∈ Finset.range first, params.levelBytes k) =
      ∑ k ∈ Finset.range (first + n), params.levelBytes k := by
  induction n generalizing first with
  | zero => rfl
  | succ n ih =>
    have hsum := h.sum_levelBytes_lt (show first + 1 ≤ params.levels by omega)
    rw [Finset.sum_range_succ] at hsum
    rw [calculateSurfaceSize, h.bytesInPixels_level, halve, halve, addU32_eq hsum,
      ← Finset.sum_range_succ, ih (by omega), show first + 1 + n = first + (n + 1) by omega]

theorem size_eq : params.size = ∑ k ∈ Finset.range params.levels, params.levelBytes k := by
  obtain ⟨type, hinfo⟩ := formatInfo_eq h.supported
  have hupdated := h.updated
  by_cases hlevels : params.levels = 1
  · rw [updateParams_single hinfo hlevels h.stride h.tiledSize_dvd h.bits_lt] at hupdated
    have hsize := congrArg SurfaceParams.size (Except.ok.inj hupdated)
    rw [← hsize, hlevels, Finset.sum_range_one, levelBytes, Nat.pow_zero, Nat.div_one, Nat.div_one]
  · have hkeep : (if params.stride = 0 then params.width else params.stride) = params.width := by
      rw [h.stride, ite_self]
    unfold updateParams at hupdated
    simp only [hinfo, hkeep] at hupdated
    rw [if_pos hlevels, if_pos ⟨trivial, h.levels_le⟩] at hupdated
    have hsize := congrArg SurfaceParams.size (Except.ok.inj hupdated)
    have hloop := h.calculateSurfaceSize_from params.levels (show 0 + params.levels ≤ params.levels by omega)
    rw [Nat.pow_zero, Nat.div_one, Nat.div_one, Finset.sum_range_zero, Nat.zero_add] at hloop
    rw [← hsize]
    exact hloop

theorem endAddr_eq : params.endAddr = params.offset params.levels := by
  unfold endAddr offset
  rw [addU32_eq h.end_lt, h.size_eq]

theorem offset_lt {level : Nat} (hlevel : level ≤ params.levels) : params.offset level < 2 ^ 32 := by
  have hle : ∑ k ∈ Finset.range level, params.levelBytes k ≤ ∑ k ∈ Finset.range params.levels, params.levelBytes k :=
    Finset.sum_le_sum_of_subset (Finset.range_mono hlevel)
  have := h.end_lt
  rw [h.size_eq] at this
  unfold offset
  omega

end Sized

theorem offset_succ (params : SurfaceParams) (level : Nat) :
    params.offset (level + 1) = params.offset level + params.levelBytes level := by
  unfold offset
  rw [Finset.sum_range_succ, Nat.add_assoc]

theorem offset_mono (params : SurfaceParams) {a b : Nat} (hab : a ≤ b) : params.offset a ≤ params.offset b :=
  Nat.add_le_add_left (Finset.sum_le_sum_of_subset (Finset.range_mono hab)) _

@[simp] theorem offset_zero (params : SurfaceParams) : params.offset 0 = params.addr := rfl

namespace Sized

variable {params : SurfaceParams} (h : params.Sized) {level : Nat}

include h

private theorem calculateMipLevelOffsets_from (n : Nat) {first k : Nat} (hn : first + n ≤ params.levels) (hk : k < n) :
    (calculateMipLevelOffsets params.formatBpp n (params.width / 2 ^ first) (params.height / 2 ^ first)
      (params.offset first)).getD k 0 = params.offset (first + k) := by
  induction n generalizing first k with
  | zero => omega
  | succ n ih =>
    have hnext := h.offset_lt (show first + 1 ≤ params.levels by omega)
    rw [offset_succ] at hnext
    rw [calculateMipLevelOffsets, h.bytesInPixels_level, halve, halve, addU32_eq hnext, ← offset_succ]
    cases k with
    | zero => rfl
    | succ k =>
      rw [List.getD_cons_succ, ih (by omega) (by omega), show first + 1 + k = first + (k + 1) by omega]

theorem mipmapOffset_eq (hlevel : level < params.levels) : params.mipmapOffset level = params.offset level := by
  unfold mipmapOffset mipmapOffsets
  split_ifs with hlevels
  · have hloop := h.calculateMipLevelOffsets_from params.levels (show 0 + params.levels ≤ params.levels by omega) hlevel
    rwa [Nat.pow_zero, Nat.div_one, Nat.div_one, Nat.zero_add, offset_zero] at hloop
  · have hzero : level = 0 := by omega
    rw [hzero]
    rfl

theorem levelInterval_eq (hlevel : level < params.levels) :
    params.levelInterval level = .ok (params.offset level, params.offset (level + 1)) := by
  unfold levelInterval
  rw [if_pos hlevel, h.mipmapOffset_eq hlevel]
  split_ifs with hlast
  · rw [h.endAddr_eq, show level + 1 = params.levels by omega]
  · rw [h.mipmapOffset_eq (by omega)]

theorem levelInterval_single (hlevels : params.levels = 1) : params.levelInterval 0 = .ok params.interval := by
  rw [h.levelInterval_eq h.levels_pos, offset_zero, interval, h.endAddr_eq, hlevels]

private theorem levelFrom_eq {a n : Nat} (hn : n < params.levels) (hle : level ≤ n) (hlower : params.offset level ≤ a)
    (hupper : a < params.offset (level + 1)) : params.levelFrom a n = level := by
  induction n with
  | zero =>
    rw [levelFrom]
    omega
  | succ n ih =>
    rw [levelFrom, h.mipmapOffset_eq hn]
    by_cases heq : level = n + 1
    · rw [← heq, if_neg (by omega)]
    · have := params.offset_mono (show level + 1 ≤ n + 1 by omega)
      rw [if_pos (by omega), ih (by omega) (by omega)]

theorem levelOf_eq {a : Nat} (hlevel : level < params.levels) (hlower : params.offset level ≤ a)
    (hupper : a < params.offset (level + 1)) : params.levelOf a = level := by
  have h1 := params.offset_mono (Nat.zero_le level)
  have h2 := params.offset_mono (show level + 1 ≤ params.levels from hlevel)
  unfold levelOf
  rw [offset_zero] at h1
  rw [h.endAddr_eq, if_neg (by omega)]
  exact h.levelFrom_eq (by omega) (by omega) hlower hupper

theorem levelOf_upper (hlevel : level < params.levels) {y : Nat} (hy : y ≤ params.levelBytes level) :
    level = params.levelOf (params.offset level + y) ∨ params.offset level + y = params.endAddr ∨
      params.offset level + y = params.mipmapOffset (level + 1) := by
  have hnext := params.offset_succ level
  by_cases hlt : y < params.levelBytes level
  · exact Or.inl (h.levelOf_eq hlevel (Nat.le_add_right _ _) (by omega)).symm
  · right
    rw [show params.offset level + y = params.offset (level + 1) by omega]
    by_cases hlast : level + 1 = params.levels
    · rw [hlast]
      exact Or.inl h.endAddr_eq.symm
    · exact Or.inr (h.mipmapOffset_eq (by omega)).symm

theorem exists_level {a : Nat} (hlower : params.addr ≤ a) (hupper : a < params.endAddr) :
    ∃ level < params.levels, params.offset level ≤ a ∧ a < params.offset (level + 1) := by
  rw [h.endAddr_eq] at hupper
  have hfind : ∃ n, a < params.offset n := ⟨_, hupper⟩
  have hspec := Nat.find_spec hfind
  have hle := Nat.find_min' hfind hupper
  cases hn : Nat.find hfind with
  | zero =>
    rw [hn, offset_zero] at hspec
    omega
  | succ n =>
    have hmin := Nat.find_min hfind (m := n) (by omega)
    rw [hn] at hspec hle
    exact ⟨n, by omega, by omega, hspec⟩

end Sized

private theorem tiledSize_dvd_level (params : SurfaceParams) {side level : Nat} (hlevel : level < params.levels)
    (hside : params.tiledSize * 2 ^ (params.levels - 1) ∣ side) : params.tiledSize ∣ side / 2 ^ level := by
  have hpow : 2 ^ level ∣ 2 ^ (params.levels - 1) := Nat.pow_dvd_pow 2 (by omega)
  obtain ⟨c, rfl⟩ := (Nat.mul_dvd_mul_left params.tiledSize hpow).trans hside
  rw [show params.tiledSize * 2 ^ level * c = 2 ^ level * (params.tiledSize * c) by ring,
    Nat.mul_div_cancel_left _ (Nat.two_pow_pos level)]
  exact Nat.dvd_mul_right _ _

namespace Regular

variable {params : SurfaceParams} (h : params.Regular) {level : Nat}

include h

theorem width_level (hlevel : level < params.levels) :
    params.width / 2 ^ level = params.tiledSize * params.tileColumns level :=
  (Nat.mul_div_cancel' (tiledSize_dvd_level params hlevel h.width_dvd)).symm

theorem height_level (hlevel : level < params.levels) :
    params.height / 2 ^ level = params.tiledSize * params.tileRows level :=
  (Nat.mul_div_cancel' (tiledSize_dvd_level params hlevel h.height_dvd)).symm

theorem two_pow_mul_width (hlevel : level < params.levels) : 2 ^ level * (params.width / 2 ^ level) = params.width :=
  Nat.mul_div_cancel' (((Nat.pow_dvd_pow 2 (by omega)).trans (Nat.dvd_mul_left _ _)).trans h.width_dvd)

theorem two_pow_mul_height (hlevel : level < params.levels) :
    2 ^ level * (params.height / 2 ^ level) = params.height :=
  Nat.mul_div_cancel' (((Nat.pow_dvd_pow 2 (by omega)).trans (Nat.dvd_mul_left _ _)).trans h.height_dvd)

theorem line_bits : params.tiledSize * params.formatBpp = 8 * params.lineBytes :=
  (Nat.mul_div_cancel' h.line_dvd).symm

theorem tileBytes_pos : 0 < params.tileBytes := by
  have h1 := Nat.mul_pos params.tiledSize_pos (formatBpp_pos h.supported)
  have h2 := h.line_bits
  exact Nat.mul_pos params.tiledSize_pos (by omega)

theorem bits_tiles (columns rows : Nat) :
    params.tiledSize * columns * (params.tiledSize * rows) * params.formatBpp =
      8 * (params.tileBytes * columns * rows) := by
  calc params.tiledSize * columns * (params.tiledSize * rows) * params.formatBpp
      = params.tiledSize * params.formatBpp * params.tiledSize * columns * rows := by ring
    _ = 8 * (params.tileBytes * columns * rows) := by
      rw [h.line_bits]
      unfold tileBytes
      ring

theorem levelBytes_tiles (hlevel : level < params.levels) :
    params.levelBytes level = params.tileBytes * params.tileColumns level * params.tileRows level := by
  unfold levelBytes
  rw [h.width_level hlevel, h.height_level hlevel, h.bits_tiles, Nat.mul_div_cancel_left _ (by decide)]

theorem bits_level (hlevel : level < params.levels) :
    params.width / 2 ^ level * (params.height / 2 ^ level) * params.formatBpp = 8 * params.levelBytes level := by
  rw [h.width_level hlevel, h.height_level hlevel, h.bits_tiles, h.levelBytes_tiles hlevel]

theorem bits_level_lt (level : Nat) : 8 * params.levelBytes level < 2 ^ 32 := by
  have := h.levelBytes_lt level
  omega

end Regular

end SurfaceParams

end SweepDSEmu.VideoCore
