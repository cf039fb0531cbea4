import SweepDSEmu.VideoCore.SurfaceRects

/-!
# Rounding an interval to a rectangle, again and again

The surfaces in the cache, and what `FromInterval` gives for an interval of one of their levels: parameters that cover
the interval, and that `FromInterval` leaves as they are.

The levels of a small texture need not be whole tiles: `GetTextureSurface` has such textures created through
`GetSurfaceSubRect`, which rounds the base level alone.
-/

namespace SweepDSEmu.VideoCore

namespace SurfaceParams

/-- `FromInterval` covers the intervals of a level, and its result is rounded already. -/
def Rounds (params : SurfaceParams) : Prop :=
  ∀ level (i outer : Nat × Nat) (part : SurfaceParams), params.levelInterval level = .ok outer → Within i outer →
    i.1 < i.2 → params.fromInterval i.1 i.2 = .ok part →
      Within i part.interval ∧ part.fromInterval i.1 i.2 = .ok part

namespace Regular

variable {params : SurfaceParams} (h : params.Regular) {level : Nat}

include h

theorem rounds : params.Rounds := by
  intro level i outer part hlevel hi hne hpart
  obtain ⟨hlt, rfl, hcolumns, block, henclosing, hupper, hblock⟩ := h.fromInterval_level hlevel hi hne
  obtain rfl := Except.ok.inj (hblock.symm.trans hpart)
  have hinterval := blockParams_interval h hlt block hupper
  have hlower := (h.levelGrid hcolumns).enclosing_le (i.1 - params.offset level) (i.2 - params.offset level)
  have hover := (h.levelGrid hcolumns).le_enclosing (i.1 - params.offset level) (i.2 - params.offset level)
  rw [← henclosing] at hlower hover
  obtain ⟨hi1, hi2⟩ := hi
  have hwithin : Within i (params.blockParams level block).interval := by
    rw [hinterval]
    exact ⟨show _ ≤ i.1 by omega, show i.2 ≤ _ by omega⟩
  refine ⟨hwithin, ?_⟩
  have hregular := h.blockParams_regular hlt rfl block hupper
  obtain ⟨-, -, hpartColumns, inner, hinnerEnclosing, hinnerUpper, hinner⟩ :=
    hregular.fromInterval_level (hregular.levelInterval_single rfl) hwithin hne
  have haddr : (params.blockParams level block).offset 0 = params.offset level + block.lower := rfl
  have hcell : (hregular.levelGrid hpartColumns).cell = (h.levelGrid hcolumns).cell := rfl
  have hsameColumns : (hregular.levelGrid hpartColumns).columns = block.columns := blockParams_tileColumns block
  have hbytes := h.blockParams_levelBytes hlt rfl block hupper
  have hinnerLower := (hregular.levelGrid hpartColumns).enclosing_le
    (i.1 - (params.blockParams level block).offset 0) (i.2 - (params.blockParams level block).offset 0)
  have hinnerOver := (hregular.levelGrid hpartColumns).le_enclosing
    (i.1 - (params.blockParams level block).offset 0) (i.2 - (params.blockParams level block).offset 0)
  rw [← hinnerEnclosing, haddr] at hinnerLower hinnerOver
  have hinnerRect := (hregular.levelGrid hpartColumns).enclosing_isRect
    (show i.1 - (params.blockParams level block).offset 0 < i.2 - (params.blockParams level block).offset 0 by omega)
  rw [← hinnerEnclosing] at hinnerRect
  -- the rectangle in the block is one of the level too, and so it is not smaller than the block
  have hrect := block.isRect_add hcell hsameColumns hinnerRect (hinnerUpper.trans hbytes.le)
  have hleast := hrect.enclosing_subset (show block.lower + inner.lower ≤ i.1 - params.offset level by omega)
    (show i.2 - params.offset level ≤ block.lower + inner.upper by omega)
  rw [← henclosing] at hleast
  obtain ⟨hleastLower, hleastUpper⟩ := hleast
  have hblockUpper : block.upper = block.lower + (h.levelGrid hcolumns).cell * (block.rows * block.columns) := rfl
  have hinnerRow : (hregular.levelGrid hpartColumns).row * block.rows =
      (h.levelGrid hcolumns).cell * (block.rows * block.columns) := by
    rw [RowGrid.row, hcell, hsameColumns]
    ring
  have hwhole : inner.lower = 0 ∧ inner.upper = (hregular.levelGrid hpartColumns).row * block.rows := by omega
  obtain ⟨hrows, hinnerColumns⟩ := inner.eq_of_whole hwhole.1 hwhole.2
  rw [hinner]
  show Except.ok { params.blockParams level block with
    addr := (params.blockParams level block).offset 0 + inner.lower
    size := (hregular.levelGrid hpartColumns).cell * (inner.rows * inner.columns)
    width := params.tiledSize * inner.columns
    stride := params.tiledSize * inner.columns
    height := params.tiledSize * inner.rows
    levels := 1 } = Except.ok (params.blockParams level block)
  rw [hwhole.1, hrows, hinnerColumns, hsameColumns, hcell]
  rfl

end Regular

def tiledParams (params : SurfaceParams) (addr width height : Nat) : SurfaceParams :=
  { params with
    addr := addr
    size := width * (height / 8) * params.formatBpp
    width := width
    height := height
    stride := width
    levels := 1 }

/-- What `FromInterval` gives for the interval `[start + x, start + y)` of a level. -/
def roundTiles (params : SurfaceParams) (width start x y : Nat) : Except LayoutFault SurfaceParams :=
  let row := width * params.formatBpp
  let tile := 8 * params.formatBpp
  if row = 0 then .error .divisionByZero
  else if ceilTo row y - floorTo row x > row then
    if row / 8 = 0 then .error .divisionByZero
    else .ok (params.tiledParams (start + floorTo row x) width ((ceilTo row y - floorTo row x) / (row / 8)))
  else .ok (params.tiledParams (start + floorTo tile x) (8 * ((ceilTo tile y - floorTo tile x) / tile)) 8)

structure TiledInterval (params : SurfaceParams) (level start x y : Nat) : Prop where
  tiled : params.isTiled = true
  format : formatInfo params.pixelFormat = some (params.type, params.formatBpp)
  stride : params.stride = params.width
  width_le : params.width / 2 ^ level ≤ 2 ^ 12
  offset : params.mipmapOffset level = start
  levelOf_lower : params.levelOf (start + x) = level
  levelOf_upper : level = params.levelOf (start + y) ∨ start + y = params.endAddr ∨
    start + y = params.mipmapOffset (level + 1)
  lt : x < y
  le : y ≤ 2 ^ 25
  start_lt : start < 2 ^ 31 + 2 ^ 28

theorem finishParams_tiled {params : SurfaceParams} (htiled : params.isTiled = true)
    (hformat : formatInfo params.pixelFormat = some (params.type, params.formatBpp)) {addr width height : Nat}
    (hbits : 8 * (width * (height / 8) * params.formatBpp) < 2 ^ 32) :
    finishParams { params with
      width := width
      stride := width
      addr := addr
      height := height } = .ok (params.tiledParams addr width height) := by
  have hpixels : mulU32 (mulU32 width 8) (height / 8) = mulU32 (width * 8) (height / 8) := by
    unfold mulU32
    rw [Nat.mod_mul_mod]
  have hsum : addU32 (mulU32 (mulU32 width 8) (subU32 (height / 8) 1)) (mulU32 width 8) =
      mulU32 (width * 8) (height / 8) := (addU32_mulU32_pred _ _).trans hpixels
  have hbytes : width * 8 * (height / 8) * params.formatBpp = 8 * (width * (height / 8) * params.formatBpp) := by ring
  have hsize : bytesInPixels params.formatBpp (mulU32 (width * 8) (height / 8)) =
      width * (height / 8) * params.formatBpp := by
    rw [bytesInPixels_mulU32, bytesInPixels_eq (by omega), hbytes, Nat.mul_div_cancel_left _ (by decide)]
  unfold finishParams updateParams
  simp only [hformat, hsum, hsize, ite_self]
  rw [if_neg (by decide), if_neg (by rw [htiled]; decide)]
  rfl

/-- The bytes of the rows of tiles whose lines fill a gap.  A line has at least half the bytes that its bits need. -/
private theorem rowBytes_bounds {row gap : Nat} (hpos : 0 < row / 8) (hdvd : row ∣ gap) :
    gap ≤ row * (gap / (row / 8) / 8) ∧ row * (gap / (row / 8) / 8) ≤ 2 * gap := by
  obtain ⟨n, rfl⟩ := hdvd
  have hle := Nat.div_mul_le_self (row * n) (row / 8)
  generalize hheight : row * n / (row / 8) = height at *
  constructor
  · have h1 : 8 * n * (row / 8) ≤ row * n :=
      calc 8 * n * (row / 8) = 8 * (row / 8) * n := by ring
        _ ≤ row * n := Nat.mul_le_mul_right n (Nat.mul_div_le row 8)
    have h2 : 8 * n ≤ height := by
      rw [← hheight]
      exact (Nat.le_div_iff_mul_le hpos).mpr h1
    exact Nat.mul_le_mul_left row (by omega)
  · have h1 : 8 * (row * (height / 8)) ≤ 8 * (2 * (row * n)) :=
      calc 8 * (row * (height / 8)) = row * (8 * (height / 8)) := by ring
        _ ≤ 16 * (row / 8) * height := Nat.mul_le_mul (by omega) (Nat.mul_div_le height 8)
        _ = 16 * (height * (row / 8)) := by ring
        _ ≤ 8 * (2 * (row * n)) := by omega
    omega

namespace TiledInterval

variable {params : SurfaceParams} {level start x y : Nat} (h : params.TiledInterval level start x y)

include h

theorem row_le : params.width / 2 ^ level * params.formatBpp ≤ 2 ^ 12 * 32 :=
  Nat.mul_le_mul h.width_le (formatBpp_le params)

theorem fromInterval_eq :
    params.fromInterval (start + x) (start + y) = params.roundTiles (params.width / 2 ^ level) start x y := by
  have hside : params.tiledSize = 8 := Regular.tiledSize_eq h.tiled
  have hrowLe := h.row_le
  have hbpp := formatBpp_le params
  have hbppPos : 0 < params.formatBpp := formatBpp_pos (by rw [h.format]; exact Option.some_ne_none _)
  have hle := h.le
  have hstart := h.start_lt
  have hstride : params.stride / 2 ^ level = params.width / 2 ^ level := by rw [h.stride]
  have hrow : bytesInPixels params.formatBpp (mulU32 (params.width / 2 ^ level) 8) =
      params.width / 2 ^ level * params.formatBpp := by
    have hbits : params.width / 2 ^ level * 8 * params.formatBpp =
        8 * (params.width / 2 ^ level * params.formatBpp) := by ring
    rw [bytesInPixels_mulU32, bytesInPixels_eq (by omega), hbits, Nat.mul_div_cancel_left _ (by decide)]
  have hline : bytesInPixels params.formatBpp (params.width / 2 ^ level) =
      params.width / 2 ^ level * params.formatBpp / 8 := bytesInPixels_eq (by omega)
  unfold fromInterval roundTiles
  simp only [h.levelOf_lower, h.offset, hside, hstride, hrow, hline]
  rw [if_neg (not_not_intro h.levelOf_upper), if_neg (not_not_intro (Or.inl h.stride))]
  generalize params.width / 2 ^ level = width at *
  by_cases hzero : width * params.formatBpp = 0
  · rw [if_pos hzero, if_pos hzero]
  have hrowPos : 0 < width * params.formatBpp := Nat.pos_of_ne_zero hzero
  have hfloor := floorTo_le (width * params.formatBpp) x
  have hceil := ceilTo_lt hrowPos y
  have hsteps := floorTo_lt_ceilTo hrowPos h.lt
  rw [if_neg hzero, if_neg hzero, alignInterval_eq hrowPos h.lt.le (by omega)]
  rw [subU32_eq (by omega) (by omega), Nat.add_sub_add_left]
  by_cases hrows : ceilTo (width * params.formatBpp) y - floorTo (width * params.formatBpp) x >
      width * params.formatBpp
  · rw [if_pos hrows, if_pos hrows]
    by_cases hlineZero : width * params.formatBpp / 8 = 0
    · rw [if_pos hlineZero, if_pos hlineZero]
    rw [if_neg hlineZero, if_neg hlineZero]
    refine finishParams_tiled h.tiled h.format ?_
    have hbytes := (rowBytes_bounds (Nat.pos_of_ne_zero hlineZero)
      (Nat.dvd_sub (dvd_ceilTo (width * params.formatBpp) y) (dvd_floorTo (width * params.formatBpp) x))).2
    rw [Nat.mul_right_comm]
    omega
  · have htilePos : 0 < 8 * params.formatBpp := by omega
    have htile : bytesInPixels params.formatBpp (if params.isTiled then 8 * 8 else 1) = 8 * params.formatBpp := by
      rw [h.tiled, if_pos rfl, bytesInPixels_eq (by omega)]
      omega
    have htileFloor := floorTo_le (8 * params.formatBpp) x
    have htileCeil := ceilTo_lt htilePos y
    have htileLe := le_ceilTo htilePos y
    have hlt := h.lt
    obtain ⟨tiles, htiles⟩ : 8 * params.formatBpp ∣
        ceilTo (8 * params.formatBpp) y - floorTo (8 * params.formatBpp) x :=
      Nat.dvd_sub (dvd_ceilTo _ _) (dvd_floorTo _ _)
    have hwidth : pixelsInBytes params.formatBpp (8 * params.formatBpp * tiles) / 8 = 8 * tiles := by
      unfold pixelsInBytes
      rw [mulU32_eq (by omega), show 8 * params.formatBpp * tiles * 8 = 8 * (8 * tiles) * params.formatBpp by ring,
        Nat.mul_div_cancel _ hbppPos, Nat.mul_div_cancel_left _ (by decide)]
    rw [if_neg hrows, if_neg hrows, if_neg (by omega), htile, if_neg htilePos.ne',
      alignInterval_eq htilePos hlt.le (by omega)]
    rw [subU32_eq (by omega) (by omega), Nat.add_sub_add_left, htiles, hwidth, Nat.mul_div_cancel_left _ htilePos]
    refine finishParams_tiled h.tiled h.format ?_
    rw [Nat.div_self (by decide), Nat.mul_one, Nat.mul_right_comm]
    omega

theorem tiledParams {addr width u v : Nat} (height : Nat) (hwidth : width ≤ 2 ^ 12) (hlt : u < v) (hle : v ≤ 2 ^ 25)
    (haddr : addr < 2 ^ 31 + 2 ^ 28) : (params.tiledParams addr width height).TiledInterval 0 addr u v := by
  have hlevel (a : Nat) : (params.tiledParams addr width height).levelOf a = 0 := by
    unfold levelOf
    split_ifs <;> rfl
  exact {
    tiled := h.tiled
    format := h.format
    stride := rfl
    width_le := (Nat.div_le_self _ _).trans hwidth
    offset := rfl
    levelOf_lower := hlevel _
    levelOf_upper := Or.inl (hlevel _).symm
    lt := hlt
    le := hle
    start_lt := haddr }

/-- `FromInterval` for the parameters of some rows of tiles that start before the interval. -/
theorem fromInterval_tiledParams {lower width height : Nat} (hwidth : width ≤ 2 ^ 12) (hlower : lower ≤ x)
    (haddr : start + lower < 2 ^ 31 + 2 ^ 28) :
    (params.tiledParams (start + lower) width height).fromInterval (start + x) (start + y) =
      (params.tiledParams (start + lower) width height).roundTiles width (start + lower) (x - lower) (y - lower) := by
  have hlt := h.lt
  have hle := h.le
  have heq := (h.tiledParams height hwidth (show x - lower < y - lower by omega) (by omega)
    haddr).fromInterval_eq
  have hlevel : (params.tiledParams (start + lower) width height).width / 2 ^ 0 = width := Nat.div_one width
  rw [Nat.add_assoc, Nat.add_assoc, Nat.add_sub_cancel' hlower, Nat.add_sub_cancel' (by omega), hlevel] at heq
  exact heq

private theorem rounds_rows (hwidth : params.width / 2 ^ level ≤ 2 ^ 12)
    {row : Nat} (hrow : row = params.width / 2 ^ level * params.formatBpp) (hpos : 0 < row / 8)
    (hrows : ceilTo row y - floorTo row x > row) (hstart : start < 2 ^ 31 + 2 ^ 27) :
    Within (start + x, start + y) (params.tiledParams (start + floorTo row x) (params.width / 2 ^ level)
        ((ceilTo row y - floorTo row x) / (row / 8))).interval ∧
      (params.tiledParams (start + floorTo row x) (params.width / 2 ^ level)
          ((ceilTo row y - floorTo row x) / (row / 8))).fromInterval (start + x) (start + y) =
        .ok (params.tiledParams (start + floorTo row x) (params.width / 2 ^ level)
          ((ceilTo row y - floorTo row x) / (row / 8))) := by
  have hle := h.le
  have hlt := h.lt
  have hrowLe := h.row_le
  have hrowPos : 0 < row := by omega
  have hfloor := floorTo_le row x
  have hlast := lt_floorTo_add hrowPos x
  have hceil := le_ceilTo hrowPos y
  have hceilLt := ceilTo_lt hrowPos y
  have hfirst : floorTo row (x - floorTo row x) = 0 := by
    have := floorTo_add_of_dvd hrowPos (dvd_floorTo row x) (x - floorTo row x)
    rw [Nat.add_sub_cancel' hfloor] at this
    omega
  have hrest : ceilTo row (y - floorTo row x) = ceilTo row y - floorTo row x := by
    have := ceilTo_add_of_dvd hrowPos (dvd_floorTo row x) (y - floorTo row x)
    rw [Nat.add_sub_cancel' (by omega)] at this
    omega
  constructor
  · have hbytes := rowBytes_bounds hpos (Nat.dvd_sub (dvd_ceilTo row y) (dvd_floorTo row x))
    generalize (ceilTo row y - floorTo row x) / (row / 8) = height at *
    have hsize : (params.tiledParams (start + floorTo row x) (params.width / 2 ^ level) height).size =
        row * (height / 8) := by
      rw [hrow, Nat.mul_right_comm]
      rfl
    have hend : (params.tiledParams (start + floorTo row x) (params.width / 2 ^ level) height).endAddr =
        start + floorTo row x + row * (height / 8) := by
      unfold endAddr
      rw [hsize]
      exact addU32_eq (by show start + floorTo row x + _ < _; omega)
    unfold interval
    exact ⟨Nat.add_le_add_left hfloor _, by dsimp only; omega⟩
  · rw [h.fromInterval_tiledParams hwidth hfloor (by omega)]
    unfold roundTiles
    have hbpp : (params.tiledParams (start + floorTo row x) (params.width / 2 ^ level)
      ((ceilTo row y - floorTo row x) / (row / 8))).formatBpp = params.formatBpp := rfl
    simp only [hbpp, ← hrow, hfirst, hrest, Nat.sub_zero, Nat.add_zero]
    rw [if_neg (by omega), if_pos hrows, if_neg (by omega)]
    rfl

private theorem rounds_row (hwidth : params.width / 2 ^ level ≤ 2 ^ 11)
    (hrow : ¬ ceilTo (params.width / 2 ^ level * params.formatBpp) y -
      floorTo (params.width / 2 ^ level * params.formatBpp) x > params.width / 2 ^ level * params.formatBpp)
    (hrowPos : 0 < params.width / 2 ^ level * params.formatBpp) {tile tiles : Nat}
    (htile : tile = 8 * params.formatBpp) (htiles : ceilTo tile y - floorTo tile x = tile * tiles)
    (hstart : start < 2 ^ 31 + 2 ^ 27) :
    Within (start + x, start + y) (params.tiledParams (start + floorTo tile x) (8 * tiles) 8).interval ∧
      (params.tiledParams (start + floorTo tile x) (8 * tiles) 8).fromInterval (start + x) (start + y) =
        .ok (params.tiledParams (start + floorTo tile x) (8 * tiles) 8) := by
  have hle := h.le
  have hlt := h.lt
  have hbppPos : 0 < params.formatBpp := formatBpp_pos (by rw [h.format]; exact Option.some_ne_none _)
  have hbpp := formatBpp_le params
  have htilePos : 0 < tile := by omega
  have hfloor := floorTo_le tile x
  have hlast := lt_floorTo_add htilePos x
  have hceil := le_ceilTo htilePos y
  have hceilLt := ceilTo_lt htilePos y
  have hbytes : 8 * tiles * params.formatBpp = tile * tiles := by
    rw [htile, Nat.mul_right_comm]
  -- the tiles of the interval lie in a row with two tiles more
  have hfew : 8 * tiles ≤ 2 ^ 12 := by
    have hx := floorTo_le (params.width / 2 ^ level * params.formatBpp) x
    have hy := le_ceilTo hrowPos y
    have hbits : 8 * tiles * params.formatBpp < (params.width / 2 ^ level + 16) * params.formatBpp := by
      rw [Nat.add_mul, hbytes]
      omega
    have := Nat.lt_of_mul_lt_mul_right hbits
    omega
  have htilesPos : 0 < tiles := by
    rcases Nat.eq_zero_or_pos tiles with hzero | hpos
    · rw [hzero, Nat.mul_zero] at htiles
      omega
    · exact hpos
  have htileLe : tile ≤ tile * tiles := Nat.le_mul_of_pos_right _ htilesPos
  have hfirst : floorTo tile (x - floorTo tile x) = 0 := by
    have := floorTo_add_of_dvd htilePos (dvd_floorTo tile x) (x - floorTo tile x)
    rw [Nat.add_sub_cancel' hfloor] at this
    omega
  have hrest : ceilTo tile (y - floorTo tile x) = tile * tiles := by
    have := ceilTo_add_of_dvd htilePos (dvd_floorTo tile x) (y - floorTo tile x)
    rw [Nat.add_sub_cancel' (by omega)] at this
    omega
  have hfirstRow : floorTo (tile * tiles) (x - floorTo tile x) = 0 := by
    unfold floorTo
    rw [Nat.div_eq_of_lt (by unfold floorTo at hlast; omega), Nat.zero_mul]
  have hrestRow : ceilTo (tile * tiles) (y - floorTo tile x) ≤ tile * tiles :=
    (ceilTo_le_iff (by omega) (Nat.dvd_refl _)).mpr (by omega)
  constructor
  · have hsize : (params.tiledParams (start + floorTo tile x) (8 * tiles) 8).size = tile * tiles := by
      rw [← hbytes]
      show 8 * tiles * (8 / 8) * params.formatBpp = _
      rw [Nat.div_self (by decide), Nat.mul_one]
    have hend : (params.tiledParams (start + floorTo tile x) (8 * tiles) 8).endAddr =
        start + floorTo tile x + tile * tiles := by
      unfold endAddr
      rw [hsize]
      exact addU32_eq (by show start + floorTo tile x + _ < _; omega)
    unfold interval
    exact ⟨Nat.add_le_add_left hfloor _, by dsimp only; omega⟩
  · rw [h.fromInterval_tiledParams hfew hfloor (by omega)]
    unfold roundTiles
    have hsame : (params.tiledParams (start + floorTo tile x) (8 * tiles) 8).formatBpp = params.formatBpp := rfl
    simp only [hsame, ← htile, hbytes, hfirst, hrest, hfirstRow, Nat.sub_zero, Nat.add_zero]
    rw [if_neg (by omega), if_neg (by omega), Nat.mul_div_cancel_left _ htilePos]
    rfl

/-- The parameters that `FromInterval` gives cover the interval, and are rounded already. -/
theorem rounds (hwidth : params.width / 2 ^ level ≤ 2 ^ 11) (hstart : start < 2 ^ 31 + 2 ^ 27)
    {part : SurfaceParams} (hpart : params.fromInterval (start + x) (start + y) = .ok part) :
    Within (start + x, start + y) part.interval ∧ part.fromInterval (start + x) (start + y) = .ok part := by
  rw [h.fromInterval_eq] at hpart
  unfold roundTiles at hpart
  dsimp only at hpart
  split_ifs at hpart with hzero hrows hline
  · obtain rfl := Except.ok.inj hpart
    exact h.rounds_rows (hwidth.trans (by decide)) rfl (Nat.pos_of_ne_zero hline) hrows hstart
  · obtain rfl := Except.ok.inj hpart
    have hbppPos : 0 < params.formatBpp := formatBpp_pos (by rw [h.format]; exact Option.some_ne_none _)
    obtain ⟨tiles, htiles⟩ : 8 * params.formatBpp ∣
        ceilTo (8 * params.formatBpp) y - floorTo (8 * params.formatBpp) x :=
      Nat.dvd_sub (dvd_ceilTo _ _) (dvd_floorTo _ _)
    rw [htiles, Nat.mul_div_cancel_left _ (by omega)]
    exact h.rounds_row hwidth hrows (Nat.pos_of_ne_zero hzero) rfl htiles hstart

end TiledInterval

/-- The shape of a texture, whose base level alone need be whole tiles. -/
structure TextureShape (params : SurfaceParams) : Prop extends Sized params where
  tiled : params.isTiled = true
  width_le : params.width ≤ 2 ^ 11
  height_le : params.height ≤ 2 ^ 11
  addr_lt : params.addr < 2 ^ 31

namespace TextureShape

variable {params : SurfaceParams} (h : params.TextureShape)

include h

theorem levelBytes_le (level : Nat) : params.levelBytes level ≤ 2 ^ 24 := by
  have hpixels : params.width / 2 ^ level * (params.height / 2 ^ level) * params.formatBpp ≤ 2 ^ 11 * 2 ^ 11 * 32 :=
    Nat.mul_le_mul (Nat.mul_le_mul ((Nat.div_le_self _ _).trans h.width_le) ((Nat.div_le_self _ _).trans h.height_le))
      (formatBpp_le params)
  unfold levelBytes
  omega

theorem offset_lt' {level : Nat} (hlevel : level < params.levels) : params.offset level < 2 ^ 31 + 2 ^ 27 := by
  have hsum : ∑ k ∈ Finset.range level, params.levelBytes k ≤ level * 2 ^ 24 := by
    have := Finset.sum_le_card_nsmul (Finset.range level) params.levelBytes (2 ^ 24) fun k _ => h.levelBytes_le k
    rwa [Finset.card_range, nsmul_eq_mul, Nat.cast_id] at this
  have hlevels := h.levels_le
  have haddr := h.addr_lt
  unfold maxPicaLevels at hlevels
  unfold offset
  omega

theorem rounds : params.Rounds := by
  intro level i outer part hlevel hi hne hpart
  have hlt : level < params.levels := by
    by_contra hge
    rw [levelInterval, if_neg hge] at hlevel
    cases hlevel
  obtain rfl := Except.ok.inj ((h.levelInterval_eq hlt).symm.trans hlevel)
  obtain ⟨hlower, hupper⟩ := hi
  have hnext := params.offset_succ level
  have hbytes := h.levelBytes_le level
  have hstart := h.offset_lt' hlt
  obtain ⟨x, hx⟩ := Nat.exists_eq_add_of_le hlower
  obtain ⟨y, hy⟩ := Nat.exists_eq_add_of_le (hlower.trans hne.le)
  have hwidth : params.width / 2 ^ level ≤ 2 ^ 11 := (Nat.div_le_self _ _).trans h.width_le
  have htiled : params.TiledInterval level (params.offset level) x y := {
    tiled := h.tiled
    format := h.format
    stride := h.stride
    width_le := hwidth.trans (by decide)
    offset := h.mipmapOffset_eq hlt
    levelOf_lower := h.levelOf_eq hlt (Nat.le_add_right _ _) (by omega)
    levelOf_upper := h.levelOf_upper hlt (by omega)
    lt := by omega
    le := by omega
    start_lt := by omega }
  rw [hx, hy] at hpart ⊢
  rw [show i = (params.offset level + x, params.offset level + y) from Prod.ext hx hy]
  exact htiled.rounds hwidth hstart hpart

end TextureShape

def RegisteredShape (params : SurfaceParams) : Prop := params.Regular ∨ params.TextureShape

def rescaled (params : SurfaceParams) (resScale : Nat) (customFormat : CustomPixelFormat) : SurfaceParams :=
  { params with resScale := resScale, customFormat := customFormat }

def SameLayout (params other : SurfaceParams) : Prop :=
  ∃ resScale customFormat, other = params.rescaled resScale customFormat

theorem SameLayout.refl (params : SurfaceParams) : params.SameLayout params :=
  ⟨params.resScale, params.customFormat, rfl⟩

theorem SameLayout.trans {params other third : SurfaceParams} (h : params.SameLayout other)
    (h' : other.SameLayout third) : params.SameLayout third := by
  obtain ⟨resScale, customFormat, rfl⟩ := h
  obtain ⟨resScale', customFormat', rfl⟩ := h'
  exact ⟨resScale', customFormat', rfl⟩

theorem updateParams_rescaled {params : SurfaceParams} (h : params.updateParams = .ok params) (resScale : Nat)
    (customFormat : CustomPixelFormat) :
    (params.rescaled resScale customFormat).updateParams = .ok (params.rescaled resScale customFormat) := by
  have hmap : (params.rescaled resScale customFormat).updateParams =
      (params.updateParams).map (rescaled · resScale customFormat) := by
    unfold updateParams rescaled
    cases formatInfo params.pixelFormat with
    | none => rfl
    | some info =>
      dsimp only
      split_ifs <;> rfl
  rw [hmap, h]
  rfl

theorem Sized.rescaled {params : SurfaceParams} (h : params.Sized) (resScale : Nat)
    (customFormat : CustomPixelFormat) : (params.rescaled resScale customFormat).Sized :=
  { h with updated := updateParams_rescaled h.updated resScale customFormat }

namespace RegisteredShape

variable {params : SurfaceParams} (h : params.RegisteredShape)

include h

theorem sized : params.Sized := h.elim Regular.toSized TextureShape.toSized

theorem rounds : params.Rounds := h.elim Regular.rounds TextureShape.rounds

theorem rescaled (resScale : Nat) (customFormat : CustomPixelFormat) :
    (params.rescaled resScale customFormat).RegisteredShape := by
  have hsized := h.sized.rescaled resScale customFormat
  rcases h with hregular | htexture
  · exact Or.inl { hregular with updated := hsized.updated }
  · exact Or.inr { htexture with updated := hsized.updated }

end RegisteredShape

end SurfaceParams

end SweepDSEmu.VideoCore
