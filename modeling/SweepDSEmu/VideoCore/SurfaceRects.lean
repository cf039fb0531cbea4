import SweepDSEmu.VideoCore.SurfaceLayout

/-!
# Intervals and rectangles of a surface

`FromInterval` gives the parameters of the least block of tiles that contains an interval, `GetSubRect` its rectangle,
and `GetSubRectInterval` goes back from the rectangle to addresses.  The last one counts the rows of a level from the
height of the base level.  It finds the interval again at the base level only.
-/

namespace SweepDSEmu.VideoCore

namespace SurfaceParams

def blockParams (params : SurfaceParams) (level : Nat) {g : RowGrid} (block : g.Block) : SurfaceParams :=
  { params with
    addr := params.offset level + block.lower
    size := g.cell * (block.rows * block.columns)
    width := params.tiledSize * block.columns
    stride := params.tiledSize * block.columns
    height := params.tiledSize * block.rows
    levels := 1 }

namespace Regular

variable {params : SurfaceParams} (h : params.Regular) {level : Nat}

def levelGrid (hcolumns : 0 < params.tileColumns level) : RowGrid :=
  ⟨params.tileBytes, params.tileColumns level, h.tileBytes_pos, hcolumns⟩

theorem levelBytes_eq (hlevel : level < params.levels) (hcolumns : 0 < params.tileColumns level) :
    params.levelBytes level = (h.levelGrid hcolumns).row * params.tileRows level := h.levelBytes_tiles hlevel

include h

/-- `UpdateParams` leaves the parameters of a block as they are, whatever their size was. -/
theorem updateParams_block (hlevel : level < params.levels) {g : RowGrid} (hcell : g.cell = params.tileBytes)
    (block : g.Block) (hbytes : g.cell * (block.rows * block.columns) ≤ params.levelBytes level) (size : Nat) :
    { params.blockParams level block with size := size }.updateParams = .ok (params.blockParams level block) := by
  have hbits := h.bits_tiles block.columns block.rows
  have hcells : params.tileBytes * block.columns * block.rows = g.cell * (block.rows * block.columns) := by
    rw [hcell]
    ring
  have hlt := h.bits_level_lt level
  have hupdate := @updateParams_single { params.blockParams level block with size := size } params.type
    h.format rfl rfl (Nat.dvd_mul_right _ _) (by
      show params.tiledSize * block.columns * (params.tiledSize * block.rows) * params.formatBpp < 2 ^ 32
      omega)
  refine hupdate.trans ?_
  have hsize : params.tiledSize * block.columns * (params.tiledSize * block.rows) * params.formatBpp / 8 =
      g.cell * (block.rows * block.columns) := by
    rw [hbits, Nat.mul_div_cancel_left _ (by decide), hcells]
  show Except.ok { params.blockParams level block with
    size := params.tiledSize * block.columns * (params.tiledSize * block.rows) * params.formatBpp / 8 } = _
  rw [hsize]
  rfl

theorem finishParams_block (hlevel : level < params.levels) {g : RowGrid} (hcell : g.cell = params.tileBytes)
    (block : g.Block) (hbytes : g.cell * (block.rows * block.columns) ≤ params.levelBytes level) :
    finishParams { params with
      width := params.tiledSize * block.columns
      stride := params.tiledSize * block.columns
      addr := params.offset level + block.lower
      height := params.tiledSize * block.rows } = .ok (params.blockParams level block) :=
  congrArg (Except.mapError LayoutFault.cache) (h.updateParams_block hlevel hcell block hbytes params.size)

theorem tiles_pos (hlevel : level < params.levels) {x y : Nat} (hxy : x < y) (hy : y ≤ params.levelBytes level) :
    0 < params.tileColumns level ∧ 0 < params.tileRows level := by
  have hpos : 0 < params.levelBytes level := by omega
  rw [h.levelBytes_tiles hlevel] at hpos
  exact ⟨Nat.pos_of_mul_pos_left (Nat.pos_of_mul_pos_right hpos), Nat.pos_of_mul_pos_left hpos⟩

end Regular

namespace Regular

variable {params : SurfaceParams} (h : params.Regular) {level : Nat}

include h

theorem bytesInPixels_row (hlevel : level < params.levels) (hcolumns : 0 < params.tileColumns level)
    (hrows : 0 < params.tileRows level) :
    bytesInPixels params.formatBpp (mulU32 (params.stride / 2 ^ level) params.tiledSize) =
      (h.levelGrid hcolumns).row := by
  have hbits := h.bits_tiles (params.tileColumns level) 1
  have hlt := h.bits_level_lt level
  have hle : (h.levelGrid hcolumns).row ≤ params.levelBytes level := by
    rw [h.levelBytes_eq hlevel hcolumns]
    exact Nat.le_mul_of_pos_right _ hrows
  rw [Nat.mul_one, Nat.mul_one] at hbits
  have hrow : params.tileBytes * params.tileColumns level = (h.levelGrid hcolumns).row := rfl
  rw [bytesInPixels_mulU32, h.stride, h.width_level hlevel, bytesInPixels_eq (by omega), hbits,
    Nat.mul_div_cancel_left _ (by decide), hrow]

theorem bytesInPixels_line (hlevel : level < params.levels) (hrows : 0 < params.tileRows level) :
    bytesInPixels params.formatBpp (params.stride / 2 ^ level) = params.lineBytes * params.tileColumns level := by
  have hbits : params.tiledSize * params.tileColumns level * params.formatBpp =
      8 * (params.lineBytes * params.tileColumns level) := by
    calc params.tiledSize * params.tileColumns level * params.formatBpp
        = params.tiledSize * params.formatBpp * params.tileColumns level := by ring
      _ = 8 * (params.lineBytes * params.tileColumns level) := by
        rw [h.line_bits]
        ring
  have hle : params.lineBytes * params.tileColumns level ≤ params.levelBytes level := by
    rw [h.levelBytes_tiles hlevel, tileBytes, Nat.mul_assoc params.tiledSize]
    exact (Nat.le_mul_of_pos_left _ params.tiledSize_pos).trans (Nat.le_mul_of_pos_right _ hrows)
  have hlt := h.bits_level_lt level
  rw [h.stride, h.width_level hlevel, bytesInPixels_eq (by omega), hbits, Nat.mul_div_cancel_left _ (by decide)]

theorem bytesInPixels_tile (htile : params.tileBytes < 2 ^ 29) :
    bytesInPixels params.formatBpp (if params.isTiled then 8 * 8 else 1) = params.tileBytes := by
  have hbits := h.bits_tiles 1 1
  have hpixels : (if params.isTiled then 8 * 8 else 1) = params.tiledSize * params.tiledSize := by
    unfold tiledSize
    split_ifs <;> rfl
  rw [Nat.mul_one, Nat.mul_one, Nat.mul_one] at hbits
  rw [hpixels, bytesInPixels_eq (by omega), hbits, Nat.mul_div_cancel_left _ (by decide)]

theorem pixelsInBytes_tiles {tiles : Nat} (hlt : params.tileBytes * tiles < 2 ^ 29) :
    pixelsInBytes params.formatBpp (params.tileBytes * tiles) = params.tiledSize * params.tiledSize * tiles := by
  have hbits := h.bits_tiles tiles 1
  rw [Nat.mul_one, Nat.mul_one] at hbits
  have hpixels : params.tileBytes * tiles * 8 = params.tiledSize * params.tiledSize * tiles * params.formatBpp := by
    rw [Nat.mul_comm, ← hbits]
    ring
  unfold pixelsInBytes
  rw [mulU32_eq (by omega), hpixels, Nat.mul_div_cancel _ (formatBpp_pos h.supported)]

/-- `FromInterval` gives the block of tiles that encloses an interval of a level. -/
theorem fromInterval_block (hlevel : level < params.levels) {x y : Nat} (hxy : x < y)
    (hy : y ≤ params.levelBytes level) :
    ∃ (hcolumns : 0 < params.tileColumns level) (block : (h.levelGrid hcolumns).Block),
      (block.lower, block.upper) = (h.levelGrid hcolumns).enclosing x y ∧ block.upper ≤ params.levelBytes level ∧
        params.fromInterval (params.offset level + x) (params.offset level + y) =
          .ok (params.blockParams level block) := by
  obtain ⟨hcolumns, hrows⟩ := h.tiles_pos hlevel hxy hy
  obtain ⟨block, henclosing, hshape⟩ := (h.levelGrid hcolumns).exists_enclosingBlock hxy
  refine ⟨hcolumns, block, henclosing, ?_⟩
  have hcell : (h.levelGrid hcolumns).cell = params.tileBytes := rfl
  have hrowEq : (h.levelGrid hcolumns).row = params.tileBytes * params.tileColumns level := rfl
  have hcolumnsEq : (h.levelGrid hcolumns).columns = params.tileColumns level := rfl
  have hlevelEq := h.levelBytes_eq hlevel hcolumns
  have hrowBytes := h.bytesInPixels_row hlevel hcolumns hrows
  generalize h.levelGrid hcolumns = g at block henclosing hshape hcell hrowEq hcolumnsEq hlevelEq hrowBytes
  have hnext := params.offset_succ level
  have hend := h.offset_lt (show level + 1 ≤ params.levels from hlevel)
  have hbits := h.bits_level_lt level
  have hrowPos := g.row_pos
  have hlevelRow : g.row ∣ params.levelBytes level := by
    rw [hlevelEq]
    exact Nat.dvd_mul_right _ _
  have hrowLe : g.row ≤ params.levelBytes level := by
    rw [hlevelEq]
    exact Nat.le_mul_of_pos_right _ hrows
  have hcellLe : g.cell ≤ g.row := Nat.le_of_dvd hrowPos g.cell_dvd_row
  have hupper : ceilTo g.row y ≤ params.levelBytes level := (ceilTo_le_iff hrowPos hlevelRow).mpr hy
  have hupperCell : ceilTo g.cell y ≤ params.levelBytes level :=
    (ceilTo_le_iff g.cell_pos (g.cell_dvd_row.trans hlevelRow)).mpr hy
  have hsteps := floorTo_lt_ceilTo hrowPos hxy
  have hinRow : g.InRow x y ↔ ceilTo g.row y ≤ floorTo g.row x + g.row :=
    (ceilTo_le_iff hrowPos (Nat.dvd_add (dvd_floorTo _ _) (Nat.dvd_refl _))).symm
  have hlevelOf : params.levelOf (params.offset level + x) = level :=
    h.levelOf_eq hlevel (Nat.le_add_right _ _) (by omega)
  have hsize : block.upper = block.lower + g.cell * (block.rows * block.columns) := rfl
  have hlevelRect : g.IsRect 0 (params.levelBytes level) :=
    ⟨by omega, Nat.dvd_zero _, g.cell_dvd_row.trans hlevelRow, Or.inr ⟨Nat.dvd_zero _, hlevelRow⟩⟩
  refine ⟨(congrArg Prod.snd henclosing).trans_le (hlevelRect.enclosing_subset (Nat.zero_le x) hy).2, ?_⟩
  unfold fromInterval
  simp only [hlevelOf, h.mipmapOffset_eq hlevel]
  rw [if_neg (not_not_intro (h.levelOf_upper hlevel hy)), if_neg (not_not_intro (Or.inl h.stride)), hrowBytes,
    if_neg hrowPos.ne', alignInterval_eq hrowPos hxy.le (by omega)]
  rw [subU32_eq (by omega) (by omega), Nat.add_sub_add_left]
  by_cases hrow : g.InRow x y
  · -- a part of one row of tiles
    rw [if_pos hrow] at hshape
    obtain ⟨hlower, hblockUpper⟩ := Prod.mk.inj (henclosing.trans (RowGrid.enclosing_of_inRow hrow))
    have htiles : ceilTo g.cell y - floorTo g.cell x = params.tileBytes * block.columns := by
      rw [hshape, Nat.one_mul, hcell] at hsize
      omega
    have hfinish := h.finishParams_block hlevel hcell block (by omega)
    rw [hinRow] at hrow
    rw [if_neg (by omega), if_neg (by omega), h.bytesInPixels_tile (by omega), ← hcell, if_neg g.cell_pos.ne',
      alignInterval_eq g.cell_pos hxy.le (by omega), ← hlower]
    rw [subU32_eq (by omega) (by omega), Nat.add_sub_add_left, hlower, htiles, h.pixelsInBytes_tiles (by omega),
      Nat.mul_assoc, Nat.mul_div_cancel_left _ params.tiledSize_pos, ← hlower]
    rw [hshape, Nat.mul_one] at hfinish
    exact hfinish
  · -- whole rows of tiles
    rw [if_neg hrow] at hshape
    obtain ⟨hlower, hblockUpper⟩ := Prod.mk.inj (henclosing.trans (RowGrid.enclosing_of_not_inRow hrow))
    have hline := h.bytesInPixels_line hlevel hrows
    have hlines : g.cell * (block.rows * block.columns) =
        params.lineBytes * params.tileColumns level * (params.tiledSize * block.rows) := by
      rw [hshape, hcolumnsEq, hcell, tileBytes]
      ring
    have hlinePos : 0 < params.lineBytes * params.tileColumns level :=
      Nat.mul_pos (Nat.pos_of_mul_pos_left h.tileBytes_pos) hcolumns
    have hfinish := h.finishParams_block hlevel hcell block (by omega)
    rw [hinRow] at hrow
    rw [if_pos (by omega), hline, if_neg hlinePos.ne', ← hlower, ← hblockUpper,
      show block.upper - block.lower = g.cell * (block.rows * block.columns) by omega, hlines,
      Nat.mul_div_cancel_left _ hlinePos, h.stride, h.width_level hlevel]
    rw [hshape, hcolumnsEq] at hfinish
    exact hfinish

end Regular

def tileRect (left top right bottom : Nat) : Rectangle := ⟨8 * left, 8 * top, 8 * right, 8 * bottom⟩

namespace Regular

variable {params : SurfaceParams} (h : params.Regular) {level : Nat}

include h

omit h in
theorem tiledSize_eq (htiled : params.isTiled = true) : params.tiledSize = 8 := by
  rw [tiledSize, htiled, if_pos rfl]

theorem pixels_level_lt (htiled : params.isTiled = true) (hlevel : level < params.levels) :
    64 * (params.tileColumns level * params.tileRows level) < 2 ^ 30 := by
  have hbits := h.bits_level hlevel
  have hlt := h.bits_level_lt level
  rw [← hbits, h.width_level hlevel, h.height_level hlevel, tiledSize_eq htiled,
    show 8 * params.tileColumns level * (8 * params.tileRows level) =
      64 * (params.tileColumns level * params.tileRows level) by ring] at hlt
  have hle := Nat.mul_le_mul_left (64 * (params.tileColumns level * params.tileRows level))
    (four_le_formatBpp h.supported)
  omega

theorem getSubRect_block (htiled : params.isTiled = true) (hlevel : level < params.levels)
    (hcolumns : 0 < params.tileColumns level) (block : (h.levelGrid hcolumns).Block)
    (hupper : block.upper ≤ params.levelBytes level) :
    params.getSubRect (params.blockParams level block) =
      .ok (tileRect block.firstColumn (params.tileRows level - block.firstRow) (block.firstColumn + block.columns)
        (params.tileRows level - (block.firstRow + block.rows))) := by
  have hside := tiledSize_eq htiled
  have hcell : (h.levelGrid hcolumns).cell = params.tileBytes := rfl
  have hcolumnsEq : (h.levelGrid hcolumns).columns = params.tileColumns level := rfl
  have hlevelEq := h.levelBytes_eq hlevel hcolumns
  have hrows := block.rows_le (hupper.trans hlevelEq.le)
  generalize h.levelGrid hcolumns = g at block hupper hcell hcolumnsEq hlevelEq hrows
  have hnext := params.offset_succ level
  have hend := h.offset_lt (show level + 1 ≤ params.levels from hlevel)
  have hbits := h.bits_level_lt level
  have hlower := block.lower_lt_upper
  have hfits := block.fits
  have hwidth := h.width_level hlevel
  have hheight := h.height_level hlevel
  rw [hside] at hwidth hheight
  have hrowsPos : 0 < params.tileRows level := by
    have := block.rows_pos
    omega
  have hcolumnsLe := Nat.le_mul_of_pos_right (params.tileColumns level) hrowsPos
  have hrowsLe := Nat.le_mul_of_pos_left (params.tileRows level) hcolumns
  have hpixels := h.pixels_level_lt htiled hlevel
  have hlevelOf : params.levelOf (params.offset level + block.lower) = level :=
    h.levelOf_eq hlevel (Nat.le_add_right _ _) (by omega)
  have hbegin : pixelsInBytes params.formatBpp
      (subU32 (params.offset level + block.lower) (params.offset level)) =
        64 * (block.firstRow * g.columns + block.firstColumn) := by
    have hlt : params.tileBytes * (block.firstRow * g.columns + block.firstColumn) < 2 ^ 29 := by
      rw [← hcell]
      show block.lower < 2 ^ 29
      omega
    rw [addU32_subU32 (by omega), RowGrid.Block.lower, hcell, h.pixelsInBytes_tiles hlt, hside]
  have hstride : mulU32 (params.stride / 2 ^ level) 8 = 64 * g.columns := by
    rw [h.stride, hwidth, mulU32_eq (by omega), hcolumnsEq]
    omega
  unfold getSubRect blockParams
  simp only [hlevelOf, h.mipmapOffset_eq hlevel, hbegin, hstride, htiled, if_true, hside, hheight]
  rw [if_neg (not_not_intro (Or.inl h.stride)), if_neg (by omega), Nat.mul_mod_mul_left,
    Nat.mul_div_mul_left _ _ (by decide), block.firstCell_div, block.firstCell_mod, mulU32_eq (by omega),
    addU32_eq (by omega), addU32_eq (by omega), subU32_eq (by omega) (by omega), subU32_eq (by omega) (by omega)]
  congr 2
  all_goals omega

end Regular

theorem getHeight_of_le (rect : Rectangle) (h : rect.bottom < rect.top) (htop : rect.top < 2 ^ 31) :
    rect.getHeight = rect.top - rect.bottom := by
  unfold Rectangle.getHeight absU32 subU32
  split_ifs <;> omega

theorem getWidth_of_le (rect : Rectangle) (h : rect.left ≤ rect.right) (hright : rect.right < 2 ^ 31) :
    rect.getWidth = rect.right - rect.left := by
  unfold Rectangle.getWidth absU32 subU32
  split_ifs <;> omega

namespace Regular

variable {params : SurfaceParams} (h : params.Regular) {level : Nat}

include h

omit h in
theorem tiledRect_tileRect (htiled : params.isTiled = true) {left top right bottom : Nat}
    (hleft : 64 * left < 2 ^ 32) (hright : 64 * right < 2 ^ 32) :
    params.tiledRect (tileRect left top right bottom) = ⟨64 * left, top, 64 * right, bottom⟩ := by
  have hdown (x : Nat) : alignDown (8 * x) 8 = 8 * x := by
    unfold alignDown
    omega
  have hup (x : Nat) : RasterizerCache.alignUp (8 * x) 8 = 8 * x := by
    unfold RasterizerCache.alignUp
    rw [if_pos (by omega)]
  unfold tiledRect tileRect
  rw [if_pos htiled]
  simp only [hdown, hup]
  rw [mulU32_eq (by omega), mulU32_eq (by omega)]
  congr 1 <;> omega

/-- The rows of the base level, at the width of another level, are not larger than the base level. -/
theorem levelBytes_mul_lt (hlevel : level < params.levels) : params.levelBytes level * 2 ^ level < 2 ^ 29 := by
  have hsides : params.width * params.height * params.formatBpp =
      2 ^ level * (8 * (params.levelBytes level * 2 ^ level)) := by
    calc params.width * params.height * params.formatBpp
        = 2 ^ level * (params.width / 2 ^ level) * (2 ^ level * (params.height / 2 ^ level)) * params.formatBpp := by
          rw [h.two_pow_mul_width hlevel, h.two_pow_mul_height hlevel]
      _ = 2 ^ level * (2 ^ level *
            (params.width / 2 ^ level * (params.height / 2 ^ level) * params.formatBpp)) := by ring
      _ = 2 ^ level * (8 * (params.levelBytes level * 2 ^ level)) := by
          rw [h.bits_level hlevel]
          ring
  have hlt := h.bits_lt
  have := Nat.le_mul_of_pos_left (8 * (params.levelBytes level * 2 ^ level)) (Nat.two_pow_pos level)
  omega

/-- `GetSubRectInterval` of the rectangle of a block: behind the block by as many bytes as the levels above have more
rows of tiles. -/
theorem getSubRectInterval_block (htiled : params.isTiled = true) (hlevel : level < params.levels)
    (hcolumns : 0 < params.tileColumns level) (block : (h.levelGrid hcolumns).Block)
    (hupper : block.upper ≤ params.levelBytes level) :
    params.getSubRectInterval
        (tileRect block.firstColumn (params.tileRows level - block.firstRow) (block.firstColumn + block.columns)
          (params.tileRows level - (block.firstRow + block.rows))) level =
      (addU32 (params.offset level) (block.lower + params.levelBytes level * (2 ^ level - 1)),
        addU32 (params.offset level) (block.upper + params.levelBytes level * (2 ^ level - 1))) := by
  have hside := tiledSize_eq htiled
  have hcell : (h.levelGrid hcolumns).cell = params.tileBytes := rfl
  have hcolumnsEq : (h.levelGrid hcolumns).columns = params.tileColumns level := rfl
  have hlevelEq := h.levelBytes_eq hlevel hcolumns
  have hrows := block.rows_le (hupper.trans hlevelEq.le)
  generalize h.levelGrid hcolumns = g at block hupper hcell hcolumnsEq hlevelEq hrows
  have hpixels := h.pixels_level_lt htiled hlevel
  have hfits := block.fits
  have hrowsPos := block.rows_pos
  have hcolumnsPos := block.columns_pos
  have hcolumnsLe := Nat.le_mul_of_pos_right (params.tileColumns level) (show 0 < params.tileRows level by omega)
  have hrowsLe := Nat.le_mul_of_pos_left (params.tileRows level) hcolumns
  -- the sides of the surface in tiles
  have hwidth : params.width = 2 ^ level * (8 * g.columns) := by
    rw [hcolumnsEq, ← hside, ← h.width_level hlevel, h.two_pow_mul_width hlevel]
  have hheight : params.height = 2 ^ level * (8 * params.tileRows level) := by
    rw [← hside, ← h.height_level hlevel, h.two_pow_mul_height hlevel]
  have hpow : 0 < 2 ^ level := Nat.two_pow_pos level
  have htileBits : 64 * params.formatBpp = 8 * params.tileBytes := by
    have := h.bits_tiles 1 1
    rw [hside] at this
    omega
  -- the rows of the base level behind the block
  have hrowsBase : params.tileRows level ≤ 2 ^ level * params.tileRows level := Nat.le_mul_of_pos_left _ hpow
  have hskipped : (2 ^ level - 1) * params.tileRows level + params.tileRows level =
      2 ^ level * params.tileRows level := by
    rw [← Nat.succ_mul, Nat.succ_eq_add_one, Nat.sub_add_cancel hpow]
  have hcells := block.cells_le
  have hlast : ((2 ^ level - 1) * params.tileRows level + block.firstRow) * g.columns + block.firstColumn +
      block.rows * block.columns ≤ 2 ^ level * params.tileRows level * g.columns := by
    have hle := Nat.mul_le_mul_right g.columns
      (show (2 ^ level - 1) * params.tileRows level + (block.firstRow + block.rows) ≤
        2 ^ level * params.tileRows level by omega)
    rw [Nat.add_mul] at hle
    rw [Nat.add_mul]
    omega
  have hbase : params.tileBytes * (2 ^ level * params.tileRows level * g.columns) < 2 ^ 29 := by
    have hlt := h.levelBytes_mul_lt hlevel
    rw [hlevelEq, RowGrid.row, hcell] at hlt
    calc params.tileBytes * (2 ^ level * params.tileRows level * g.columns)
        = params.tileBytes * g.columns * params.tileRows level * 2 ^ level := by ring
      _ < 2 ^ 29 := hlt
  have hbytes (n : Nat) (hn : n ≤ 2 ^ level * params.tileRows level * g.columns) :
      64 * n < 2 ^ 32 ∧ bytesInPixels params.formatBpp (64 * n) = params.tileBytes * n := by
    have hmul := Nat.mul_le_mul_left params.tileBytes hn
    have hbits : 64 * n * params.formatBpp = 8 * (params.tileBytes * n) := by
      calc 64 * n * params.formatBpp = 64 * params.formatBpp * n := by ring
        _ = 8 * (params.tileBytes * n) := by
          rw [htileBits]
          ring
    have hle := Nat.le_mul_of_pos_right (64 * n) (formatBpp_pos h.supported)
    refine ⟨by omega, ?_⟩
    rw [bytesInPixels_eq (by omega), hbits, Nat.mul_div_cancel_left _ (by decide)]
  have hstride : mulU32 params.stride 8 / 2 ^ level = 64 * g.columns := by
    have hle := (hbytes (2 ^ level * params.tileRows level * g.columns) Nat.le.refl).1
    have hrowLe : 2 ^ level * g.columns ≤ 2 ^ level * params.tileRows level * g.columns := by
      rw [Nat.mul_assoc]
      refine Nat.mul_le_mul_left _ (Nat.le_mul_of_pos_left _ ?_)
      omega
    rw [h.stride, hwidth, show 2 ^ level * (8 * g.columns) = 8 * (2 ^ level * g.columns) by ring,
      mulU32_eq (by omega), show 8 * (2 ^ level * g.columns) * 8 = 2 ^ level * (64 * g.columns) by ring,
      Nat.mul_div_cancel_left _ hpow]
  have hrow : subU32 (params.height / 8) (params.tileRows level - block.firstRow) =
      (2 ^ level - 1) * params.tileRows level + block.firstRow := by
    have hle := (hbytes (2 ^ level * params.tileRows level * g.columns) Nat.le.refl).1
    have hrowLe := Nat.le_mul_of_pos_right (2 ^ level * params.tileRows level) g.columns_pos
    rw [hheight, show 2 ^ level * (8 * params.tileRows level) = 8 * (2 ^ level * params.tileRows level) by ring,
      Nat.mul_div_cancel_left _ (by decide), subU32_eq (by omega) (by omega)]
    omega
  unfold getSubRectInterval
  rw [getHeight_of_le _ (by simp only [tileRect]; omega) (by simp only [tileRect]; omega),
    getWidth_of_le _ (by simp only [tileRect]; omega) (by simp only [tileRect]; omega)]
  rw [if_neg (by simp only [tileRect]; omega), tiledRect_tileRect htiled (by omega) (by omega)]
  dsimp only
  rw [getHeight_of_le _ (by simp only; omega) (by simp only; omega),
    getWidth_of_le _ (by simp only; omega) (by simp only; omega)]
  simp only [htiled, Bool.not_true, Bool.false_eq_true, if_false, hstride, hrow, h.mipmapOffset_eq hlevel]
  generalize hrowEq : (2 ^ level - 1) * params.tileRows level + block.firstRow = row at hlast
  have hfirst := hbytes (row * g.columns + block.firstColumn) (by omega)
  have hend := hbytes (row * g.columns + block.firstColumn + block.rows * block.columns) hlast
  have hcount : addU32 (mulU32
      (subU32 (params.tileRows level - block.firstRow - (params.tileRows level - (block.firstRow + block.rows))) 1)
      (64 * g.columns)) (64 * (block.firstColumn + block.columns) - 64 * block.firstColumn) =
        64 * (block.rows * block.columns) := by
    have hproduct : (block.rows - 1) * (64 * g.columns) = 64 * ((block.rows - 1) * g.columns) := by ring
    have heq := block.cells_eq
    have hpred : subU32 block.rows 1 = block.rows - 1 := subU32_eq hrowsPos (by omega)
    rw [show params.tileRows level - block.firstRow - (params.tileRows level - (block.firstRow + block.rows)) =
      block.rows by omega, hpred, mulU32_eq (by omega), addU32_eq (by omega)]
    omega
  have hoffset : addU32 (mulU32 (64 * g.columns) row) (64 * block.firstColumn) =
      64 * (row * g.columns + block.firstColumn) := by
    have hproduct : 64 * g.columns * row = 64 * (row * g.columns) := by ring
    rw [mulU32_eq (by omega), addU32_eq (by omega)]
    omega
  have hlower : params.tileBytes * (row * g.columns + block.firstColumn) =
      block.lower + params.levelBytes level * (2 ^ level - 1) := by
    rw [← hrowEq, hlevelEq, RowGrid.Block.lower, RowGrid.row, hcell]
    ring
  have hupperEq : params.tileBytes * (row * g.columns + block.firstColumn + block.rows * block.columns) =
      block.upper + params.levelBytes level * (2 ^ level - 1) := by
    rw [Nat.mul_add, hlower, RowGrid.Block.upper, hcell]
    ring
  have hsum : addU32 (64 * (row * g.columns + block.firstColumn)) (64 * (block.rows * block.columns)) =
      64 * (row * g.columns + block.firstColumn + block.rows * block.columns) :=
    (addU32_eq (by omega)).trans (Nat.mul_add 64 _ _).symm
  rw [hcount, hoffset, hsum, hfirst.2, hend.2, hlower, hupperEq]

end Regular

def Within (inner outer : Nat × Nat) : Prop := outer.1 ≤ inner.1 ∧ inner.2 ≤ outer.2

/-- The level intervals partition the addresses of the surface, and `LevelOf` finds the level of an address. -/
def LevelsPartition (params : SurfaceParams) : Prop :=
  (∀ level < params.levels, ∃ i, params.levelInterval level = .ok i ∧ Within i params.interval) ∧
    ∀ a, params.addr ≤ a → a < params.endAddr → ∀ level < params.levels, ∀ i, params.levelInterval level = .ok i →
      (i.1 ≤ a ∧ a < i.2 ↔ level = params.levelOf a)

def InLevelRect (params : SurfaceParams) (level : Nat) (rect : Rectangle) : Prop :=
  rect.left ≤ rect.right ∧ rect.right ≤ params.width / 2 ^ level ∧ rect.bottom ≤ rect.top ∧
    rect.top ≤ params.height / 2 ^ level

structure Covers (params : SurfaceParams) (level : Nat) (interval : Nat × Nat) (part : SurfaceParams)
    (rect : Rectangle) : Prop where
  fromInterval : params.fromInterval interval.1 interval.2 = .ok part
  contains : Within interval part.interval
  inLevel : ∃ i, params.levelInterval level = .ok i ∧ Within part.interval i
  getSubRect : params.getSubRect part = .ok rect
  inRect : params.InLevelRect level rect

structure Corresponds (params : SurfaceParams) (level : Nat) (interval : Nat × Nat) (part : SurfaceParams)
    (rect : Rectangle) : Prop extends Covers params level interval part rect where
  back : params.getSubRectInterval rect level = part.interval

structure TiledShape (params : SurfaceParams) : Prop where
  tiled : params.isTiled = true
  supported : formatInfo params.pixelFormat ≠ none
  updated : params.updateParams = .ok params
  stride : params.stride = params.width
  levels_pos : 0 < params.levels
  levels_le : params.levels ≤ 8
  width_dvd : 8 <<< (params.levels - 1) ∣ params.width
  height_dvd : 8 <<< (params.levels - 1) ∣ params.height
  bits_lt : params.width * params.height * params.formatBpp < 2 ^ 32
  end_lt : params.addr + params.size < 2 ^ 32

theorem TiledShape.regular {params : SurfaceParams} (h : params.TiledShape) : params.Regular where
  tiledSize_dvd := by
    have hdvd := h.height_dvd
    rw [Nat.shiftLeft_eq] at hdvd
    rw [Regular.tiledSize_eq h.tiled]
    exact (Nat.dvd_mul_right _ _).trans hdvd
  supported := h.supported
  updated := h.updated
  stride := h.stride
  levels_pos := h.levels_pos
  levels_le := h.levels_le
  width_dvd := by
    rw [Regular.tiledSize_eq h.tiled, ← Nat.shiftLeft_eq]
    exact h.width_dvd
  height_dvd := by
    rw [Regular.tiledSize_eq h.tiled, ← Nat.shiftLeft_eq]
    exact h.height_dvd
  line_dvd := by
    rw [Regular.tiledSize_eq h.tiled]
    exact Nat.dvd_mul_right _ _
  bits_lt := h.bits_lt
  end_lt := h.end_lt

theorem Regular.levelsPartition {params : SurfaceParams} (h : params.Regular) : params.LevelsPartition := by
  refine ⟨?_, ?_⟩
  · intro level hlevel
    refine ⟨_, h.levelInterval_eq hlevel, params.offset_mono (Nat.zero_le level), ?_⟩
    rw [interval, h.endAddr_eq]
    exact params.offset_mono hlevel
  · intro a hlower hupper level hlevel i hi
    obtain rfl := Except.ok.inj ((h.levelInterval_eq hlevel).symm.trans hi)
    obtain ⟨other, hother, hle, hlt⟩ := h.exists_level hlower hupper
    constructor
    · rintro ⟨h1, h2⟩
      exact (h.levelOf_eq hlevel h1 h2).symm
    · intro heq
      rw [h.levelOf_eq hother hle hlt] at heq
      subst heq
      exact ⟨hle, hlt⟩

theorem blockParams_interval {params : SurfaceParams} (h : params.Regular) {level : Nat}
    (hlevel : level < params.levels) {g : RowGrid} (block : g.Block) (hupper : block.upper ≤ params.levelBytes level) :
    (params.blockParams level block).interval =
      (params.offset level + block.lower, params.offset level + block.upper) := by
  have hnext := params.offset_succ level
  have hend := h.offset_lt (show level + 1 ≤ params.levels from hlevel)
  unfold interval endAddr blockParams
  dsimp only
  rw [addU32_eq (by unfold RowGrid.Block.upper at hupper; omega), Nat.add_assoc]
  rfl

namespace Regular

variable {params : SurfaceParams} (h : params.Regular) {level : Nat}

include h

theorem blockParams_regular (hlevel : level < params.levels) {g : RowGrid} (hcell : g.cell = params.tileBytes)
    (block : g.Block) (hupper : block.upper ≤ params.levelBytes level) : (params.blockParams level block).Regular := by
  have hbytes : g.cell * (block.rows * block.columns) ≤ params.levelBytes level := by
    unfold RowGrid.Block.upper at hupper
    omega
  have hbits := h.bits_tiles block.columns block.rows
  have hcells : params.tileBytes * block.columns * block.rows = g.cell * (block.rows * block.columns) := by
    rw [hcell]
    ring
  have hlt := h.bits_level_lt level
  have hnext := params.offset_succ level
  have hend := h.offset_lt (show level + 1 ≤ params.levels from hlevel)
  exact {
    supported := h.supported
    tiledSize_dvd := Nat.dvd_mul_right _ _
    updated := h.updateParams_block hlevel hcell block hbytes _
    stride := rfl
    levels_pos := Nat.one_pos
    levels_le := show 1 ≤ maxPicaLevels by decide
    width_dvd := Nat.mul_dvd_mul_left _ (Nat.one_dvd _)
    height_dvd := Nat.mul_dvd_mul_left _ (Nat.one_dvd _)
    line_dvd := h.line_dvd
    bits_lt := by
      show params.tiledSize * block.columns * (params.tiledSize * block.rows) * params.formatBpp < 2 ^ 32
      omega
    end_lt := by
      show params.offset level + block.lower + g.cell * (block.rows * block.columns) < 2 ^ 32
      unfold RowGrid.Block.upper at hupper
      omega }

theorem blockParams_levelBytes (hlevel : level < params.levels) {g : RowGrid} (hcell : g.cell = params.tileBytes)
    (block : g.Block) (hupper : block.upper ≤ params.levelBytes level) :
    (params.blockParams level block).levelBytes 0 = g.cell * (block.rows * block.columns) := by
  have hsum := (h.blockParams_regular hlevel hcell block hupper).size_eq
  exact hsum.symm

omit h in
theorem blockParams_tileColumns {g : RowGrid} (block : g.Block) :
    (params.blockParams level block).tileColumns 0 = block.columns := by
  show params.tiledSize * block.columns / 2 ^ 0 / params.tiledSize = block.columns
  rw [Nat.pow_zero, Nat.div_one, Nat.mul_div_cancel_left _ params.tiledSize_pos]

/-- `FromInterval`, for an interval inside the interval of a level. -/
theorem fromInterval_level {i outer : Nat × Nat} (hlevel : params.levelInterval level = .ok outer)
    (hi : Within i outer) (hne : i.1 < i.2) :
    level < params.levels ∧ outer = (params.offset level, params.offset (level + 1)) ∧
      ∃ (hcolumns : 0 < params.tileColumns level) (block : (h.levelGrid hcolumns).Block),
        (block.lower, block.upper) =
            (h.levelGrid hcolumns).enclosing (i.1 - params.offset level) (i.2 - params.offset level) ∧
          block.upper ≤ params.levelBytes level ∧
          params.fromInterval i.1 i.2 = .ok (params.blockParams level block) := by
  have hlt : level < params.levels := by
    by_contra hge
    rw [levelInterval, if_neg hge] at hlevel
    cases hlevel
  obtain rfl := Except.ok.inj ((h.levelInterval_eq hlt).symm.trans hlevel)
  have hnext := params.offset_succ level
  obtain ⟨hlower, hupper⟩ := hi
  obtain ⟨hcolumns, block, henclosing, hblock, hpart⟩ := h.fromInterval_block hlt
    (show i.1 - params.offset level < i.2 - params.offset level by omega) (by omega)
  rw [Nat.add_sub_cancel' hlower, Nat.add_sub_cancel' (by omega)] at hpart
  exact ⟨hlt, rfl, hcolumns, block, henclosing, hblock, hpart⟩

end Regular

/-- At every level, `FromInterval` and `GetSubRect` give a rectangle of the level that covers an interval.  The way back
leads behind it, by the rows that the base level has more. -/
theorem TiledShape.exists_covers {params : SurfaceParams} (h : params.TiledShape) {level : Nat} {i outer : Nat × Nat}
    (hlevel : params.levelInterval level = .ok outer) (hi : Within i outer) (hne : i.1 < i.2) :
    ∃ part rect, params.Covers level i part rect ∧
      (params.getSubRectInterval rect level = part.interval ↔ level = 0) := by
  have hregular := h.regular
  obtain ⟨hlt, rfl, hcolumns, block, henclosing, hblock, hpart⟩ := hregular.fromInterval_level hlevel hi hne
  have hnext := params.offset_succ level
  obtain ⟨hlower, hupper⟩ := hi
  have hrect := hregular.getSubRect_block h.tiled hlt hcolumns block hblock
  have hback := hregular.getSubRectInterval_block h.tiled hlt hcolumns block hblock
  have hinterval := blockParams_interval hregular hlt block hblock
  have hrows := block.rows_le (hblock.trans (hregular.levelBytes_eq hlt hcolumns).le)
  refine ⟨_, _, ⟨hpart, ?_, ⟨_, hlevel, ?_⟩, hrect, ?_⟩, ?_⟩
  · have h1 := (h.regular.levelGrid hcolumns).enclosing_le (i.1 - params.offset level) (i.2 - params.offset level)
    have h2 := (h.regular.levelGrid hcolumns).le_enclosing (i.1 - params.offset level) (i.2 - params.offset level)
    rw [← henclosing] at h1 h2
    rw [hinterval]
    exact ⟨show _ ≤ i.1 by omega, show i.2 ≤ _ by omega⟩
  · rw [hinterval]
    exact ⟨Nat.le_add_right _ _, by dsimp only; omega⟩
  · have hfits := block.fits
    rw [show (h.regular.levelGrid hcolumns).columns = params.tileColumns level from rfl] at hfits
    unfold InLevelRect tileRect
    rw [hregular.width_level hlt, hregular.height_level hlt, Regular.tiledSize_eq h.tiled]
    dsimp only
    omega
  · have hend := hregular.offset_lt (show level + 1 ≤ params.levels from hlt)
    have hlowerUpper := block.lower_lt_upper
    have hshift := hregular.levelBytes_mul_lt hlt
    rw [hback, hinterval]
    constructor
    · intro heq
      by_contra hne
      have hpow : 2 ≤ 2 ^ level := Nat.le_self_pow hne 2
      have hsplit : params.levelBytes level * (2 ^ level - 1) + params.levelBytes level =
          params.levelBytes level * 2 ^ level := by
        rw [← Nat.mul_succ, Nat.succ_eq_add_one, Nat.sub_add_cancel (by omega)]
      have hpos := Nat.mul_le_mul_left (params.levelBytes level) (show 1 ≤ 2 ^ level - 1 by omega)
      have hfirst := congrArg Prod.fst heq
      unfold addU32 at hfirst
      omega
    · intro hzero
      have hnone : params.levelBytes level * (2 ^ level - 1) = 0 := by
        rw [hzero, Nat.pow_zero, Nat.sub_self, Nat.mul_zero]
      rw [hnone, Nat.add_zero, Nat.add_zero, addU32_eq (by omega), addU32_eq (by omega)]

/-- The way back from a rectangle leads to the interval at the base level only.  The rest of the correspondence holds at
every level. -/
theorem interval_corresponds_iff {params : SurfaceParams} (h : params.TiledShape) {level : Nat} {i outer : Nat × Nat}
    (hlevel : params.levelInterval level = .ok outer) (hi : Within i outer) (hne : i.1 < i.2) :
    (∃ part rect, params.Corresponds level i part rect) ∧ params.LevelsPartition ↔ level = 0 := by
  obtain ⟨part, rect, hcovers, hback⟩ := h.exists_covers hlevel hi hne
  constructor
  · rintro ⟨⟨part', rect', hcorresponds⟩, -⟩
    obtain rfl := Except.ok.inj (hcovers.fromInterval.symm.trans hcorresponds.fromInterval)
    obtain rfl := Except.ok.inj (hcovers.getSubRect.symm.trans hcorresponds.getSubRect)
    exact hback.mp hcorresponds.back
  · exact fun hzero => ⟨⟨part, rect, hcovers, hback.mpr hzero⟩, h.regular.levelsPartition⟩

namespace TwoLevels

def surface : SurfaceParams where
  addr := 0x1000
  size := 0x280
  width := 16
  height := 16
  stride := 16
  levels := 2
  isTiled := true
  pixelFormat := .rgb565
  type := .color

theorem tiledShape : surface.TiledShape where
  tiled := rfl
  supported := by decide
  updated := by rfl
  stride := rfl
  levels_pos := by decide
  levels_le := by decide
  width_dvd := by decide
  height_dvd := by decide
  bits_lt := by decide
  end_lt := by decide

def secondLevel : SurfaceParams :=
  { surface with addr := 0x1200, size := 0x80, width := 8, height := 8, stride := 8, levels := 1 }

theorem second_corresponds_iff :
    (∃ part rect, surface.Corresponds 1 (0x1200, 0x1280) part rect) ∧ surface.LevelsPartition ↔ 1 = 0 :=
  interval_corresponds_iff tiledShape (by rfl) (⟨by decide, by decide⟩ : Within _ (0x1200, 0x1280)) (by decide)

/-- The tile of the second level is looked for one row too far. -/
theorem second_not_corresponds :
    ¬ ∀ level (i outer : Nat × Nat), surface.levelInterval level = .ok outer → Within i outer → i.1 < i.2 →
      (∃ part rect, surface.Corresponds level i part rect) ∧ surface.LevelsPartition := by
  intro hall
  obtain ⟨⟨part, rect, hcorresponds⟩, -⟩ :=
    hall 1 (0x1200, 0x1280) (0x1200, 0x1280) (by rfl) ⟨by decide, by decide⟩ (by decide)
  have hpart : surface.fromInterval 0x1200 0x1280 = .ok secondLevel := by decide +kernel
  have hrect : surface.getSubRect secondLevel = .ok ⟨0, 8, 8, 0⟩ := by decide +kernel
  obtain rfl := Except.ok.inj (hpart.symm.trans hcorresponds.fromInterval)
  obtain rfl := Except.ok.inj (hrect.symm.trans hcorresponds.getSubRect)
  exact absurd hcorresponds.back (by decide)

end TwoLevels

end SurfaceParams

end SweepDSEmu.VideoCore
