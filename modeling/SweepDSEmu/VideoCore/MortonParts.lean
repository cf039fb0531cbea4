import SweepDSEmu.VideoCore.MortonTile

/-!
# Parts of tiled images

`MortonCopy` towards a tiled image makes the bytes from one offset to another, which may lie within tiles.  They are the
bytes of the whole tiled image.  The walk is in front of a tile whenever the tile is next; the tiles before the first
one and behind the last one need no walk.
-/

namespace SweepDSEmu.VideoCore

open SurfaceParams (addU32_eq mulU32_eq subU32_eq)

namespace MortonCall

variable {c : MortonCall}

def tiles (c : MortonCall) : Nat := c.width / 8 * (c.height / 8)

def walkAt (c : MortonCall) (tile : Nat) : TileWalk :=
  let x := 8 * (tile % (c.width / 8))
  let y := 8 * (tile / (c.width / 8))
  { x := x, y := y, linearOffset := ((c.height - 8 - y) * c.width + x) * c.alignedBytesPerPixel }

/-- The linear image is an image of tiles that has at most `2 ^ 32` bytes. -/
structure Fits (c : MortonCall) : Prop where
  format : swizzles c.format c.converted
  columns : 8 ∣ c.width
  rows : 8 ∣ c.height
  wide : 0 < c.width
  tall : 0 < c.height
  small : c.width * c.height * c.alignedBytesPerPixel ≤ 2 ^ 32

theorem two_le_linearBytesPerPixel {format : PixelFormat} {converted : Bool} (hformat : swizzles format converted) :
    2 ≤ linearBytesPerPixel format converted := by
  cases format <;> cases converted <;> first | decide | exact absurd hformat (by decide)

theorem eight_dvd_tileSize (c : MortonCall) : c.tileSize = 8 * getFormatBpp c.format := by
  unfold tileSize
  omega

variable {tile : Nat}

section

variable (h : c.Fits)

include h

/-- The column and the row of a tile, with the columns and rows behind it. -/
theorem Fits.grid (htile : tile < c.tiles) :
    ∃ q r m k, tile % (c.width / 8) = q ∧ tile / (c.width / 8) = r ∧ c.width = 8 * (q + 1 + m) ∧
      c.height = 8 * (r + 1 + k) := by
  have hcolumns : 0 < c.width / 8 := Nat.div_pos (Nat.le_of_dvd h.wide h.columns) (by decide)
  have hq := Nat.mod_lt tile hcolumns
  have hr : tile / (c.width / 8) < c.height / 8 := Nat.div_lt_of_lt_mul htile
  have hwidth := Nat.mul_div_cancel' h.columns
  have hheight := Nat.mul_div_cancel' h.rows
  exact ⟨_, _, c.width / 8 - 1 - tile % (c.width / 8), c.height / 8 - 1 - tile / (c.width / 8), rfl, rfl,
    by omega, by omega⟩

private theorem Fits.width_lt : 16 * c.width ≤ 2 ^ 32 := by
  have hbytes := two_le_linearBytesPerPixel h.format
  have hheight := Nat.le_of_dvd h.tall h.rows
  calc 16 * c.width = c.width * 8 * 2 := by ring
    _ ≤ c.width * c.height * c.alignedBytesPerPixel := Nat.mul_le_mul (Nat.mul_le_mul_left _ hheight) hbytes
    _ ≤ 2 ^ 32 := h.small

private theorem Fits.height_lt : 16 * c.height ≤ 2 ^ 32 := by
  have hbytes := two_le_linearBytesPerPixel h.format
  have hwidth := Nat.le_of_dvd h.wide h.columns
  calc 16 * c.height = 8 * c.height * 2 := by ring
    _ ≤ c.width * c.height * c.alignedBytesPerPixel := Nat.mul_le_mul (Nat.mul_le_mul_right _ hwidth) hbytes
    _ ≤ 2 ^ 32 := h.small

private theorem Fits.row_le : 8 * c.width * c.alignedBytesPerPixel ≤ 2 ^ 32 := by
  have hheight := Nat.le_of_dvd h.tall h.rows
  calc 8 * c.width * c.alignedBytesPerPixel = c.width * 8 * c.alignedBytesPerPixel := by ring
    _ ≤ c.width * c.height * c.alignedBytesPerPixel := Nat.mul_le_mul_right _ (Nat.mul_le_mul_left _ hheight)
    _ ≤ 2 ^ 32 := h.small

private theorem Fits.tile_le :
    (7 * c.width + 8) * c.alignedBytesPerPixel ≤ 8 * c.width * c.alignedBytesPerPixel := by
  have hwidth := Nat.le_of_dvd h.wide h.columns
  exact Nat.mul_le_mul_right _ (by omega)

theorem Fits.linearTileStride_eq : c.linearTileStride = (7 * c.width + 8) * c.alignedBytesPerPixel := by
  have hwidth := h.width_lt
  have hbytes : c.alignedBytesPerPixel ≤ 4 := linearBytesPerPixel_le c.format c.converted
  have hpos : 0 < c.alignedBytesPerPixel := linearBytesPerPixel_pos h.format
  have hlt : (7 * c.width + 8) * c.alignedBytesPerPixel < 2 ^ 32 := by
    rcases Nat.lt_or_ge 8 c.width with hwide | hnarrow
    · exact (Nat.mul_lt_mul_of_pos_right (show 7 * c.width + 8 < 8 * c.width by omega) hpos).trans_le h.row_le
    · have hle := Nat.mul_le_mul (show 7 * c.width + 8 ≤ 64 by omega) hbytes
      omega
  have hrows : mulU32 7 c.width = 7 * c.width := mulU32_eq (by omega)
  have hlast : addU32 (7 * c.width) 8 = 7 * c.width + 8 := addU32_eq (by omega)
  unfold linearTileStride
  rw [hrows, hlast, mulU32_eq hlt]

theorem Fits.rectangle_le (htile : tile < c.tiles) :
    (c.walkAt tile).linearOffset + c.linearTileStride ≤ c.width * c.height * c.alignedBytesPerPixel := by
  obtain ⟨q, r, m, k, hq, hr, hwidth, hheight⟩ := h.grid htile
  have hrows : c.height - 8 - 8 * r = 8 * k := by omega
  have hlast : 8 * k * c.width + 8 * q + (7 * c.width + 8) ≤ c.width * c.height := by
    calc 8 * k * c.width + 8 * q + (7 * c.width + 8) ≤ 8 * k * c.width + 8 * c.width := by omega
      _ = c.width * (8 * (k + 1)) := by ring
      _ ≤ c.width * c.height := Nat.mul_le_mul_left _ (by omega)
  rw [h.linearTileStride_eq]
  unfold walkAt
  dsimp only
  rw [hq, hr, hrows, ← Nat.add_mul]
  exact Nat.mul_le_mul_right _ hlast

theorem Fits.tileFits : TileFits c.format c.converted c.width c.linearTileStride where
  wide := Nat.le_of_dvd h.wide h.columns
  inside := h.linearTileStride_eq.ge
  small := h.tile_le.trans h.row_le

private theorem Fits.nextOffset (htile : tile < c.tiles) :
    addU32 (c.walkAt tile).linearOffset (mulU32 8 c.alignedBytesPerPixel) =
        (c.walkAt tile).linearOffset + 8 * c.alignedBytesPerPixel ∧
      (c.walkAt tile).linearOffset + 8 * c.alignedBytesPerPixel < 2 ^ 32 := by
  have hwide := h.wide
  have hend := (h.rectangle_le htile).trans h.small
  have hpos : 0 < c.alignedBytesPerPixel := linearBytesPerPixel_pos h.format
  have hstride := Nat.mul_lt_mul_of_pos_right (show 8 < 7 * c.width + 8 by omega) hpos
  rw [h.linearTileStride_eq] at hend
  rw [mulU32_eq (by omega), addU32_eq (by omega)]
  exact ⟨rfl, by omega⟩

private theorem Fits.nextColumn (htile : tile < c.tiles) (hcolumn : 8 * (tile % (c.width / 8)) + 8 < c.width) :
    c.linearNextTile (c.walkAt tile) = .ok (c.walkAt (tile + 1)) := by
  have hwidth := h.width_lt
  have hcolumns := Nat.mul_div_cancel' h.columns
  have hdiv := Nat.div_add_mod tile (c.width / 8)
  obtain ⟨hrow, hmod⟩ : (tile + 1) / (c.width / 8) = tile / (c.width / 8) ∧
      (tile + 1) % (c.width / 8) = tile % (c.width / 8) + 1 :=
    (Nat.div_mod_unique (by omega)).mpr ⟨by omega, by omega⟩
  have hx : addU32 (c.walkAt tile).x 8 % c.width = (c.walkAt (tile + 1)).x := by
    unfold walkAt
    dsimp only
    rw [addU32_eq (by omega), hmod, Nat.mod_eq_of_lt hcolumn, Nat.mul_succ]
  have hoffset : addU32 (c.walkAt tile).linearOffset (mulU32 8 c.alignedBytesPerPixel) =
      (c.walkAt (tile + 1)).linearOffset := by
    rw [(h.nextOffset htile).1]
    unfold walkAt
    rw [hmod, hrow, ← Nat.add_mul, Nat.mul_succ, Nat.add_assoc]
  unfold linearNextTile
  rw [hx, hoffset, if_pos (show (c.walkAt (tile + 1)).x ≠ 0 by unfold walkAt; dsimp only; omega)]
  unfold walkAt
  rw [hrow]

private theorem Fits.nextRow (htile : tile + 1 < c.tiles) (hcolumn : 8 * (tile % (c.width / 8)) + 8 = c.width) :
    c.linearNextTile (c.walkAt tile) = .ok (c.walkAt (tile + 1)) := by
  obtain ⟨q, r, m, k, hq, hr, hwidth, hheight⟩ := h.grid htile
  have hcolumns := Nat.mul_div_cancel' h.columns
  have hdiv := Nat.div_add_mod tile (c.width / 8)
  obtain ⟨hrow, hmod⟩ : (tile + 1) / (c.width / 8) = tile / (c.width / 8) + 1 ∧ (tile + 1) % (c.width / 8) = 0 := by
    refine (Nat.div_mod_unique (by omega)).mpr ⟨?_, by omega⟩
    rw [Nat.mul_succ]
    omega
  -- The tile has `k + 1` rows of tiles behind it.
  have hrows : c.height - 8 - 8 * (tile / (c.width / 8)) = 8 * k + 8 := by omega
  have hoffset : (c.walkAt tile).linearOffset + 8 * c.alignedBytesPerPixel =
      c.width * 9 * c.alignedBytesPerPixel + (c.walkAt (tile + 1)).linearOffset := by
    unfold walkAt
    dsimp only
    rw [hrow, hmod, hrows, show c.height - 8 - 8 * (tile / (c.width / 8) + 1) = 8 * k by omega, ← Nat.add_mul,
      ← Nat.add_mul, Nat.add_assoc, hcolumn]
    ring
  obtain ⟨hnext, hnextlt⟩ := h.nextOffset (Nat.lt_of_succ_lt htile)
  have hwidthlt := h.width_lt
  have hheightlt := h.height_lt
  have hx : addU32 (c.walkAt tile).x 8 % c.width = 0 := by
    unfold walkAt
    dsimp only
    rw [addU32_eq (by omega), hcolumn, Nat.mod_self]
  have hy : addU32 (c.walkAt tile).y 8 % c.height = (c.walkAt (tile + 1)).y := by
    unfold walkAt
    dsimp only
    rw [addU32_eq (by omega), hrow, Nat.mod_eq_of_lt (by omega), Nat.mul_succ]
  have hback : mulU32 (mulU32 c.width 9) c.alignedBytesPerPixel = c.width * 9 * c.alignedBytesPerPixel := by
    rw [mulU32_eq (show c.width * 9 < 2 ^ 32 by omega), mulU32_eq (by omega)]
  unfold linearNextTile
  rw [hx, hy, hnext, hback, hoffset, if_neg (not_not_intro rfl), if_neg (by have := h.tall; omega),
    if_neg (show (c.walkAt (tile + 1)).y ≠ 0 by unfold walkAt; dsimp only; omega), subU32_eq (by omega) (by omega),
    Nat.add_sub_cancel_left]
  unfold walkAt
  rw [hmod]

theorem Fits.linearNextTile_eq (htile : tile + 1 < c.tiles) :
    c.linearNextTile (c.walkAt tile) = .ok (c.walkAt (tile + 1)) := by
  obtain ⟨q, r, m, k, hq, hr, hwidth, hheight⟩ := h.grid (Nat.lt_of_succ_lt htile)
  rcases Nat.eq_zero_or_pos m with hm | hm
  · exact h.nextRow htile (by omega)
  · exact h.nextColumn (Nat.lt_of_succ_lt htile) (by omega)

theorem Fits.tileSize_pos : 0 < c.tileSize := by
  rw [eight_dvd_tileSize]
  have hformat := h.format
  cases hf : c.format <;> first | decide | exact absurd hformat (by rw [hf]; cases c.converted <;> decide)

theorem Fits.rowPixels_ne_zero : mulU32 c.width 8 ≠ 0 := by
  have hwidth := h.width_lt
  have hwide := h.wide
  rw [mulU32_eq (by omega)]
  omega

theorem Fits.startWalk_eq (htile : tile < c.tiles)
    (hstart : c.alignedDownStartOffset = c.tileSize * tile) (hsmall : c.startOffset < 2 ^ 29) :
    c.startWalk = c.walkAt tile := by
  obtain ⟨q, r, m, k, hq, hr, hwidth, hheight⟩ := h.grid htile
  have hwidthlt := h.width_lt
  have hheightlt := h.height_lt
  have hbpp : 0 < getFormatBpp c.format := by
    have hpos := h.tileSize_pos
    rw [eight_dvd_tileSize] at hpos
    omega
  have hdown : c.alignedDownStartOffset ≤ c.startOffset := Nat.sub_le _ _
  have hpixel : c.beginPixelIndex = 64 * tile := by
    unfold beginPixelIndex
    rw [mulU32_eq (by omega), hstart, eight_dvd_tileSize,
      show 8 * getFormatBpp c.format * tile * 8 = getFormatBpp c.format * (64 * tile) by ring,
      Nat.mul_div_cancel_left _ hbpp]
  have hcolumns : c.width * 8 = 64 * (c.width / 8) := by omega
  have hx : c.beginPixelIndex % mulU32 c.width 8 / 8 = 8 * q := by
    rw [hpixel, mulU32_eq (by omega), hcolumns, Nat.mul_mod_mul_left, hq]
    omega
  have hy : mulU32 (c.beginPixelIndex / mulU32 c.width 8) 8 = 8 * r := by
    rw [hpixel, mulU32_eq (show c.width * 8 < 2 ^ 32 by omega), hcolumns, Nat.mul_div_mul_left _ _ (by decide), hr,
      mulU32_eq (by omega), Nat.mul_comm]
  have hend := (h.rectangle_le htile).trans h.small
  have hpos : 0 < c.alignedBytesPerPixel := linearBytesPerPixel_pos h.format
  have hstride := Nat.mul_lt_mul_of_pos_right (show 8 < 7 * c.width + 8 by omega) hpos
  rw [h.linearTileStride_eq] at hend
  unfold walkAt at hend ⊢
  dsimp only at hend ⊢
  rw [hq, hr] at hend ⊢
  have hbytes := Nat.le_mul_of_pos_right ((c.height - 8 - 8 * r) * c.width + 8 * q) hpos
  have hrows : subU32 (subU32 c.height 8) (8 * r) = c.height - 8 - 8 * r := by
    rw [subU32_eq (show 8 ≤ c.height by omega) (by omega), subU32_eq (by omega) (by omega)]
  have hrow : mulU32 (c.height - 8 - 8 * r) c.width = (c.height - 8 - 8 * r) * c.width := mulU32_eq (by omega)
  have hindex : addU32 ((c.height - 8 - 8 * r) * c.width) (8 * q) = (c.height - 8 - 8 * r) * c.width + 8 * q :=
    addU32_eq (by omega)
  unfold startWalk
  dsimp only
  rw [hx, hy, hrows, hrow, hindex, mulU32_eq (by omega)]

theorem Fits.exists_nextTile (tile : Nat) :
    ∃ walk, c.linearNextTile (c.walkAt tile) = .ok walk ∧ (tile + 1 < c.tiles → walk = c.walkAt (tile + 1)) := by
  by_cases hnext : tile + 1 < c.tiles
  · exact ⟨_, h.linearNextTile_eq hnext, fun _ => rfl⟩
  · unfold linearNextTile
    by_cases hx : addU32 (c.walkAt tile).x 8 % c.width ≠ 0
    · exact ⟨_, if_pos hx, fun hlt => absurd hlt hnext⟩
    · rw [if_neg hx, if_neg (by have := h.tall; omega)]
      by_cases hy : addU32 (c.walkAt tile).y 8 % c.height = 0
      · exact ⟨_, if_pos hy, fun hlt => absurd hlt hnext⟩
      · exact ⟨_, if_neg hy, fun hlt => absurd hlt hnext⟩

end

variable {host : CodecHost}

def TiledImage (host : CodecHost) (c : MortonCall) (linear image : Nat → UInt8) : Prop :=
  ∀ tile < c.tiles, EncodesTile host c.format c.converted c.width
    (fun i => linear ((c.walkAt tile).linearOffset + i)) fun j => image (c.tileSize * tile + j)

theorem Fits.exists_image (h : c.Fits) (host : CodecHost) (linear : Nat → UInt8) :
    ∃ image, TiledImage host c linear image := by
  choose tiles _ htiles using fun tile => mortonCopyTile_encodes host
    ⟨c.linearTileStride, fun i => linear ((c.walkAt tile).linearOffset + i)⟩ h.format h.tileFits fun _ => 0
  refine ⟨fun a => tiles (a / c.tileSize) (a % c.tileSize), ?_⟩
  intro tile _ p hp
  refine Eq.trans (tilePixel_congr h.format ?_ (mortonIndex_lt p hp)) (htiles tile p hp)
  intro j (hj : j < c.tileSize)
  show tiles ((c.tileSize * tile + j) / c.tileSize) ((c.tileSize * tile + j) % c.tileSize) = _
  rw [Nat.mul_add_div h.tileSize_pos, Nat.div_eq_of_lt hj, Nat.mul_add_mod, Nat.mod_eq_of_lt hj, Nat.add_zero]

private theorem Fits.copyTile (h : c.Fits) {linear : Span} {image : Nat → UInt8}
    (hlinear : c.width * c.height * c.alignedBytesPerPixel ≤ linear.size)
    (himage : TiledImage host c linear.bytes image) (htile : tile < c.tiles) (buf : Nat → UInt8) :
    ∃ data t, linear.subspan (c.walkAt tile).linearOffset c.linearTileStride = .ok data ∧
      mortonCopyTile host c.format c.converted false c.width ⟨c.tileSize, buf⟩ data = .ok (⟨c.tileSize, t⟩, data) ∧
      linear.writeBack (c.walkAt tile).linearOffset data = linear ∧
      ∀ j < c.tileSize, t j = image (c.tileSize * tile + j) := by
  have hinside := (h.rectangle_le htile).trans hlinear
  obtain ⟨t, ht, htile'⟩ := mortonCopyTile_encodes host
    ⟨c.linearTileStride, fun i => linear.bytes ((c.walkAt tile).linearOffset + i)⟩ h.format h.tileFits buf
  refine ⟨_, t, if_pos hinside, ht, ?_, ?_⟩
  · unfold Span.writeBack
    rw [overwrite_self]
  · intro j hj
    exact htile'.unique h.format (himage tile htile) hj

structure PartFits (c : MortonCall) (tiledSize : Nat) : Prop extends c.Fits where
  ordered : c.startOffset < c.endOffset
  inside : c.endOffset ≤ c.tileSize * c.tiles
  image : c.tileSize * c.tiles < 2 ^ 32
  start : c.startOffset < 2 ^ 29
  room : c.endOffset - c.startOffset ≤ tiledSize
  tiled : tiledSize < 2 ^ 32

def written (c : MortonCall) (image : Nat → UInt8) (tiled : Span) (n : Nat) : Span :=
  { tiled with bytes := overwrite tiled.bytes 0 n fun i => image (c.startOffset + i) }

theorem written_zero (c : MortonCall) (image : Nat → UInt8) (tiled : Span) : c.written image tiled 0 = tiled := by
  unfold written
  rw [overwrite_zero]

theorem written_of_lt (c : MortonCall) (image : Nat → UInt8) (tiled : Span) {n i : Nat} (hi : i < n) :
    (c.written image tiled n).bytes i = image (c.startOffset + i) := by
  unfold written
  dsimp only
  rw [overwrite_of_mem (Nat.zero_le i) (by omega), Nat.sub_zero]

theorem written_of_le (c : MortonCall) (image : Nat → UInt8) (tiled : Span) {n i : Nat} (hi : n ≤ i) :
    (c.written image tiled n).bytes i = tiled.bytes i := by
  unfold written
  dsimp only
  rw [overwrite_of_not_mem (by omega)]

theorem written_writeBack (c : MortonCall) (image : Nat → UInt8) (tiled : Span) (n : Nat) (part : Span)
    (h : ∀ i < part.size, part.bytes i = image (c.startOffset + n + i)) :
    (c.written image tiled n).writeBack n part = c.written image tiled (n + part.size) := by
  unfold Span.writeBack written
  rw [← overwrite_append tiled.bytes 0 n part.size, overwrite_congr h, Nat.zero_add]
  simp only [Nat.add_assoc]

structure Reached (c : MortonCall) (image : Nat → UInt8) (linear tiled : Span) (offset : Nat) (s : MortonState) :
    Prop where
  walk : ∀ tile < c.tiles, offset = c.tileSize * tile → s.walk = c.walkAt tile
  tiledOffset : s.tiledOffset = offset - c.startOffset
  tiled : s.tiled = c.written image tiled (min offset c.endOffset - c.startOffset)
  linear : s.linear = linear

variable {linear tiled : Span} {image : Nat → UInt8} {s : MortonState}

theorem PartFits.alignedStartOffset_eq (h : c.PartFits tiled.size) :
    c.alignedStartOffset = ceilTo c.tileSize c.startOffset := by
  have hstart := (ceilTo_le_iff h.tileSize_pos (Nat.dvd_mul_right c.tileSize c.tiles)).mpr
    (h.ordered.le.trans h.inside)
  exact SurfaceParams.alignUp_eq h.tileSize_pos (hstart.trans_lt h.image)

private theorem PartFits.headTile_reached (h : c.PartFits tiled.size)
    (hlinear : c.width * c.height * c.alignedBytesPerPixel ≤ linear.size)
    (himage : TiledImage host c linear.bytes image)
    (buf : Nat → UInt8) : ∃ s, c.headTile host buf (c.startState linear tiled) = .ok s ∧
      Reached c image linear tiled c.alignedStartOffset s := by
  have hordered := h.ordered
  have hdown : c.alignedDownStartOffset = floorTo c.tileSize c.startOffset := SurfaceParams.alignDown_eq _ _
  unfold headTile
  rw [h.alignedStartOffset_eq]
  by_cases hdvd : c.tileSize ∣ c.startOffset
  · have hceil := ceilTo_of_dvd h.tileSize_pos hdvd
    refine ⟨_, if_neg (by rw [hceil]; exact Nat.lt_irrefl _), ?_⟩
    rw [hceil]
    constructor
    · intro tile htile hoffset
      exact h.startWalk_eq htile (by rw [hdown, floorTo_of_dvd hdvd, hoffset]) h.start
    · exact (Nat.sub_self _).symm
    · rw [Nat.min_eq_left hordered.le, Nat.sub_self, written_zero]
      rfl
    · rfl
  · have hceil := ceilTo_of_not_dvd h.tileSize_pos hdvd
    have hpos := h.tileSize_pos
    have hfloor := floorTo_le c.tileSize c.startOffset
    have hlt := lt_floorTo_add hpos c.startOffset
    have hfloor_eq : floorTo c.tileSize c.startOffset = c.tileSize * (c.startOffset / c.tileSize) := Nat.mul_comm _ _
    have htile : c.startOffset / c.tileSize < c.tiles :=
      Nat.div_lt_of_lt_mul (hordered.trans_le h.inside)
    have hwalk := h.startWalk_eq htile (hdown.trans hfloor_eq) h.start
    have hend := Nat.mul_le_mul_left c.tileSize (Nat.succ_le_of_lt htile)
    rw [Nat.mul_succ] at hend
    obtain ⟨data, t, hdata, ht, -, hbytes⟩ := h.copyTile hlinear himage htile buf
    obtain ⟨walk, hnext, hwalk'⟩ := h.exists_nextTile (c.startOffset / c.tileSize)
    have hroom := h.room
    have himage32 := h.image
    rw [if_pos (by omega)]
    dsimp only [startState]
    rw [hwalk, hdata, ok_bind, ht, ok_bind, hdown]
    set count := min (ceilTo c.tileSize c.startOffset) c.endOffset - c.startOffset with hcount
    have hpart : Span.subspan ⟨c.tileSize, t⟩ (c.startOffset - floorTo c.tileSize c.startOffset) count =
        .ok ⟨count, fun i => t (c.startOffset - floorTo c.tileSize c.startOffset + i)⟩ :=
      if_pos (show c.startOffset - floorTo c.tileSize c.startOffset + count ≤ c.tileSize by omega)
    have htiled : tiled.subspan 0 count = .ok ⟨count, fun i => tiled.bytes (0 + i)⟩ :=
      if_pos (show 0 + count ≤ tiled.size by omega)
    rw [hpart, ok_bind, htiled, ok_bind, hnext, ok_bind]
    refine ⟨_, rfl, ?_⟩
    constructor
    · intro tile' htile' hoffset
      rw [hceil, hfloor_eq, ← Nat.mul_succ] at hoffset
      obtain rfl := Nat.eq_of_mul_eq_mul_left hpos hoffset
      exact hwalk' htile'
    · exact (addU32_eq (by omega)).trans (Nat.zero_add _)
    · have hfirst := c.written_writeBack image tiled 0 ⟨count, _⟩ fun i (hi : i < count) =>
        (hbytes (c.startOffset - floorTo c.tileSize c.startOffset + i) (by omega)).trans
          (congrArg image (show _ = c.startOffset + 0 + i by omega))
      rw [written_zero, Nat.zero_add] at hfirst
      exact hfirst
    · rfl

private theorem PartFits.wholeTile_reached (h : c.PartFits tiled.size)
    (hlinear : c.width * c.height * c.alignedBytesPerPixel ≤ linear.size)
    (himage : TiledImage host c linear.bytes image) (hstart : c.startOffset ≤ c.tileSize * tile) (hend : c.tileSize * (tile + 1) ≤ c.endOffset)
    (hs : Reached c image linear tiled (c.tileSize * tile) s) :
    ∃ s', c.wholeTile host false s (c.tileSize * tile - c.startOffset) = .ok s' ∧
      Reached c image linear tiled (c.tileSize * (tile + 1)) s' := by
  have hpos := h.tileSize_pos
  have htile : tile < c.tiles := Nat.lt_of_mul_lt_mul_left (a := c.tileSize) (by
    have hinside := h.inside
    rw [Nat.mul_succ] at hend
    omega)
  have hroom := h.room
  have himage32 := h.image
  have hinside := h.inside
  obtain ⟨data, t, hdata, ht, hback, hbytes⟩ := h.copyTile hlinear himage htile
    fun i => s.tiled.bytes (c.tileSize * tile - c.startOffset + i)
  obtain ⟨walk, hnext, hwalk'⟩ := h.exists_nextTile tile
  rw [Nat.mul_succ] at hend
  have htiled : s.tiled.subspan (c.tileSize * tile - c.startOffset) c.tileSize =
      .ok ⟨c.tileSize, fun i => s.tiled.bytes (c.tileSize * tile - c.startOffset + i)⟩ := by
    refine if_pos ?_
    rw [hs.tiled]
    show c.tileSize * tile - c.startOffset + c.tileSize ≤ tiled.size
    omega
  unfold wholeTile
  rw [hs.walk tile htile rfl, hs.linear, hdata, ok_bind, htiled, ok_bind, ht, ok_bind, hnext, ok_bind]
  refine ⟨_, rfl, ?_⟩
  constructor
  · intro tile' htile' hoffset
    obtain rfl := Nat.eq_of_mul_eq_mul_left hpos hoffset
    exact hwalk' htile'
  · dsimp only
    rw [addU32_eq (by omega), Nat.mul_succ]
    omega
  · dsimp only
    rw [hs.tiled, Nat.min_eq_left (by omega), Nat.min_eq_left (by rw [Nat.mul_succ]; omega)]
    have hwritten := c.written_writeBack image tiled (c.tileSize * tile - c.startOffset) ⟨c.tileSize, t⟩
      fun i hi => (hbytes i hi).trans (congrArg image (by omega))
    rw [hwritten, Nat.mul_succ]
    refine congrArg (c.written image tiled) ?_
    dsimp only
    omega
  · exact hback

private theorem bufferEnd_eq {start first stop size : Nat} (hle : first ≤ stop) (hstop : stop < 2 ^ 32)
    (hstart : start ≤ first) (hsize : stop - start ≤ size) :
    min (subU32 (addU32 (first - start) stop) first) size = stop - start := by
  have hend : subU32 (addU32 (first - start) stop) first = stop - start := by
    unfold addU32 subU32
    omega
  rw [hend, Nat.min_eq_left hsize]

private theorem PartFits.wholeTiles_reached (h : c.PartFits tiled.size)
    (hlinear : c.width * c.height * c.alignedBytesPerPixel ≤ linear.size)
    (himage : TiledImage host c linear.bytes image)
    (hs : Reached c image linear tiled c.alignedStartOffset s) : ∃ s', c.wholeTiles host false s = .ok s' ∧
      Reached c image linear tiled (max c.alignedStartOffset c.alignedEndOffset) s' := by
  have hpos := h.tileSize_pos
  have hend : c.alignedEndOffset = floorTo c.tileSize c.endOffset := SurfaceParams.alignDown_eq _ _
  unfold wholeTiles
  by_cases hlt : c.alignedStartOffset < c.alignedEndOffset
  · have hfloor := floorTo_le c.tileSize c.endOffset
    have hstart := le_ceilTo hpos c.startOffset
    obtain ⟨a, ha⟩ := dvd_ceilTo c.tileSize c.startOffset
    obtain ⟨b, hb⟩ := dvd_floorTo c.tileSize c.endOffset
    rw [if_pos hlt, Nat.max_eq_right hlt.le]
    rw [h.alignedStartOffset_eq, hend] at hlt ⊢
    rw [h.alignedStartOffset_eq] at hs
    obtain ⟨n, rfl⟩ : ∃ n, b = a + n :=
      ⟨b - a, (Nat.add_sub_of_le (Nat.le_of_mul_le_mul_left (ha ▸ hb ▸ hlt.le) hpos)).symm⟩
    rw [ha] at hs hstart hlt ⊢
    rw [hb] at hfloor hlt ⊢
    have hroom := h.room
    have himage32 := h.image
    have hinside := h.inside
    have hstop : min (subU32 (addU32 s.tiledOffset (c.tileSize * (a + n))) (c.tileSize * a)) (s.tiled.size % 2 ^ 32) =
        c.tileSize * a - c.startOffset + c.tileSize * n := by
      have hsize : s.tiled.size = tiled.size := by rw [hs.tiled]; rfl
      have hbytes : c.tileSize * (a + n) = c.tileSize * a + c.tileSize * n := Nat.mul_add _ _ _
      rw [hs.tiledOffset, hsize, Nat.mod_eq_of_lt h.tiled, bufferEnd_eq (by omega) (by omega) hstart (by omega)]
      omega
    dsimp only
    rw [hstop, hs.tiledOffset]
    have hloop : Outcome (fun _ => False) (Reached c image linear tiled (c.tileSize * (a + n)))
        (countedLoop (c.tileSize * a - c.startOffset) (c.tileSize * a - c.startOffset + c.tileSize * n) c.tileSize
          (c.wholeTile host false) s) := by
      have hlast : c.startOffset + loopEnd (c.tileSize * a - c.startOffset)
          (c.tileSize * a - c.startOffset + c.tileSize * n) c.tileSize = c.tileSize * (a + n) := by
        rw [loopEnd, loopTurns_add_mul hpos, Nat.mul_add]
        omega
      rw [← hlast]
      refine countedLoop_outcome (fun i s => Reached c image linear tiled (c.startOffset + i) s) hpos
        (by rwa [Nat.add_sub_of_le hstart]) ?_
      intro k t hk ht
      have hmul : c.tileSize * (a + k) = c.tileSize * a + c.tileSize * k := Nat.mul_add _ _ _
      have hmul' : c.tileSize * (a + k + 1) = c.tileSize * (a + k) + c.tileSize := Nat.mul_succ _ _
      have hn : k < n := Nat.lt_of_mul_lt_mul_left (Nat.lt_of_add_lt_add_left hk)
      have hle : c.tileSize * (a + k + 1) ≤ c.tileSize * (a + n) := Nat.mul_le_mul_left _ (by omega)
      rw [show c.startOffset + (c.tileSize * a - c.startOffset + c.tileSize * k) = c.tileSize * (a + k) by omega] at ht
      rw [show c.startOffset + (c.tileSize * a - c.startOffset + c.tileSize * (k + 1)) = c.tileSize * (a + k + 1) by
          rw [Nat.mul_succ]; omega,
        show c.tileSize * a - c.startOffset + c.tileSize * k = c.tileSize * (a + k) - c.startOffset by omega]
      exact Outcome.of_ok (h.wholeTile_reached hlinear himage (by omega) (hle.trans hfloor) ht)
    exact hloop.exists_ok
  · exact ⟨s, if_neg hlt, by rwa [Nat.max_eq_left (Nat.le_of_not_lt hlt)]⟩

private theorem PartFits.tailTile_written (h : c.PartFits tiled.size)
    (hlinear : c.width * c.height * c.alignedBytesPerPixel ≤ linear.size)
    (himage : TiledImage host c linear.bytes image)
    (buf : Nat → UInt8) (hs : Reached c image linear tiled (max c.alignedStartOffset c.alignedEndOffset) s) :
    ∃ s', c.tailTile host buf s = .ok s' ∧ s'.linear = linear ∧
      s'.tiled = c.written image tiled (c.endOffset - c.startOffset) := by
  have hpos := h.tileSize_pos
  have hend : c.alignedEndOffset = floorTo c.tileSize c.endOffset := SurfaceParams.alignDown_eq _ _
  unfold tailTile
  by_cases hlt : c.endOffset > max c.alignedStartOffset c.alignedEndOffset
  · have hceil := dvd_ceilTo c.tileSize c.startOffset
    have hstart := le_ceilTo hpos c.startOffset
    have hfloor := lt_floorTo_add hpos c.endOffset
    obtain ⟨tile, htile⟩ := dvd_floorTo c.tileSize c.endOffset
    have hle : c.alignedStartOffset ≤ c.alignedEndOffset := by
      rw [hend, h.alignedStartOffset_eq, le_floorTo_iff hpos hceil, ← h.alignedStartOffset_eq]
      exact (Nat.le_max_left _ _).trans hlt.le
    rw [if_pos hlt]
    rw [Nat.max_eq_right hle] at hs hlt
    rw [← h.alignedStartOffset_eq] at hstart
    rw [hend, htile] at hs hle hlt ⊢
    have hroom := h.room
    have hinside := h.inside
    have hindex : tile < c.tiles := Nat.lt_of_mul_lt_mul_left (hlt.trans_le hinside)
    obtain ⟨data, t, hdata, ht, -, hbytes⟩ := h.copyTile hlinear himage hindex buf
    have hpart : Span.subspan ⟨c.tileSize, t⟩ 0 (c.endOffset - c.tileSize * tile) =
        .ok ⟨c.endOffset - c.tileSize * tile, fun i => t (0 + i)⟩ :=
      if_pos (show 0 + (c.endOffset - c.tileSize * tile) ≤ c.tileSize by omega)
    have hroom' : s.tiled.subspan s.tiledOffset (c.endOffset - c.tileSize * tile) =
        .ok ⟨c.endOffset - c.tileSize * tile, fun i => s.tiled.bytes (s.tiledOffset + i)⟩ := by
      refine if_pos ?_
      rw [hs.tiledOffset, hs.tiled]
      show c.tileSize * tile - c.startOffset + (c.endOffset - c.tileSize * tile) ≤ tiled.size
      omega
    rw [hs.walk tile hindex rfl, hs.linear, hdata, ok_bind, ht, ok_bind]
    dsimp only
    rw [hpart, ok_bind, hroom', ok_bind]
    refine ⟨_, rfl, rfl, ?_⟩
    rw [hs.tiledOffset, hs.tiled, Nat.min_eq_left hlt.le, written_writeBack]
    · refine congrArg (c.written image tiled) ?_
      dsimp only
      omega
    · intro i (hi : i < c.endOffset - c.tileSize * tile)
      dsimp only
      rw [Nat.zero_add, hbytes i (by omega)]
      exact congrArg image (by omega)
  · refine ⟨s, if_neg hlt, hs.linear, ?_⟩
    rw [hs.tiled, Nat.min_eq_right (Nat.le_of_not_lt hlt)]

/-- `MortonCopy` towards a tiled image makes the bytes between the offsets. -/
theorem PartFits.mortonCopy_eq (linear tiled : Span) (h : c.PartFits tiled.size)
    (hlinear : c.width * c.height * c.alignedBytesPerPixel ≤ linear.size)
    (himage : TiledImage host c linear.bytes image)
    (headBuf tailBuf : Nat → UInt8) : mortonCopy host false c headBuf tailBuf linear tiled =
      .ok (linear, c.written image tiled (c.endOffset - c.startOffset)) := by
  obtain ⟨s₁, hs₁, hreached₁⟩ := h.headTile_reached hlinear himage headBuf
  obtain ⟨s₂, hs₂, hreached₂⟩ := h.wholeTiles_reached hlinear himage hreached₁
  obtain ⟨s₃, hs₃, hlinear₃, htiled₃⟩ := h.tailTile_written hlinear himage tailBuf hreached₂
  unfold mortonCopy
  rw [if_neg fun hcopy => Bool.false_ne_true hcopy.1, if_neg h.rowPixels_ne_zero, if_neg Bool.false_ne_true, hs₁,
    ok_bind, hs₂, ok_bind, hs₃, ok_bind, hlinear₃, htiled₃]

def whole (c : MortonCall) : MortonCall := { c with startOffset := 0, endOffset := c.tileSize * c.tiles }

end MortonCall

open MortonCall

/-- A part of a tiled image is made as the whole image has it; the bytes behind it in the buffer stay. -/
theorem mortonCopy_slices (host : CodecHost) (c : MortonCall) (headBuf tailBuf headBuf' tailBuf' : Nat → UInt8)
    (linear tiled wholeTiled : Span) (hformat : swizzles c.format c.converted) (hcolumns : 8 ∣ c.width)
    (hrows : 8 ∣ c.height) (hsmall : c.width * c.height * linearBytesPerPixel c.format c.converted ≤ 2 ^ 32)
    (himage : c.tileSize * c.tiles < 2 ^ 32) (hordered : c.startOffset < c.endOffset)
    (hinside : c.endOffset ≤ c.tileSize * c.tiles) (hstart : c.startOffset < 2 ^ 29)
    (hlinear : c.width * c.height * linearBytesPerPixel c.format c.converted ≤ linear.size)
    (hwhole : wholeTiled.size = c.tileSize * c.tiles) (hroom : c.endOffset - c.startOffset ≤ tiled.size)
    (htiled : tiled.size < 2 ^ 32) :
    ∃ image part, mortonCopy host false c.whole headBuf' tailBuf' linear wholeTiled = .ok (linear, image) ∧
      image.size = c.tileSize * c.tiles ∧ mortonCopy host false c headBuf tailBuf linear tiled = .ok (linear, part) ∧
      part.size = tiled.size ∧
      (∀ i < c.endOffset - c.startOffset, part.bytes i = image.bytes (c.startOffset + i)) ∧
      ∀ i, c.endOffset - c.startOffset ≤ i → part.bytes i = tiled.bytes i := by
  have htiles : 0 < c.width / 8 * (c.height / 8) :=
    Nat.pos_of_mul_pos_left (show 0 < c.tileSize * c.tiles by omega)
  have hwide : 0 < c.width / 8 := Nat.pos_of_mul_pos_right htiles
  have htall : 0 < c.height / 8 := Nat.pos_of_mul_pos_left htiles
  have hfits : c.Fits :=
    { format := hformat, columns := hcolumns, rows := hrows, wide := by omega, tall := by omega, small := hsmall }
  have hpart : c.PartFits tiled.size :=
    { hfits with
      ordered := hordered, inside := hinside, image := himage, start := hstart, room := hroom, tiled := htiled }
  have hall : c.whole.PartFits wholeTiled.size :=
    { format := hformat, columns := hcolumns, rows := hrows, wide := hfits.wide, tall := hfits.tall, small := hsmall
      ordered := show 0 < c.tileSize * c.tiles by omega
      inside := Nat.le_refl _
      image := himage
      start := show 0 < 2 ^ 29 by decide
      room := hwhole.ge
      tiled := hwhole ▸ himage }
  obtain ⟨image, himage⟩ := hfits.exists_image host linear.bytes
  refine ⟨_, _, hall.mortonCopy_eq linear wholeTiled hlinear himage headBuf' tailBuf', hwhole,
    hpart.mortonCopy_eq linear tiled hlinear himage headBuf tailBuf, rfl, ?_, ?_⟩
  · intro i hi
    have hwholeByte := c.whole.written_of_lt image wholeTiled
      (show c.startOffset + i < c.tileSize * c.tiles - 0 by omega)
    rw [show c.whole.startOffset = 0 from rfl, Nat.zero_add] at hwholeByte
    exact (c.written_of_lt image tiled hi).trans hwholeByte.symm
  · intro i hi
    exact c.written_of_le image tiled hi

/-- A part of an image of eight by eight pixels, within the tile. -/
theorem mortonCopy_slices_tile :
    ∃ image part : Span, mortonCopy ⟨id, id, fun _ _ _ _ => []⟩ false
        (MortonCall.whole ⟨.rgba4, false, 8, 8, 3, 10⟩) (fun _ => 0) (fun _ => 0) ⟨128, fun i => i.toUInt8⟩
        ⟨128, fun _ => 0⟩ = .ok (⟨128, fun i => i.toUInt8⟩, image) ∧ image.size = 128 ∧
      mortonCopy ⟨id, id, fun _ _ _ _ => []⟩ false ⟨.rgba4, false, 8, 8, 3, 10⟩ (fun _ => 1) (fun _ => 2)
        ⟨128, fun i => i.toUInt8⟩ ⟨7, fun _ => 0⟩ = .ok (⟨128, fun i => i.toUInt8⟩, part) ∧ part.size = 7 ∧
      (∀ i < 7, part.bytes i = image.bytes (3 + i)) ∧ ∀ i, 7 ≤ i → part.bytes i = 0 :=
  mortonCopy_slices ⟨id, id, fun _ _ _ _ => []⟩ ⟨.rgba4, false, 8, 8, 3, 10⟩ (fun _ => 1) (fun _ => 2) (fun _ => 0)
    (fun _ => 0) ⟨128, fun i => i.toUInt8⟩ ⟨7, fun _ => 0⟩ ⟨128, fun _ => 0⟩ (by decide) (by decide) (by decide)
    (by decide) (by decide) (by decide) (by decide) (by decide) (by decide) rfl (by decide) (by decide)

/-- An image so wide that the pixels of a row of tiles wrap around is not copied.  An offset of `2 ^ 29` bytes is taken
for the first one. -/
theorem mortonCopy_wraps :
    mortonCopy ⟨id, id, fun _ _ _ _ => []⟩ false ⟨.i4, false, 2 ^ 29, 8, 0, 2 ^ 31⟩ (fun _ => 0) (fun _ => 0)
        ⟨2 ^ 34, fun _ => 0⟩ ⟨2 ^ 31, fun _ => 0⟩ = .error .divisionByZero ∧
      (mortonCopy ⟨id, id, fun _ _ _ _ => []⟩ false ⟨.rgba8, false, 8, 2 ^ 25, 0, 2 ^ 30⟩ (fun _ => 0) (fun _ => 0)
        ⟨2 ^ 30, fun i => if i < 2 ^ 29 then 0 else 1⟩ ⟨2 ^ 30, fun _ => 0⟩).map (fun r => r.2.bytes (2 ^ 29)) = .ok 0 ∧
      (mortonCopy ⟨id, id, fun _ _ _ _ => []⟩ false ⟨.rgba8, false, 8, 2 ^ 25, 2 ^ 29, 2 ^ 29 + 1⟩ (fun _ => 0)
        (fun _ => 0) ⟨2 ^ 30, fun i => if i < 2 ^ 29 then 0 else 1⟩ ⟨1, fun _ => 0⟩).map (fun r => r.2.bytes 0) =
        .ok 1 := by
  refine ⟨by rfl, ?_, by decide +kernel⟩
  have hfits : PartFits ⟨.rgba8, false, 8, 2 ^ 25, 0, 2 ^ 30⟩ (2 ^ 30) := by
    constructor
    · constructor <;> decide
    all_goals decide
  obtain ⟨image, himage⟩ := hfits.exists_image ⟨id, id, fun _ _ _ _ => []⟩ fun i => if i < 2 ^ 29 then 0 else 1
  have hcopy := hfits.mortonCopy_eq ⟨2 ^ 30, fun i => if i < 2 ^ 29 then 0 else 1⟩ ⟨2 ^ 30, fun _ => 0⟩ (by decide)
    himage (fun _ => 0) fun _ => 0
  have hpixel := himage (2 ^ 21) (by decide) (0, 0) (by decide)
  have hbyte : image (2 ^ 29) = 0 := congrArg (fun l : List UInt8 => l.headD 0) hpixel
  rw [hcopy]
  exact congrArg Except.ok ((written_of_lt _ _ _ (by decide)).trans hbyte)

end SweepDSEmu.VideoCore
