import SweepDSEmu.VideoCore.MortonParts

/-!
# Untiling and tiling again

`MortonCopy` towards the linear image puts the pixels of every tile where `MortonCopy` towards the tiled image takes
them from.  The pixels of different tiles do not overlap in the linear image, so each tile that is done stays; and encoding
undoes decoding.
-/

namespace SweepDSEmu.VideoCore

open SurfaceParams (addU32_eq mulU32_eq subU32_eq)

namespace MortonCall

variable {c : MortonCall} {host : CodecHost}

def pixelIndex (c : MortonCall) (tile : Nat) (p : Nat × Nat) : Nat :=
  (c.height - 1 - (8 * (tile / (c.width / 8)) + p.2)) * c.width + (8 * (tile % (c.width / 8)) + p.1)

theorem Fits.linearPlace_eq (h : c.Fits) {tile : Nat} (htile : tile < c.tiles) {p : Nat × Nat} (hp : p ∈ tilePixels) :
    (c.walkAt tile).linearOffset + linearPlace c.format c.converted c.width p =
      c.pixelIndex tile p * c.alignedBytesPerPixel := by
  obtain ⟨hx, hy⟩ := mem_tilePixels.mp hp
  obtain ⟨q, r, m, k, hq, hr, hwidth, hheight⟩ := h.grid htile
  have hrow : c.height - 1 - (8 * r + p.2) = 8 * k + (7 - p.2) := by omega
  unfold walkAt linearPlace pixelIndex
  dsimp only
  rw [hq, hr, hrow, show c.height - 8 - 8 * r = 8 * k by omega]
  unfold alignedBytesPerPixel
  ring

theorem Fits.pixelIndex_inj (h : c.Fits) {tile tile' : Nat} (htile : tile < c.tiles) (htile' : tile' < c.tiles)
    {p p' : Nat × Nat} (hp : p ∈ tilePixels) (hp' : p' ∈ tilePixels)
    (heq : c.pixelIndex tile p = c.pixelIndex tile' p') : tile = tile' := by
  obtain ⟨hx, hy⟩ := mem_tilePixels.mp hp
  obtain ⟨hx', hy'⟩ := mem_tilePixels.mp hp'
  obtain ⟨q, r, m, k, hq, hr, hwidth, hheight⟩ := h.grid htile
  obtain ⟨q', r', m', k', hq', hr', hwidth', hheight'⟩ := h.grid htile'
  obtain ⟨hrow, hcolumn⟩ := row_column_inj (by omega) (by omega) heq
  have hdiv := Nat.div_add_mod tile (c.width / 8)
  have hdiv' := Nat.div_add_mod tile' (c.width / 8)
  rw [← hdiv, ← hdiv', hq, hr, hq', hr', show r = r' by omega, show q = q' by omega]

structure Untiled (c : MortonCall) (host : CodecHost) (linear tiled : Span) (done : Nat) (s : MortonState) : Prop where
  walk : done < c.tiles → s.walk = c.walkAt done
  kept : s.tiled = tiled
  size : s.linear.size = linear.size
  pixels : ∀ tile < done, DecodesTile host c.format c.converted c.width
    (fun j => tiled.bytes (c.tileSize * tile + j)) fun i => s.linear.bytes ((c.walkAt tile).linearOffset + i)

variable {linear tiled : Span} {s : MortonState}

private theorem overwrite_of_others {mem bytes : Nat → UInt8} {base n a : Nat}
    (h : ∀ j < n, base + j = a → bytes j = mem (base + j)) : overwrite mem base n bytes a = mem a := by
  unfold overwrite
  by_cases ha : base ≤ a ∧ a < base + n
  · rw [if_pos ha, h (a - base) (by omega) (by omega), Nat.add_sub_of_le ha.1]
  · rw [if_neg ha]

private theorem Fits.wholeTile_untiled (h : c.Fits)
    (hlinear : c.width * c.height * c.alignedBytesPerPixel ≤ linear.size) (htiled : c.tileSize * c.tiles ≤ tiled.size)
    {tile : Nat} (htile : tile < c.tiles)
    (hs : Untiled c host linear tiled tile s) :
    ∃ s', c.wholeTile host true s (c.tileSize * tile) = .ok s' ∧ Untiled c host linear tiled (tile + 1) s' := by
  have hend : c.tileSize * (tile + 1) ≤ c.tileSize * c.tiles := Nat.mul_le_mul_left _ htile
  rw [Nat.mul_succ] at hend
  have hinside := (h.rectangle_le htile).trans hlinear
  obtain ⟨bytes, hcopy, hpixels, hother⟩ := mortonCopyTile_decodes host
    ⟨c.linearTileStride, fun i => s.linear.bytes ((c.walkAt tile).linearOffset + i)⟩ h.format h.tileFits
    fun j => tiled.bytes (c.tileSize * tile + j)
  obtain ⟨walk, hnext, hwalk⟩ := h.exists_nextTile tile
  have hdata : s.linear.subspan (c.walkAt tile).linearOffset c.linearTileStride =
      .ok ⟨c.linearTileStride, fun i => s.linear.bytes ((c.walkAt tile).linearOffset + i)⟩ :=
    if_pos (by rwa [hs.size])
  have htile' : tiled.subspan (c.tileSize * tile) c.tileSize =
      .ok ⟨c.tileSize, fun j => tiled.bytes (c.tileSize * tile + j)⟩ := if_pos (by omega)
  have hcopy' : mortonCopyTile host c.format c.converted true c.width
      ⟨c.tileSize, fun j => tiled.bytes (c.tileSize * tile + j)⟩
      ⟨c.linearTileStride, fun i => s.linear.bytes ((c.walkAt tile).linearOffset + i)⟩ = _ := hcopy
  unfold wholeTile
  rw [hs.walk htile, hs.kept, hdata, ok_bind, htile', ok_bind, hcopy', ok_bind, hnext, ok_bind]
  refine ⟨_, rfl, ?_⟩
  constructor
  · exact hwalk
  · unfold Span.writeBack
    rw [show getFormatBpp c.format * 64 / 8 = c.tileSize from rfl, overwrite_self]
  · exact hs.size
  · intro tile' htile' p hp i b hb
    have hi : i < linearBytesPerPixel c.format c.converted :=
      (List.getElem?_eq_some_iff.mp hb).1.trans_le (length_decodedPixel_le host h.format _ _)
    dsimp only [Span.writeBack]
    rcases Nat.lt_or_ge tile' tile with hlt | hge
    · -- The pixel is one of an earlier tile.
      rw [overwrite_of_others]
      · exact hs.pixels tile' hlt p hp i b hb
      · intro j hj hplace
        refine hother j fun q hq hmem => ?_
        have hindex : c.pixelIndex tile' p ≠ c.pixelIndex tile q := fun heq =>
          absurd (h.pixelIndex_inj (hlt.trans htile) htile hp hq heq) (by omega)
        refine blocks_disjoint hindex hi ?_
        have hp' := h.linearPlace_eq (hlt.trans htile) hp
        have hq' := h.linearPlace_eq htile hq
        unfold alignedBytesPerPixel at hp' hq'
        omega
    · obtain rfl : tile' = tile := by omega
      have hplace : linearPlace c.format c.converted c.width p + linearBytesPerPixel c.format c.converted ≤
          (7 * c.width + 8) * linearBytesPerPixel c.format c.converted := linearPlace_add_le hp
      have hstride := h.linearTileStride_eq
      unfold alignedBytesPerPixel at hstride
      rw [overwrite_of_mem (Nat.le_add_right _ _) (by omega), Nat.add_sub_cancel_left]
      exact hpixels p hp i b hb

theorem Fits.tiles_pos (h : c.Fits) : 0 < c.tiles := by
  have hwidth := Nat.le_of_dvd h.wide h.columns
  have hheight := Nat.le_of_dvd h.tall h.rows
  exact Nat.mul_pos (by omega) (by omega)

private theorem Fits.mortonCopy_untiled (h : c.Fits) (host : CodecHost) (linear tiled : Span)
    (hlinear : c.width * c.height * c.alignedBytesPerPixel ≤ linear.size) (htiled : tiled.size = c.tileSize * c.tiles)
    (hsmall : c.tileSize * c.tiles < 2 ^ 32) (headBuf tailBuf : Nat → UInt8) :
    ∃ linear', mortonCopy host true c.whole headBuf tailBuf linear tiled = .ok (linear', tiled) ∧
      linear'.size = linear.size ∧
      ∀ tile < c.tiles, DecodesTile host c.format c.converted c.width
        (fun j => tiled.bytes (c.tileSize * tile + j)) fun i => linear'.bytes ((c.walkAt tile).linearOffset + i) := by
  have hpos := h.tileSize_pos
  have hwhole : c.whole.Fits := ⟨h.format, h.columns, h.rows, h.wide, h.tall, h.small⟩
  have hzero : c.whole.alignedStartOffset = 0 := by
    unfold alignedStartOffset RasterizerCache.alignUp
    exact if_pos (Nat.zero_mod _)
  have hend : c.whole.alignedEndOffset = c.tileSize * c.tiles :=
    (SurfaceParams.alignDown_eq _ _).trans (floorTo_of_dvd (Nat.dvd_mul_right _ _))
  have hlast : loopEnd 0 (c.tileSize * c.tiles) c.tileSize = c.tileSize * c.tiles := by
    rw [loopEnd, loopTurns_of_dvd hpos (Nat.dvd_mul_right _ _), Nat.zero_add]
  have hstart : Untiled c host linear tiled 0 (c.whole.startState linear tiled) :=
    { walk := fun htile => hwhole.startWalk_eq htile (Nat.zero_sub _) (show 0 < 2 ^ 29 by decide)
      kept := rfl
      size := rfl
      pixels := fun tile htile => absurd htile (Nat.not_lt_zero tile) }
  have hloop : Outcome (fun _ => False) (Untiled c host linear tiled c.tiles)
      (countedLoop 0 (c.tileSize * c.tiles) c.tileSize (c.wholeTile host true) (c.whole.startState linear tiled)) := by
    refine (countedLoop_outcome (fun i s => ∃ done, i = c.tileSize * done ∧ Untiled c host linear tiled done s) hpos
      ⟨0, (Nat.mul_zero _).symm, hstart⟩ ?_).mono ?_
    · rintro k t hk ⟨done, hdone, ht⟩
      rw [Nat.zero_add] at hdone hk
      rw [Nat.zero_add, Nat.zero_add]
      obtain rfl := Nat.eq_of_mul_eq_mul_left hpos hdone
      obtain ⟨t', ht', huntiled⟩ := h.wholeTile_untiled hlinear htiled.ge (Nat.lt_of_mul_lt_mul_left hk) ht
      exact Outcome.of_ok ⟨t', ht', k + 1, rfl, huntiled⟩
    · rintro s' ⟨done, hdone, hs'⟩
      rw [hlast] at hdone
      rwa [Nat.eq_of_mul_eq_mul_left hpos hdone]
  obtain ⟨s', hs', huntiled⟩ := hloop.exists_ok
  have htiles : c.whole.wholeTiles host true (c.whole.startState linear tiled) = .ok s' := by
    have htilesPos : 0 < c.tiles := h.tiles_pos
    unfold wholeTiles
    rw [hzero, hend, if_pos (Nat.mul_pos hpos htilesPos)]
    dsimp only [startState]
    rw [htiled, Nat.mod_eq_of_lt hsmall, addU32_eq (by omega), Nat.zero_add, subU32_eq (Nat.zero_le _) hsmall,
      Nat.sub_zero, Nat.min_self]
    exact hs'
  refine ⟨s'.linear, ?_, huntiled.size, huntiled.pixels⟩
  unfold mortonCopy
  rw [if_neg (not_and_not_right.mpr fun _ => ⟨hzero, hend⟩), if_neg hwhole.rowPixels_ne_zero, if_pos rfl, htiles,
    ok_bind, huntiled.kept]

end MortonCall

open MortonCall

/-- Tiling what untiling has made gives the tiled image back, whatever the buffers hold before. -/
theorem mortonCopy_roundTrip (host : CodecHost) (c : MortonCall) (headBuf tailBuf headBuf' tailBuf' : Nat → UInt8)
    (linear tiled tiled' : Span) (hformat : unswizzles c.format c.converted ∧ swizzles c.format c.converted)
    (hdepth : ¬ (c.format = .d24 ∧ c.converted)) (hcolumns : 8 ∣ c.width) (hrows : 8 ∣ c.height) (hwide : 0 < c.width)
    (htall : 0 < c.height) (hsmall : c.width * c.height * linearBytesPerPixel c.format c.converted ≤ 2 ^ 32)
    (himage : c.tileSize * c.tiles < 2 ^ 32)
    (hlinear : c.width * c.height * linearBytesPerPixel c.format c.converted ≤ linear.size)
    (htiled : tiled.size = c.tileSize * c.tiles) (htiled' : tiled'.size = c.tileSize * c.tiles) :
    ∃ linear' result, mortonCopy host true c.whole headBuf tailBuf linear tiled = .ok (linear', tiled) ∧
      mortonCopy host false c.whole headBuf' tailBuf' linear' tiled' = .ok (linear', result) ∧
      result.size = tiled.size ∧ ∀ i < tiled.size, result.bytes i = tiled.bytes i := by
  have hfits : c.Fits :=
    { format := hformat.2, columns := hcolumns, rows := hrows, wide := hwide, tall := htall, small := hsmall }
  obtain ⟨linear', huntiled, hsize, hpixels⟩ := hfits.mortonCopy_untiled host linear tiled hlinear htiled
    himage headBuf tailBuf
  have hall : c.whole.PartFits tiled'.size :=
    { hfits with
      ordered := Nat.mul_pos hfits.tileSize_pos (Nat.mul_pos (by omega) (by omega))
      inside := Nat.le_refl _
      image := himage
      start := show 0 < 2 ^ 29 by decide
      room := htiled'.ge
      tiled := htiled' ▸ himage }
  have hencodes : TiledImage host c.whole linear'.bytes tiled.bytes :=
    fun tile htile => (hpixels tile htile).encodes hformat.2 hdepth
  refine ⟨linear', _, huntiled,
    hall.mortonCopy_eq linear' tiled' (hlinear.trans hsize.ge) hencodes headBuf' tailBuf', ?_, ?_⟩
  · exact htiled'.trans htiled.symm
  · intro i hi
    have hbyte := c.whole.written_of_lt tiled.bytes tiled' (show i < c.tileSize * c.tiles - 0 by omega)
    rw [show c.whole.startOffset = 0 from rfl, Nat.zero_add] at hbyte
    exact hbyte

/-- An image of eight by eight pixels. -/
theorem mortonCopy_roundTrip_tile :
    ∃ linear' result, mortonCopy ⟨id, id, fun _ _ _ _ => []⟩ true (MortonCall.whole ⟨.i4, false, 8, 8, 0, 0⟩)
        (fun _ => 0) (fun _ => 0) ⟨256, fun _ => 0⟩ ⟨32, fun i => (i * i).toUInt8⟩ =
        .ok (linear', ⟨32, fun i => (i * i).toUInt8⟩) ∧
      mortonCopy ⟨id, id, fun _ _ _ _ => []⟩ false (MortonCall.whole ⟨.i4, false, 8, 8, 0, 0⟩) (fun _ => 1)
        (fun _ => 1) linear' ⟨32, fun _ => 0⟩ = .ok (linear', result) ∧
      result.size = 32 ∧ ∀ i < 32, result.bytes i = (i * i).toUInt8 :=
  mortonCopy_roundTrip ⟨id, id, fun _ _ _ _ => []⟩ ⟨.i4, false, 8, 8, 0, 0⟩ (fun _ => 0) (fun _ => 0) (fun _ => 1)
    (fun _ => 1) ⟨256, fun _ => 0⟩ ⟨32, fun i => (i * i).toUInt8⟩ ⟨32, fun _ => 0⟩ (by decide) (by decide) (by decide)
    (by decide) (by decide) (by decide) (by decide) (by decide) (by decide) rfl rfl

/-- Images of no width, and images whose rows of tiles wrap around, are not untiled. -/
theorem mortonCopy_roundTrip_fails :
    mortonCopy ⟨id, id, fun _ _ _ _ => []⟩ true (MortonCall.whole ⟨.i4, false, 0, 8, 0, 0⟩) (fun _ => 0) (fun _ => 0)
        ⟨0, fun _ => 0⟩ ⟨0, fun _ => 0⟩ = .error .divisionByZero ∧
      mortonCopy ⟨id, id, fun _ _ _ _ => []⟩ true (MortonCall.whole ⟨.i4, false, 2 ^ 29, 8, 0, 0⟩) (fun _ => 0)
        (fun _ => 0) ⟨2 ^ 34, fun _ => 0⟩ ⟨2 ^ 31, fun _ => 0⟩ = .error .divisionByZero :=
  ⟨by rfl, by rfl⟩

end SweepDSEmu.VideoCore
