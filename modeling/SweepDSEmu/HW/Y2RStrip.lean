import Mathlib.Data.List.GetD
import SweepDSEmu.HW.Y2RTransfer

/-!
# Strips of the Y2R conversion

Where the pixels of a strip go.  The tiles are rotated one by one and written one after another; together this rotates
the strip and puts its pixels into linear or Morton order: `convertTiles_eq`.
-/

namespace SweepDSEmu.Y2R

/-- The place of a pixel in the rotated strip. -/
def rotated (rotation : Rotation) (width height x y : Nat) : Nat × Nat :=
  match rotation with
  | .clockwise90 => (height - 1 - y, x)
  | .clockwise180 => (width - 1 - x, height - 1 - y)
  | .clockwise270 => (y, width - 1 - x)
  | _ => (x, y)

def rotatedWidth (rotation : Rotation) (width height : Nat) : Nat :=
  match rotation with
  | .clockwise90 | .clockwise270 => height
  | _ => width

/-- The bits of the coordinates in a tile, by turns. -/
def mortonIndex (x y : Nat) : Nat :=
  x % 2 + 2 * (y % 2) + 4 * (x / 2 % 2) + 8 * (y / 2 % 2) + 16 * (x / 4 % 2) + 32 * (y / 4 % 2)

/-- The index of a place of an image, line by line or tile by tile. -/
def imageIndex (alignment : BlockAlignment) (width : Nat) (p : Nat × Nat) : Nat :=
  match alignment with
  | .block8x8 => (p.2 / 8 * (width / 8) + p.1 / 8) * 64 + mortonIndex (p.1 % 8) (p.2 % 8)
  | _ => p.2 * width + p.1

/-- The position of a pixel among those that are sent. -/
def position (rotation : Rotation) (alignment : BlockAlignment) (width height x y : Nat) : Nat :=
  imageIndex alignment (rotatedWidth rotation width height) (rotated rotation width height x y)

theorem mem_pixels {width height : Nat} {p : Nat × Nat} : p ∈ pixels width height ↔ p.1 < width ∧ p.2 < height := by
  simp only [pixels, List.mem_flatMap, List.mem_map, List.mem_range]
  constructor
  · rintro ⟨y, hy, x, hx, rfl⟩
    exact ⟨hx, hy⟩
  · exact fun h => ⟨p.2, h.2, p.1, h.1, rfl⟩

theorem length_pixels (width height : Nat) : (pixels width height).length = height * width := by
  simp [pixels, List.length_flatMap]

theorem nodup_pixels (width height : Nat) : (pixels width height).Nodup := by
  refine List.nodup_flatMap.mpr ⟨fun y _ => List.nodup_range.map fun _ _ h => congrArg Prod.fst h, ?_⟩
  refine List.nodup_range.imp fun {y y'} hne => ?_
  intro p hp hp'
  obtain ⟨_, _, rfl⟩ := List.mem_map.mp hp
  obtain ⟨_, _, h⟩ := List.mem_map.mp hp'
  exact hne (congrArg Prod.snd h).symm

theorem row_le {y width height x : Nat} (hy : y < height) (hx : x < width) : y * width + x < height * width := by
  have hrow := Nat.mul_le_mul_right width hy
  rw [Nat.succ_mul] at hrow
  omega

private theorem eq_of_row {w a b c d : Nat} (hb : b < w) (hd : d < w) (h : a * w + b = c * w + d) : a = c ∧ b = d := by
  have hdiv := congrArg (· / w) h
  have hmod := congrArg (· % w) h
  simp only [Nat.mul_add_mod', Nat.mod_eq_of_lt hb, Nat.mod_eq_of_lt hd] at hmod
  simp only [Nat.mul_comm _ w, Nat.mul_add_div (show 0 < w by omega), Nat.div_eq_of_lt hb, Nat.div_eq_of_lt hd,
    Nat.add_zero] at hdiv
  exact ⟨hdiv, hmod⟩

theorem wordOf_writeWord {size i : Nat} (data : Nat → UInt8) (word : UInt32) (h : 4 * i + 4 ≤ size) :
    ∃ data', writeWord size data i word = .ok data' ∧ wordOf data' i = word ∧
      ∀ j, j ≠ i → wordOf data' j = wordOf data j := by
  refine ⟨_, if_pos h, ?_, fun j hj => ?_⟩
  · have hbytes : wordOf (overwrite data (4 * i) 4 fun k => (toLittleEndian 4 word.toNat).getD k 0) i =
        (ofLittleEndian (toLittleEndian 4 word.toNat)).toUInt32 := by
      unfold wordOf
      rw [overwrite_of_mem (by omega) (by omega), overwrite_of_mem (by omega) (by omega),
        overwrite_of_mem (by omega) (by omega), overwrite_of_mem (by omega) (by omega), Nat.sub_self,
        Nat.add_sub_cancel_left, Nat.add_sub_cancel_left, Nat.add_sub_cancel_left]
      rfl
    rw [hbytes, ofLittleEndian_toLittleEndian word.toNat_lt]
    exact UInt32.ofNat_toNat
  · unfold wordOf
    rw [overwrite_of_not_mem (by omega), overwrite_of_not_mem (by omega), overwrite_of_not_mem (by omega),
      overwrite_of_not_mem (by omega)]

def pixelColor (format : InputFormat) (data : Nat → UInt8) (width : Nat) (c : CoefficientSet) (x y : Nat) : UInt32 :=
  let (placeY, placeU, placeV) := samplePlaces format width x y
  convertPixel c (data placeY) (data placeU) (data placeV)

theorem convertYUVToRGB_eq (format : InputFormat) (data : Nat → UInt8) (tiles : Nat → ImageTile) {width height : Nat}
    (c : CoefficientSet) (hwidth : width % 8 = 0) (hheight : height ≤ 8) :
    ∃ tiles', convertYUVToRGB format (width * 8 * 4) data (width / 8) tiles width height c = .ok tiles' ∧
      ∀ x < width, ∀ y < height, tiles' (x / 8) (y * 8 + x % 8) = pixelColor format data width c x y := by
  have hscatter := foldlM_scatter (s := tiles) (f := fun output p => do
      let places := samplePlaces format width p.1 p.2
      let sampleY ← readAt (width * 8 * 4) data places.1
      let sampleU ← readAt (width * 8 * 4) data places.2.1
      let sampleV ← readAt (width * 8 * 4) data places.2.2
      writeTile (width / 8) output (p.1 / 8) (p.2 * 8 + p.1 % 8) (convertPixel c sampleY sampleU sampleV))
    (l := pixels width height) (fun tiles (q : Nat × Nat) => tiles q.1 q.2) (fun _ => True)
    (fun p => (p.1 / 8, p.2 * 8 + p.1 % 8)) (fun p => pixelColor format data width c p.1 p.2) ?_ trivial ?_
  · obtain ⟨tiles', hrun, -, hcolors, -⟩ := hscatter
    exact ⟨tiles', hrun, fun x hx y hy => hcolors (x, y) (mem_pixels.mpr ⟨hx, hy⟩)⟩
  · intro p _ p' _ hsame
    have htile := (Prod.mk.inj hsame).1
    have hindex := (Prod.mk.inj hsame).2
    rw [show p.1 = p'.1 by omega, show p.2 = p'.2 by omega]
  · rintro tiles ⟨x, y⟩ hp -
    obtain ⟨hx, hy⟩ := mem_pixels.mp hp
    dsimp only at hx hy ⊢
    have hrow : y * width + x < 8 * width := row_le (hy.trans_le hheight) hx
    have hhalf : y / 2 * width ≤ y * width := Nat.mul_le_mul_right width (Nat.div_le_self y 2)
    have hplaces : (samplePlaces format width x y).1 < width * 8 * 4 ∧
        (samplePlaces format width x y).2.1 < width * 8 * 4 ∧ (samplePlaces format width x y).2.2 < width * 8 * 4 := by
      cases format <;> simp only [samplePlaces, inputU, inputV] <;> omega
    refine ⟨Function.update tiles (x / 8) (Function.update (tiles (x / 8)) (y * 8 + x % 8)
      (pixelColor format data width c x y)), ?_, trivial, ?_, ?_⟩
    · rw [readAt, if_pos hplaces.1, ok_bind, readAt, if_pos hplaces.2.1, ok_bind, readAt, if_pos hplaces.2.2, ok_bind,
        writeTile, readAt, if_pos (by omega), ok_bind, writeAt, if_pos (by unfold TILE_SIZE; omega), ok_bind, writeAt,
        if_pos (by omega)]
      rfl
    · simp
    · intro q hq
      by_cases htile : q.1 = x / 8
      · rw [htile, Function.update_self, Function.update_of_ne]
        intro hindex
        exact hq (Prod.ext htile hindex)
      · rw [Function.update_of_ne htile]

theorem getElem?_flatMap {α β : Type} {l : List α} {g : α → List β} {n i j : Nat} (hg : ∀ a, (g a).length = n)
    (hj : j < n) : (l.flatMap g)[i * n + j]? = l[i]?.bind fun a => (g a)[j]? := by
  induction l generalizing i with
  | nil => simp
  | cons a l ih =>
    cases i with
    | zero => rw [List.flatMap_cons, Nat.zero_mul, Nat.zero_add, List.getElem?_append_left (by rw [hg]; exact hj)]; rfl
    | succ i =>
      rw [List.flatMap_cons, List.getElem?_append_right (by rw [hg, Nat.succ_mul]; omega), hg, Nat.succ_mul,
        show i * n + n + j - n = i * n + j by omega, ih]
      rfl

/-- How a strip is written: the order of the elements of a tile, where they go in the rotated tile, the tile that is
written first, and the lines and strides of the output. -/
structure Layout where
  order : List Nat
  lut : List Nat
  flipped : Bool
  lines : Nat
  stride : Nat
  outputStride : Nat

namespace Layout

def ofRotation (rotation : Rotation) (height : Nat) : List Nat :=
  match rotation with
  | .clockwise90 => order90 height
  | .clockwise180 => order180 height
  | .clockwise270 => order270 height
  | _ => order0 height

def of (rotation : Rotation) (alignment : BlockAlignment) (width height : Nat) : Layout where
  order := ofRotation rotation height
  lut := if alignment = .block8x8 then mortonLut else linearLut
  flipped := rotation = .clockwise180 ∨ rotation = .clockwise270
  lines := if alignment = .block8x8 then 8 else height
  stride := if alignment = .linear ∧ (rotation = .none ∨ rotation = .clockwise180) then width else 8
  outputStride :=
    if alignment = .block8x8 then TILE_SIZE
    else if rotation = .none ∨ rotation = .clockwise180 then 8
    else 8 * height

variable (layout : Layout)

def source (numTiles i : Nat) : Nat := if layout.flipped then numTiles - i - 1 else i

/-- The place of an element of the tile of a turn. -/
def place (i k : Nat) : Nat := layout.outputStride * i + (k / 8 * layout.stride + k % 8)

def turn (size numTiles : Nat) (tiles : Nat → ImageTile) (t : TileState) (i : Nat) :
    Except ConversionFault TileState := do
  let tile ← readAt numTiles tiles (layout.source numTiles i)
  let tmpTile ← rotateTile layout.order tile t.tmpTile (some layout.lut)
  let data ← writeTileToOutput size t.data t.outputBuffer tmpTile layout.lines layout.stride
  .ok { data := data, tmpTile := tmpTile, outputBuffer := t.outputBuffer + layout.outputStride }

structure Fits (numTiles height : Nat) : Prop where
  lut_nodup : layout.lut.Nodup
  lut_length : layout.lut.length = 64
  lut_lt : ∀ k ∈ layout.lut, k < 64
  order_lt : ∀ i ∈ layout.order, i < 64
  order_length : layout.order.length = 8 * height
  written : ∀ o < 8 * height, layout.lut.getD o 0 < 8 * layout.lines
  lines : layout.lines ≤ 8
  stride : 8 ≤ layout.stride
  place_lt : ∀ i < numTiles, ∀ k < 8 * layout.lines, layout.place i k < height * (8 * numTiles)
  place_inj : ∀ i < numTiles, ∀ i' < numTiles, ∀ k < 8 * layout.lines, ∀ k' < 8 * layout.lines,
    layout.place i k = layout.place i' k' → i = i' ∧ k = k'

variable {layout} {numTiles height : Nat}

theorem Fits.lut_inj (h : layout.Fits numTiles height) {o o' : Nat} (ho : o < 64) (ho' : o' < 64)
    (heq : layout.lut.getD o 0 = layout.lut.getD o' 0) : o = o' := by
  rw [List.getD_eq_getElem _ _ (by rw [h.lut_length]; exact ho),
    List.getD_eq_getElem _ _ (by rw [h.lut_length]; exact ho')] at heq
  exact (h.lut_nodup.getElem_inj_iff).mp heq

theorem Fits.lt_height (h : layout.Fits numTiles height) {o i : Nat} (ho : layout.order[o]? = some i) :
    o < 8 * height := by
  rw [← h.order_length]
  exact (List.getElem?_eq_some_iff.mp ho).1

theorem Fits.rotateTile_eq (h : layout.Fits numTiles height) (hheight : height ≤ 8) (tile tmpTile : ImageTile) :
    ∃ tmpTile', rotateTile layout.order tile tmpTile (some layout.lut) = .ok tmpTile' ∧
      ∀ o i, layout.order[o]? = some i → tmpTile' (layout.lut.getD o 0) = tile i := by
  have hmem {p : Nat × Nat} (hp : p ∈ layout.order.zipIdx) : layout.order[p.2]? = some p.1 :=
    List.mem_zipIdx_iff_getElem?.mp hp
  have hlt {p : Nat × Nat} (hp : p ∈ layout.order.zipIdx) : p.2 < 64 := by
    have := h.lt_height (hmem hp)
    omega
  have hscatter := foldlM_scatter (s := tmpTile) (f := fun output p => do
      let k ← outMapAt (some layout.lut) p.2
      let color ← readAt TILE_SIZE tile p.1
      writeAt TILE_SIZE output k color)
    (l := layout.order.zipIdx) (fun (output : ImageTile) k => output k) (fun _ => True)
    (fun p => layout.lut.getD p.2 0) (fun p => tile p.1) ?_ trivial ?_
  · obtain ⟨tmpTile', hrun, -, hcolors, -⟩ := hscatter
    exact ⟨tmpTile', hrun, fun o i ho => hcolors (i, o) (List.mem_zipIdx_iff_getElem?.mpr ho)⟩
  · intro p hp p' hp' hsame
    have hindex := hmem hp
    rw [h.lut_inj (hlt hp) (hlt hp') hsame, hmem hp'] at hindex
    rw [Option.some.inj hindex]
  · rintro t p hp -
    have hk : p.2 < layout.lut.length := by rw [h.lut_length]; exact hlt hp
    have hlut : layout.lut.getD p.2 0 < 64 := by
      rw [List.getD_eq_getElem _ _ hk]
      exact h.lut_lt _ (List.getElem_mem hk)
    have hread : p.1 < TILE_SIZE := h.order_lt _ (List.mem_of_getElem? (hmem hp))
    refine ⟨Function.update t (layout.lut.getD p.2 0) (tile p.1), ?_, trivial, Function.update_self .., fun k hk =>
      Function.update_of_ne hk ..⟩
    rw [outMapAt, List.getElem?_eq_getElem hk, ← List.getD_eq_getElem _ 0 hk, ok_bind, readAt, if_pos hread, ok_bind,
      writeAt, if_pos (by exact hlut)]

theorem writeTileToOutput_eq {size output lines stride : Nat} (data : Nat → UInt8) (tile : ImageTile)
    (hlines : lines ≤ 8) (hstride : 8 ≤ stride)
    (hsize : ∀ k < 8 * lines, 4 * (output + (k / 8 * stride + k % 8)) + 4 ≤ size) :
    ∃ data', writeTileToOutput size data output tile lines stride = .ok data' ∧
      (∀ k < 8 * lines, wordOf data' (output + (k / 8 * stride + k % 8)) = tile k) ∧
      ∀ j, (∀ k < 8 * lines, j ≠ output + (k / 8 * stride + k % 8)) → wordOf data' j = wordOf data j := by
  have hplace (x y : Nat) (hx : x < 8) : (y * 8 + x) / 8 * stride + (y * 8 + x) % 8 = y * stride + x := by
    rw [show (y * 8 + x) / 8 = y by omega, show (y * 8 + x) % 8 = x by omega]
  have hscatter := foldlM_scatter (s := data) (f := fun data p => do
      let color ← readAt TILE_SIZE tile (p.2 * 8 + p.1)
      writeWord size data (output + (p.2 * stride + p.1)) color)
    (l := pixels 8 lines) wordOf (fun _ => True) (fun p => output + (p.2 * stride + p.1))
    (fun p => tile (p.2 * 8 + p.1)) ?_ trivial ?_
  · obtain ⟨data', hrun, -, hcolors, hrest⟩ := hscatter
    refine ⟨data', hrun, fun k hk => ?_, fun j hj => hrest j fun p hp => ?_⟩
    · rw [hcolors (k % 8, k / 8) (mem_pixels.mpr ⟨by dsimp only; omega, by dsimp only; omega⟩)]
      exact congrArg tile (by dsimp only; omega)
    · obtain ⟨hx, hy⟩ := mem_pixels.mp hp
      rw [← hplace _ _ hx]
      exact hj _ (by omega)
  · intro p hp p' hp' hsame
    obtain ⟨hx, -⟩ := mem_pixels.mp hp
    obtain ⟨hx', -⟩ := mem_pixels.mp hp'
    have hsame : p.2 * stride + p.1 = p'.2 * stride + p'.1 := by omega
    obtain ⟨hy, hx⟩ := eq_of_row (hx.trans_le hstride) (hx'.trans_le hstride) hsame
    rw [hx, hy]
  · rintro t ⟨x, y⟩ hp -
    obtain ⟨hx, hy⟩ := mem_pixels.mp hp
    have hsize := hsize (y * 8 + x) (by omega)
    rw [hplace x y hx] at hsize
    obtain ⟨u, hu, hword, hother⟩ := wordOf_writeWord t (tile (y * 8 + x)) hsize
    exact ⟨u, by rw [readAt, if_pos (by unfold TILE_SIZE; omega), ok_bind]; exact hu, trivial, hword, hother⟩

theorem Fits.turns_eq (h : layout.Fits numTiles height) (hheight : height ≤ 8) (tiles : Nat → ImageTile)
    (data : Nat → UInt8) (tmpTile : ImageTile) {n : Nat} (hn : n ≤ numTiles) :
    ∃ t, (List.range n).foldlM (layout.turn (8 * numTiles * 8 * 4) numTiles tiles)
        { data, tmpTile, outputBuffer := 0 } = .ok t ∧ t.outputBuffer = layout.outputStride * n ∧
      ∀ i < n, ∀ o k, layout.order[o]? = some k →
        wordOf t.data (layout.place i (layout.lut.getD o 0)) = tiles (layout.source numTiles i) k := by
  induction n with
  | zero => exact ⟨_, rfl, rfl, fun i hi => absurd hi (Nat.not_lt_zero i)⟩
  | succ n ih =>
    obtain ⟨t, hrun, hbuffer, hwritten⟩ := ih (by omega)
    have hsource : layout.source numTiles n < numTiles := by unfold source; split <;> omega
    obtain ⟨tmpTile', hrotate, htmp⟩ := h.rotateTile_eq hheight (tiles (layout.source numTiles n)) t.tmpTile
    have hsize : ∀ k < 8 * layout.lines,
        4 * (t.outputBuffer + (k / 8 * layout.stride + k % 8)) + 4 ≤ 8 * numTiles * 8 * 4 := by
      intro k hk
      have hplace := h.place_lt n hn k hk
      have hle := Nat.mul_le_mul_right (8 * numTiles) hheight
      rw [place, ← hbuffer] at hplace
      omega
    obtain ⟨data', hwrite, hwords, hrest⟩ := writeTileToOutput_eq t.data tmpTile' h.lines h.stride hsize
    refine ⟨{ data := data', tmpTile := tmpTile', outputBuffer := t.outputBuffer + layout.outputStride }, ?_, ?_, ?_⟩
    · rw [List.range_succ, List.foldlM_append, hrun, ok_bind, List.foldlM_cons, turn, readAt, if_pos hsource, ok_bind,
        hrotate, ok_bind, hwrite]
      rfl
    · rw [hbuffer, Nat.mul_succ]
    · intro i hi o k ho
      have hk := h.written o (h.lt_height ho)
      rw [hbuffer] at hwords hrest
      rcases Nat.lt_succ_iff_lt_or_eq.mp hi with hi | rfl
      · rw [hrest _ fun k' hk' hsame => (Nat.ne_of_lt hi)
          (h.place_inj i (by omega) n hn _ hk k' hk' hsame).1, hwritten i hi o k ho]
      · exact (hwords _ hk).trans (htmp o k ho)

theorem ofRotation_getElem? (rotation : Rotation) {height x y : Nat} (hx : x < 8) (hy : y < height) :
    (ofRotation rotation height)[position rotation .linear 8 height x y]? = some (y * 8 + x) := by
  cases rotation with
  | none | unknown =>
    simp only [ofRotation, order0, position, rotated, rotatedWidth, imageIndex]
    rw [List.getElem?_range (by omega)]
  | clockwise180 =>
    simp only [ofRotation, order180, position, rotated, rotatedWidth, imageIndex]
    rw [List.getElem?_reverse (by rw [List.length_range]; omega), List.length_range, List.getElem?_range (by omega)]
    exact congrArg some (by omega)
  | clockwise90 =>
    simp only [ofRotation, order90, position, rotated, rotatedWidth, imageIndex]
    rw [getElem?_flatMap (n := height) (by simp) (by omega), List.getElem?_range hx, Option.bind_some,
      List.getElem?_map, List.getElem?_reverse (by rw [List.length_range]; omega), List.length_range,
      List.getElem?_range (by omega)]
    exact congrArg (fun k => some (k * 8 + x)) (by omega)
  | clockwise270 =>
    simp only [ofRotation, order270, position, rotated, rotatedWidth, imageIndex]
    rw [getElem?_flatMap (n := height) (by simp) hy, List.getElem?_reverse (by rw [List.length_range]; omega),
      List.length_range, List.getElem?_range (by omega), Option.bind_some, List.getElem?_map, List.getElem?_range hy]
    exact congrArg (fun k => some (y * 8 + k)) (by omega)

theorem mem_ofRotation {rotation : Rotation} {height i : Nat} (h : i ∈ ofRotation rotation height) :
    i < height * 8 := by
  cases rotation <;>
    simp only [ofRotation, order0, order90, order180, order270, List.mem_flatMap, List.mem_map, List.mem_reverse,
      List.mem_range] at h <;> omega

theorem length_ofRotation (rotation : Rotation) (height : Nat) : (ofRotation rotation height).length = 8 * height := by
  cases rotation <;> simp [ofRotation, order0, order90, order180, order270, List.length_flatMap] <;> omega

theorem mortonLut_getD : ∀ y < 8, ∀ x < 8, mortonLut.getD (y * 8 + x) 0 = mortonIndex x y := by decide

theorem linearLut_getD {k : Nat} (h : k < 64) : linearLut.getD k 0 = k := by
  rw [List.getD_eq_getElem _ _ (by rw [linearLut, List.length_range]; exact h)]
  exact List.getElem_range _

inductive Kind (layout : Layout) (numTiles : Nat) : Prop where
  | rows (hstride : layout.stride = 8 * numTiles) (houtput : layout.outputStride = 8)
  | blocks (hstride : layout.stride = 8) (houtput : layout.outputStride = 8 * layout.lines)

theorem Kind.place_lt (h : Kind layout numTiles) {i k : Nat} (hi : i < numTiles) (hk : k < 8 * layout.lines) :
    layout.place i k < layout.lines * (8 * numTiles) := by
  unfold place
  cases h with
  | rows hstride houtput =>
    rw [hstride, houtput]
    have hrow := row_le (show k / 8 < layout.lines by omega) (show 8 * i + k % 8 < 8 * numTiles by omega)
    omega
  | blocks hstride houtput =>
    rw [hstride, houtput]
    have hle := Nat.mul_le_mul_left (8 * layout.lines) (show i + 1 ≤ numTiles from hi)
    have hwidth : layout.lines * (8 * numTiles) = 8 * layout.lines * numTiles := by
      rw [Nat.mul_left_comm, Nat.mul_assoc]
    rw [Nat.mul_succ] at hle
    omega

theorem Kind.place_inj (h : Kind layout numTiles) {i i' k k' : Nat} (hi : i < numTiles) (hi' : i' < numTiles)
    (hk : k < 8 * layout.lines) (hk' : k' < 8 * layout.lines) (heq : layout.place i k = layout.place i' k') :
    i = i' ∧ k = k' := by
  unfold place at heq
  cases h with
  | rows hstride houtput =>
    rw [hstride, houtput] at heq
    have hsame := eq_of_row (w := 8 * numTiles) (show 8 * i + k % 8 < _ by omega) (show 8 * i' + k' % 8 < _ by omega)
      (a := k / 8) (c := k' / 8) (by omega)
    omega
  | blocks hstride houtput =>
    rw [hstride, houtput, Nat.mul_comm _ i, Nat.mul_comm _ i'] at heq
    exact eq_of_row hk hk' (by omega)

variable {rotation : Rotation} {alignment : BlockAlignment}

structure Converts (rotation : Rotation) (alignment : BlockAlignment) (height : Nat) : Prop where
  knownRotation : rotation ≠ .unknown
  knownAlignment : alignment ≠ .unknown
  height_le : height ≤ 8
  whole : alignment = .block8x8 → height = 8

theorem Converts.kind (h : Converts rotation alignment height) (numTiles : Nat) :
    Kind (of rotation alignment (8 * numTiles) height) numTiles := by
  cases alignment with
  | unknown => exact absurd rfl h.knownAlignment
  | block8x8 => exact .blocks rfl rfl
  | linear =>
    cases rotation with
    | unknown => exact absurd rfl h.knownRotation
    | none | clockwise180 => exact .rows rfl rfl
    | clockwise90 | clockwise270 => exact .blocks rfl rfl

theorem Converts.lines_eq (h : Converts rotation alignment height) (width : Nat) :
    (of rotation alignment width height).lines = height := by
  by_cases hblock : alignment = .block8x8
  · exact (if_pos hblock).trans (h.whole hblock).symm
  · exact if_neg hblock

theorem Converts.fits (h : Converts rotation alignment height) (hpos : 0 < numTiles) :
    (of rotation alignment (8 * numTiles) height).Fits numTiles height := by
  have hlines := h.lines_eq (8 * numTiles)
  have hheight := h.height_le
  refine ⟨?_, ?_, ?_, fun i hi => ?_, length_ofRotation rotation height, fun o ho => ?_,
    hlines.trans_le hheight, ?_,
    fun i hi k hk => (h.kind numTiles).place_lt hi hk |>.trans_eq (by rw [hlines]),
    fun i hi i' hi' k hk k' hk' => (h.kind numTiles).place_inj hi hi' hk hk'⟩
  · unfold of; dsimp only; split <;> decide
  · unfold of; dsimp only; split <;> rfl
  · unfold of; dsimp only; split <;> decide
  · have := mem_ofRotation hi
    omega
  · unfold of
    dsimp only
    split
    · rename_i hblock
      have hsmall : ∀ o < 64, mortonLut.getD o 0 < 64 := by decide
      have hwhole := h.whole hblock
      have := hsmall o (by omega)
      omega
    · rw [linearLut_getD (by omega)]
      exact ho
  · unfold of
    dsimp only
    split <;> omega

def turnOf (layout : Layout) (numTiles i : Nat) : Nat := if layout.flipped then numTiles - 1 - i else i

theorem turnOf_lt {i : Nat} (hi : i < numTiles) : layout.turnOf numTiles i < numTiles := by
  unfold turnOf
  split <;> omega

theorem source_turnOf (layout : Layout) {i : Nat} (hi : i < numTiles) :
    layout.source numTiles (layout.turnOf numTiles i) = i := by
  unfold source turnOf
  split
  · omega
  · rfl

theorem Converts.position_eq (h : Converts rotation alignment height) {x y : Nat} (hx : x < 8 * numTiles)
    (hy : y < height) :
    position rotation alignment (8 * numTiles) height x y =
      (of rotation alignment (8 * numTiles) height).place
        ((of rotation alignment (8 * numTiles) height).turnOf numTiles (x / 8))
        ((of rotation alignment (8 * numTiles) height).lut.getD (position rotation .linear 8 height (x % 8) y) 0) := by
  have hheight := h.height_le
  cases alignment with
  | unknown => exact absurd rfl h.knownAlignment
  | block8x8 =>
    obtain rfl : height = 8 := h.whole rfl
    have hlut : (of rotation .block8x8 (8 * numTiles) 8).lut = mortonLut := rfl
    have hplace (i k : Nat) : (of rotation .block8x8 (8 * numTiles) 8).place i k = i * 64 + k := by
      have hstride : (of rotation .block8x8 (8 * numTiles) 8).stride = 8 := rfl
      have houtput : (of rotation .block8x8 (8 * numTiles) 8).outputStride = 64 := rfl
      rw [place, hstride, houtput]
      omega
    have hmirror : (8 * numTiles - 1 - x) / 8 = numTiles - 1 - x / 8 ∧ (8 * numTiles - 1 - x) % 8 = 8 - 1 - x % 8 := by
      omega
    rw [hlut, hplace]
    cases rotation with
    | unknown => exact absurd rfl h.knownRotation
    | none =>
      simp only [position, imageIndex, rotated, rotatedWidth]
      rw [mortonLut_getD y hy (x % 8) (by omega), Nat.mod_eq_of_lt hy, Nat.div_eq_of_lt hy, Nat.zero_mul, Nat.zero_add]
      rfl
    | clockwise90 =>
      simp only [position, imageIndex, rotated, rotatedWidth]
      rw [mortonLut_getD (x % 8) (by omega) (8 - 1 - y) (by omega), Nat.mod_eq_of_lt (show 8 - 1 - y < 8 by omega),
        Nat.div_eq_of_lt (show 8 - 1 - y < 8 by omega), Nat.div_self (by decide), Nat.mul_one]
      rfl
    | clockwise180 =>
      simp only [position, imageIndex, rotated, rotatedWidth]
      rw [mortonLut_getD (8 - 1 - y) (by omega) (8 - 1 - x % 8) (by omega), hmirror.1, hmirror.2,
        Nat.mod_eq_of_lt (show 8 - 1 - y < 8 by omega), Nat.div_eq_of_lt (show 8 - 1 - y < 8 by omega), Nat.zero_mul,
        Nat.zero_add]
      rfl
    | clockwise270 =>
      simp only [position, imageIndex, rotated, rotatedWidth]
      rw [mortonLut_getD (8 - 1 - x % 8) (by omega) y hy, hmirror.1, hmirror.2, Nat.mod_eq_of_lt hy,
        Nat.div_eq_of_lt hy, Nat.div_self (by decide), Nat.mul_one]
      rfl
  | linear =>
    have hbound : position rotation .linear 8 height (x % 8) y < 64 := by
      have hlt := (List.getElem?_eq_some_iff.mp (ofRotation_getElem? rotation (Nat.mod_lt x (by decide)) hy)).1
      rw [length_ofRotation] at hlt
      omega
    have hlut : (of rotation .linear (8 * numTiles) height).lut = linearLut := rfl
    rw [hlut, linearLut_getD hbound]
    cases rotation with
    | unknown => exact absurd rfl h.knownRotation
    | none =>
      show y * (8 * numTiles) + x = 8 * (x / 8) + ((y * 8 + x % 8) / 8 * (8 * numTiles) + (y * 8 + x % 8) % 8)
      rw [show (y * 8 + x % 8) / 8 = y by omega]
      omega
    | clockwise180 =>
      show (height - 1 - y) * (8 * numTiles) + (8 * numTiles - 1 - x) = 8 * (numTiles - 1 - x / 8) +
        (((height - 1 - y) * 8 + (8 - 1 - x % 8)) / 8 * (8 * numTiles) + ((height - 1 - y) * 8 + (8 - 1 - x % 8)) % 8)
      rw [show ((height - 1 - y) * 8 + (8 - 1 - x % 8)) / 8 = height - 1 - y by omega]
      omega
    | clockwise90 =>
      have hsplit : x * height = 8 * height * (x / 8) + x % 8 * height := by
        conv_lhs => rw [← Nat.div_add_mod x 8, Nat.add_mul, Nat.mul_right_comm]
      show x * height + (height - 1 - y) = 8 * height * (x / 8) +
        ((x % 8 * height + (height - 1 - y)) / 8 * 8 + (x % 8 * height + (height - 1 - y)) % 8)
      omega
    | clockwise270 =>
      have hsplit : (8 * numTiles - 1 - x) * height =
          8 * height * (numTiles - 1 - x / 8) + (8 - 1 - x % 8) * height := by
        rw [show 8 * numTiles - 1 - x = 8 * (numTiles - 1 - x / 8) + (8 - 1 - x % 8) by omega, Nat.add_mul,
          Nat.mul_right_comm]
      show (8 * numTiles - 1 - x) * height + y = 8 * height * (numTiles - 1 - x / 8) +
        (((8 - 1 - x % 8) * height + y) / 8 * 8 + ((8 - 1 - x % 8) * height + y) % 8)
      omega

end Layout

end SweepDSEmu.Y2R
