import SweepDSEmu.VideoCore.MortonCopy

/-!
# One tile of a texture

What `MortonCopyTile` does to the pixels.  The Morton index passes through the pixels of a tile, each once; the pixels
of the rectangle of a tile in the linear image do not overlap.  So the loops settle one pixel after the other.
-/

namespace SweepDSEmu.VideoCore

theorem mem_tilePixels {p : Nat × Nat} : p ∈ tilePixels ↔ p.1 < 8 ∧ p.2 < 8 := by
  obtain ⟨x, y⟩ := p
  simp [tilePixels, and_comm]

abbrev mortonIndex (p : Nat × Nat) : Nat := mortonInterleave p.1 p.2

theorem mortonIndex_lt : ∀ p ∈ tilePixels, mortonIndex p < 64 := by decide +kernel

theorem mortonIndex_inj : ∀ p ∈ tilePixels, ∀ q ∈ tilePixels, mortonIndex p = mortonIndex q → p = q := by
  decide +kernel

theorem exists_mortonIndex : ∀ m < 64, ∃ p ∈ tilePixels, mortonIndex p = m := by decide +kernel

section

variable {format : PixelFormat} {converted : Bool}

theorem getFormatBpp_of_is4bit (h4bit : is4bit format) : getFormatBpp format = 4 := by
  cases format <;> first | rfl | exact absurd h4bit (by decide)

theorem getFormatBpp_eq (hformat : swizzles format converted) (h4bit : is4bit format = false) :
    getFormatBpp format = 8 * bytesPerPixel format ∧ 0 < bytesPerPixel format ∧ bytesPerPixel format ≤ 4 := by
  cases format <;> cases converted <;>
    first | decide | exact absurd hformat (by decide) | exact absurd h4bit (by decide)

theorem linearBytesPerPixel_pos (hformat : swizzles format converted) : 0 < linearBytesPerPixel format converted := by
  cases format <;> cases converted <;> first | decide | exact absurd hformat (by decide)

theorem linearBytesPerPixel_le (format : PixelFormat) (converted : Bool) :
    linearBytesPerPixel format converted ≤ 4 := by
  cases format <;> cases converted <;> decide

theorem is4bit_linearBytesPerPixel (h4bit : is4bit format) (hformat : swizzles format converted) :
    linearBytesPerPixel format converted = 4 := by
  cases format <;> cases converted <;>
    first | rfl | exact absurd hformat (by decide) | exact absurd h4bit (by decide)

def tilePixel (format : PixelFormat) (tile : Nat → UInt8) (m : Nat) : List UInt8 :=
  if is4bit format then [getNibble tile m]
  else copyBytes (fun i => tile (m * bytesPerPixel format + i)) (bytesPerPixel format)

theorem eq_of_tilePixel (hformat : swizzles format converted) {tile tile' : Nat → UInt8}
    (h : ∀ m < 64, tilePixel format tile m = tilePixel format tile' m) {j : Nat}
    (hj : j < getFormatBpp format * 64 / 8) : tile j = tile' j := by
  unfold tilePixel at h
  cases h4bit : is4bit format with
  | true =>
    simp only [h4bit, ↓reduceIte, List.cons.injEq, and_true] at h
    rw [getFormatBpp_of_is4bit h4bit] at hj
    exact eq_of_getNibble (h (2 * j) (by omega)) (h (2 * j + 1) (by omega))
  | false =>
    simp only [h4bit, Bool.false_eq_true, ↓reduceIte] at h
    obtain ⟨hbpp, hpos, -⟩ := getFormatBpp_eq hformat h4bit
    generalize bytesPerPixel format = b at *
    have hmod := Nat.mod_lt j hpos
    have hbyte := congrArg (fun l : List UInt8 => l[j % b]?) (h (j / b) (Nat.div_lt_of_lt_mul (by omega)))
    rw [getElem?_copyBytes _ hmod, getElem?_copyBytes _ hmod, Nat.mul_comm, Nat.div_add_mod] at hbyte
    exact Option.some.inj hbyte

theorem tilePixel_congr (hformat : swizzles format converted) {tile tile' : Nat → UInt8}
    (h : ∀ j < getFormatBpp format * 64 / 8, tile j = tile' j) {m : Nat} (hm : m < 64) :
    tilePixel format tile m = tilePixel format tile' m := by
  unfold tilePixel
  cases h4bit : is4bit format with
  | true =>
    rw [getFormatBpp_of_is4bit h4bit] at h
    unfold getNibble
    rw [if_pos rfl, if_pos rfl, h (m / 2) (by omega)]
  | false =>
    obtain ⟨hbpp, -, -⟩ := getFormatBpp_eq hformat h4bit
    have hblock := Nat.mul_le_mul_right (bytesPerPixel format) (Nat.succ_le_of_lt hm)
    rw [Nat.succ_mul] at hblock
    refine List.map_congr_left fun i hi => h _ ?_
    have hi := List.mem_range.mp hi
    omega

theorem writeBytes_of_not_mem {mem : Nat → UInt8} {base a : Nat} {bytes : List UInt8}
    (h : ¬ (base ≤ a ∧ a < base + bytes.length)) : writeBytes mem base bytes a = mem a :=
  overwrite_of_not_mem h

theorem writeBytes_startsWith (mem : Nat → UInt8) (base : Nat) (bytes : List UInt8) :
    StartsWith (fun i => writeBytes mem base bytes (base + i)) bytes := by
  intro i b hb
  obtain ⟨hi, hb⟩ := List.getElem?_eq_some_iff.mp hb
  dsimp only
  rw [writeBytes, overwrite_of_mem (Nat.le_add_right _ _) (by omega), Nat.add_sub_cancel_left,
    List.getD_eq_getElem?_getD, List.getElem?_eq_getElem hi]
  exact hb

theorem StartsWith.eq_copyBytes {dest : Nat → UInt8} {bytes : List UInt8} {n : Nat} (h : StartsWith dest bytes)
    (hlength : bytes.length = n) : VideoCore.copyBytes dest n = bytes := by
  refine List.ext_getElem? fun i => ?_
  rcases Nat.lt_or_ge i n with hi | hi
  · rw [getElem?_copyBytes dest hi, List.getElem?_eq_getElem (hlength ▸ hi),
      h i _ (List.getElem?_eq_getElem (hlength ▸ hi))]
  · rw [List.getElem?_eq_none (by rwa [length_copyBytes]), List.getElem?_eq_none (by omega)]

theorem row_column_inj {width row column row' column' : Nat} (hcolumn : column < width) (hcolumn' : column' < width)
    (h : row * width + column = row' * width + column') : row = row' ∧ column = column' := by
  have hpos : 0 < width := by omega
  have hmod := congrArg (· % width) h
  have hdiv := congrArg (· / width) h
  simp only [Nat.mul_comm _ width, Nat.mul_add_mod, Nat.mul_add_div hpos, Nat.mod_eq_of_lt hcolumn,
    Nat.mod_eq_of_lt hcolumn', Nat.div_eq_of_lt hcolumn, Nat.div_eq_of_lt hcolumn', Nat.add_zero] at hmod hdiv
  exact ⟨hdiv, hmod⟩

theorem blocks_disjoint {b m m' i : Nat} (hne : m' ≠ m) (hi : i < b) :
    ¬ (m * b ≤ m' * b + i ∧ m' * b + i < m * b + b) := by
  rintro ⟨hle, hlt⟩
  rcases Nat.lt_or_gt_of_ne hne with h | h
  · have := Nat.mul_le_mul_right b (Nat.succ_le_of_lt h)
    rw [Nat.succ_mul] at this
    omega
  · have := Nat.mul_le_mul_right b (Nat.succ_le_of_lt h)
    rw [Nat.succ_mul] at this
    omega

variable (host : CodecHost)

def encodedPixel (format : PixelFormat) (converted : Bool) (source : Nat → UInt8) : List UInt8 :=
  if is4bit format then [encodePixel4 format source] else encodePixel host format converted source

def decodedPixel (format : PixelFormat) (converted : Bool) (tile : Nat → UInt8) (m : Nat) : List UInt8 :=
  if is4bit format then decodePixel4 format (getNibble tile m)
  else decodePixel host format converted fun i => tile (m * bytesPerPixel format + i)

variable {host}

theorem length_decodedPixel_le (host : CodecHost) (hformat : swizzles format converted) (tile : Nat → UInt8) (m : Nat) :
    (decodedPixel host format converted tile m).length ≤ linearBytesPerPixel format converted := by
  unfold decodedPixel
  cases h4bit : is4bit format with
  | true =>
    rw [if_pos rfl, is4bit_linearBytesPerPixel h4bit hformat]
    unfold decodePixel4
    split <;> exact Nat.le_refl 4
  | false =>
    exact length_decodePixel_le host hformat h4bit _

theorem encodedPixel_decodedPixel (hformat : swizzles format converted) (hdepth : ¬ (format = .d24 ∧ converted))
    {tile dest : Nat → UInt8} {m : Nat} (h : StartsWith dest (decodedPixel host format converted tile m)) :
    encodedPixel host format converted dest = tilePixel format tile m := by
  unfold decodedPixel at h
  unfold encodedPixel tilePixel
  cases h4bit : is4bit format with
  | true =>
    rw [h4bit, if_pos rfl] at h
    rw [if_pos rfl, if_pos rfl, encodePixel4_decodePixel4 h4bit (getNibble_lt tile m) dest h]
  | false =>
    rw [h4bit, if_neg Bool.false_ne_true] at h
    exact encodePixel_decodePixel host hformat h4bit hdepth _ dest h

/-- The offset of a pixel of a tile in the linear buffer, over the natural numbers. -/
def linearPlace (format : PixelFormat) (converted : Bool) (stride : Nat) (p : Nat × Nat) : Nat :=
  ((7 - p.2) * stride + p.1) * linearBytesPerPixel format converted

structure TileFits (format : PixelFormat) (converted : Bool) (stride linearSize : Nat) : Prop where
  wide : 8 ≤ stride
  inside : (7 * stride + 8) * linearBytesPerPixel format converted ≤ linearSize
  small : (7 * stride + 8) * linearBytesPerPixel format converted ≤ 2 ^ 32

variable {stride linearSize : Nat}

variable {p : Nat × Nat}

theorem linearPlace_add_le (hp : p ∈ tilePixels) :
    linearPlace format converted stride p + linearBytesPerPixel format converted ≤
      (7 * stride + 8) * linearBytesPerPixel format converted := by
  obtain ⟨hx, hy⟩ := mem_tilePixels.mp hp
  have hrow : (7 - p.2) * stride ≤ 7 * stride := Nat.mul_le_mul_right stride (Nat.sub_le 7 p.2)
  unfold linearPlace
  rw [← Nat.succ_mul]
  exact Nat.mul_le_mul_right _ (by omega)

theorem linearPlace_disjoint (hwide : 8 ≤ stride) {p q : Nat × Nat} (hp : p ∈ tilePixels) (hq : q ∈ tilePixels)
    (hne : q ≠ p) {i : Nat} (hi : i < linearBytesPerPixel format converted) :
    ¬ (linearPlace format converted stride p ≤ linearPlace format converted stride q + i ∧
      linearPlace format converted stride q + i <
        linearPlace format converted stride p + linearBytesPerPixel format converted) := by
  obtain ⟨hpx, hpy⟩ := mem_tilePixels.mp hp
  obtain ⟨hqx, hqy⟩ := mem_tilePixels.mp hq
  refine blocks_disjoint (fun hplace => hne ?_) hi
  obtain ⟨hrow, hcolumn⟩ := row_column_inj (by omega) (by omega) hplace
  exact Prod.ext hcolumn (by omega)

theorem TileFits.linearPixelOffset_eq (h : TileFits format converted stride linearSize)
    (hpos : 0 < linearBytesPerPixel format converted) (hp : p ∈ tilePixels) :
    linearPixelOffset format converted stride p = linearPlace format converted stride p := by
  obtain ⟨hx, hy⟩ := mem_tilePixels.mp hp
  have hend : linearPlace format converted stride p + linearBytesPerPixel format converted ≤ 2 ^ 32 :=
    (linearPlace_add_le hp).trans h.small
  unfold linearPlace at hend
  have hpixel : (7 - p.2) * stride + p.1 ≤
      ((7 - p.2) * stride + p.1) * linearBytesPerPixel format converted := Nat.le_mul_of_pos_right _ hpos
  have hrow : mulU32 (7 - p.2) stride = (7 - p.2) * stride := SurfaceParams.mulU32_eq (by omega)
  have hindex : addU32 ((7 - p.2) * stride) p.1 = (7 - p.2) * stride + p.1 := SurfaceParams.addU32_eq (by omega)
  unfold linearPixelOffset linearPlace
  rw [SurfaceParams.subU32_eq (by omega) (by decide), hrow, hindex, SurfaceParams.mulU32_eq (by omega)]

private theorem tiledPixelOffset_eq (h4bit : is4bit format = false) (hformat : swizzles format converted) (hp : p ∈ tilePixels) : tiledPixelOffset format p = mortonIndex p * bytesPerPixel format := by
  obtain ⟨-, hpos, hle⟩ := getFormatBpp_eq hformat h4bit
  have hindex := Nat.mul_le_mul_right (bytesPerPixel format) (mortonIndex_lt p hp).le
  exact SurfaceParams.mulU32_eq (show mortonIndex p * bytesPerPixel format < 2 ^ 32 by omega)

theorem TileFits.pixelInRange (h : TileFits format converted stride linearSize) (hformat : swizzles format converted) (hp : p ∈ tilePixels) :
    pixelInRange format converted stride (getFormatBpp format * 64 / 8) linearSize p := by
  have hindex := mortonIndex_lt p hp
  constructor
  · cases h4bit : is4bit format with
    | true =>
      have hbytes : bytesPerPixel format = 0 := by rw [bytesPerPixel, getFormatBpp_of_is4bit h4bit]
      rw [tiledPixelOffset, hbytes]
      exact Nat.zero_le _
    | false =>
      obtain ⟨hbpp, hpos, -⟩ := getFormatBpp_eq hformat h4bit
      have hblock := Nat.mul_le_mul_right (bytesPerPixel format) (Nat.succ_le_of_lt hindex)
      rw [Nat.succ_mul] at hblock
      rw [tiledPixelOffset_eq h4bit hformat hp]
      omega
  · rw [h.linearPixelOffset_eq (linearBytesPerPixel_pos hformat) hp]
    exact (linearPlace_add_le hp).trans h.inside

def EncodesTile (host : CodecHost) (format : PixelFormat) (converted : Bool) (stride : Nat)
    (linear tile : Nat → UInt8) : Prop :=
  ∀ p ∈ tilePixels, tilePixel format tile (mortonIndex p) =
    encodedPixel host format converted fun i => linear (linearPlace format converted stride p + i)

private theorem encodeTilePixel_spec (host : CodecHost) (hformat : swizzles format converted) {linear : Span}
    (h : TileFits format converted stride linear.size) (tile : Nat → UInt8) (hp : p ∈ tilePixels) :
    ∃ t, encodeTilePixel host format converted stride linear (getFormatBpp format * 64 / 8) tile p = .ok t ∧
      tilePixel format t (mortonIndex p) =
        encodedPixel host format converted (fun i => linear.bytes (linearPlace format converted stride p + i)) ∧
      ∀ m, m ≠ mortonIndex p → tilePixel format t m = tilePixel format tile m := by
  unfold encodeTilePixel
  rw [if_neg (not_not_intro (h.pixelInRange hformat hp)), h.linearPixelOffset_eq (linearBytesPerPixel_pos hformat) hp]
  cases h4bit : is4bit format with
  | true =>
    have hvalue := encodePixel4_lt format fun i => linear.bytes (linearPlace format converted stride p + i)
    refine ⟨_, if_pos rfl, ?_, ?_⟩
    · unfold tilePixel encodedPixel
      rw [if_pos h4bit, if_pos h4bit, getNibble_putNibble_self tile (mortonIndex p) hvalue]
    · intro m hm
      unfold tilePixel
      rw [if_pos h4bit, if_pos h4bit, getNibble_putNibble_of_ne tile hm hvalue]
  | false =>
    refine ⟨_, if_neg Bool.false_ne_true, ?_, ?_⟩
    · unfold tilePixel encodedPixel
      rw [if_neg (by rw [h4bit]; decide), if_neg (by rw [h4bit]; decide), tiledPixelOffset_eq h4bit hformat hp]
      exact (writeBytes_startsWith tile _ _).eq_copyBytes (length_encodePixel host hformat h4bit _)
    · intro m hm
      unfold tilePixel
      rw [if_neg (by rw [h4bit]; decide), if_neg (by rw [h4bit]; decide), tiledPixelOffset_eq h4bit hformat hp]
      refine List.map_congr_left fun i hi => writeBytes_of_not_mem ?_
      rw [length_encodePixel host hformat h4bit]
      exact blocks_disjoint hm (List.mem_range.mp hi)

theorem mortonCopyTile_encodes (host : CodecHost) (linear : Span) (hformat : swizzles format converted)
    (h : TileFits format converted stride linear.size) (tile : Nat → UInt8) :
    ∃ t, mortonCopyTile host format converted false stride ⟨getFormatBpp format * 64 / 8, tile⟩ linear =
        .ok (⟨getFormatBpp format * 64 / 8, t⟩, linear) ∧
      EncodesTile host format converted stride linear.bytes t := by
  obtain ⟨t, ht, -, htile⟩ := foldlM_settles (fun _ => True)
    (fun p t => tilePixel format t (mortonIndex p) =
      encodedPixel host format converted fun i => linear.bytes (linearPlace format converted stride p + i))
    (trivial : (fun _ => True) tile) fun t p (hp : p ∈ tilePixels) _ => by
      obtain ⟨u, hu, hpixel, hothers⟩ := encodeTilePixel_spec host hformat h t hp
      refine ⟨u, hu, trivial, hpixel, ?_⟩
      intro q hq hdone
      by_cases hqp : q = p
      · rwa [hqp]
      · rw [hothers _ fun heq => hqp (mortonIndex_inj q hq p hp heq)]
        exact hdone
  refine ⟨t, ?_, htile⟩
  unfold mortonCopyTile
  rw [ht]
  rfl

private theorem decodeTilePixel_eq (host : CodecHost) (hformat : swizzles format converted)
    (h : TileFits format converted stride linearSize) (tile linear : Nat → UInt8) (hp : p ∈ tilePixels) :
    decodeTilePixel host format converted stride ⟨getFormatBpp format * 64 / 8, tile⟩ linearSize linear p =
      .ok (writeBytes linear (linearPlace format converted stride p)
        (decodedPixel host format converted tile (mortonIndex p))) := by
  have hcompressed : isCompressed format = false := by
    cases format <;> first | rfl | exact absurd hformat (by cases converted <;> decide)
  unfold decodeTilePixel decodedPixel
  rw [if_neg (not_not_intro (h.pixelInRange hformat hp)), h.linearPixelOffset_eq (linearBytesPerPixel_pos hformat) hp,
    if_neg (by rw [hcompressed]; decide)]
  cases h4bit : is4bit format with
  | true => rfl
  | false => rw [if_neg Bool.false_ne_true, if_neg Bool.false_ne_true, tiledPixelOffset_eq h4bit hformat hp]

def DecodesTile (host : CodecHost) (format : PixelFormat) (converted : Bool) (stride : Nat)
    (tile linear : Nat → UInt8) : Prop :=
  ∀ p ∈ tilePixels, StartsWith (fun i => linear (linearPlace format converted stride p + i))
    (decodedPixel host format converted tile (mortonIndex p))

theorem mortonCopyTile_decodes (host : CodecHost) (linear : Span) (hformat : swizzles format converted)
    (h : TileFits format converted stride linear.size) (tile : Nat → UInt8) :
    ∃ bytes, mortonCopyTile host format converted true stride ⟨getFormatBpp format * 64 / 8, tile⟩ linear =
        .ok (⟨getFormatBpp format * 64 / 8, tile⟩, { linear with bytes := bytes }) ∧
      DecodesTile host format converted stride tile bytes ∧
      ∀ a, (∀ p ∈ tilePixels, ¬ (linearPlace format converted stride p ≤ a ∧
          a < linearPlace format converted stride p + linearBytesPerPixel format converted)) →
        bytes a = linear.bytes a := by
  obtain ⟨bytes, hbytes, hother, hpixels⟩ := foldlM_settles
    (fun bytes : Nat → UInt8 => ∀ a, (∀ p ∈ tilePixels, ¬ (linearPlace format converted stride p ≤ a ∧
      a < linearPlace format converted stride p + linearBytesPerPixel format converted)) → bytes a = linear.bytes a)
    (fun p bytes => StartsWith (fun i => bytes (linearPlace format converted stride p + i))
      (decodedPixel host format converted tile (mortonIndex p)))
    (fun _ _ => rfl) fun bytes p (hp : p ∈ tilePixels) hinv => by
      have hlength := length_decodedPixel_le host hformat tile (mortonIndex p)
      refine ⟨_, decodeTilePixel_eq host hformat h tile bytes hp, ?_, writeBytes_startsWith bytes _ _, ?_⟩
      · intro a ha
        rw [writeBytes_of_not_mem fun hmem => ha p hp ⟨hmem.1, hmem.2.trans_le (Nat.add_le_add_left hlength _)⟩]
        exact hinv a ha
      · intro q hq hdone
        by_cases hqp : q = p
        · rw [hqp]
          exact writeBytes_startsWith bytes _ _
        · intro i b hb
          have hi : i < linearBytesPerPixel format converted :=
            (List.getElem?_eq_some_iff.mp hb).1.trans_le (length_decodedPixel_le host hformat tile (mortonIndex q))
          have hplaces := linearPlace_disjoint h.wide hp hq hqp hi
          dsimp only
          rw [writeBytes_of_not_mem fun hmem => hplaces ⟨hmem.1, hmem.2.trans_le (Nat.add_le_add_left hlength _)⟩]
          exact hdone i b hb
  refine ⟨bytes, ?_, hpixels, hother⟩
  unfold mortonCopyTile
  rw [if_pos rfl, hbytes]
  rfl

theorem DecodesTile.encodes {host : CodecHost} (hformat : swizzles format converted)
    (hdepth : ¬ (format = .d24 ∧ converted)) {tile linear : Nat → UInt8}
    (h : DecodesTile host format converted stride tile linear) :
    EncodesTile host format converted stride linear tile :=
  fun p hp => (encodedPixel_decodedPixel hformat hdepth (h p hp)).symm

theorem EncodesTile.unique {host : CodecHost} (hformat : swizzles format converted)
    {linear tile tile' : Nat → UInt8} (h : EncodesTile host format converted stride linear tile)
    (h' : EncodesTile host format converted stride linear tile') {j : Nat}
    (hj : j < getFormatBpp format * 64 / 8) : tile j = tile' j := by
  refine eq_of_tilePixel hformat ?_ hj
  intro m hm
  obtain ⟨p, hp, rfl⟩ := exists_mortonIndex m hm
  rw [h p hp, h' p hp]

end

end SweepDSEmu.VideoCore
