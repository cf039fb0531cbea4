import SweepDSEmu.HW.Y2RStrip

/-!
# The pixels of a strip

A strip is sent with each of its pixels once, at its position.  The colors are those of the samples of the pixels,
unless a transfer unit breaks a sample of 16 bits, or the lines of a 4:2:0 strip are odd: then the last line of the
chroma is received by half, and the other half is what the buffer held before.
-/

namespace SweepDSEmu.Y2R

open Layout (Converts)

section

variable {cvt : ConversionConfiguration} {numTiles height size : Nat} {tiles : Nat → ImageTile}

private theorem tileTurn_eq (hconverts : Converts cvt.rotation cvt.blockAlignment height) :
    tileTurn cvt size numTiles height tiles =
      (Layout.of cvt.rotation cvt.blockAlignment cvt.inputLineWidth.toNat height).turn size numTiles tiles := by
  funext t i
  have hrotation := hconverts.knownRotation
  have halignment := hconverts.knownAlignment
  unfold tileTurn Layout.turn
  cases halign : cvt.blockAlignment <;> cases hrot : cvt.rotation <;>
    first
      | exact absurd halign halignment
      | exact absurd hrot hrotation
      | (simp only [Layout.of, Layout.source, ok_bind]
         rfl)

theorem convertTiles_eq (cvt : ConversionConfiguration) (hconverts : Converts cvt.rotation cvt.blockAlignment height)
    (hwidth : cvt.inputLineWidth.toNat = 8 * numTiles) (hpos : 0 < numTiles) (tiles : Nat → ImageTile)
    (data : Nat → UInt8) (tmpTile : ImageTile) :
    ∃ t, (List.range numTiles).foldlM (tileTurn cvt (8 * numTiles * 8 * 4) numTiles height tiles)
        { data, tmpTile, outputBuffer := 0 } = .ok t ∧
      ∀ x < 8 * numTiles, ∀ y < height,
        wordOf t.data (position cvt.rotation cvt.blockAlignment (8 * numTiles) height x y) =
          tiles (x / 8) (y * 8 + x % 8) := by
  have hfits := hconverts.fits hpos
  obtain ⟨t, hrun, -, hwords⟩ := hfits.turns_eq hconverts.height_le tiles data tmpTile (Nat.le_refl numTiles)
  refine ⟨t, by rw [tileTurn_eq hconverts, hwidth]; exact hrun, fun x hx y hy => ?_⟩
  have htile : x / 8 < numTiles := by omega
  rw [hconverts.position_eq hx hy, hwords _ (Layout.turnOf_lt htile) _ _
    (Layout.ofRotation_getElem? cvt.rotation (Nat.mod_lt x (by decide)) hy), Layout.source_turnOf _ htile]

end

/-- The positions of the pixels of a strip are the numbers below the number of pixels, each once. -/
theorem positions_perm {rotation : Rotation} {alignment : BlockAlignment} {numTiles height : Nat}
    (h : Converts rotation alignment height) :
    ((pixels (8 * numTiles) height).map fun p => position rotation alignment (8 * numTiles) height p.1 p.2).Perm
      (List.range (height * (8 * numTiles))) := by
  have hplace {p : Nat × Nat} (hp : p ∈ pixels (8 * numTiles) height) := h.position_eq (mem_pixels.mp hp).1
    (mem_pixels.mp hp).2
  have hindex {p : Nat × Nat} (hp : p ∈ pixels (8 * numTiles) height) :=
    Layout.ofRotation_getElem? rotation (Nat.mod_lt p.1 (show 0 < 8 by decide)) (mem_pixels.mp hp).2
  have hlt {p : Nat × Nat} (hp : p ∈ pixels (8 * numTiles) height) : 0 < numTiles ∧ p.1 / 8 < numTiles := by
    have := (mem_pixels.mp hp).1
    omega
  have hlines := h.lines_eq (8 * numTiles)
  refine (List.Nodup.subperm ?_ ?_).perm_of_length_le ?_
  · refine (nodup_pixels _ _).map_on fun p hp p' hp' hsame => ?_
    have hfits := h.fits (hlt hp).1
    rw [hplace hp, hplace hp'] at hsame
    obtain ⟨hturn, hlut⟩ := hfits.place_inj _ (Layout.turnOf_lt (hlt hp).2) _ (Layout.turnOf_lt (hlt hp').2) _
      (hfits.written _ (hfits.lt_height (hindex hp))) _ (hfits.written _ (hfits.lt_height (hindex hp'))) hsame
    have hheight := h.height_le
    have hsmall {q : Nat × Nat} (hq : q ∈ pixels (8 * numTiles) height) := hfits.lt_height (hindex hq)
    have hsame := hfits.lut_inj (by have := hsmall hp; omega) (by have := hsmall hp'; omega) hlut
    have hpixel := hindex hp
    rw [hsame, hindex hp'] at hpixel
    have hpixel := Option.some.inj hpixel
    have htile : p.1 / 8 = p'.1 / 8 := by
      rw [← Layout.source_turnOf (Layout.of rotation alignment (8 * numTiles) height) (hlt hp).2, hturn,
        Layout.source_turnOf _ (hlt hp').2]
    exact Prod.ext (by omega) (by omega)
  · intro k hk
    obtain ⟨p, hp, rfl⟩ := List.mem_map.mp hk
    have hfits := h.fits (hlt hp).1
    rw [hplace hp, List.mem_range]
    exact hfits.place_lt _ (Layout.turnOf_lt (hlt hp).2) _ (hfits.written _ (hfits.lt_height (hindex hp)))
  · rw [List.length_range, List.length_map, length_pixels]

section

variable {M : Type} {host : DmaMemory M} {bound size rowDataSize : Nat} {s r : ConversionState M}

theorem receiveStrip_keeps (h : receiveStrip host bound size rowDataSize s = .ok r) :
    ∃ data srcY srcU srcV srcYUYV, r = { s with
      data := data
      cvt := { s.cvt with srcY := srcY, srcU := srcU, srcV := srcV, srcYUYV := srcYUYV } } := by
  have hplanes {n divisor : Nat} (h : receivePlanes host bound n divisor size rowDataSize s = .ok r) :
      ∃ data srcY srcU srcV srcYUYV, r = { s with
        data := data
        cvt := { s.cvt with srcY := srcY, srcU := srcU, srcV := srcV, srcYUYV := srcYUYV } } := by
    obtain ⟨p, -, h⟩ := ok_of_bind h
    obtain ⟨q, -, h⟩ := ok_of_bind h
    obtain ⟨q', -, h⟩ := ok_of_bind h
    cases h
    exact ⟨_, _, _, _, s.cvt.srcYUYV, rfl⟩
  unfold receiveStrip at h
  split at h
  case h_5 =>
    obtain ⟨p, -, h⟩ := ok_of_bind h
    cases h
    exact ⟨_, s.cvt.srcY, s.cvt.srcU, s.cvt.srcV, _, rfl⟩
  case h_6 => cases h
  all_goals exact hplanes h

theorem convertStrip_eq (host : DmaMemory M) (bound : Nat) {numTiles height : Nat} (y : Nat)
    (hwidth : s.cvt.inputLineWidth.toNat = 8 * numTiles) (hpos : 0 < numTiles) (hheight : min (s.cvt.inputLines.toNat - y) 8 = height)
    (hconverts : Converts s.cvt.rotation s.cvt.blockAlignment height) (houtput : s.cvt.outputFormat ≠ .unknown)
    (hdst : 0 < s.cvt.dst.transferUnit.toNat) (hbound : height * (8 * numTiles) ≤ bound)
    (hreceive : receiveStrip host bound (8 * numTiles * 8 * 4) (height * (8 * numTiles)) s = .ok r) :
    ∃ s', convertStrip host bound s y = .ok s' ∧
      s'.mem = writePixels host s.cvt.outputFormat s.cvt.alpha.toUInt8 (pixelPlace host s.cvt.outputFormat s.cvt.dst)
        (wordOf s'.data) s.mem (height * (8 * numTiles)) ∧
      ∀ x < 8 * numTiles, ∀ y < height,
        wordOf s'.data (position s.cvt.rotation s.cvt.blockAlignment (8 * numTiles) height x y) =
          pixelColor s.cvt.inputFormat r.data (8 * numTiles) s.cvt.coefficients x y := by
  obtain ⟨data, srcY, srcU, srcV, srcYUYV, rfl⟩ := receiveStrip_keeps hreceive
  obtain ⟨tiles, htiles, hcolors⟩ := convertYUVToRGB_eq s.cvt.inputFormat data s.tiles s.cvt.coefficients
    (Nat.mul_mod_right 8 numTiles) hconverts.height_le
  rw [Nat.mul_div_cancel_left numTiles (by decide)] at htiles
  obtain ⟨t, hturns, hwords⟩ := convertTiles_eq { s.cvt with srcY, srcU, srcV, srcYUYV } hconverts hwidth hpos tiles
    data s.tmpTile
  have hle := Nat.mul_le_mul_right (8 * numTiles) hconverts.height_le
  obtain ⟨units, hsend⟩ := sendData_eq host s.mem houtput t.data s.cvt.alpha.toUInt8 hdst hbound
    (show 4 * (height * (8 * numTiles)) ≤ 8 * numTiles * 8 * 4 by omega)
  refine ⟨{
    mem := writePixels host s.cvt.outputFormat s.cvt.alpha.toUInt8 (pixelPlace host s.cvt.outputFormat s.cvt.dst)
      (wordOf t.data) s.mem (height * (8 * numTiles))
    cvt := { s.cvt with srcY, srcU, srcV, srcYUYV, dst := ConversionBuffer.next^[units] s.cvt.dst }
    data := t.data, tiles, tmpTile := t.tmpTile }, ?_, rfl, fun x hx y hy =>
      (hwords x hx y hy).trans (hcolors x hx y hy)⟩
  unfold convertStrip
  dsimp only
  rw [hheight, hwidth, hreceive, ok_bind, Nat.mul_div_cancel_left numTiles (by decide)]
  rw [htiles, ok_bind, hturns, ok_bind, if_neg houtput, hsend]
  rfl

end

/-- A plane of the input: the bytes of its samples, the samples of a strip, and the buffer. -/
structure Plane where
  n : Nat
  amount : Nat
  buf : ConversionBuffer

namespace InputFormat

def sampleBytes (format : InputFormat) : Nat := if format = .yuv422Indiv16 ∨ format = .yuv420Indiv16 then 2 else 1

def is420 (format : InputFormat) : Prop := format = .yuv420Indiv8 ∨ format = .yuv420Indiv16

instance (format : InputFormat) : Decidable format.is420 := inferInstanceAs (Decidable (_ ∨ _))

def chromaDivisor (format : InputFormat) : Nat := if format.is420 then 4 else 2

/-- The number of a sample of the chroma: two pixels of a line have the same one. -/
def chromaIndex (format : InputFormat) (width x y : Nat) : Nat :=
  (if format.is420 then y / 2 else y) * (width / 2) + x / 2

end InputFormat

def planes (cvt : ConversionConfiguration) (rowDataSize : Nat) : List Plane :=
  let n := cvt.inputFormat.sampleBytes
  let divisor := cvt.inputFormat.chromaDivisor
  if cvt.inputFormat = .yuyv422Interleaved then [⟨1, rowDataSize * 2, cvt.srcYUYV⟩]
  else [⟨n, rowDataSize, cvt.srcY⟩, ⟨n, rowDataSize / divisor, cvt.srcU⟩, ⟨n, rowDataSize / divisor, cvt.srcV⟩]

section

variable {M : Type} (host : DmaMemory M) (mem : M)

/-- A sample of `n` bytes, of which the first one counts.  The transfer units have the bytes one behind the other. -/
def sample (n : Nat) (buf : ConversionBuffer) (k : Nat) : UInt8 :=
  host.read mem (host.getPointer buf.address + strided buf.transferUnit.toNat buf.gap.toNat (n * k))

def pixelSamples (cvt : ConversionConfiguration) (x y : Nat) : UInt8 × UInt8 × UInt8 :=
  let width := cvt.inputLineWidth.toNat
  let n := cvt.inputFormat.sampleBytes
  let chroma := cvt.inputFormat.chromaIndex width x y
  if cvt.inputFormat = .yuyv422Interleaved then
    (sample host mem 1 cvt.srcYUYV (4 * chroma + 2 * (x % 2)), sample host mem 1 cvt.srcYUYV (4 * chroma + 1),
      sample host mem 1 cvt.srcYUYV (4 * chroma + 3))
  else
    (sample host mem n cvt.srcY (y * width + x), sample host mem n cvt.srcU chroma, sample host mem n cvt.srcV chroma)

def receivedSample (n : Nat) (buf : ConversionBuffer) (k : Nat) : UInt8 :=
  host.read mem (host.getPointer buf.address + receivedFrom n (buf.transferUnit.toNat / n) buf.stride k)

variable {host mem}

theorem receivedSample_eq {n k : Nat} {buf : ConversionBuffer} (hn : 0 < n) (h : n ∣ buf.transferUnit.toNat) :
    receivedSample host mem n buf k = sample host mem n buf k := by
  rw [receivedSample, ConversionBuffer.stride, receivedFrom_eq_strided hn h]
  rfl

variable {bound n divisor numTiles rowDataSize : Nat} {s : ConversionState M}

variable (host) in
theorem receivePlanes_eq (hwidth : s.cvt.inputLineWidth.toNat = 8 * numTiles) (hdivisor : 2 ≤ divisor)
    (hsize : rowDataSize ≤ 64 * numTiles) (hbound : rowDataSize ≤ bound) (hY : WholeUnits n rowDataSize s.cvt.srcY)
    (hU : WholeUnits n (rowDataSize / divisor) s.cvt.srcU) (hV : WholeUnits n (rowDataSize / divisor) s.cvt.srcV) :
    ∃ r, receivePlanes host bound n divisor (8 * numTiles * 8 * 4) rowDataSize s = .ok r ∧
      (∀ k < rowDataSize, r.data k = receivedSample host s.mem n s.cvt.srcY k) ∧
      ∀ k < 32 * numTiles,
        r.data (inputU (8 * numTiles) + k) =
            (if k < rowDataSize / divisor then receivedSample host s.mem n s.cvt.srcU k
            else s.data (inputU (8 * numTiles) + k)) ∧
          r.data (inputV (8 * numTiles) + k) =
            (if k < rowDataSize / divisor then receivedSample host s.mem n s.cvt.srcV k
            else s.data (inputV (8 * numTiles) + k)) := by
  have hchroma : rowDataSize / divisor ≤ 32 * numTiles := by
    have := Nat.div_le_div_left hdivisor (show 0 < 2 by decide) (a := rowDataSize)
    omega
  have hplaces : inputU (8 * numTiles) = 64 * numTiles ∧ inputV (8 * numTiles) = 96 * numTiles := by
    unfold inputV inputU
    omega
  unfold receivePlanes
  rw [hwidth, receiveData_eq host s.mem bound s.data hY hbound (by omega), ok_bind]
  dsimp only
  rw [receiveData_eq host s.mem bound _ hU ((Nat.div_le_self _ _).trans hbound) (by omega), ok_bind]
  rw [receiveData_eq host s.mem bound _ hV ((Nat.div_le_self _ _).trans hbound) (by omega), ok_bind]
  refine ⟨_, rfl, fun k hk => ?_, fun k hk => ⟨?_, ?_⟩⟩
  · dsimp only
    rw [overwrite_of_not_mem (by omega), overwrite_of_not_mem (by omega),
      overwrite_of_mem (Nat.zero_le k) (by omega)]
    rfl
  · dsimp only
    rw [overwrite_of_not_mem (by omega)]
    by_cases hin : k < rowDataSize / divisor
    · rw [if_pos hin, overwrite_of_mem (by omega) (by omega), Nat.add_sub_cancel_left]
      rfl
    · rw [if_neg hin, overwrite_of_not_mem (by omega), overwrite_of_not_mem (by omega)]
  · dsimp only
    by_cases hin : k < rowDataSize / divisor
    · rw [if_pos hin, overwrite_of_mem (by omega) (by omega), Nat.add_sub_cancel_left]
      rfl
    · rw [if_neg hin, overwrite_of_not_mem (by omega), overwrite_of_not_mem (by omega),
        overwrite_of_not_mem (by omega)]

end

def StripPlaces {M : Type} (host : DmaMemory M) (s s' : ConversionState M) (height : Nat) : Prop :=
  let width := s.cvt.inputLineWidth.toNat
  s'.mem = writePixels host s.cvt.outputFormat s.cvt.alpha.toUInt8 (pixelPlace host s.cvt.outputFormat s.cvt.dst)
      (wordOf s'.data) s.mem (height * width) ∧
    ∀ x < width, ∀ y < height, wordOf s'.data (position s.cvt.rotation s.cvt.blockAlignment width height x y) =
      convertPixel s.cvt.coefficients (pixelSamples host s.mem s.cvt x y).1 (pixelSamples host s.mem s.cvt x y).2.1
        (pixelSamples host s.mem s.cvt x y).2.2

structure StripDomain (cvt : ConversionConfiguration) (height : Nat) : Prop where
  width : 8 ∣ cvt.inputLineWidth.toNat
  width_pos : 0 < cvt.inputLineWidth.toNat
  height_pos : 0 < height
  input : cvt.inputFormat ≠ .unknown
  output : cvt.outputFormat ≠ .unknown
  converts : Converts cvt.rotation cvt.blockAlignment height
  units : ∀ p ∈ planes cvt (height * cvt.inputLineWidth.toNat), p.buf.transferUnit.toNat ∣ p.n * p.amount
  dst : 0 < cvt.dst.transferUnit.toNat

/-- The strip at a line is sent as it should be, whatever memory and buffers hold. -/
def PlacesStrip (cvt : ConversionConfiguration) (y height : Nat) : Prop :=
  ∀ (M : Type) (host : DmaMemory M) (coefficients : CoefficientSet) (s : ConversionState M),
    s.cvt = { cvt with coefficients := coefficients } → ∀ bound ≥ 2 * (height * cvt.inputLineWidth.toNat),
      ∃ s', convertStrip host bound s y = .ok s' ∧ StripPlaces host s s' height

section

variable {cvt : ConversionConfiguration} {numTiles height y : Nat}

private theorem samplePlaces_planar {format : InputFormat} (hformat : format ≠ .yuyv422Interleaved)
    (hknown : format ≠ .unknown) (numTiles x y : Nat) :
    samplePlaces format (8 * numTiles) x y =
      (y * (8 * numTiles) + x, inputU (8 * numTiles) + format.chromaIndex (8 * numTiles) x y,
        inputV (8 * numTiles) + format.chromaIndex (8 * numTiles) x y) := by
  have hhalf (y : Nat) : (y * (8 * numTiles) + x) / 2 = y * (8 * numTiles / 2) + x / 2 := by
    have hdouble : y * (8 * numTiles) = 2 * (y * (8 * numTiles / 2)) := by
      rw [show 8 * numTiles / 2 = 4 * numTiles by omega, Nat.mul_left_comm, Nat.mul_left_comm y]
      omega
    omega
  cases format <;>
    first
      | exact absurd rfl hformat
      | exact absurd rfl hknown
      | simp [samplePlaces, InputFormat.chromaIndex, InputFormat.is420, hhalf]

theorem receiveStrip_planar {M : Type} {host : DmaMemory M} {bound size rowDataSize : Nat}
    {s : ConversionState M} (hformat : s.cvt.inputFormat ≠ .yuyv422Interleaved)
    (hknown : s.cvt.inputFormat ≠ .unknown) :
    receiveStrip host bound size rowDataSize s =
      receivePlanes host bound s.cvt.inputFormat.sampleBytes s.cvt.inputFormat.chromaDivisor size rowDataSize s := by
  unfold receiveStrip
  cases h : s.cvt.inputFormat <;> first | exact absurd h hformat | exact absurd h hknown | rfl

theorem wholeUnits_of_dvd {n amount : Nat} {buf : ConversionBuffer} (hn : 0 < n) (hamount : 0 < amount)
    (hunit : buf.transferUnit.toNat ∣ n * amount) (hsamples : n ∣ buf.transferUnit.toNat) :
    WholeUnits n amount buf := by
  obtain ⟨m, hm⟩ := hsamples
  rw [hm] at hunit
  rw [WholeUnits, hm, Nat.mul_div_cancel_left m hn]
  have hdvd := Nat.dvd_of_mul_dvd_mul_left hn hunit
  exact ⟨Nat.pos_of_dvd_of_pos hdvd hamount, hdvd⟩

private theorem chromaIndex_lt (format : InputFormat) {x : Nat} (hx : x < 8 * numTiles) (hy : y < height) :
    format.chromaIndex (8 * numTiles) x y < height * (8 * numTiles / 2) := by
  have hle : (if format.is420 then y / 2 else y) ≤ y := by split <;> omega
  exact row_le (hle.trans_lt hy) (by omega)

private theorem planar_color {M : Type} (host : DmaMemory M) (bound : Nat) {s : ConversionState M}
    (hdomain : StripDomain s.cvt height) (hheight : min (s.cvt.inputLines.toNat - y) 8 = height)
    (hwidth : s.cvt.inputLineWidth.toNat = 8 * numTiles) (hformat : s.cvt.inputFormat ≠ .yuyv422Interleaved)
    (hbound : height * (8 * numTiles) ≤ bound) {n amount : Nat} (hn : s.cvt.inputFormat.sampleBytes = n)
    (hamount : height * (8 * numTiles) / s.cvt.inputFormat.chromaDivisor = amount)
    (hY : WholeUnits n (height * (8 * numTiles)) s.cvt.srcY) (hU : WholeUnits n amount s.cvt.srcU)
    (hV : WholeUnits n amount s.cvt.srcV) :
    ∃ s', convertStrip host bound s y = .ok s' ∧
      s'.mem = writePixels host s.cvt.outputFormat s.cvt.alpha.toUInt8 (pixelPlace host s.cvt.outputFormat s.cvt.dst)
        (wordOf s'.data) s.mem (height * (8 * numTiles)) ∧
      ∀ x < 8 * numTiles, ∀ y < height,
        wordOf s'.data (position s.cvt.rotation s.cvt.blockAlignment (8 * numTiles) height x y) =
          let chroma := s.cvt.inputFormat.chromaIndex (8 * numTiles) x y
          convertPixel s.cvt.coefficients (receivedSample host s.mem n s.cvt.srcY (y * (8 * numTiles) + x))
            (if chroma < amount then receivedSample host s.mem n s.cvt.srcU chroma
            else s.data (inputU (8 * numTiles) + chroma))
            (if chroma < amount then receivedSample host s.mem n s.cvt.srcV chroma
            else s.data (inputV (8 * numTiles) + chroma)) := by
  have hle := Nat.mul_le_mul_right (8 * numTiles) hdomain.converts.height_le
  have hdivisor : 2 ≤ s.cvt.inputFormat.chromaDivisor := by
    unfold InputFormat.chromaDivisor
    split <;> decide
  subst hn hamount
  obtain ⟨r, hr, hluma, hchroma⟩ := receivePlanes_eq host hwidth hdivisor (by omega) hbound hY hU hV
  have hpos := hdomain.width_pos
  obtain ⟨s', hrun, hmem, hcolors⟩ := convertStrip_eq host bound y hwidth (by omega) hheight
    hdomain.converts hdomain.output hdomain.dst hbound ((receiveStrip_planar hformat hdomain.input).trans hr)
  refine ⟨s', hrun, hmem, fun x hx y hy => (hcolors x hx y hy).trans ?_⟩
  have hindex := chromaIndex_lt s.cvt.inputFormat hx hy
  have hhalf := Nat.mul_le_mul_right (8 * numTiles / 2) hdomain.converts.height_le
  unfold pixelColor
  rw [samplePlaces_planar hformat hdomain.input]
  dsimp only
  rw [hluma _ (row_le hy hx), (hchroma _ (by omega)).1, (hchroma _ (by omega)).2]

private theorem interleaved_color {M : Type} {host : DmaMemory M} {bound : Nat} {s : ConversionState M}
    (hdomain : StripDomain s.cvt height) (hheight : min (s.cvt.inputLines.toNat - y) 8 = height)
    (hwidth : s.cvt.inputLineWidth.toNat = 8 * numTiles) (hformat : s.cvt.inputFormat = .yuyv422Interleaved)
    (hbound : 2 * (height * (8 * numTiles)) ≤ bound) : ∃ s', convertStrip host bound s y = .ok s' ∧
      StripPlaces host s s' height := by
  have hle := Nat.mul_le_mul_right (8 * numTiles) hdomain.converts.height_le
  have hpos := hdomain.width_pos
  have hheightPos := hdomain.height_pos
  have hunit := hdomain.units ⟨1, height * (8 * numTiles) * 2, s.cvt.srcYUYV⟩
    (by rw [planes, if_pos hformat, hwidth]; simp)
  have hwhole : WholeUnits 1 (height * (8 * numTiles) * 2) s.cvt.srcYUYV :=
    wholeUnits_of_dvd Nat.one_pos (by have := Nat.mul_pos hheightPos hpos; rw [hwidth] at this; omega) hunit (one_dvd _)
  have hreceive := receiveData_eq host s.mem bound s.data hwhole (by omega)
    (show 0 + _ ≤ 8 * numTiles * 8 * 4 by omega)
  obtain ⟨s', hrun, hmem, hcolors⟩ := convertStrip_eq host bound y hwidth (by omega)
    hheight hdomain.converts hdomain.output hdomain.dst (by omega)
    (by unfold receiveStrip; rw [hformat]; dsimp only; rw [hreceive]; rfl)
  refine ⟨s', hrun, ?_⟩
  unfold StripPlaces
  rw [hwidth]
  refine ⟨hmem, fun x hx y hy => (hcolors x hx y hy).trans ?_⟩
  have hrow := row_le hy hx
  have hrow' := row_le hy (show x / 2 * 2 + 1 < 8 * numTiles by omega)
  have hpair : y * (8 * numTiles) = 2 * (y * (8 * numTiles / 2)) := by
    rw [show 8 * numTiles / 2 = 4 * numTiles by omega, Nat.mul_left_comm, Nat.mul_left_comm y]
    omega
  have hsample (k : Nat) (hk : k < height * (8 * numTiles) * 2) :
      overwrite s.data 0 (height * (8 * numTiles) * 2) (receivedSample host s.mem 1 s.cvt.srcYUYV) k =
        sample host s.mem 1 s.cvt.srcYUYV k := by
    rw [overwrite_of_mem (Nat.zero_le k) (by omega), Nat.sub_zero, receivedSample_eq Nat.one_pos (one_dvd _)]
  have hchroma : InputFormat.chromaIndex .yuyv422Interleaved (8 * numTiles) x y = y * (8 * numTiles / 2) + x / 2 := rfl
  unfold pixelColor pixelSamples
  rw [hformat, if_pos rfl, hwidth, hchroma]
  show convertPixel _ (overwrite s.data 0 _ (receivedSample host s.mem 1 s.cvt.srcYUYV) ((y * (8 * numTiles) + x) * 2))
    (overwrite s.data 0 _ (receivedSample host s.mem 1 s.cvt.srcYUYV) ((y * (8 * numTiles) + x / 2 * 2) * 2 + 1))
    (overwrite s.data 0 _ (receivedSample host s.mem 1 s.cvt.srcYUYV) ((y * (8 * numTiles) + x / 2 * 2) * 2 + 3)) = _
  rw [hsample _ (by omega), hsample _ (by omega), hsample _ (by omega),
    show (y * (8 * numTiles) + x) * 2 = 4 * (y * (8 * numTiles / 2) + x / 2) + 2 * (x % 2) by omega,
    show (y * (8 * numTiles) + x / 2 * 2) * 2 = 4 * (y * (8 * numTiles / 2) + x / 2) by omega]

theorem planes_planar (hformat : cvt.inputFormat ≠ .yuyv422Interleaved) (amount : Nat) :
    planes cvt amount = [⟨cvt.inputFormat.sampleBytes, amount, cvt.srcY⟩,
      ⟨cvt.inputFormat.sampleBytes, amount / cvt.inputFormat.chromaDivisor, cvt.srcU⟩,
      ⟨cvt.inputFormat.sampleBytes, amount / cvt.inputFormat.chromaDivisor, cvt.srcV⟩] := if_neg hformat

private theorem chromaAmount_eq (format : InputFormat) (numTiles : Nat) (heven : format.is420 → 2 ∣ height) :
    height * (8 * numTiles) / format.chromaDivisor =
      (if format.is420 then height / 2 else height) * (8 * numTiles / 2) := by
  unfold InputFormat.chromaDivisor
  by_cases h420 : format.is420
  · obtain ⟨m, rfl⟩ := heven h420
    rw [if_pos h420, if_pos h420, Nat.mul_div_cancel_left m (by decide), show 8 * numTiles / 2 = 4 * numTiles by omega,
      show 2 * m * (8 * numTiles) = 4 * (m * (4 * numTiles)) by ring, Nat.mul_div_cancel_left _ (by decide)]
  · rw [if_neg h420, if_neg h420, show 8 * numTiles / 2 = 4 * numTiles by omega,
      show height * (8 * numTiles) = 2 * (height * (4 * numTiles)) by ring, Nat.mul_div_cancel_left _ (by decide)]

private theorem placesStrip_of (hdomain : StripDomain cvt height) (hheight : min (cvt.inputLines.toNat - y) 8 = height)
    (hsamples : ∀ p ∈ planes cvt (height * cvt.inputLineWidth.toNat), p.n ∣ p.buf.transferUnit.toNat)
    (heven : cvt.inputFormat.is420 → 2 ∣ height) : PlacesStrip cvt y height := by
  intro M host coefficients s hs bound hbound
  obtain ⟨mem, _, data, tiles, tmpTile⟩ := s
  subst hs
  obtain ⟨numTiles, hwidth⟩ := hdomain.width
  have hdomain' : StripDomain { cvt with coefficients } height := { hdomain with }
  rw [hwidth] at hbound
  by_cases hformat : cvt.inputFormat = .yuyv422Interleaved
  · exact interleaved_color hdomain' hheight hwidth hformat hbound
  have hunits := hdomain.units
  rw [planes_planar hformat, hwidth] at hunits hsamples
  simp only [List.forall_mem_cons, List.not_mem_nil, false_imp_iff, implies_true, and_true] at hunits hsamples
  have hn : 0 < cvt.inputFormat.sampleBytes := by
    unfold InputFormat.sampleBytes
    split <;> decide
  have hpos : 0 < numTiles := by
    have := hdomain.width_pos
    omega
  have hamount := chromaAmount_eq cvt.inputFormat numTiles heven
  have hluma : 0 < height * (8 * numTiles) := Nat.mul_pos hdomain.height_pos (by omega)
  have hchroma : 0 < height * (8 * numTiles) / cvt.inputFormat.chromaDivisor := by
    rw [hamount]
    refine Nat.mul_pos ?_ (by omega)
    have hheightPos := hdomain.height_pos
    split
    · rename_i h420
      have := heven h420
      omega
    · exact hheightPos
  obtain ⟨s', hrun, hmem, hcolors⟩ := planar_color host bound
    (s := { mem, cvt := { cvt with coefficients }, data, tiles, tmpTile }) hdomain' hheight hwidth hformat (by omega)
    rfl rfl (wholeUnits_of_dvd hn hluma hunits.1 hsamples.1) (wholeUnits_of_dvd hn hchroma hunits.2.1 hsamples.2.1)
    (wholeUnits_of_dvd hn hchroma hunits.2.2 hsamples.2.2)
  refine ⟨s', hrun, ?_⟩
  unfold StripPlaces
  rw [hwidth]
  refine ⟨hmem, fun x hx y hy => (hcolors x hx y hy).trans ?_⟩
  have hindex : cvt.inputFormat.chromaIndex (8 * numTiles) x y <
      height * (8 * numTiles) / cvt.inputFormat.chromaDivisor := by
    rw [hamount]
    refine row_le ?_ (by omega)
    split
    · rename_i h420
      have := heven h420
      omega
    · exact hy
  unfold pixelSamples
  dsimp only
  rw [if_pos hindex, if_pos hindex, if_neg hformat, hwidth, receivedSample_eq hn hsamples.1,
    receivedSample_eq hn hsamples.2.1, receivedSample_eq hn hsamples.2.2]

def onlyCoefficient (i : Fin 8) : CoefficientSet := fun j => if j = i then 0x100 else 0

private theorem only_luma (a b c : UInt8) :
    convertPixel (onlyCoefficient 0) a b c = convertPixel (onlyCoefficient 0) a 0 0 := by
  simp [convertPixel, onlyCoefficient]

private theorem only_u (a b c : UInt8) :
    convertPixel (onlyCoefficient 4) a b c = convertPixel (onlyCoefficient 4) 0 b 0 := by
  simp [convertPixel, onlyCoefficient]

private theorem only_v (a b c : UInt8) :
    convertPixel (onlyCoefficient 1) a b c = convertPixel (onlyCoefficient 1) 0 0 c := by
  simp [convertPixel, onlyCoefficient]

def constantMemory (read : Nat → UInt8) : DmaMemory Unit := ⟨fun _ => 0, fun _ => read, fun m _ _ => m⟩

private theorem PlacesStrip.planar (h : PlacesStrip cvt y height) (hdomain : StripDomain cvt height)
    (hheight : min (cvt.inputLines.toNat - y) 8 = height) (hwidth : cvt.inputLineWidth.toNat = 8 * numTiles)
    (hformat : cvt.inputFormat ≠ .yuyv422Interleaved) {n amount : Nat} (hn : cvt.inputFormat.sampleBytes = n)
    (hamount : height * (8 * numTiles) / cvt.inputFormat.chromaDivisor = amount) :
    (WholeUnits n (height * (8 * numTiles)) cvt.srcY ∧ WholeUnits n amount cvt.srcU ∧ WholeUnits n amount cvt.srcV) ∧
    ∀ (read : Nat → UInt8) (held : UInt8) (c : CoefficientSet), ∀ x < 8 * numTiles, ∀ y < height,
      let host := constantMemory read
      let chroma := cvt.inputFormat.chromaIndex (8 * numTiles) x y
      convertPixel c (receivedSample host () n cvt.srcY (y * (8 * numTiles) + x))
          (if chroma < amount then receivedSample host () n cvt.srcU chroma else held)
          (if chroma < amount then receivedSample host () n cvt.srcV chroma else held) =
        convertPixel c (sample host () n cvt.srcY (y * (8 * numTiles) + x)) (sample host () n cvt.srcU chroma)
          (sample host () n cvt.srcV chroma) := by
  have hrun (read : Nat → UInt8) (held : UInt8) (c : CoefficientSet) :=
    h Unit (constantMemory read) c ⟨(), { cvt with coefficients := c }, fun _ => held, fun _ _ => 0, fun _ => 0⟩ rfl _
      (Nat.le_refl _)
  have hwhole : WholeUnits n (height * (8 * numTiles)) cvt.srcY ∧ WholeUnits n amount cvt.srcU ∧
      WholeUnits n amount cvt.srcV := by
    obtain ⟨s', hs', -⟩ := hrun (fun _ => 0) 0 (fun _ => 0)
    obtain ⟨r, hr, -⟩ := ok_of_bind hs'
    rw [receiveStrip_planar hformat hdomain.input, hheight] at hr
    rw [hwidth] at hr
    subst hn hamount
    obtain ⟨p, hY, hr⟩ := ok_of_bind hr
    obtain ⟨q, hU, hr⟩ := ok_of_bind hr
    obtain ⟨q', hV, -⟩ := ok_of_bind hr
    exact ⟨wholeUnits_of_receiveData _ hY, wholeUnits_of_receiveData _ hU, wholeUnits_of_receiveData _ hV⟩
  refine ⟨hwhole, fun read held c x hx y' hy' => ?_⟩
  obtain ⟨s', hs', hplaces⟩ := hrun read held c
  have hdomain' : StripDomain { cvt with coefficients := c } height := { hdomain with }
  obtain ⟨t, ht, -, hcolors⟩ := planar_color (constantMemory read) (2 * (height * cvt.inputLineWidth.toNat))
    (s := ⟨(), { cvt with coefficients := c }, fun _ => held, fun _ _ => 0, fun _ => 0⟩) hdomain' hheight hwidth hformat
    (by rw [hwidth]; omega) hn hamount hwhole.1 hwhole.2.1 hwhole.2.2
  obtain rfl := Except.ok.inj (hs'.symm.trans ht)
  have hcolor := hcolors x hx y' hy'
  unfold StripPlaces at hplaces
  rw [hwidth] at hplaces
  rw [hplaces.2 x hx y' hy'] at hcolor
  unfold pixelSamples at hcolor
  rw [if_neg hformat, hwidth, hn] at hcolor
  exact hcolor.symm

private theorem received_odd {buf : ConversionBuffer} (hodd : ¬ 2 ∣ buf.transferUnit.toNat)
    (hunit : 0 < buf.transferUnit.toNat / 2) :
    let host := constantMemory fun p => if p = buf.transferUnit.toNat - 1 then 255 else 0
    receivedSample host () 2 buf (buf.transferUnit.toNat / 2) = 0 ∧
      sample host () 2 buf (buf.transferUnit.toNat / 2) = 255 := by
  have hlt : 2 * (buf.transferUnit.toNat / 2) < buf.transferUnit.toNat := by omega
  constructor
  · show (if 0 + receivedFrom 2 _ buf.stride _ = _ then (255 : UInt8) else 0) = 0
    rw [receivedFrom, Nat.div_self hunit, Nat.mod_self, ConversionBuffer.stride, if_neg (by omega)]
  · show (if 0 + strided _ _ _ = _ then (255 : UInt8) else 0) = 255
    rw [strided, Nat.div_eq_of_lt hlt, Nat.mod_eq_of_lt hlt, if_pos (by omega)]

private theorem exists_chromaIndex {format : InputFormat} {k : Nat} (hpos : 0 < numTiles)
    (hk : k < height * (8 * numTiles) / format.chromaDivisor) :
    ∃ x < 8 * numTiles, ∃ y < height, format.chromaIndex (8 * numTiles) x y = k := by
  have hquot := Nat.div_mul_le_self k (4 * numTiles)
  have hmod := Nat.mod_lt k (show 0 < 4 * numTiles by omega)
  have hrow := Nat.div_add_mod' k (4 * numTiles)
  unfold InputFormat.chromaDivisor at hk
  unfold InputFormat.chromaIndex
  rw [show 8 * numTiles / 2 = 4 * numTiles by omega]
  refine ⟨2 * (k % (4 * numTiles)), by omega, ?_⟩
  rw [Nat.mul_div_cancel_left _ (show 0 < 2 by decide)]
  by_cases h420 : format.is420
  · rw [if_pos h420, Nat.lt_div_iff_mul_lt (by decide)] at hk
    refine ⟨2 * (k / (4 * numTiles)), ?_, by rw [if_pos h420, Nat.mul_div_cancel_left _ (by decide)]; exact hrow⟩
    by_contra hle
    have hle := Nat.mul_le_mul_right (8 * numTiles) (Nat.not_lt.mp hle)
    rw [show 2 * (k / (4 * numTiles)) * (8 * numTiles) = 4 * (k / (4 * numTiles) * (4 * numTiles)) by ring] at hle
    omega
  · rw [if_neg h420, Nat.lt_div_iff_mul_lt (by decide)] at hk
    refine ⟨k / (4 * numTiles), ?_, by rw [if_neg h420]; exact hrow⟩
    by_contra hle
    have hle := Nat.mul_le_mul_right (8 * numTiles) (Nat.not_lt.mp hle)
    rw [show k / (4 * numTiles) * (8 * numTiles) = 2 * (k / (4 * numTiles) * (4 * numTiles)) by ring] at hle
    omega

private theorem half_lt {unit amount : Nat} (hodd : ¬ 2 ∣ unit) (hamount : 0 < amount) (hdvd : unit ∣ 2 * amount) :
    unit / 2 < amount := by
  have hle := Nat.le_of_dvd (by omega) hdvd
  omega

private theorem even_of_places (numTiles : Nat) (h : PlacesStrip cvt y height) (hdomain : StripDomain cvt height)
    (hheight : min (cvt.inputLines.toNat - y) 8 = height) (hwidth : cvt.inputLineWidth.toNat = 8 * numTiles)
    (h420 : cvt.inputFormat.is420) : 2 ∣ height := by
  have hformat : cvt.inputFormat ≠ .yuyv422Interleaved := by
    rintro heq
    rw [heq] at h420
    rcases h420 with h420 | h420 <;> cases h420
  have hpos := hdomain.width_pos
  by_contra hodd
  obtain ⟨m, hm⟩ : ∃ m, height = 2 * m + 1 := ⟨height / 2, by omega⟩
  have hcolor := (h.planar hdomain hheight hwidth hformat rfl rfl).2 (fun _ => 0) 255 (onlyCoefficient 4)
    (8 * numTiles - 1) (by omega) (height - 1) (by omega)
  have hbehind : ¬ cvt.inputFormat.chromaIndex (8 * numTiles) (8 * numTiles - 1) (height - 1) <
      height * (8 * numTiles) / cvt.inputFormat.chromaDivisor := by
    unfold InputFormat.chromaIndex InputFormat.chromaDivisor
    rw [if_pos h420, if_pos h420, hm, show (2 * m + 1 - 1) / 2 = m by omega,
      show (2 * m + 1) * (8 * numTiles) = 4 * (m * (8 * numTiles / 2) + 2 * numTiles) by
        rw [show 8 * numTiles / 2 = 4 * numTiles by omega]; ring, Nat.mul_div_cancel_left _ (by decide)]
    omega
  have hzero (n : Nat) (buf : ConversionBuffer) (k : Nat) : sample (constantMemory fun _ => 0) () n buf k = 0 := rfl
  dsimp only at hcolor
  rw [if_neg hbehind, if_neg hbehind, only_u, only_u _ (sample _ _ _ _ _), hzero] at hcolor
  exact absurd hcolor (by decide)

private theorem wholeSamples_of_places (h : PlacesStrip cvt y height) (hdomain : StripDomain cvt height)
    (hheight : min (cvt.inputLines.toNat - y) 8 = height) (hwidth : cvt.inputLineWidth.toNat = 8 * numTiles)
    (hformat : cvt.inputFormat ≠ .yuyv422Interleaved) (hn : cvt.inputFormat.sampleBytes = 2) :
    2 ∣ cvt.srcY.transferUnit.toNat ∧ 2 ∣ cvt.srcU.transferUnit.toNat ∧ 2 ∣ cvt.srcV.transferUnit.toNat := by
  have hpos := hdomain.width_pos
  have hunits := hdomain.units
  rw [planes_planar hformat, hwidth, hn] at hunits
  simp only [List.forall_mem_cons, List.not_mem_nil, false_imp_iff, implies_true, and_true] at hunits
  obtain ⟨hwhole, hcolors⟩ := h.planar hdomain hheight hwidth hformat hn rfl
  have hrows : 1 * (8 * numTiles) ≤ height * (8 * numTiles) := Nat.mul_le_mul_right _ hdomain.height_pos
  have hchroma : 0 < height * (8 * numTiles) / cvt.inputFormat.chromaDivisor := by
    unfold InputFormat.chromaDivisor
    refine Nat.div_pos ?_ (by split <;> decide)
    split <;> omega
  refine ⟨?_, ?_, ?_⟩
  · by_contra hodd
    have hk := half_lt hodd (by omega) hunits.1
    obtain ⟨hreceived, hsample⟩ := received_odd hodd hwhole.1.1
    have hcolor := hcolors (fun p => if p = cvt.srcY.transferUnit.toNat - 1 then 255 else 0) 0 (onlyCoefficient 0)
      (cvt.srcY.transferUnit.toNat / 2 % (8 * numTiles)) (Nat.mod_lt _ (by omega))
      (cvt.srcY.transferUnit.toNat / 2 / (8 * numTiles)) (Nat.div_lt_of_lt_mul (by rw [Nat.mul_comm]; exact hk))
    dsimp only at hcolor
    rw [Nat.div_add_mod', only_luma, only_luma (sample _ _ _ _ _), hreceived, hsample] at hcolor
    exact absurd hcolor (by decide)
  · by_contra hodd
    have hk := half_lt hodd hchroma hunits.2.1
    obtain ⟨hreceived, hsample⟩ := received_odd hodd hwhole.2.1.1
    obtain ⟨x, hx, y', hy', hindex⟩ := exists_chromaIndex (by omega) hk
    have hcolor := hcolors (fun p => if p = cvt.srcU.transferUnit.toNat - 1 then 255 else 0) 0 (onlyCoefficient 4) x hx
      y' hy'
    dsimp only at hcolor
    rw [hindex, if_pos hk, only_u, only_u _ (sample _ _ _ _ _), hreceived, hsample] at hcolor
    exact absurd hcolor (by decide)
  · by_contra hodd
    have hk := half_lt hodd hchroma hunits.2.2
    obtain ⟨hreceived, hsample⟩ := received_odd hodd hwhole.2.2.1
    obtain ⟨x, hx, y', hy', hindex⟩ := exists_chromaIndex (by omega) hk
    have hcolor := hcolors (fun p => if p = cvt.srcV.transferUnit.toNat - 1 then 255 else 0) 0 (onlyCoefficient 1) x hx
      y' hy'
    dsimp only at hcolor
    rw [hindex, if_pos hk, if_pos hk, only_v, only_v _ _ (sample _ _ _ _ _), hreceived, hsample] at hcolor
    exact absurd hcolor (by decide)

end

/-- The pixels of a strip of whole transfer units are sent once each, at their positions.  They have the colors of their
samples if and only if no transfer unit breaks a sample, and the strip has an even number of lines where two lines have
the same chroma. -/
theorem convertStrip_places_iff (cvt : ConversionConfiguration) (y height : Nat) (hdomain : StripDomain cvt height)
    (hheight : min (cvt.inputLines.toNat - y) 8 = height) :
    ((pixels cvt.inputLineWidth.toNat height).map fun p =>
        position cvt.rotation cvt.blockAlignment cvt.inputLineWidth.toNat height p.1 p.2).Perm
      (List.range (height * cvt.inputLineWidth.toNat)) ∧
    (PlacesStrip cvt y height ↔
      (∀ p ∈ planes cvt (height * cvt.inputLineWidth.toNat), p.n ∣ p.buf.transferUnit.toNat) ∧
        (cvt.inputFormat.is420 → 2 ∣ height)) := by
  obtain ⟨numTiles, hwidth⟩ := hdomain.width
  refine ⟨by rw [hwidth]; exact positions_perm hdomain.converts, fun h => ⟨?_, ?_⟩, fun h =>
    placesStrip_of hdomain hheight h.1 h.2⟩
  · by_cases hformat : cvt.inputFormat = .yuyv422Interleaved
    · rw [planes, if_pos hformat]
      exact fun p hp => by rw [List.mem_singleton.mp hp]; exact one_dvd _
    rw [planes_planar hformat]
    simp only [List.forall_mem_cons, List.not_mem_nil, false_imp_iff, implies_true, and_true]
    by_cases hbytes : cvt.inputFormat = .yuv422Indiv16 ∨ cvt.inputFormat = .yuv420Indiv16
    · have hn : cvt.inputFormat.sampleBytes = 2 := if_pos hbytes
      rw [hn]
      exact wholeSamples_of_places h hdomain hheight hwidth hformat hn
    · have hn : cvt.inputFormat.sampleBytes = 1 := if_neg hbytes
      rw [hn]
      exact ⟨one_dvd _, one_dvd _, one_dvd _⟩
  · exact even_of_places numTiles h hdomain hheight hwidth

def smallConfiguration (format : InputFormat) (lines : UInt16) : ConversionConfiguration where
  inputFormat := format
  inputLineWidth := 8
  inputLines := lines
  srcY := { transferUnit := 8 }
  srcU := { transferUnit := 2 }
  srcV := { transferUnit := 2 }
  dst := { transferUnit := 8 }

theorem convertStrip_places_tile : PlacesStrip (smallConfiguration .yuv420Indiv8 8) 0 8 :=
  (convertStrip_places_iff (smallConfiguration .yuv420Indiv8 8) 0 8
    ⟨by decide, by decide, by decide, by decide, by decide, ⟨by decide, by decide, by decide, by decide⟩, by decide,
      by decide⟩ rfl).2.mpr ⟨by decide, fun _ => by decide⟩

/-- A single line in a 4:2:0 format. -/
theorem not_placesStrip_line : StripDomain (smallConfiguration .yuv420Indiv8 1) 1 ∧
    ¬ PlacesStrip (smallConfiguration .yuv420Indiv8 1) 0 1 := by
  have hdomain : StripDomain (smallConfiguration .yuv420Indiv8 1) 1 :=
    ⟨by decide, by decide, by decide, by decide, by decide, ⟨by decide, by decide, by decide, by decide⟩, by decide,
      by decide⟩
  exact ⟨hdomain, fun h => absurd (even_of_places 1 h hdomain rfl rfl (.inl rfl)) (by decide)⟩

end SweepDSEmu.Y2R
