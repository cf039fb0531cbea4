import SweepDSEmu.Lib.ByteOrder
import SweepDSEmu.VideoCore.SurfaceLayout

/-!
# Pixels of textures

`DecodePixel` and `EncodePixel` of the texture codec, with the conversions of colors that they use.  A pointer is a
function from offsets to bytes; the result is the list of bytes that are written.

Depth values that become floating point numbers, and compressed formats, are parameters.
-/

namespace SweepDSEmu.VideoCore

namespace Color

structure Vec4 where
  r : UInt8
  g : UInt8
  b : UInt8
  a : UInt8
  deriving DecidableEq

def Vec4.asArray (color : Vec4) : List UInt8 := [color.r, color.g, color.b, color.a]

def Vec4.ofBytes (source : Nat → UInt8) : Vec4 := ⟨source 0, source 1, source 2, source 3⟩

def convert1To8 (value : UInt8) : UInt8 := value * 255
def convert4To8 (value : UInt8) : UInt8 := value <<< 4 ||| value
def convert5To8 (value : UInt8) : UInt8 := value <<< 3 ||| value >>> 2
def convert6To8 (value : UInt8) : UInt8 := value <<< 2 ||| value >>> 4
def convert8To1 (value : UInt8) : UInt8 := value >>> 7
def convert8To4 (value : UInt8) : UInt8 := value >>> 4
def convert8To5 (value : UInt8) : UInt8 := value >>> 3
def convert8To6 (value : UInt8) : UInt8 := value >>> 2

def averageRgbComponents (color : Vec4) : UInt8 := ((color.r.toNat + color.g.toNat + color.b.toNat) / 3).toUInt8

def readU16 (bytes : Nat → UInt8) : UInt16 := (ofLittleEndian [bytes 0, bytes 1]).toUInt16

def writeU16 (data : UInt16) : List UInt8 := toLittleEndian 2 data.toNat

def decodeRGBA8 (bytes : Nat → UInt8) : Vec4 := ⟨bytes 3, bytes 2, bytes 1, bytes 0⟩

def decodeRGB8 (bytes : Nat → UInt8) : Vec4 := ⟨bytes 2, bytes 1, bytes 0, 255⟩

def decodeRG8 (bytes : Nat → UInt8) : Vec4 := ⟨bytes 1, bytes 0, 0, 255⟩

def decodeRGB565 (bytes : Nat → UInt8) : Vec4 :=
  let pixel := readU16 bytes
  ⟨convert5To8 (pixel >>> 11 &&& 0x1F).toUInt8, convert6To8 (pixel >>> 5 &&& 0x3F).toUInt8,
    convert5To8 (pixel &&& 0x1F).toUInt8, 255⟩

def decodeRGB5A1 (bytes : Nat → UInt8) : Vec4 :=
  let pixel := readU16 bytes
  ⟨convert5To8 (pixel >>> 11 &&& 0x1F).toUInt8, convert5To8 (pixel >>> 6 &&& 0x1F).toUInt8,
    convert5To8 (pixel >>> 1 &&& 0x1F).toUInt8, convert1To8 (pixel &&& 0x1).toUInt8⟩

def decodeRGBA4 (bytes : Nat → UInt8) : Vec4 :=
  let pixel := readU16 bytes
  ⟨convert4To8 (pixel >>> 12 &&& 0xF).toUInt8, convert4To8 (pixel >>> 8 &&& 0xF).toUInt8,
    convert4To8 (pixel >>> 4 &&& 0xF).toUInt8, convert4To8 (pixel &&& 0xF).toUInt8⟩

def decodeIA8 (bytes : Nat → UInt8) : Vec4 := ⟨bytes 1, bytes 1, bytes 1, bytes 0⟩

def decodeI8 (bytes : Nat → UInt8) : Vec4 := ⟨bytes 0, bytes 0, bytes 0, 255⟩

def decodeA8 (bytes : Nat → UInt8) : Vec4 := ⟨0, 0, 0, bytes 0⟩

def decodeIA4 (bytes : Nat → UInt8) : Vec4 :=
  let i := convert4To8 ((bytes 0 &&& 0xF0) >>> 4)
  let a := convert4To8 (bytes 0 &&& 0x0F)
  ⟨i, i, i, a⟩

def decodeD24 (bytes : Nat → UInt8) : UInt32 :=
  (bytes 2).toUInt32 <<< 16 ||| (bytes 1).toUInt32 <<< 8 ||| (bytes 0).toUInt32

def encodeRGBA8 (color : Vec4) : List UInt8 := [color.a, color.b, color.g, color.r]

def encodeRGB8 (color : Vec4) : List UInt8 := [color.b, color.g, color.r]

def encodeRG8 (color : Vec4) : List UInt8 := [color.g, color.r]

def encodeRGB565 (color : Vec4) : List UInt8 :=
  writeU16 ((convert8To5 color.r).toUInt16 <<< 11 ||| (convert8To6 color.g).toUInt16 <<< 5 |||
    (convert8To5 color.b).toUInt16)

def encodeRGB5A1 (color : Vec4) : List UInt8 :=
  writeU16 ((convert8To5 color.r).toUInt16 <<< 11 ||| (convert8To5 color.g).toUInt16 <<< 6 |||
    (convert8To5 color.b).toUInt16 <<< 1 ||| (convert8To1 color.a).toUInt16)

def encodeRGBA4 (color : Vec4) : List UInt8 :=
  writeU16 ((convert8To4 color.r).toUInt16 <<< 12 ||| (convert8To4 color.g).toUInt16 <<< 8 |||
    (convert8To4 color.b).toUInt16 <<< 4 ||| (convert8To4 color.a).toUInt16)

def encodeIA8 (color : Vec4) : List UInt8 := [color.a, averageRgbComponents color]

def encodeI8 (color : Vec4) : List UInt8 := [averageRgbComponents color]

def encodeA8 (color : Vec4) : List UInt8 := [color.a]

def encodeIA4 (color : Vec4) : List UInt8 :=
  [convert8To4 (averageRgbComponents color) <<< 4 ||| convert8To4 color.a]

def encodeD24 (value : UInt32) : List UInt8 :=
  [(value &&& 0xFF).toUInt8, (value >>> 8 &&& 0xFF).toUInt8, (value >>> 16 &&& 0xFF).toUInt8]

end Color

open Color

/-- `GetFormatBpp`: the `bits_per_block` of the format. -/
def getFormatBpp (format : PixelFormat) : Nat := ((formatInfo format).map Prod.snd).getD 0

def getFormatBytesPerPixel : PixelFormat → Nat
  | .rgb8 => 3
  | .rgb5a1 | .rgb565 | .rgba4 | .d16 => 2
  | .invalid => 0
  | _ => 4

def is4bit (format : PixelFormat) : Bool := format == .i4 || format == .a4

def isCompressed (format : PixelFormat) : Bool := format == .etc1 || format == .etc1a4

/-- What the codec takes from floating point arithmetic and from the decoder of compressed textures. -/
structure CodecHost where
  /-- The bits of `DecodeD24(source) / 16777215.f`. -/
  depthToFloat : UInt32 → UInt32
  /-- `static_cast<u32>(d32 * 0xFFFFFF)`. -/
  floatToDepth : UInt32 → UInt32
  /-- `DecodePixelETC1`. -/
  decodePixelETC1 : PixelFormat → Nat → Nat → (Nat → UInt8) → List UInt8

def makeU32 (bytes : Nat → UInt8) : UInt32 := (ofLittleEndian [bytes 0, bytes 1, bytes 2, bytes 3]).toUInt32

def writeU32 (data : UInt32) : List UInt8 := toLittleEndian 4 data.toNat

def rotl8 (x : UInt32) : UInt32 := x <<< 8 ||| x >>> 24

def rotr8 (x : UInt32) : UInt32 := x >>> 8 ||| x <<< 24

def copyBytes (source : Nat → UInt8) (n : Nat) : List UInt8 := (List.range n).map source

def decodePixel (host : CodecHost) (format : PixelFormat) (converted : Bool) (source : Nat → UInt8) : List UInt8 :=
  match format, converted with
  | .rgba8, true => (decodeRGBA8 source).asArray
  | .rgb8, true => (decodeRGB8 source).asArray
  | .rgb565, true => (decodeRGB565 source).asArray
  | .rgb5a1, true => (decodeRGB5A1 source).asArray
  | .rgba4, true => (decodeRGBA4 source).asArray
  | .ia8, _ => (decodeIA8 source).asArray
  | .rg8, _ => (decodeRG8 source).asArray
  | .i8, _ => (decodeI8 source).asArray
  | .a8, _ => (decodeA8 source).asArray
  | .ia4, _ => (decodeIA4 source).asArray
  | .d24, true => writeU32 (host.depthToFloat (decodeD24 source))
  | .d24s8, _ => writeU32 (rotl8 (makeU32 source))
  | format, _ => copyBytes source (getFormatBpp format / 8)

def encodePixel (host : CodecHost) (format : PixelFormat) (converted : Bool) (source : Nat → UInt8) : List UInt8 :=
  match format, converted with
  | .rgba8, true => encodeRGBA8 (.ofBytes source)
  | .rgb8, true => encodeRGB8 (.ofBytes source)
  | .rgb565, true => encodeRGB565 (.ofBytes source)
  | .rgb5a1, true => encodeRGB5A1 (.ofBytes source)
  | .rgba4, true => encodeRGBA4 (.ofBytes source)
  | .ia8, _ => encodeIA8 (.ofBytes source)
  | .rg8, _ => encodeRG8 (.ofBytes source)
  | .i8, _ => encodeI8 (.ofBytes source)
  | .a8, _ => encodeA8 (.ofBytes source)
  | .ia4, _ => encodeIA4 (.ofBytes source)
  | .d24, true => encodeD24 (host.floatToDepth (makeU32 source))
  | .d24s8, _ => writeU32 (rotr8 (makeU32 source))
  | format, _ => copyBytes source (getFormatBpp format / 8)

def decodePixel4 (format : PixelFormat) (nibble : UInt8) : List UInt8 :=
  let pixel := convert4To8 nibble
  if format = .i4 then [pixel, pixel, pixel, 255] else [0, 0, 0, pixel]

def encodePixel4 (format : PixelFormat) (source : Nat → UInt8) : UInt8 :=
  let rgba := Vec4.ofBytes source
  convert8To4 (if format = .i4 then averageRgbComponents rgba else rgba.a)

def getNibble (tile : Nat → UInt8) (mortonOffset : Nat) : UInt8 :=
  let value := tile (mortonOffset / 2)
  if mortonOffset % 2 ≠ 0 then value >>> 4 else value &&& 0xF

def putNibble (tile : Nat → UInt8) (mortonOffset : Nat) (newValue : UInt8) : Nat → UInt8 := fun i =>
  let currentValues := tile i
  if i = mortonOffset / 2 then
    if mortonOffset % 2 ≠ 0 then newValue <<< 4 ||| currentValues &&& 0x0F else currentValues &&& 0xF0 ||| newValue
  else currentValues

/-- A format has an entry in `UNSWIZZLE_TABLE` or `UNSWIZZLE_TABLE_CONVERTED`. -/
def unswizzles (format : PixelFormat) (converted : Bool) : Bool :=
  match format, converted with
  | .invalid, _ => false
  | _, false => true
  | .rgba8, true | .rgb8, true | .rgb5a1, true | .rgb565, true | .rgba4, true | .d16, true | .d24, true => true
  | _, true => false

/-- A format has an entry in `SWIZZLE_TABLE` or `SWIZZLE_TABLE_CONVERTED`. -/
def swizzles (format : PixelFormat) (converted : Bool) : Bool :=
  match format, converted with
  | .invalid, _ | .etc1, _ | .etc1a4, _ => false
  | _, false => true
  | .rgba8, true | .rgb8, true | .rgb5a1, true | .rgb565, true | .rgba4, true | .d16, true | .d24, true => true
  | _, true => false

variable (value : UInt8) (pixel : UInt16) (bytes tile : Nat → UInt8) {format : PixelFormat}

private theorem convert5To8_inv (h : value.toNat < 2 ^ 5) : convert8To5 (convert5To8 value) = value := by
  rcases value with ⟨value⟩
  revert value
  decide +kernel

private theorem convert6To8_inv (h : value.toNat < 2 ^ 6) : convert8To6 (convert6To8 value) = value := by
  rcases value with ⟨value⟩
  revert value
  decide +kernel

private theorem convert4To8_inv (h : value.toNat < 2 ^ 4) : convert8To4 (convert4To8 value) = value := by
  rcases value with ⟨value⟩
  revert value
  decide +kernel

private theorem convert1To8_inv (h : value.toNat < 2 ^ 1) : convert8To1 (convert1To8 value) = value := by
  rcases value with ⟨value⟩
  revert value
  decide +kernel

private theorem averageRgbComponents_gray (value alpha : UInt8) :
    averageRgbComponents ⟨value, value, value, alpha⟩ = value := by
  have hsum : (value.toNat + value.toNat + value.toNat) / 3 = value.toNat := by omega
  unfold averageRgbComponents
  rw [hsum]
  exact UInt8.ofNat_toNat

private theorem toNat_field {shift mask : UInt16} {i w : Nat} (hshift : shift.toNat = i)
    (hi : i < 16) (hmask : mask.toNat = 2 ^ w - 1) (hw : w ≤ 8) :
    (pixel >>> shift &&& mask).toUInt8.toNat = pixel.toNat / 2 ^ i % 2 ^ w := by
  have hle : 2 ^ w ≤ 2 ^ 8 := Nat.pow_le_pow_right (by decide) hw
  have hlt := Nat.mod_lt (pixel.toNat / 2 ^ i) (Nat.two_pow_pos w)
  rw [UInt16.toNat_toUInt8, UInt16.toNat_and, UInt16.toNat_shiftRight, hshift, hmask, Nat.mod_eq_of_lt hi,
    Nat.and_two_pow_sub_one_eq_mod, Nat.shiftRight_eq_div_pow, Nat.mod_eq_of_lt (by omega)]

private theorem toNat_lowField {mask : UInt16} {w : Nat} (hmask : mask.toNat = 2 ^ w - 1)
    (hw : w ≤ 8) : (pixel &&& mask).toUInt8.toNat = pixel.toNat % 2 ^ w := by
  have h := toNat_field pixel (show UInt16.toNat 0 = 0 from rfl) (by decide) hmask hw
  rw [pow_zero, Nat.div_one, show pixel >>> 0 = pixel from UInt16.shiftRight_zero] at h
  exact h

private theorem toNat_placed {shift mask : UInt16} {i w : Nat} (hshift : shift.toNat = i)
    (hmask : mask.toNat = 2 ^ w - 1) (hi : i < 16) (hw : w ≤ 8) (hsum : i + w ≤ 16) :
    ((pixel >>> shift &&& mask).toUInt8.toUInt16 <<< shift).toNat = 2 ^ i * (pixel.toNat / 2 ^ i % 2 ^ w) := by
  have hfield := toNat_field pixel hshift hi hmask hw
  have hle : 2 ^ i * 2 ^ w ≤ 2 ^ 16 := by
    rw [← Nat.pow_add]
    exact Nat.pow_le_pow_right (by decide) hsum
  have hlt := Nat.mul_lt_mul_of_pos_left (Nat.mod_lt (pixel.toNat / 2 ^ i) (Nat.two_pow_pos w)) (Nat.two_pow_pos i)
  rw [UInt16.toNat_shiftLeft, UInt8.toNat_toUInt16, hfield, hshift, Nat.mod_eq_of_lt hi, Nat.shiftLeft_eq, Nat.mul_comm,
    Nat.mod_eq_of_lt (by omega)]

private theorem fields565 :
    (pixel >>> 11 &&& 0x1F).toUInt8.toUInt16 <<< 11 ||| (pixel >>> 5 &&& 0x3F).toUInt8.toUInt16 <<< 5 |||
      (pixel &&& 0x1F).toUInt8.toUInt16 = pixel := by
  have hpixel : pixel.toNat < 2 ^ 16 := UInt16.toNat_lt pixel
  have hr := toNat_placed pixel (show UInt16.toNat 11 = 11 from rfl) (show UInt16.toNat 0x1F = 2 ^ 5 - 1 from rfl)
    (by decide) (by decide) (by decide)
  have hg := toNat_placed pixel (show UInt16.toNat 5 = 5 from rfl) (show UInt16.toNat 0x3F = 2 ^ 6 - 1 from rfl)
    (by decide) (by decide) (by decide)
  have hb := toNat_lowField pixel (show UInt16.toNat 0x1F = 2 ^ 5 - 1 from rfl) (by decide)
  apply UInt16.toNat_inj.mp
  rw [UInt16.toNat_or, UInt16.toNat_or, hr, hg, UInt8.toNat_toUInt16, hb, Nat.or_assoc,
    ← Nat.two_pow_add_eq_or_of_lt (show pixel.toNat % 2 ^ 5 < 2 ^ 5 by omega),
    ← Nat.two_pow_add_eq_or_of_lt (by omega)]
  omega

private theorem fields5551 :
    (pixel >>> 11 &&& 0x1F).toUInt8.toUInt16 <<< 11 ||| (pixel >>> 6 &&& 0x1F).toUInt8.toUInt16 <<< 6 |||
      (pixel >>> 1 &&& 0x1F).toUInt8.toUInt16 <<< 1 ||| (pixel &&& 0x1).toUInt8.toUInt16 = pixel := by
  have hpixel : pixel.toNat < 2 ^ 16 := UInt16.toNat_lt pixel
  have hmask : UInt16.toNat 0x1F = 2 ^ 5 - 1 := rfl
  have hr := toNat_placed pixel (show UInt16.toNat 11 = 11 from rfl) hmask (by decide) (by decide) (by decide)
  have hg := toNat_placed pixel (show UInt16.toNat 6 = 6 from rfl) hmask (by decide) (by decide) (by decide)
  have hb := toNat_placed pixel (show UInt16.toNat 1 = 1 from rfl) hmask (by decide) (by decide) (by decide)
  have ha := toNat_lowField pixel (show UInt16.toNat 0x1 = 2 ^ 1 - 1 from rfl) (by decide)
  apply UInt16.toNat_inj.mp
  rw [UInt16.toNat_or, UInt16.toNat_or, UInt16.toNat_or, hr, hg, hb, UInt8.toNat_toUInt16, ha, Nat.or_assoc,
    Nat.or_assoc, ← Nat.two_pow_add_eq_or_of_lt (show pixel.toNat % 2 ^ 1 < 2 ^ 1 by omega),
    ← Nat.two_pow_add_eq_or_of_lt
      (show 2 ^ 1 * (pixel.toNat / 2 ^ 1 % 2 ^ 5) + pixel.toNat % 2 ^ 1 < 2 ^ 6 by omega),
    ← Nat.two_pow_add_eq_or_of_lt (by omega)]
  omega

private theorem fields4444 :
    (pixel >>> 12 &&& 0xF).toUInt8.toUInt16 <<< 12 ||| (pixel >>> 8 &&& 0xF).toUInt8.toUInt16 <<< 8 |||
      (pixel >>> 4 &&& 0xF).toUInt8.toUInt16 <<< 4 ||| (pixel &&& 0xF).toUInt8.toUInt16 = pixel := by
  have hpixel : pixel.toNat < 2 ^ 16 := UInt16.toNat_lt pixel
  have hmask : UInt16.toNat 0xF = 2 ^ 4 - 1 := rfl
  have hr := toNat_placed pixel (show UInt16.toNat 12 = 12 from rfl) hmask (by decide) (by decide) (by decide)
  have hg := toNat_placed pixel (show UInt16.toNat 8 = 8 from rfl) hmask (by decide) (by decide) (by decide)
  have hb := toNat_placed pixel (show UInt16.toNat 4 = 4 from rfl) hmask (by decide) (by decide) (by decide)
  have ha := toNat_lowField pixel hmask (by decide)
  apply UInt16.toNat_inj.mp
  rw [UInt16.toNat_or, UInt16.toNat_or, UInt16.toNat_or, hr, hg, hb, UInt8.toNat_toUInt16, ha, Nat.or_assoc,
    Nat.or_assoc, ← Nat.two_pow_add_eq_or_of_lt (show pixel.toNat % 2 ^ 4 < 2 ^ 4 by omega),
    ← Nat.two_pow_add_eq_or_of_lt
      (show 2 ^ 4 * (pixel.toNat / 2 ^ 4 % 2 ^ 4) + pixel.toNat % 2 ^ 4 < 2 ^ 8 by omega),
    ← Nat.two_pow_add_eq_or_of_lt (by omega)]
  omega

private theorem toNat_field_lt {shift mask : UInt16} {i w : Nat} (hshift : shift.toNat = i)
    (hi : i < 16) (hmask : mask.toNat = 2 ^ w - 1) (hw : w ≤ 8) :
    (pixel >>> shift &&& mask).toUInt8.toNat < 2 ^ w := by
  rw [toNat_field pixel hshift hi hmask hw]
  exact Nat.mod_lt _ (Nat.two_pow_pos w)

private theorem toNat_lowField_lt {mask : UInt16} {w : Nat} (hmask : mask.toNat = 2 ^ w - 1)
    (hw : w ≤ 8) : (pixel &&& mask).toUInt8.toNat < 2 ^ w := by
  rw [toNat_lowField pixel hmask hw]
  exact Nat.mod_lt _ (Nat.two_pow_pos w)

private theorem writeU16_readU16 : writeU16 (readU16 bytes) = [bytes 0, bytes 1] := by
  have hlt : ofLittleEndian [bytes 0, bytes 1] < UInt16.size := by
    simpa using ofLittleEndian_lt [bytes 0, bytes 1]
  unfold writeU16 readU16
  rw [show (ofLittleEndian [bytes 0, bytes 1]).toUInt16.toNat = _ from UInt16.toNat_ofNat_of_lt hlt]
  exact toLittleEndian_ofLittleEndian [bytes 0, bytes 1]

private theorem encodeRGB565_decode : encodeRGB565 (decodeRGB565 bytes) = [bytes 0, bytes 1] := by
  unfold encodeRGB565 decodeRGB565
  rw [convert5To8_inv _ (toNat_field_lt _ rfl (by decide) rfl (by decide)),
    convert6To8_inv _ (toNat_field_lt _ rfl (by decide) rfl (by decide)),
    convert5To8_inv _ (toNat_lowField_lt _ rfl (by decide)), fields565, writeU16_readU16]

private theorem encodeRGB5A1_decode : encodeRGB5A1 (decodeRGB5A1 bytes) = [bytes 0, bytes 1] := by
  unfold encodeRGB5A1 decodeRGB5A1
  rw [convert5To8_inv _ (toNat_field_lt _ rfl (by decide) rfl (by decide)),
    convert5To8_inv _ (toNat_field_lt _ rfl (by decide) rfl (by decide)),
    convert5To8_inv _ (toNat_field_lt _ rfl (by decide) rfl (by decide)),
    convert1To8_inv _ (toNat_lowField_lt _ rfl (by decide)), fields5551, writeU16_readU16]

private theorem encodeRGBA4_decode : encodeRGBA4 (decodeRGBA4 bytes) = [bytes 0, bytes 1] := by
  unfold encodeRGBA4 decodeRGBA4
  rw [convert4To8_inv _ (toNat_field_lt _ rfl (by decide) rfl (by decide)),
    convert4To8_inv _ (toNat_field_lt _ rfl (by decide) rfl (by decide)),
    convert4To8_inv _ (toNat_field_lt _ rfl (by decide) rfl (by decide)),
    convert4To8_inv _ (toNat_lowField_lt _ rfl (by decide)), fields4444, writeU16_readU16]

private theorem encodeIA8_decode : encodeIA8 (decodeIA8 bytes) = [bytes 0, bytes 1] := by
  unfold encodeIA8 decodeIA8
  rw [averageRgbComponents_gray]

private theorem encodeI8_decode : encodeI8 (decodeI8 bytes) = [bytes 0] := by
  unfold encodeI8 decodeI8
  rw [averageRgbComponents_gray]

private theorem nibbles (byte : UInt8) :
    ((byte &&& 0xF0) >>> 4).toNat < 2 ^ 4 ∧ (byte &&& 0x0F).toNat < 2 ^ 4 ∧
      (byte &&& 0xF0) >>> 4 <<< 4 ||| byte &&& 0x0F = byte := by
  rcases byte with ⟨byte⟩
  revert byte
  decide +kernel

private theorem encodeIA4_decode : encodeIA4 (decodeIA4 bytes) = [bytes 0] := by
  obtain ⟨hhigh, hlow, hsum⟩ := nibbles (bytes 0)
  unfold encodeIA4 decodeIA4
  rw [averageRgbComponents_gray, convert4To8_inv _ hhigh, convert4To8_inv _ hlow, hsum]

private theorem toNat_high (value current : UInt8) (h : value.toNat < 2 ^ 4) :
    (value <<< 4 ||| current &&& 0x0F).toNat = 2 ^ 4 * value.toNat + current.toNat % 2 ^ 4 := by
  show value.toNat <<< 4 % 2 ^ 8 ||| current.toNat &&& (2 ^ 4 - 1) = _
  rw [Nat.and_two_pow_sub_one_eq_mod, Nat.shiftLeft_eq, Nat.mod_eq_of_lt (by omega), Nat.mul_comm,
    ← Nat.two_pow_add_eq_or_of_lt (by omega)]

private theorem toNat_and_high (current : UInt8) : (current &&& 0xF0).toNat = 2 ^ 4 * (current.toNat / 2 ^ 4) := by
  rcases current with ⟨current⟩
  revert current
  decide +kernel

private theorem toNat_low (value current : UInt8) (h : value.toNat < 2 ^ 4) :
    (current &&& 0xF0 ||| value).toNat = 2 ^ 4 * (current.toNat / 2 ^ 4) + value.toNat := by
  rw [UInt8.toNat_or, toNat_and_high, ← Nat.two_pow_add_eq_or_of_lt h]

theorem toNat_getNibble (m : Nat) :
    (getNibble tile m).toNat = (tile (m / 2)).toNat / 2 ^ (4 * (m % 2)) % 2 ^ 4 := by
  have hbyte : (tile (m / 2)).toNat < 2 ^ 8 := UInt8.toNat_lt _
  unfold getNibble
  rcases Nat.mod_two_eq_zero_or_one m with hm | hm
  · rw [if_neg (by omega), hm, UInt8.toNat_and]
    show (tile (m / 2)).toNat &&& (2 ^ 4 - 1) = _
    rw [Nat.and_two_pow_sub_one_eq_mod]
    omega
  · rw [if_pos (by omega), hm, UInt8.toNat_shiftRight]
    show (tile (m / 2)).toNat >>> 4 = _
    omega

theorem getNibble_lt (m : Nat) : (getNibble tile m).toNat < 2 ^ 4 := by
  rw [toNat_getNibble]
  exact Nat.mod_lt _ (by decide)

private theorem convert8To4_lt : (convert8To4 value).toNat < 2 ^ 4 := by
  rcases value with ⟨value⟩
  revert value
  decide +kernel

theorem encodePixel4_lt (format : PixelFormat) (source : Nat → UInt8) : (encodePixel4 format source).toNat < 2 ^ 4 :=
  convert8To4_lt _

theorem getNibble_putNibble_self (m : Nat) {value : UInt8} (h : value.toNat < 2 ^ 4) :
    getNibble (putNibble tile m value) m = value := by
  apply UInt8.toNat_inj.mp
  rw [toNat_getNibble]
  unfold putNibble
  rw [if_pos rfl]
  rcases Nat.mod_two_eq_zero_or_one m with hm | hm
  · rw [if_neg (by omega), toNat_low _ _ h, hm]
    omega
  · rw [if_pos (by omega), toNat_high _ _ h, hm]
    omega

theorem getNibble_putNibble_of_ne {m m' : Nat} (hne : m' ≠ m) {value : UInt8}
    (h : value.toNat < 2 ^ 4) : getNibble (putNibble tile m value) m' = getNibble tile m' := by
  apply UInt8.toNat_inj.mp
  rw [toNat_getNibble, toNat_getNibble]
  unfold putNibble
  by_cases hbyte : m' / 2 = m / 2
  · rw [if_pos hbyte, hbyte]
    rcases Nat.mod_two_eq_zero_or_one m with hm | hm
    · rw [if_neg (by omega), toNat_low _ _ h, show m' % 2 = 1 by omega]
      omega
    · rw [if_pos (by omega), toNat_high _ _ h, show m' % 2 = 0 by omega]
      omega
  · rw [if_neg hbyte]

theorem eq_of_getNibble {tile tile' : Nat → UInt8} {j : Nat}
    (hlow : getNibble tile (2 * j) = getNibble tile' (2 * j))
    (hhigh : getNibble tile (2 * j + 1) = getNibble tile' (2 * j + 1)) : tile j = tile' j := by
  have hlow := congrArg UInt8.toNat hlow
  have hhigh := congrArg UInt8.toNat hhigh
  rw [toNat_getNibble, toNat_getNibble, show 2 * j / 2 = j by omega, show 2 * j % 2 = 0 by omega] at hlow
  rw [toNat_getNibble, toNat_getNibble, show (2 * j + 1) / 2 = j by omega, show (2 * j + 1) % 2 = 1 by omega] at hhigh
  have hbyte : (tile j).toNat < 2 ^ 8 := UInt8.toNat_lt _
  have hbyte' : (tile' j).toNat < 2 ^ 8 := UInt8.toNat_lt _
  apply UInt8.toNat_inj.mp
  omega

private theorem writeU32_makeU32 : writeU32 (makeU32 bytes) = [bytes 0, bytes 1, bytes 2, bytes 3] := by
  have hlt : ofLittleEndian [bytes 0, bytes 1, bytes 2, bytes 3] < UInt32.size := by
    simpa using ofLittleEndian_lt [bytes 0, bytes 1, bytes 2, bytes 3]
  unfold writeU32 makeU32
  rw [show (ofLittleEndian [bytes 0, bytes 1, bytes 2, bytes 3]).toUInt32.toNat = _ from
    UInt32.toNat_ofNat_of_lt hlt]
  exact toLittleEndian_ofLittleEndian [bytes 0, bytes 1, bytes 2, bytes 3]

private theorem makeU32_writeU32 (data : UInt32) (bytes : Nat → UInt8)
    (h : [bytes 0, bytes 1, bytes 2, bytes 3] = writeU32 data) : makeU32 bytes = data := by
  have hlt : data.toNat < 256 ^ 4 := UInt32.toNat_lt data
  unfold makeU32
  rw [h]
  unfold writeU32
  rw [ofLittleEndian_toLittleEndian hlt]
  exact UInt32.ofNat_toNat

private theorem rotr8_rotl8 (x : UInt32) : rotr8 (rotl8 x) = x := by
  have hx : x.toNat < 2 ^ 32 := UInt32.toNat_lt x
  have hleft : (rotl8 x).toNat = 2 ^ 8 * (x.toNat % 2 ^ 24) + x.toNat / 2 ^ 24 := by
    unfold rotl8
    show x.toNat <<< 8 % 2 ^ 32 ||| x.toNat >>> 24 = _
    rw [Nat.shiftLeft_eq, Nat.shiftRight_eq_div_pow,
      show x.toNat * 2 ^ 8 % 2 ^ 32 = 2 ^ 8 * (x.toNat % 2 ^ 24) by omega, ← Nat.two_pow_add_eq_or_of_lt (by omega)]
  have hright (y : UInt32) : (rotr8 y).toNat = 2 ^ 24 * (y.toNat % 2 ^ 8) + y.toNat / 2 ^ 8 := by
    have hy : y.toNat < 2 ^ 32 := UInt32.toNat_lt y
    unfold rotr8
    rw [UInt32.toNat_or, UInt32.toNat_shiftLeft, UInt32.toNat_shiftRight, Nat.or_comm]
    show y.toNat <<< 24 % 2 ^ 32 ||| y.toNat >>> 8 = _
    rw [Nat.shiftLeft_eq, Nat.shiftRight_eq_div_pow,
      show y.toNat * 2 ^ 24 % 2 ^ 32 = 2 ^ 24 * (y.toNat % 2 ^ 8) by omega, ← Nat.two_pow_add_eq_or_of_lt (by omega)]
  apply UInt32.toNat_inj.mp
  rw [hright, hleft]
  omega

def bytesPerPixel (format : PixelFormat) : Nat := getFormatBpp format / 8

def linearBytesPerPixel (format : PixelFormat) (converted : Bool) : Nat :=
  if converted then 4 else getFormatBytesPerPixel format

@[simp] theorem length_copyBytes (source : Nat → UInt8) (n : Nat) : (copyBytes source n).length = n := by
  unfold copyBytes
  rw [List.length_map, List.length_range]

theorem getElem?_copyBytes (source : Nat → UInt8) {n i : Nat} (hi : i < n) :
    (copyBytes source n)[i]? = some (source i) := by
  unfold copyBytes
  rw [List.getElem?_map, List.getElem?_range hi]
  rfl

theorem length_encodePixel (host : CodecHost) {converted : Bool}
    (hformat : swizzles format converted) (h4bit : is4bit format = false) (source : Nat → UInt8) :
    (encodePixel host format converted source).length = bytesPerPixel format := by
  cases format <;> cases converted <;>
    first
      | exact absurd hformat (by decide)
      | exact absurd h4bit (by decide)
      | exact length_copyBytes _ _
      | exact Eq.trans (b := 4) rfl rfl
      | exact Eq.trans (b := 3) rfl rfl
      | exact Eq.trans (b := 2) rfl rfl
      | exact Eq.trans (b := 1) rfl rfl

theorem length_decodePixel_le (host : CodecHost) {converted : Bool}
    (hformat : swizzles format converted) (h4bit : is4bit format = false) (source : Nat → UInt8) :
    (decodePixel host format converted source).length ≤ linearBytesPerPixel format converted := by
  cases format <;> cases converted <;>
    first
      | exact absurd hformat (by decide)
      | exact absurd h4bit (by decide)
      | exact (length_copyBytes _ _).trans_le (by decide)
      | exact Nat.le_refl 4

def StartsWith (dest : Nat → UInt8) (bytes : List UInt8) : Prop := ∀ i b, bytes[i]? = some b → dest i = b

private theorem StartsWith.ofBytes {dest : Nat → UInt8} {color : Vec4} (h : StartsWith dest color.asArray) :
    Vec4.ofBytes dest = color := by
  unfold Vec4.ofBytes
  rw [h 0 _ rfl, h 1 _ rfl, h 2 _ rfl, h 3 _ rfl]

private theorem StartsWith.copyBytes {dest source : Nat → UInt8} {n : Nat} (h : StartsWith dest (copyBytes source n)) :
    copyBytes dest n = copyBytes source n := by
  exact List.map_congr_left fun i hi => h i _ (getElem?_copyBytes source (List.mem_range.mp hi))

private theorem StartsWith.makeU32 {dest : Nat → UInt8} {data : UInt32} (h : StartsWith dest (writeU32 data)) :
    makeU32 dest = data := by
  refine makeU32_writeU32 data dest ?_
  rw [h 0 _ rfl, h 1 _ rfl, h 2 _ rfl, h 3 _ rfl]
  rfl

/-- Encoding a decoded pixel gives it back, whatever stands in the bytes of the destination that decoding leaves. -/
theorem encodePixel_decodePixel (host : CodecHost) {converted : Bool}
    (hformat : swizzles format converted) (h4bit : is4bit format = false) (hdepth : ¬ (format = .d24 ∧ converted))
    (source dest : Nat → UInt8) (hdest : StartsWith dest (decodePixel host format converted source)) :
    encodePixel host format converted dest = copyBytes source (bytesPerPixel format) := by
  cases hconverted : converted with
  | true =>
    subst hconverted
    cases format with
    | rgba8 => exact congrArg encodeRGBA8 hdest.ofBytes
    | rgb8 => exact congrArg encodeRGB8 hdest.ofBytes
    | rgb565 => exact (congrArg encodeRGB565 hdest.ofBytes).trans (encodeRGB565_decode source)
    | rgb5a1 => exact (congrArg encodeRGB5A1 hdest.ofBytes).trans (encodeRGB5A1_decode source)
    | rgba4 => exact (congrArg encodeRGBA4 hdest.ofBytes).trans (encodeRGBA4_decode source)
    | d16 => exact hdest.copyBytes
    | d24 => exact absurd ⟨rfl, rfl⟩ hdepth
    | _ => exact absurd hformat (by decide)
  | false =>
    subst hconverted
    cases format with
    | ia8 => exact (congrArg encodeIA8 hdest.ofBytes).trans (encodeIA8_decode source)
    | rg8 => exact congrArg encodeRG8 hdest.ofBytes
    | i8 => exact (congrArg encodeI8 hdest.ofBytes).trans (encodeI8_decode source)
    | a8 => exact congrArg encodeA8 hdest.ofBytes
    | ia4 => exact (congrArg encodeIA4 hdest.ofBytes).trans (encodeIA4_decode source)
    | d24s8 =>
      have hrotated : makeU32 dest = rotl8 (makeU32 source) := hdest.makeU32
      show writeU32 (rotr8 (makeU32 dest)) = _
      rw [hrotated, rotr8_rotl8, writeU32_makeU32]
      rfl
    | i4 | a4 => exact absurd h4bit (by decide)
    | etc1 | etc1a4 | invalid => exact absurd hformat (by decide)
    | _ => exact hdest.copyBytes

theorem encodePixel4_decodePixel4 (h4bit : is4bit format) {nibble : UInt8}
    (hnibble : nibble.toNat < 2 ^ 4) (dest : Nat → UInt8) (hdest : StartsWith dest (decodePixel4 format nibble)) :
    encodePixel4 format dest = nibble := by
  unfold is4bit at h4bit
  rw [Bool.or_eq_true, beq_iff_eq, beq_iff_eq] at h4bit
  unfold encodePixel4
  rcases h4bit with rfl | rfl
  · have hcolor : StartsWith dest (Vec4.mk (convert4To8 nibble) (convert4To8 nibble) (convert4To8 nibble) 255).asArray :=
      hdest
    rw [hcolor.ofBytes]
    dsimp only
    rw [if_pos rfl, averageRgbComponents_gray]
    exact convert4To8_inv nibble hnibble
  · have hcolor : StartsWith dest (Vec4.mk 0 0 0 (convert4To8 nibble)).asArray := hdest
    rw [hcolor.ofBytes]
    exact convert4To8_inv nibble hnibble

end SweepDSEmu.VideoCore
