import SweepDSEmu.Lib.FillLoop
import SweepDSEmu.VideoCore.PixelCodec

/-!
# The tiled layout of textures

`MortonCopy` passes between linear images and images in tiles of eight by eight pixels, whose pixels are in Morton
order.  The linear image is walked from the bottom up.  Towards a tiled image it handles any part of the image: a first tile and
a last tile that are not whole are made in temporary buffers, whose contents before are arguments here.

A span that leaves its buffer is a fault.
-/

namespace SweepDSEmu.VideoCore

open RasterizerCache (alignUp)

def mortonInterleave (x y : Nat) : Nat :=
  let xlut := [0x00, 0x01, 0x04, 0x05, 0x10, 0x11, 0x14, 0x15]
  let ylut := [0x00, 0x02, 0x08, 0x0a, 0x20, 0x22, 0x28, 0x2a]
  xlut.getD (x % 8) 0 + ylut.getD (y % 8) 0

inductive MortonFault where
  | assertion
  | divisionByZero
  | outOfRange
  deriving DecidableEq

structure Span where
  size : Nat
  bytes : Nat → UInt8

namespace Span

def subspan (span : Span) (offset count : Nat) : Except MortonFault Span :=
  if offset + count ≤ span.size then .ok { size := count, bytes := fun i => span.bytes (offset + i) }
  else .error .outOfRange

def writeBack (span : Span) (offset : Nat) (part : Span) : Span :=
  { span with bytes := overwrite span.bytes offset part.size part.bytes }

end Span

def writeBytes (mem : Nat → UInt8) (base : Nat) (bytes : List UInt8) : Nat → UInt8 :=
  overwrite mem base bytes.length fun i => bytes.getD i 0

def tilePixels : List (Nat × Nat) := (List.range 8).flatMap fun y => (List.range 8).map fun x => (x, y)

section

variable (host : CodecHost) (format : PixelFormat) (converted : Bool)

def linearPixelOffset (stride : Nat) (p : Nat × Nat) : Nat :=
  mulU32 (addU32 (mulU32 (subU32 7 p.2) stride) p.1) (linearBytesPerPixel format converted)

def tiledPixelOffset (p : Nat × Nat) : Nat := mulU32 (mortonInterleave p.1 p.2) (bytesPerPixel format)

/-- The subspans of a pixel lie in the two buffers. -/
def pixelInRange (stride tileSize linearSize : Nat) (p : Nat × Nat) : Prop :=
  tiledPixelOffset format p + bytesPerPixel format ≤ tileSize ∧
    linearPixelOffset format converted stride p + linearBytesPerPixel format converted ≤ linearSize

instance (stride tileSize linearSize : Nat) (p : Nat × Nat) :
    Decidable (pixelInRange format converted stride tileSize linearSize p) := inferInstanceAs (Decidable (_ ∧ _))

/-- A turn of the loops of `MortonCopyTile`, towards the linear image. -/
def decodeTilePixel (stride : Nat) (tile : Span) (linearSize : Nat) (linear : Nat → UInt8) (p : Nat × Nat) :
    Except MortonFault (Nat → UInt8) :=
  if ¬ pixelInRange format converted stride tile.size linearSize p then .error .outOfRange
  else
    .ok (writeBytes linear (linearPixelOffset format converted stride p)
      (if isCompressed format then host.decodePixelETC1 format p.1 p.2 tile.bytes
      else if is4bit format then decodePixel4 format (getNibble tile.bytes (mortonInterleave p.1 p.2))
      else decodePixel host format converted fun i => tile.bytes (tiledPixelOffset format p + i)))

/-- A turn of the loops of `MortonCopyTile`, towards the tile. -/
def encodeTilePixel (stride : Nat) (linear : Span) (tileSize : Nat) (tile : Nat → UInt8) (p : Nat × Nat) :
    Except MortonFault (Nat → UInt8) :=
  if ¬ pixelInRange format converted stride tileSize linear.size p then .error .outOfRange
  else
    let linearPixel := fun i => linear.bytes (linearPixelOffset format converted stride p + i)
    if is4bit format then .ok (putNibble tile (mortonInterleave p.1 p.2) (encodePixel4 format linearPixel))
    else .ok (writeBytes tile (tiledPixelOffset format p) (encodePixel host format converted linearPixel))

def mortonCopyTile (mortonToLinear : Bool) (stride : Nat) (tileBuffer linearBuffer : Span) :
    Except MortonFault (Span × Span) :=
  if mortonToLinear then do
    let linear ← tilePixels.foldlM (decodeTilePixel host format converted stride tileBuffer linearBuffer.size)
      linearBuffer.bytes
    .ok (tileBuffer, { linearBuffer with bytes := linear })
  else do
    let tile ← tilePixels.foldlM (encodeTilePixel host format converted stride linearBuffer tileBuffer.size)
      tileBuffer.bytes
    .ok ({ tileBuffer with bytes := tile }, linearBuffer)

end

/-- The arguments of `MortonCopy`, without the buffers. -/
structure MortonCall where
  format : PixelFormat
  converted : Bool
  width : Nat
  height : Nat
  startOffset : Nat
  endOffset : Nat
  deriving DecidableEq

structure TileWalk where
  x : Nat
  y : Nat
  linearOffset : Nat
  deriving DecidableEq

/-- The variables of `MortonCopy`. -/
structure MortonState where
  walk : TileWalk
  tiledOffset : Nat
  tiled : Span
  linear : Span

namespace MortonCall

variable (c : MortonCall)

def alignedBytesPerPixel : Nat := linearBytesPerPixel c.format c.converted
def tileSize : Nat := getFormatBpp c.format * 64 / 8
def linearTileStride : Nat := mulU32 (addU32 (mulU32 7 c.width) 8) c.alignedBytesPerPixel
def alignedDownStartOffset : Nat := alignDown c.startOffset c.tileSize
def alignedStartOffset : Nat := alignUp c.startOffset c.tileSize
def alignedEndOffset : Nat := alignDown c.endOffset c.tileSize
def beginPixelIndex : Nat := mulU32 c.alignedDownStartOffset 8 / getFormatBpp c.format

def startWalk : TileWalk :=
  let x := c.beginPixelIndex % mulU32 c.width 8 / 8
  let y := mulU32 (c.beginPixelIndex / mulU32 c.width 8) 8
  { x := x
    y := y
    linearOffset :=
      mulU32 (addU32 (mulU32 (subU32 (subU32 c.height 8) y) c.width) x) c.alignedBytesPerPixel }

def linearNextTile (walk : TileWalk) : Except MortonFault TileWalk :=
  let x := addU32 walk.x 8 % c.width
  let linearOffset := addU32 walk.linearOffset (mulU32 8 c.alignedBytesPerPixel)
  if x ≠ 0 then .ok { walk with x := x, linearOffset := linearOffset }
  else if c.height = 0 then .error .divisionByZero
  else
    let y := addU32 walk.y 8 % c.height
    if y = 0 then .ok { x := x, y := y, linearOffset := linearOffset }
    else
      .ok
        { x := x
          y := y
          linearOffset := subU32 linearOffset (mulU32 (mulU32 c.width 9) c.alignedBytesPerPixel) }

variable (host : CodecHost)

def headTile (tmpBuf : Nat → UInt8) (s : MortonState) : Except MortonFault MortonState :=
  if c.startOffset < c.alignedStartOffset then do
    let linearData ← s.linear.subspan s.walk.linearOffset c.linearTileStride
    let r ← mortonCopyTile host c.format c.converted false c.width ⟨c.tileSize, tmpBuf⟩ linearData
    let count := min c.alignedStartOffset c.endOffset - c.startOffset
    let part ← r.1.subspan (c.startOffset - c.alignedDownStartOffset) count
    let _ ← s.tiled.subspan 0 count
    let walk ← c.linearNextTile s.walk
    .ok
      { s with
        walk := walk
        tiledOffset := addU32 s.tiledOffset (c.alignedStartOffset - c.startOffset)
        tiled := s.tiled.writeBack 0 part }
  else .ok s

def wholeTile (mortonToLinear : Bool) (s : MortonState) (tiledOffset : Nat) : Except MortonFault MortonState := do
  let linearData ← s.linear.subspan s.walk.linearOffset c.linearTileStride
  let tiledData ← s.tiled.subspan tiledOffset c.tileSize
  let r ← mortonCopyTile host c.format c.converted mortonToLinear c.width tiledData linearData
  let walk ← c.linearNextTile s.walk
  .ok
    { walk := walk
      tiledOffset := addU32 tiledOffset c.tileSize
      tiled := s.tiled.writeBack tiledOffset r.1
      linear := s.linear.writeBack s.walk.linearOffset r.2 }

def wholeTiles (mortonToLinear : Bool) (s : MortonState) : Except MortonFault MortonState :=
  if c.alignedStartOffset < c.alignedEndOffset then
    let tileBufferSize := s.tiled.size % 2 ^ 32
    let bufferEnd := min (subU32 (addU32 s.tiledOffset c.alignedEndOffset) c.alignedStartOffset) tileBufferSize
    countedLoop s.tiledOffset bufferEnd c.tileSize (c.wholeTile host mortonToLinear) s
  else .ok s

def tailTile (tmpBuf : Nat → UInt8) (s : MortonState) : Except MortonFault MortonState :=
  if c.endOffset > max c.alignedStartOffset c.alignedEndOffset then do
    let linearData ← s.linear.subspan s.walk.linearOffset c.linearTileStride
    let r ← mortonCopyTile host c.format c.converted false c.width ⟨c.tileSize, tmpBuf⟩ linearData
    let count := c.endOffset - c.alignedEndOffset
    let part ← r.1.subspan 0 count
    let _ ← s.tiled.subspan s.tiledOffset count
    .ok { s with tiled := s.tiled.writeBack s.tiledOffset part }
  else .ok s

end MortonCall

def MortonCall.startState (c : MortonCall) (linearBuffer tiledBuffer : Span) : MortonState :=
  { walk := c.startWalk, tiledOffset := 0, tiled := tiledBuffer, linear := linearBuffer }

def mortonCopy (host : CodecHost) (mortonToLinear : Bool) (c : MortonCall) (headBuf tailBuf : Nat → UInt8)
    (linearBuffer tiledBuffer : Span) : Except MortonFault (Span × Span) :=
  if mortonToLinear ∧ ¬ (c.alignedStartOffset = c.startOffset ∧ c.alignedEndOffset = c.endOffset) then
    .error .assertion
  else if mulU32 c.width 8 = 0 then .error .divisionByZero
  else if mortonToLinear then do
    let s ← c.wholeTiles host true (c.startState linearBuffer tiledBuffer)
    .ok (s.linear, s.tiled)
  else do
    let s ← c.headTile host headBuf (c.startState linearBuffer tiledBuffer)
    let s ← c.wholeTiles host false s
    let s ← c.tailTile host tailBuf s
    .ok (s.linear, s.tiled)

end SweepDSEmu.VideoCore
