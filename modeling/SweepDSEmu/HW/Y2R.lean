import SweepDSEmu.Lib.BoundedLoop
import SweepDSEmu.Lib.FillLoop
import SweepDSEmu.VideoCore.PixelCodec
import SweepDSEmu.Lib.FinNumerals

/-!
# The Y2R conversion

`HW::Y2R::PerformConversion` converts an image from YUV to RGB, in strips of eight lines.  The samples of a strip are
received into a buffer and converted to tiles; the tiles are rotated one by one and written to the same buffer, from
which the pixels are sent.

The memory of the process is a parameter.  The buffers are not initialized: what they hold first is an argument.  The
products and sums of `ConvertYUVToRGB` fit into an `s32`.
-/

namespace SweepDSEmu.Y2R

open VideoCore (Color.Vec4)

/-- `unknown` stands here and below for the numbers that are no enumerators. -/
inductive InputFormat where
  | yuv422Indiv8 | yuv420Indiv8 | yuv422Indiv16 | yuv420Indiv16 | yuyv422Interleaved | unknown
  deriving DecidableEq

inductive OutputFormat where
  | rgba8 | rgb8 | rgb5a1 | rgb565 | unknown
  deriving DecidableEq

inductive Rotation where
  | none | clockwise90 | clockwise180 | clockwise270 | unknown
  deriving DecidableEq

inductive BlockAlignment where
  | linear | block8x8 | unknown
  deriving DecidableEq

abbrev CoefficientSet := Fin 8 → Int16

structure ConversionBuffer where
  address : UInt32 := 0
  imageSize : UInt32 := 0
  transferUnit : UInt16 := 0
  gap : UInt16 := 0
  deriving DecidableEq

def ConversionBuffer.stride (buf : ConversionBuffer) : Nat := buf.transferUnit.toNat + buf.gap.toNat

def ConversionBuffer.next (buf : ConversionBuffer) : ConversionBuffer :=
  { buf with
    address := buf.address + (buf.transferUnit.toUInt32 + buf.gap.toUInt32)
    imageSize := buf.imageSize - buf.transferUnit.toUInt32 }

structure ConversionConfiguration where
  inputFormat : InputFormat := .yuv422Indiv8
  outputFormat : OutputFormat := .rgba8
  rotation : Rotation := .none
  blockAlignment : BlockAlignment := .linear
  inputLineWidth : UInt16 := 0
  inputLines : UInt16 := 0
  coefficients : CoefficientSet := fun _ => 0
  alpha : UInt16 := 0
  srcY : ConversionBuffer := {}
  srcU : ConversionBuffer := {}
  srcV : ConversionBuffer := {}
  srcYUYV : ConversionBuffer := {}
  dst : ConversionBuffer := {}

/-- The memory of the process: where `GetPointer` leads to, and the accesses through pointers. -/
structure DmaMemory (M : Type) where
  getPointer : UInt32 → Nat
  read : M → Nat → UInt8
  write : M → Nat → UInt8 → M

inductive ConversionFault where
  | assertion
  | divisionByZero
  | unreachable
  | nullPointer
  | outOfRange
  /-- The bound on the transfer units is met. -/
  | exhausted
  deriving DecidableEq

def readAt {α : Type} (size : Nat) (data : Nat → α) (i : Nat) : Except ConversionFault α :=
  if i < size then .ok (data i) else .error .outOfRange

def writeAt {α : Type} (size : Nat) (data : Nat → α) (i : Nat) (a : α) : Except ConversionFault (Nat → α) :=
  if i < size then .ok (Function.update data i a) else .error .outOfRange

def wordOf (data : Nat → UInt8) (i : Nat) : UInt32 :=
  (ofLittleEndian [data (4 * i), data (4 * i + 1), data (4 * i + 2), data (4 * i + 3)]).toUInt32

def readWord (size : Nat) (data : Nat → UInt8) (i : Nat) : Except ConversionFault UInt32 :=
  if 4 * i + 4 ≤ size then .ok (wordOf data i) else .error .outOfRange

def writeWord (size : Nat) (data : Nat → UInt8) (i : Nat) (word : UInt32) : Except ConversionFault (Nat → UInt8) :=
  if 4 * i + 4 ≤ size then .ok (overwrite data (4 * i) 4 fun k => (toLittleEndian 4 word.toNat).getD k 0)
  else .error .outOfRange

/-- The pixels of a rectangle, in the order of the loops over lines and columns. -/
def pixels (width height : Nat) : List (Nat × Nat) :=
  (List.range height).flatMap fun y => (List.range width).map fun x => (x, y)

section

variable {M : Type} (host : DmaMemory M)

/-- The variables of `ReceiveData`. -/
structure ReceiveState where
  data : Nat → UInt8
  output : Nat
  input : Nat
  buf : ConversionBuffer
  amountOfData : Nat

def ReceiveState.done (r : ReceiveState) : Bool := r.amountOfData == 0

/-- A turn of the outer loop of `ReceiveData`. -/
def receiveTurn (mem : M) (n size outputUnit : Nat) (r : ReceiveState) : Except ConversionFault ReceiveState := do
  let data ← (List.range outputUnit).foldlM
    (fun data i => writeAt size data (r.output + i) (host.read mem (r.input + i * n))) r.data
  .ok { data := data
        output := r.output + outputUnit
        input := r.input + r.buf.stride
        buf := r.buf.next
        amountOfData := r.amountOfData - outputUnit }

/-- `ReceiveData<n>`, to the place `output` of the buffer. -/
def receiveData (mem : M) (bound n size : Nat) (data : Nat → UInt8) (output : Nat) (buf : ConversionBuffer)
    (amountOfData : Nat) : Except ConversionFault ((Nat → UInt8) × ConversionBuffer) :=
  let outputUnit := buf.transferUnit.toNat / n
  if outputUnit = 0 then .error .divisionByZero
  else if amountOfData % outputUnit ≠ 0 then .error .assertion
  else do
    let r ← BoundedLoop.run ReceiveState.done (receiveTurn host mem n size outputUnit) .exhausted bound
      { data := data, output := output, input := host.getPointer buf.address, buf := buf, amountOfData := amountOfData }
    .ok (r.data, r.buf)

def encodePixel (format : OutputFormat) (color : UInt32) (alpha : UInt8) : List UInt8 :=
  let colVec : Color.Vec4 := ⟨(color >>> 24).toUInt8, (color >>> 16).toUInt8, (color >>> 8).toUInt8, alpha⟩
  match format with
  | .rgba8 => VideoCore.Color.encodeRGBA8 colVec
  | .rgb8 => VideoCore.Color.encodeRGB8 colVec
  | .rgb5a1 => VideoCore.Color.encodeRGB5A1 colVec
  | .rgb565 => VideoCore.Color.encodeRGB565 colVec
  | .unknown => []

def writeBytes (mem : M) (output : Nat) (bytes : List UInt8) : M :=
  bytes.zipIdx.foldl (fun mem p => host.write mem (output + p.2) p.1) mem

/-- The variables of `SendData`. -/
structure SendState (M : Type) where
  mem : M
  input : Nat
  output : Nat
  buf : ConversionBuffer
  amountOfData : Nat

def SendState.done (s : SendState M) : Bool := s.amountOfData == 0

/-- The inner loop of `SendData`, with the pixels that are left. -/
def sendUnit (format : OutputFormat) (size : Nat) (data : Nat → UInt8) (alpha : UInt8) (unitEnd : Nat) :
    Nat → SendState M → Except ConversionFault (SendState M)
  | 0, s => .ok s
  | amount + 1, s =>
    if s.output < unitEnd then do
      let color ← readWord size data s.input
      let bytes := encodePixel format color alpha
      sendUnit format size data alpha unitEnd amount
        { s with
          mem := writeBytes host s.mem s.output bytes
          input := s.input + 1
          output := s.output + bytes.length
          amountOfData := amount }
    else .ok s

def sendTurn (format : OutputFormat) (size : Nat) (data : Nat → UInt8) (alpha : UInt8) (s : SendState M) :
    Except ConversionFault (SendState M) := do
  let s ← sendUnit host format size data alpha (s.output + s.buf.transferUnit.toNat) s.amountOfData s
  .ok { s with buf := s.buf.next, output := host.getPointer s.buf.next.address }

def sendData (mem : M) (bound : Nat) (format : OutputFormat) (size : Nat) (data : Nat → UInt8) (buf : ConversionBuffer)
    (amountOfData : Nat) (alpha : UInt8) : Except ConversionFault (M × ConversionBuffer) := do
  let s ← BoundedLoop.run SendState.done (sendTurn host format size data alpha) .exhausted bound
    { mem := mem, input := 0, output := host.getPointer buf.address, buf := buf, amountOfData := amountOfData }
  .ok (s.mem, s.buf)

end

def clampByte (value : Int) : UInt32 := (max 0 (min value 0xFF)).toNat.toUInt32

def convertPixel (c : CoefficientSet) (sampleY sampleU sampleV : UInt8) : UInt32 :=
  let cY : Int := (c 0).toInt * sampleY.toNat
  let r := cY + (c 1).toInt * sampleV.toNat
  let g := cY - (c 2).toInt * sampleV.toNat - (c 3).toInt * sampleU.toNat
  let b := cY + (c 4).toInt * sampleU.toNat
  let roundingOffset := 0x18
  let r := (r >>> (3 : Nat)) + (c 5).toInt + roundingOffset
  let g := (g >>> (3 : Nat)) + (c 6).toInt + roundingOffset
  let b := (b >>> (3 : Nat)) + (c 7).toInt + roundingOffset
  clampByte (r >>> (5 : Nat)) <<< 24 ||| clampByte (g >>> (5 : Nat)) <<< 16 ||| clampByte (b >>> (5 : Nat)) <<< 8

def inputU (width : Nat) : Nat := 8 * width
def inputV (width : Nat) : Nat := inputU width + 8 * width / 2

def samplePlaces (format : InputFormat) (width x y : Nat) : Nat × Nat × Nat :=
  match format with
  | .yuv422Indiv8 | .yuv422Indiv16 =>
    (y * width + x, inputU width + (y * width + x) / 2, inputV width + (y * width + x) / 2)
  | .yuv420Indiv8 | .yuv420Indiv16 =>
    (y * width + x, inputU width + (y / 2 * width + x) / 2, inputV width + (y / 2 * width + x) / 2)
  | .yuyv422Interleaved | .unknown =>
    ((y * width + x) * 2, (y * width + x / 2 * 2) * 2 + 1, (y * width + x / 2 * 2) * 2 + 3)

/-- `std::array<u32, TILE_SIZE>`. -/
abbrev ImageTile := Nat → UInt32

def TILE_SIZE : Nat := 8 * 8
def MAX_TILES : Nat := 1024 / 8

def writeTile (numTiles : Nat) (tiles : Nat → ImageTile) (i k : Nat) (color : UInt32) :
    Except ConversionFault (Nat → ImageTile) := do
  let tile ← readAt numTiles tiles i
  let tile ← writeAt TILE_SIZE tile k color
  writeAt numTiles tiles i tile

def convertYUVToRGB (format : InputFormat) (size : Nat) (data : Nat → UInt8) (numTiles : Nat) (output : Nat → ImageTile)
    (width height : Nat) (coefficients : CoefficientSet) : Except ConversionFault (Nat → ImageTile) :=
  (pixels width height).foldlM (fun output p => do
    let (x, y) := p
    let (placeY, placeU, placeV) := samplePlaces format width x y
    let sampleY ← readAt size data placeY
    let sampleU ← readAt size data placeU
    let sampleV ← readAt size data placeV
    writeTile numTiles output (x / 8) (y * 8 + x % 8) (convertPixel coefficients sampleY sampleU sampleV)) output

def linearLut : List Nat := List.range 64

def mortonLut : List Nat :=
  [0, 1, 4, 5, 16, 17, 20, 21,
   2, 3, 6, 7, 18, 19, 22, 23,
   8, 9, 12, 13, 24, 25, 28, 29,
   10, 11, 14, 15, 26, 27, 30, 31,
   32, 33, 36, 37, 48, 49, 52, 53,
   34, 35, 38, 39, 50, 51, 54, 55,
   40, 41, 44, 45, 56, 57, 60, 61,
   42, 43, 46, 47, 58, 59, 62, 63]

def tileRemap : BlockAlignment → Option (List Nat)
  | .linear => some linearLut
  | .block8x8 => some mortonLut
  | .unknown => none

def outMapAt (outMap : Option (List Nat)) (i : Nat) : Except ConversionFault Nat :=
  match outMap with
  | none => .error .nullPointer
  | some lut =>
    match lut[i]? with
    | some k => .ok k
    | none => .error .outOfRange

def rotateTile (order : List Nat) (input output : ImageTile) (outMap : Option (List Nat)) :
    Except ConversionFault ImageTile :=
  order.zipIdx.foldlM (fun output p => do
    let k ← outMapAt outMap p.2
    let color ← readAt TILE_SIZE input p.1
    writeAt TILE_SIZE output k color) output

def order0 (height : Nat) : List Nat := List.range (height * 8)

def order90 (height : Nat) : List Nat :=
  (List.range 8).flatMap fun x => (List.range height).reverse.map fun y => y * 8 + x

def order180 (height : Nat) : List Nat := (List.range (height * 8)).reverse

def order270 (height : Nat) : List Nat :=
  (List.range 8).reverse.flatMap fun x => (List.range height).map fun y => y * 8 + x

def rotateTile0 (input output : ImageTile) (height : Nat) := rotateTile (order0 height) input output
def rotateTile90 (input output : ImageTile) (height : Nat) := rotateTile (order90 height) input output
def rotateTile180 (input output : ImageTile) (height : Nat) := rotateTile (order180 height) input output
def rotateTile270 (input output : ImageTile) (height : Nat) := rotateTile (order270 height) input output

/-- `WriteTileToOutput`, to the place `output` of the buffer. -/
def writeTileToOutput (size : Nat) (data : Nat → UInt8) (output : Nat) (tile : ImageTile) (height lineStride : Nat) :
    Except ConversionFault (Nat → UInt8) :=
  (pixels 8 height).foldlM (fun data p => do
    let (x, y) := p
    let color ← readAt TILE_SIZE tile (y * 8 + x)
    writeWord size data (output + (y * lineStride + x)) color) data

structure TileState where
  data : Nat → UInt8
  tmpTile : ImageTile
  outputBuffer : Nat

def tileTurn (cvt : ConversionConfiguration) (size numTiles rowHeight : Nat) (tiles : Nat → ImageTile) (t : TileState)
    (i : Nat) : Except ConversionFault TileState := do
  let outMap := tileRemap cvt.blockAlignment
  let (tmpTile, imageStripWidth, outputStride) ←
    match cvt.rotation with
    | .none => do
      let tile ← readAt numTiles tiles i
      let tmpTile ← rotateTile0 tile t.tmpTile rowHeight outMap
      .ok (tmpTile, cvt.inputLineWidth.toNat, 8)
    | .clockwise90 => do
      let tile ← readAt numTiles tiles i
      let tmpTile ← rotateTile90 tile t.tmpTile rowHeight outMap
      .ok (tmpTile, 8, 8 * rowHeight)
    | .clockwise180 => do
      let tile ← readAt numTiles tiles (numTiles - i - 1)
      let tmpTile ← rotateTile180 tile t.tmpTile rowHeight outMap
      .ok (tmpTile, cvt.inputLineWidth.toNat, 8)
    | .clockwise270 => do
      let tile ← readAt numTiles tiles (numTiles - i - 1)
      let tmpTile ← rotateTile270 tile t.tmpTile rowHeight outMap
      .ok (tmpTile, 8, 8 * rowHeight)
    | .unknown => .ok (t.tmpTile, 0, 0)
  match cvt.blockAlignment with
  | .linear => do
    let data ← writeTileToOutput size t.data t.outputBuffer tmpTile rowHeight imageStripWidth
    .ok { data := data, tmpTile := tmpTile, outputBuffer := t.outputBuffer + outputStride }
  | .block8x8 => do
    let data ← writeTileToOutput size t.data t.outputBuffer tmpTile 8 8
    .ok { data := data, tmpTile := tmpTile, outputBuffer := t.outputBuffer + TILE_SIZE }
  | .unknown => .ok { t with tmpTile := tmpTile }

/-- The variables of `PerformConversion`. -/
structure ConversionState (M : Type) where
  mem : M
  cvt : ConversionConfiguration
  data : Nat → UInt8
  tiles : Nat → ImageTile
  tmpTile : ImageTile

section

variable {M : Type} (host : DmaMemory M) (bound : Nat)

/-- Receives the three planes of a strip, the planes of the chroma with a part of the samples. -/
def receivePlanes (n divisor size rowDataSize : Nat) (s : ConversionState M) :
    Except ConversionFault (ConversionState M) := do
  let width := s.cvt.inputLineWidth.toNat
  let (data, srcY) ← receiveData host s.mem bound n size s.data 0 s.cvt.srcY rowDataSize
  let (data, srcU) ← receiveData host s.mem bound n size data (inputU width) s.cvt.srcU (rowDataSize / divisor)
  let (data, srcV) ← receiveData host s.mem bound n size data (inputV width) s.cvt.srcV (rowDataSize / divisor)
  .ok { s with data := data, cvt := { s.cvt with srcY := srcY, srcU := srcU, srcV := srcV } }

def receiveStrip (size rowDataSize : Nat) (s : ConversionState M) : Except ConversionFault (ConversionState M) :=
  match s.cvt.inputFormat with
  | .yuv422Indiv8 => receivePlanes host bound 1 2 size rowDataSize s
  | .yuv420Indiv8 => receivePlanes host bound 1 4 size rowDataSize s
  | .yuv422Indiv16 => receivePlanes host bound 2 2 size rowDataSize s
  | .yuv420Indiv16 => receivePlanes host bound 2 4 size rowDataSize s
  | .yuyv422Interleaved => do
    let (data, srcYUYV) ← receiveData host s.mem bound 1 size s.data 0 s.cvt.srcYUYV (rowDataSize * 2)
    .ok { s with data := data, cvt := { s.cvt with srcYUYV := srcYUYV } }
  | .unknown => .error .unreachable

/-- A turn of the loop of `PerformConversion`. -/
def convertStrip (s : ConversionState M) (y : Nat) : Except ConversionFault (ConversionState M) := do
  let width := s.cvt.inputLineWidth.toNat
  let size := width * 8 * 4
  let numTiles := width / 8
  let rowHeight := min (s.cvt.inputLines.toNat - y) 8
  let rowDataSize := rowHeight * width
  let s ← receiveStrip host bound size rowDataSize s
  let tiles ← convertYUVToRGB s.cvt.inputFormat size s.data numTiles s.tiles width rowHeight s.cvt.coefficients
  let t ← (List.range numTiles).foldlM (tileTurn s.cvt size numTiles rowHeight tiles)
    { data := s.data, tmpTile := s.tmpTile, outputBuffer := 0 }
  if s.cvt.outputFormat = .unknown then .error .unreachable
  else do
    let (mem, dst) ← sendData host s.mem bound s.cvt.outputFormat size t.data s.cvt.dst rowDataSize s.cvt.alpha.toUInt8
    .ok { mem := mem, cvt := { s.cvt with dst := dst }, data := t.data, tiles := tiles, tmpTile := t.tmpTile }

def performConversion (s : ConversionState M) : Except ConversionFault (ConversionState M) :=
  if s.cvt.inputLineWidth.toNat % 8 ≠ 0 then .error .assertion
  else if ¬ (s.cvt.blockAlignment ≠ .block8x8 ∨ s.cvt.inputLines.toNat % 8 = 0) then .error .assertion
  else if ¬ s.cvt.inputLineWidth.toNat / 8 ≤ MAX_TILES then .error .assertion
  else countedLoop 0 s.cvt.inputLines.toNat 8 (convertStrip host bound) s

end

end SweepDSEmu.Y2R
