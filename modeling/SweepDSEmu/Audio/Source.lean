import SweepDSEmu.Audio.Codec
import SweepDSEmu.Lib.BoundedLoop
import SweepDSEmu.Lib.PriorityQueue

/-!
# Audio sources

`AudioCore::HLE::Source`: once every audio frame a source reads what the application wrote into its configuration, and
resamples the buffers in its queue into a frame.

The queue is any priority queue, with the least `buffer_id` first; which of several such buffers comes first is left to
it.  The loop in `GenerateFrame` has a bound on its turns.
-/

namespace SweepDSEmu.AudioHLE

open AudioInterp (StereoSample)
open Codec (ADPCMState)

structure Single where
  bits : UInt32
  deriving DecidableEq

namespace Single

variable (x : Single)

def negative : Bool := decide (2 ^ 31 ≤ x.bits.toNat)

def exponent : Nat := x.bits.toNat / 2 ^ 23 % 2 ^ 8

def fraction : Nat := x.bits.toNat % 2 ^ 23

def isNaN : Bool := x.exponent == 255 && x.fraction != 0

def isZero : Bool := x.exponent == 0 && x.fraction == 0

def positive : Bool := !x.isNaN && !x.isZero && !x.negative

def notPositive : Bool := !x.isNaN && (x.isZero || x.negative)

/-- The number is `significand * 2 ^ (power - 150)`, up to its sign. -/
def significand : Nat := if x.exponent = 0 then x.fraction else 2 ^ 23 + x.fraction

def power : Nat := max x.exponent 1

/-- The integer part of `n * 2 ^ (shift - bias)`. -/
def shifted (n shift bias : Nat) : Nat := if bias ≤ shift then n <<< (shift - bias) else n >>> (bias - shift)

/-- A number rounded to 24 bits, to even when it is in the middle. -/
def rounded (n : Nat) : Nat :=
  let unit := 2 ^ (n.log2 + 1 - 24)
  let q := n / unit
  let r := n % unit
  (if unit < 2 * r ∨ (2 * r = unit ∧ q % 2 = 1) then q + 1 else q) * unit

def one : Single := ⟨0x3F800000⟩

end Single

/-- What conversions of a number that the integer type does not have give. -/
structure Conversions where
  toU64 : Single → UInt64
  toU32 : Nat → Single → UInt32

def stepSize (conversions : Conversions) (rate : Single) : UInt64 :=
  if rate.exponent < 167 ∧ rate.negative = false then UInt64.ofNat (Single.shifted rate.significand rate.power 126)
  else conversions.toU64 rate

/-- `static_cast<u32>(frame_position * state.rate_multiplier)` -/
def samplesConsumed (conversions : Conversions) (framePosition : Nat) (rate : Single) : UInt32 :=
  let product := Single.shifted (Single.rounded (framePosition * rate.significand)) rate.power 150
  if rate.exponent < 255 ∧ rate.negative = false ∧ product < 2 ^ 32 then UInt32.ofNat product
  else conversions.toU32 framePosition rate

/-- The bits of `dirty_raw` that are read. -/
inductive Dirty where
  | format
  | monoOrStereo
  | adpcmCoefficients
  | partialEmbeddedBuffer
  | partialReset
  | enable
  | interpolation
  | rateMultiplier
  | bufferQueue
  | playPosition
  | syncCount
  | reset
  | embeddedBuffer
  deriving DecidableEq

def Dirty.position : Dirty → Nat
  | .format => 0
  | .monoOrStereo => 1
  | .adpcmCoefficients => 2
  | .partialEmbeddedBuffer => 3
  | .partialReset => 4
  | .enable => 16
  | .interpolation => 17
  | .rateMultiplier => 18
  | .bufferQueue => 19
  | .playPosition => 21
  | .syncCount => 28
  | .reset => 29
  | .embeddedBuffer => 30

/-- The values of the two bits; the last one has no name. -/
inductive Format where
  | PCM8
  | PCM16
  | ADPCM
  | unknown
  deriving DecidableEq

def Format.ofBits (bits : UInt16) : Format :=
  if bits = 0 then .PCM8 else if bits = 1 then .PCM16 else if bits = 2 then .ADPCM else .unknown

inductive InterpolationMode where
  | polyphase
  | linear
  | none
  | unknown (byte : UInt8)
  deriving DecidableEq

def InterpolationMode.ofByte (byte : UInt8) : InterpolationMode :=
  if byte = 0 then .polyphase else if byte = 1 then .linear else if byte = 2 then .none else .unknown byte

structure QueuedBuffer where
  physicalAddress : UInt32
  length : UInt32
  adpcmPs : UInt16
  adpcmYn : UInt16 × UInt16
  adpcmDirty : UInt8
  isLooping : UInt8
  bufferId : UInt16
  deriving DecidableEq

structure Configuration where
  dirtyRaw : UInt32
  rateMultiplier : Single
  interpolationMode : UInt8
  buffersDirty : UInt16
  buffers : Fin 4 → QueuedBuffer
  enable : UInt8
  syncCount : UInt16
  playPosition : UInt32
  physicalAddress : UInt32
  length : UInt32
  flags1Raw : UInt16
  adpcmPs : UInt16
  adpcmYn : UInt16 × UInt16
  flags2Raw : UInt16
  bufferId : UInt16

namespace Configuration

variable (config : Configuration)

def dirty (bit : Dirty) : Bool := config.dirtyRaw.toNat.testBit bit.position

def monoOrStereo : UInt16 := config.flags1Raw &&& 3

def format : Format := Format.ofBits ((config.flags1Raw >>> 2) &&& 3)

def adpcmDirty : Bool := config.flags2Raw.toNat.testBit 0

def isLooping : Bool := config.flags2Raw.toNat.testBit 1

end Configuration

inductive Fault where
  /-- `ASSERT(rate > 0)` -/
  | rateNotPositive
  /-- The assertion of `DequeueBuffer`. -/
  | stillHasData
  /-- A read behind the samples. -/
  | readOutOfRange
  /-- An `int` that overflows. -/
  | overflow
  /-- More samples erased than there are. -/
  | erasePastEnd
  /-- The bound on the turns is met. -/
  | outOfTurns
  deriving DecidableEq

structure Buffer where
  physicalAddress : UInt32
  length : UInt32
  adpcmPs : UInt8
  adpcmYn : UInt16 × UInt16
  adpcmDirty : Bool
  isLooping : Bool
  bufferId : UInt16
  monoOrStereo : UInt16
  format : Format
  fromQueue : Bool
  playPosition : UInt32
  hasPlayed : Bool
  deriving DecidableEq

/-- The queues of a source: a lower `buffer_id` comes first. -/
abbrev BufferQueue := PriorityQueue Buffer fun b => b.bufferId.toNat

/-- What the application's memory holds from a physical address on. -/
abbrev Memory := UInt32 → Option (Nat → UInt8)

variable (pq : BufferQueue)

structure SourceState where
  enabled : Bool
  syncCount : UInt16
  inputQueue : pq.Queue
  monoOrStereo : UInt16
  format : Format
  currentSampleNumber : UInt32
  currentBufferPhysicalAddress : UInt32
  currentBuffer : List StereoSample
  bufferUpdate : Bool
  lastBufferId : UInt16
  currentBufferId : UInt16
  adpcmCoeffs : Fin 16 → Int16
  adpcmState : ADPCMState
  rateMultiplier : Single
  interpolationMode : InterpolationMode
  interpState : AudioInterp.State StereoSample

def SourceState.initial : SourceState pq where
  enabled := false
  syncCount := 0
  inputQueue := pq.empty
  monoOrStereo := 1
  format := .ADPCM
  currentSampleNumber := 0
  currentBufferPhysicalAddress := 0
  currentBuffer := []
  bufferUpdate := false
  lastBufferId := 0
  currentBufferId := 0
  adpcmCoeffs := fun _ => 0
  adpcmState := { yn1 := 0, yn2 := 0 }
  rateMultiplier := Single.one
  interpolationMode := .polyphase
  interpState := { xn1 := ⟨0, 0⟩, xn2 := ⟨0, 0⟩, fposition := 0 }

def samplesPerFrame : Nat := 160

def silence : List StereoSample := List.replicate samplesPerFrame ⟨0, 0⟩

structure Source where
  state : SourceState pq
  backupState : SourceState pq
  currentFrame : List StereoSample
  backupFrame : List StereoSample

/-- What a tick reports to the application. -/
structure Status where
  isEnabled : Bool
  currentBufferIdDirty : Bool
  syncCount : UInt16
  bufferPosition : UInt32
  currentBufferId : UInt16
  lastBufferId : UInt16
  deriving DecidableEq

variable {pq}

def numChannels (monoOrStereo : UInt16) : Nat := if monoOrStereo = 2 then 2 else 1

def erasePrefix (buffer : List StereoSample) (count : Nat) : Except Fault (List StereoSample) :=
  if count ≤ buffer.length then .ok (buffer.drop count) else .error .erasePastEnd

def reset (s : Source pq) : Source pq :=
  { s with
    state := SourceState.initial pq
    currentFrame := silence }

def copySettings (config : Configuration) (adpcmCoeffs : Fin 16 → Int16) (s : SourceState pq) : SourceState pq :=
  let s := if config.dirty .partialReset then { s with inputQueue := pq.empty } else s
  let s := if config.dirty .enable then { s with enabled := config.enable != 0 } else s
  let s := if config.dirty .syncCount then { s with syncCount := config.syncCount } else s
  let s :=
    if config.dirty .rateMultiplier then
      { s with rateMultiplier := if config.rateMultiplier.notPositive then Single.one else config.rateMultiplier }
    else s
  let s := if config.dirty .adpcmCoefficients then { s with adpcmCoeffs := adpcmCoeffs } else s
  let s :=
    if config.dirty .interpolation then
      { s with interpolationMode := InterpolationMode.ofByte config.interpolationMode }
    else s
  let s := if config.dirty .format || config.dirty .embeddedBuffer then { s with format := config.format } else s
  if config.dirty .monoOrStereo || config.dirty .embeddedBuffer then { s with monoOrStereo := config.monoOrStereo }
  else s

def updateEmbedded (memory : Memory) (config : Configuration) (s : SourceState pq) : Except Fault (SourceState pq) :=
  if config.dirty .partialEmbeddedBuffer then
    match memory (s.currentBufferPhysicalAddress &&& 0xFFFFFFFC) with
    | none => .ok s
    | some data =>
      if s.format = .PCM16 then
        let currentBuffer := Codec.decodePCM16 (numChannels s.monoOrStereo) data config.length.toNat
        if currentBuffer.length < s.currentSampleNumber.toNat then
          .ok { s with currentBuffer := currentBuffer, currentSampleNumber := 0 }
        else do
          let currentBuffer ← erasePrefix currentBuffer s.currentSampleNumber.toNat
          .ok { s with currentBuffer := currentBuffer }
      else .ok s
  else .ok s

def embeddedBuffer (config : Configuration) (s : SourceState pq) : Buffer where
  physicalAddress := config.physicalAddress
  length := config.length
  adpcmPs := config.adpcmPs.toUInt8
  adpcmYn := config.adpcmYn
  adpcmDirty := config.adpcmDirty
  isLooping := config.isLooping
  bufferId := config.bufferId
  monoOrStereo := s.monoOrStereo
  format := s.format
  fromQueue := false
  playPosition := if config.dirty .playPosition then config.playPosition else 0
  hasPlayed := false

/-- Lengths that are negative as `s32` are skipped. -/
def queueEmbedded (config : Configuration) (s : SourceState pq) : SourceState pq :=
  if config.dirty .embeddedBuffer then
    if 2 ^ 31 ≤ config.length.toNat then s
    else { s with inputQueue := pq.push (embeddedBuffer config s) s.inputQueue }
  else s

def queuedBuffer (b : QueuedBuffer) (s : SourceState pq) : Buffer where
  physicalAddress := b.physicalAddress
  length := b.length
  adpcmPs := b.adpcmPs.toUInt8
  adpcmYn := b.adpcmYn
  adpcmDirty := b.adpcmDirty != 0
  isLooping := b.isLooping != 0
  bufferId := b.bufferId
  monoOrStereo := s.monoOrStereo
  format := s.format
  fromQueue := true
  playPosition := 0
  hasPlayed := false

def queueBuffer (config : Configuration) (s : SourceState pq) (i : Fin 4) : SourceState pq :=
  if config.buffersDirty.toNat.testBit i.val then
    if 2 ^ 31 ≤ (config.buffers i).length.toNat then s
    else { s with inputQueue := pq.push (queuedBuffer (config.buffers i) s) s.inputQueue }
  else s

def queueBuffers (config : Configuration) (s : SourceState pq) : SourceState pq :=
  if config.dirty .bufferQueue then (List.finRange 4).foldl (queueBuffer config) s else s

def clearDirty (config : Configuration) : Configuration :=
  { config with
    dirtyRaw := 0
    buffersDirty := if config.dirty .bufferQueue then 0 else config.buffersDirty }

def parseConfig (memory : Memory) (config : Configuration) (adpcmCoeffs : Fin 16 → Int16) (s : Source pq) :
    Except Fault (Configuration × Source pq) :=
  if config.dirtyRaw = 0 then .ok (config, s)
  else do
    let s := if config.dirty .reset then reset s else s
    let state ← updateEmbedded memory config (copySettings config adpcmCoeffs s.state)
    let state := queueBuffers config (queueEmbedded config state)
    .ok (clearDirty config, { s with state := state })

def decodeBuffer (buf : Buffer) (data : Nat → UInt8) (s : SourceState pq) : Except Fault (SourceState pq) :=
  match buf.format with
  | .PCM8 => .ok { s with currentBuffer := Codec.decodePCM8 (numChannels buf.monoOrStereo) data buf.length.toNat }
  | .PCM16 => .ok { s with currentBuffer := Codec.decodePCM16 (numChannels buf.monoOrStereo) data buf.length.toNat }
  | .ADPCM =>
    match Codec.decodeADPCM data buf.length.toNat s.adpcmCoeffs s.adpcmState with
    | none => .error .overflow
    | some (samples, adpcmState) => .ok { s with currentBuffer := samples, adpcmState := adpcmState }
  | .unknown => .ok s

/-- A buffer that is taken from the queue, where its memory is mapped. -/
def playBuffer (buf : Buffer) (data : Nat → UInt8) (s : SourceState pq) : Except Fault (SourceState pq) := do
  let s ← decodeBuffer buf data s
  -- the first playthrough starts at the play position, loops start at the beginning
  let currentSampleNumber := if buf.hasPlayed then 0 else buf.playPosition
  let inputQueue := if buf.isLooping then pq.push { buf with hasPlayed := true } s.inputQueue else s.inputQueue
  let currentBuffer ← erasePrefix s.currentBuffer currentSampleNumber.toNat
  .ok
    { s with
      currentSampleNumber := currentSampleNumber
      currentBufferPhysicalAddress := buf.physicalAddress
      currentBufferId := buf.bufferId
      lastBufferId := 0
      bufferUpdate := buf.fromQueue && !buf.hasPlayed
      inputQueue := inputQueue
      currentBuffer := currentBuffer }

def loadHistory (buf : Buffer) (s : SourceState pq) : SourceState pq :=
  if buf.adpcmDirty then
    { s with adpcmState := { yn1 := buf.adpcmYn.1.toInt16, yn2 := buf.adpcmYn.2.toInt16 } }
  else s

def dequeueBuffer (memory : Memory) (s : SourceState pq) : Except Fault (Bool × SourceState pq) :=
  if s.currentBuffer ≠ [] then .error .stillHasData
  else
    match pq.pop s.inputQueue with
    | none => .ok (false, s)
    | some (buf, inputQueue) =>
      let s := loadHistory buf { s with inputQueue := inputQueue }
      match memory (buf.physicalAddress &&& 0xFFFFFFFC) with
      | none => .ok (true, { s with currentBuffer := [] })
      | some data => (playBuffer buf data s).map fun s => (true, s)

variable (conversions : Conversions)

structure FrameLoop (pq : BufferQueue) where
  state : SourceState pq
  frame : List StereoSample
  left : Bool

/-- A call of `AudioInterp::None` or `AudioInterp::Linear`. -/
def resample (fn : UInt64 → StereoSample → StereoSample → StereoSample → StereoSample) (s : FrameLoop pq) :
    Except Fault (FrameLoop pq) :=
  if s.state.rateMultiplier.positive then
    match AudioInterp.stepOverSamples fn samplesPerFrame (stepSize conversions s.state.rateMultiplier)
      { state := s.state.interpState, input := s.state.currentBuffer, output := s.frame } with
    | none => .error .readOutOfRange
    | some r =>
      .ok { s with
        state := { s.state with interpState := r.state, currentBuffer := r.input }
        frame := r.output }
  else .error .rateNotPositive

def interpolate (s : FrameLoop pq) : Except Fault (FrameLoop pq) :=
  match s.state.interpolationMode with
  | .none => resample conversions AudioInterp.noneSample s
  | .linear => resample conversions AudioInterp.linearSample s
  | .polyphase => resample conversions AudioInterp.linearSample s
  | .unknown _ => .ok s

def frameTurn (memory : Memory) (s : FrameLoop pq) : Except Fault (FrameLoop pq) :=
  if s.state.currentBuffer = [] then do
    let (dequeued, state) ← dequeueBuffer memory s.state
    if dequeued then interpolate conversions { s with state := state } else .ok { s with state := state, left := true }
  else interpolate conversions s

def frameFinished (s : FrameLoop pq) : Bool := s.left || decide (samplesPerFrame ≤ s.frame.length)

def generateFrame (bound : Nat) (memory : Memory) (s : Source pq) : Except Fault (Source pq) :=
  if s.state.currentBuffer = [] then do
    let (dequeued, state) ← dequeueBuffer memory s.state
    if dequeued then .ok { s with state := state, currentFrame := silence }
    else
      .ok { s with
        state :=
          { state with
            enabled := false
            bufferUpdate := true
            lastBufferId := state.currentBufferId
            currentBufferId := 0 }
        currentFrame := silence }
  else do
    let s' ← BoundedLoop.run frameFinished (frameTurn conversions memory) .outOfTurns bound
      { state := s.state, frame := [], left := false }
    .ok { s with
      state :=
        { s'.state with
          currentSampleNumber := s'.state.currentSampleNumber +
            samplesConsumed conversions s'.frame.length s'.state.rateMultiplier }
      currentFrame := s'.frame ++ silence.drop s'.frame.length }

def generateEnabled (bound : Nat) (memory : Memory) (s : Source pq) : Except Fault (Source pq) :=
  if s.state.enabled then generateFrame conversions bound memory s else .ok s

def getCurrentStatus (s : SourceState pq) : Status × SourceState pq :=
  ({ isEnabled := s.enabled
     currentBufferIdDirty := s.bufferUpdate
     syncCount := s.syncCount
     bufferPosition := s.currentSampleNumber
     currentBufferId := s.currentBufferId
     lastBufferId := s.lastBufferId },
    { s with bufferUpdate := false })

def tick (bound : Nat) (memory : Memory) (config : Configuration) (adpcmCoeffs : Fin 16 → Int16) (s : Source pq) :
    Except Fault (Status × Configuration × Source pq) := do
  let (config, s) ← parseConfig memory config adpcmCoeffs s
  let s ← generateEnabled conversions bound memory s
  let (status, state) := getCurrentStatus s.state
  .ok (status, config, { s with state := state })

def initial (pq : BufferQueue) : Source pq where
  state := SourceState.initial pq
  backupState := SourceState.initial pq
  currentFrame := silence
  backupFrame := silence

def sleep (s : Source pq) : Source pq :=
  { s with
    backupFrame := s.currentFrame
    backupState := s.state }

def wakeup (s : Source pq) : Source pq :=
  { state := s.backupState
    backupState := SourceState.initial pq
    currentFrame := s.backupFrame
    backupFrame := silence }

structure TickInput where
  memory : Memory
  config : Configuration
  adpcmCoeffs : Fin 16 → Int16

inductive Operation where
  | tick (input : TickInput)
  | reset
  | sleep
  | wakeup

def perform (bound : Nat) (s : Source pq) : Operation → Except Fault (Source pq)
  | .tick input => (tick conversions bound input.memory input.config input.adpcmCoeffs s).map fun r => r.2.2
  | .reset => .ok (reset s)
  | .sleep => .ok (sleep s)
  | .wakeup => .ok (wakeup s)

def performs (bound : Nat) (ops : List Operation) (s : Source pq) : Except Fault (Source pq) :=
  ops.foldlM (perform conversions bound) s

def RunAdmits (admits : TickInput → Source pq → Prop) : List Operation → Source pq → Prop
  | [], _ => True
  | op :: ops, s =>
    (∀ input, op = .tick input → admits input s) ∧
      ∀ bound t, perform conversions bound s op = .ok t → RunAdmits admits ops t

end SweepDSEmu.AudioHLE
