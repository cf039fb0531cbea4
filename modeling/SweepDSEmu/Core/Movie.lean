import SweepDSEmu.Lib.BitField
import SweepDSEmu.Lib.ByteOrder

/-!
# Movies

`Core::Movie`: while it records, the inputs that the emulated system reads are appended to a list of bytes, seven for
each; while it plays, they are replaced by the recorded ones.  `Movie.load` is `serialize` from a savestate, which
overwrites some members before it looks at the others, and throws in between.
-/

namespace SweepDSEmu.Movie

/-- `sizeof(ControllerState)` -/
def stateSize : Nat := 7

/-- The arguments of a call of `Handle`: bit fields by the word that holds them. -/
inductive Input where
  | padAndCircle (padState : Nat) (circlePadX circlePadY : Int16)
  | touch (x y : UInt16) (valid : Nat)
  | accelerometer (x y z : Int16)
  | gyroscope (x y z : Int16)
  | irRst (padState : Nat) (cStickX cStickY : Int16)
  | extraHidResponse (cStick buttons : Nat)
  deriving DecidableEq

/-- `ControllerStateType` -/
def Input.type : Input → UInt8
  | .padAndCircle .. => 0
  | .touch .. => 1
  | .accelerometer .. => 2
  | .gyroscope .. => 3
  | .irRst .. => 4
  | .extraHidResponse .. => 5

/-- `a` to `gpio14`; the fields of a controller state have the places that they have in the word they are from. -/
def buttons : List BitField := (List.range 14).map fun i => ⟨i, 1⟩

def touchValid : BitField := ⟨0, 7⟩

def zl : BitField := ⟨14, 1⟩

def zr : BitField := ⟨15, 1⟩

/-- `battery_level`, `r_not_held`, `zl_not_held` and `zr_not_held`. -/
def hidButtons : List BitField := [⟨0, 5⟩, ⟨7, 1⟩, ⟨5, 1⟩, ⟨6, 1⟩]

/-- `c_stick_x` and `c_stick_y`. -/
def hidCStick : List BitField := [⟨8, 12⟩, ⟨20, 12⟩]

def Input.values : Input → List Int
  | .padAndCircle padState circlePadX circlePadY =>
    buttons.map (fun f => (f.extractValue padState : Int)) ++ [circlePadX.toInt, circlePadY.toInt]
  | .touch x y valid => [x.toNat, y.toNat, touchValid.extractValue valid]
  | .accelerometer x y z => [x.toInt, y.toInt, z.toInt]
  | .gyroscope x y z => [x.toInt, y.toInt, z.toInt]
  | .irRst padState cStickX cStickY =>
    [cStickX.toInt, cStickY.toInt, zl.extractValue padState, zr.extractValue padState]
  | .extraHidResponse cStick buttons =>
    hidButtons.map (fun f => (f.extractValue buttons : Int)) ++ hidCStick.map fun f => (f.extractValue cStick : Int)

def word16 (x : UInt16) : List UInt8 := toLittleEndian 2 x.toNat

def signed16 (x : Int16) : List UInt8 := word16 x.toUInt16

/-- The controller state of an input, with the unused bytes of the union zero. -/
def Input.controllerState (input : Input) : List UInt8 :=
  input.type :: match input with
    | .padAndCircle padState circlePadX circlePadY =>
      toLittleEndian 2 (BitField.copy buttons padState 0) ++ signed16 circlePadX ++ signed16 circlePadY
    | .touch x y valid => word16 x ++ word16 y ++ [UInt8.ofNat (touchValid.extractValue valid), 0]
    | .accelerometer x y z => signed16 x ++ signed16 y ++ signed16 z
    | .gyroscope x y z => signed16 x ++ signed16 y ++ signed16 z
    | .irRst padState cStickX cStickY =>
      signed16 cStickX ++ signed16 cStickY ++
        [UInt8.ofNat (zl.extractValue padState), UInt8.ofNat (zr.extractValue padState)]
    | .extraHidResponse cStick buttons =>
      toLittleEndian 4 (BitField.copy hidButtons buttons (BitField.copy hidCStick cStick 0)) ++ [0, 0]

section Play

variable (s : List UInt8)

/-- A little-endian number in a controller state. -/
def number (offset size : Nat) : Nat := ofLittleEndian ((s.drop offset).take size)

def readWord16 (offset : Nat) : UInt16 := UInt16.ofNat (number s offset 2)

def readSigned16 (offset : Nat) : Int16 := (readWord16 s offset).toInt16

/-- `Play` for each of the inputs: what is not recorded stays as it was passed. -/
def play (input : Input) : Input :=
  if s.head? ≠ some input.type then input
  else
    match input with
    | .padAndCircle padState _ _ =>
      .padAndCircle (BitField.copy buttons (number s 1 2) padState) (readSigned16 s 3) (readSigned16 s 5)
    | .touch _ _ valid => .touch (readWord16 s 1) (readWord16 s 3) (touchValid.assign valid (number s 5 1))
    | .accelerometer .. => .accelerometer (readSigned16 s 1) (readSigned16 s 3) (readSigned16 s 5)
    | .gyroscope .. => .gyroscope (readSigned16 s 1) (readSigned16 s 3) (readSigned16 s 5)
    | .irRst padState _ _ =>
      .irRst (zr.assign (zl.assign padState (number s 5 1)) (number s 6 1)) (readSigned16 s 1) (readSigned16 s 3)
    | .extraHidResponse cStick buttons =>
      .extraHidResponse (BitField.copy hidCStick (number s 1 4) cStick) (BitField.copy hidButtons (number s 1 4) buttons)

end Play

inductive PlayMode where
  | none
  | recording
  | playing
  | movieFinished
  deriving DecidableEq

inductive ValidationResult where
  | ok
  | revisionDismatch
  | inputCountDismatch
  | invalid
  deriving DecidableEq

/-- The parts of `CTMHeader` that are read again. -/
structure CTMHeader where
  filetype : List UInt8
  programId : UInt64
  revision : List UInt8
  clockInitTime : UInt64
  id : UInt64
  rerecordCount : UInt32
  inputCount : Nat
  timingBaseTicks : Int64

structure MovieFile where
  header : CTMHeader
  input : List UInt8

def headerMagicBytes : List UInt8 := [67, 84, 77, 0x1B]

structure State where
  playMode : PlayMode
  initTime : UInt64
  baseTicks : Int64
  recordedInput : List UInt8
  currentByte : Nat
  currentInput : Nat
  totalInput : Nat
  id : UInt64
  programId : UInt64
  rerecordCount : UInt32
  readOnly : Bool

def initial : State where
  playMode := .none
  initTime := 0
  baseTicks := -1
  recordedInput := []
  currentByte := 0
  currentInput := 0
  totalInput := 0
  id := 0
  programId := 0
  rerecordCount := 1
  readOnly := true

/-- The loop goes over the whole controller states. -/
def getInputCount (input : List UInt8) : Nat :=
  (List.range (input.length / stateSize)).countP fun i => input[i * stateSize]? = some 0

def checkInputEnd (m : State) : State :=
  if m.recordedInput.length < m.currentByte + stateSize then { m with playMode := .movieFinished } else m

def countInput (m : State) (input : Input) : State :=
  if input.type = 0 then { m with currentInput := m.currentInput + 1 } else m

/-- The vector is resized to end behind the new state, and the state is copied there. -/
def record (m : State) (input : Input) : State :=
  { countInput m input with
    recordedInput :=
      m.recordedInput.take m.currentByte ++ List.replicate (m.currentByte - m.recordedInput.length) 0 ++
        input.controllerState
    currentByte := m.currentByte + stateSize }

/-- `Handle`, with the arguments as it leaves them; `none` is its assertion. -/
def handle (m : State) (input : Input) : Option (State × Input) :=
  match m.playMode with
  | .playing =>
    if m.currentByte + stateSize ≤ m.recordedInput.length then
      some
        (checkInputEnd { countInput m input with currentByte := m.currentByte + stateSize },
          play ((m.recordedInput.drop m.currentByte).take stateSize) input)
    else none
  | .recording => some (record m input, input)
  | _ => some (m, input)

/-- `SaveMovie`, with the bytes of the emulator's own revision. -/
def saveMovie (revision : List UInt8) (m : State) : MovieFile where
  header :=
    { filetype := headerMagicBytes
      programId := m.programId
      revision := revision
      clockInitTime := m.initTime
      id := m.id
      rerecordCount := m.rerecordCount
      inputCount := getInputCount m.recordedInput
      timingBaseTicks := m.baseTicks }
  input := m.recordedInput

/-- A file that cannot be opened, or is too short for a header, is `none`. -/
def startPlayback (m : State) : Option MovieFile → State
  | none => m
  | some file =>
    if file.input ≠ [] ∧ file.header.filetype = headerMagicBytes then
      { m with
        playMode := .playing
        rerecordCount := file.header.rerecordCount
        totalInput := file.header.inputCount
        recordedInput := file.input
        currentByte := 0
        currentInput := 0
        id := file.header.id
        programId := file.header.programId }
    else m

def startRecording (m : State) (id programId : UInt64) : State :=
  { m with playMode := .recording, rerecordCount := 1, id := id, programId := programId }

def shutdown (m : State) : State :=
  { m with
    playMode := .none
    recordedInput := []
    currentByte := 0
    currentInput := 0
    initTime := 0
    baseTicks := -1
    id := 0 }

def validateMovie (revision : List UInt8) (file : MovieFile) : ValidationResult :=
  if file.input = [] ∨ file.header.filetype ≠ headerMagicBytes then .invalid
  else if file.header.revision ≠ revision then .revisionDismatch
  else if file.header.inputCount = 0 then .ok
  else if getInputCount file.input = file.header.inputCount then .ok
  else .inputCountDismatch

/-- What a savestate holds, and how many of its fields can be read before the archive throws. -/
structure Archive where
  currentByte : Nat
  currentInput : Nat
  recordedInput : List UInt8
  initTime : UInt64
  baseTicks : Int64
  id : UInt64
  postMovie : Bool
  readable : Nat

def save (m : State) : Archive where
  currentByte := m.currentByte
  currentInput := m.currentInput
  recordedInput := m.recordedInput
  initTime := m.initTime
  baseTicks := m.baseTicks
  id := m.id
  postMovie := m.playMode = .movieFinished
  readable := 7

/-- The members that are overwritten while the archive is read. -/
def readArchive (m : State) (ar : Archive) : State :=
  { m with
    currentByte := if 1 ≤ ar.readable then ar.currentByte else m.currentByte
    currentInput := if 2 ≤ ar.readable then ar.currentInput else m.currentInput
    initTime := if 4 ≤ ar.readable then ar.initTime else m.initTime
    baseTicks := if 5 ≤ ar.readable then ar.baseTicks else m.baseTicks }

/-- The archive cannot be read to its end, or is one of another movie or another time. -/
def Refused (m : State) (ar : Archive) : Prop :=
  ar.readable < 7 ∨ ar.id ≠ m.id ∨
    (m.id ≠ 0 ∧ ar.postMovie = false ∧ m.readOnly = true ∧
      (m.recordedInput.length ≤ ar.recordedInput.length ∨ ¬ ar.recordedInput <+: m.recordedInput))

instance (m : State) (ar : Archive) : Decidable (Refused m ar) := inferInstanceAs (Decidable (_ ∨ _))

/-- `serialize` of a load, and whether it throws.  The savestate is of a movie when its id is not zero. -/
def load (m : State) (ar : Archive) : State × Bool :=
  let m' := readArchive m ar
  if ar.readable < 6 ∨ ar.id ≠ m.id ∨ ar.readable < 7 then (m', true)
  else if m.id = 0 then (m', false)
  else
    let m' := if m.readOnly then m' else { m' with recordedInput := ar.recordedInput }
    if ar.postMovie then ({ m' with playMode := .movieFinished }, false)
    else if m.readOnly then
      -- a movie that is being recorded is saved here
      if m'.recordedInput.length ≤ ar.recordedInput.length then (m', true)
      else if ¬ ar.recordedInput <+: m'.recordedInput then (m', true)
      else ({ m' with playMode := .playing, totalInput := getInputCount m'.recordedInput }, false)
    else ({ m' with playMode := .recording, rerecordCount := m'.rerecordCount + 1 }, false)

theorem load_throws_iff (m : State) (ar : Archive) : (load m ar).2 = true ↔ Refused m ar := by
  unfold load Refused
  by_cases h₁ : ar.readable < 6 ∨ ar.id ≠ m.id ∨ ar.readable < 7
  · rw [if_pos h₁]
    refine iff_of_true rfl ?_
    rcases h₁ with h | h | h
    · exact .inl (by omega)
    · exact .inr (.inl h)
    · exact .inl h
  · rw [if_neg h₁]
    simp only [not_or] at h₁
    obtain ⟨-, hid, hreadable⟩ := h₁
    simp only [hid, hreadable, false_or]
    by_cases h₂ : m.id = 0
    · simp [h₂]
    · cases hpost : ar.postMovie with
      | true => simp [h₂]
      | false =>
        cases hreadOnly : m.readOnly with
        | false => simp [h₂]
        | true => simp only [readArchive, h₂, if_false, if_true]; split_ifs <;> simp_all

end SweepDSEmu.Movie
