import SweepDSEmu.Lib.BoundedLoop

/-!
# Gateway cheats

`GatewayCheat::Execute` runs the lines of a cheat, from the first one on.  A loop jumps back; a condition that does not
hold counts, in `if_flag`, the terminators that are to come, and lines are skipped meanwhile.

The memory of the process and the pad are a parameter.  An access behind the last line is a fault.
-/

namespace SweepDSEmu.Cheats

/-- `CheatType`; `unknown` stands for the numbers that are no enumerators. -/
inductive CheatType where
  | null | write32 | write16 | write8 | greaterThan32 | lessThan32 | equalTo32 | notEqualTo32
  | greaterThan16WithMask | lessThan16WithMask | equalTo16WithMask | notEqualTo16WithMask
  | loadOffset | loop | terminator | loopExecuteVariant | fullTerminator | setOffset | addValue | setValue
  | incrementiveWrite32 | incrementiveWrite16 | incrementiveWrite8 | load32 | load16 | load8 | addOffset
  | joker | patch | unknown
  deriving DecidableEq

structure CheatLine where
  type : CheatType
  first : UInt32
  value : UInt32
  deriving DecidableEq

/-- The address of a line is the first number without its type. -/
def CheatLine.address (line : CheatLine) : UInt32 := line.first &&& 0x0FFFFFFF

/-- `std::vector<CheatLine>`: the sizes of vectors are below `PTRDIFF_MAX`. -/
structure CheatLines where
  lines : List CheatLine
  small : lines.length < 2 ^ 63

structure State where
  reg : UInt32 := 0
  offset : UInt32 := 0
  ifFlag : UInt32 := 0
  loopCount : UInt32 := 0
  loopBackLine : Nat := 0
  currentLineNr : Nat := 0
  loopFlag : Bool := false
  deriving DecidableEq

structure CheatMemory (M : Type) where
  read8 : M → UInt32 → UInt8
  read16 : M → UInt32 → UInt16
  read32 : M → UInt32 → UInt32
  write8 : M → UInt32 → UInt8 → M
  write16 : M → UInt32 → UInt16 → M
  write32 : M → UInt32 → UInt32 → M
  padState : M → UInt32

inductive CheatFault where
  | outOfRange
  /-- The bound on the lines that are run is met. -/
  | exhausted
  deriving DecidableEq

section

variable {M T : Type} [DecidableEq T]

def writeOp (read : M → UInt32 → T) (write : M → UInt32 → T → M) (cast : UInt32 → T) (line : CheatLine) (s : State)
    (m : M) : M :=
  let addr := line.address + s.offset
  if read m addr ≠ cast line.value then write m addr (cast line.value) else m

def compOp (read : M → UInt32 → T) (comp : T → Bool) (line : CheatLine) (s : State) (m : M) : State :=
  let addr := line.address + s.offset
  if ¬ comp (read m addr) then { s with ifFlag := s.ifFlag + 1 } else s

/-- `IncrementiveWriteOp`, for a type of `size` bytes. -/
def incrementiveWriteOp (read : M → UInt32 → T) (write : M → UInt32 → T → M) (cast : UInt32 → T) (size : UInt32)
    (line : CheatLine) (s : State) (m : M) : State × M :=
  let addr := line.value + s.offset
  let m := if read m addr ≠ cast s.reg then write m addr (cast s.reg) else m
  ({ s with offset := s.offset + size }, m)

def loadOp (read : M → UInt32 → T) (extend : T → UInt32) (line : CheatLine) (s : State) (m : M) : State :=
  let addr := line.value + s.offset
  { s with reg := extend (read m addr) }

end

/-- The halfword that `GreaterThan16WithMask` and the like compare with. -/
def maskedHalf (line : CheatLine) (val : UInt16) : UInt16 := (~~~line.value >>> 16).toUInt16 &&& val

def loopOp (line : CheatLine) (s : State) : State :=
  { s with
    loopFlag := s.loopCount < line.value
    loopCount := s.loopCount + 1
    loopBackLine := s.currentLineNr }

def terminateOp (s : State) : State := if s.ifFlag > 0 then { s with ifFlag := s.ifFlag - 1 } else s

/-- The line before the loop, as a `std::size_t`. -/
def lineBefore (line : Nat) : Nat := (2 ^ 64 - 1 + line) % 2 ^ 64

def loopExecuteVariantOp (s : State) : State :=
  if s.loopFlag then { s with currentLineNr := lineBefore s.loopBackLine } else { s with loopCount := 0 }

def fullTerminateOp (s : State) : State :=
  if s.loopFlag then { s with currentLineNr := lineBefore s.loopBackLine }
  else { s with offset := 0, reg := 0, loopCount := 0, ifFlag := 0, loopFlag := false }

section

variable {M : Type} (host : CheatMemory M)

def jokerOp (line : CheatLine) (s : State) (m : M) : State :=
  let pressed := host.padState m &&& line.value == line.value
  if ¬ pressed then { s with ifFlag := s.ifFlag + 1 } else s

/-- `std::ceil(line.value / 8.0)`: the data lines of a patch. -/
def patchLines (line : CheatLine) : Nat := (line.value.toNat + 7) / 8

/-- The variables of the loops of `PatchOp`. -/
structure PatchState (M : Type) where
  mem : M
  addr : UInt32
  first : Bool
  currentLineNr : Nat

variable (lines : List CheatLine)

def patchWord (p : PatchState M) : Except CheatFault UInt32 :=
  match lines[p.currentLineNr]? with
  | some line => .ok (if p.first then line.first else line.value)
  | none => .error .outOfRange

/-- The loop of `PatchOp` over words: the bytes that are left, and the variables. -/
def patchWordLoop : Nat → PatchState M → Except CheatFault (Nat × PatchState M)
  | numBytes + 4, p => do
    let tmp ← patchWord lines p
    patchWordLoop numBytes
      { mem := host.write32 p.mem p.addr tmp
        addr := p.addr + 4
        first := ¬ p.first
        currentLineNr := if ¬ p.first ∧ numBytes + 4 > 4 then p.currentLineNr + 1 else p.currentLineNr }
  | numBytes, p => .ok (numBytes, p)

def patchByteLoop (bitOffset : UInt32) : Nat → PatchState M → Except CheatFault (PatchState M)
  | 0, p => .ok p
  | numBytes + 1, p => do
    let tmp ← patchWord lines p
    patchByteLoop (bitOffset + 8) numBytes
      { p with mem := host.write8 p.mem p.addr (tmp >>> bitOffset).toUInt8, addr := p.addr + 1 }

def patchOp (line : CheatLine) (s : State) (m : M) : Except CheatFault (State × M) :=
  if s.ifFlag > 0 then .ok ({ s with currentLineNr := s.currentLineNr + patchLines line }, m)
  else do
    let numBytes := line.value.toNat
    let current := if numBytes > 0 then s.currentLineNr + 1 else s.currentLineNr
    let (numBytes, p) ← patchWordLoop host lines numBytes
      { mem := m, addr := line.address + s.offset, first := true, currentLineNr := current }
    let p ← patchByteLoop host lines 0 numBytes p
    .ok ({ s with currentLineNr := p.currentLineNr }, p.mem)

def CheatType.isCondition : CheatType → Bool
  | .greaterThan32 | .lessThan32 | .equalTo32 | .notEqualTo32 | .greaterThan16WithMask | .lessThan16WithMask
  | .equalTo16WithMask | .notEqualTo16WithMask | .joker => true
  | _ => false

def skipLine (line : CheatLine) (s : State) (m : M) : Except CheatFault (State × M) :=
  if line.type.isCondition then .ok ({ s with ifFlag := s.ifFlag + 1 }, m)
  else
    match line.type with
    | .patch => patchOp host lines line s m
    | .terminator => .ok (terminateOp s, m)
    | .fullTerminator => .ok (fullTerminateOp s, m)
    | _ => .ok (s, m)

def runLine (line : CheatLine) (s : State) (m : M) : Except CheatFault (State × M) :=
  match line.type with
  | .null | .unknown => .ok (s, m)
  | .write32 => .ok (s, writeOp host.read32 host.write32 id line s m)
  | .write16 => .ok (s, writeOp host.read16 host.write16 UInt32.toUInt16 line s m)
  | .write8 => .ok (s, writeOp host.read8 host.write8 UInt32.toUInt8 line s m)
  | .greaterThan32 => .ok (compOp host.read32 (fun val => line.value > val) line s m, m)
  | .lessThan32 => .ok (compOp host.read32 (fun val => line.value < val) line s m, m)
  | .equalTo32 => .ok (compOp host.read32 (fun val => line.value == val) line s m, m)
  | .notEqualTo32 => .ok (compOp host.read32 (fun val => line.value != val) line s m, m)
  | .greaterThan16WithMask =>
    .ok (compOp host.read16 (fun val => line.value.toUInt16 > maskedHalf line val) line s m, m)
  | .lessThan16WithMask =>
    .ok (compOp host.read16 (fun val => line.value.toUInt16 < maskedHalf line val) line s m, m)
  | .equalTo16WithMask =>
    .ok (compOp host.read16 (fun val => line.value.toUInt16 == maskedHalf line val) line s m, m)
  | .notEqualTo16WithMask =>
    .ok (compOp host.read16 (fun val => line.value.toUInt16 != maskedHalf line val) line s m, m)
  | .loadOffset => .ok ({ s with offset := host.read32 m (line.address + s.offset) }, m)
  | .loop => .ok (loopOp line s, m)
  | .terminator => .ok (terminateOp s, m)
  | .loopExecuteVariant => .ok (loopExecuteVariantOp s, m)
  | .fullTerminator => .ok (fullTerminateOp s, m)
  | .setOffset => .ok ({ s with offset := line.value }, m)
  | .addValue => .ok ({ s with reg := s.reg + line.value }, m)
  | .setValue => .ok ({ s with reg := line.value }, m)
  | .incrementiveWrite32 => .ok (incrementiveWriteOp host.read32 host.write32 id 4 line s m)
  | .incrementiveWrite16 => .ok (incrementiveWriteOp host.read16 host.write16 UInt32.toUInt16 2 line s m)
  | .incrementiveWrite8 => .ok (incrementiveWriteOp host.read8 host.write8 UInt32.toUInt8 1 line s m)
  | .load32 => .ok (loadOp host.read32 id line s m, m)
  | .load16 => .ok (loadOp host.read16 UInt16.toUInt32 line s m, m)
  | .load8 => .ok (loadOp host.read8 UInt8.toUInt32 line s m, m)
  | .addOffset => .ok ({ s with offset := s.offset + line.value }, m)
  | .joker => .ok (jokerOp host line s m, m)
  | .patch => patchOp host lines line s m

def finished (x : State × M) : Bool := lines.length ≤ x.1.currentLineNr

def nextLine (x : State × M) : State × M := ({ x.1 with currentLineNr := (x.1.currentLineNr + 1) % 2 ^ 64 }, x.2)

def turn (x : State × M) : Except CheatFault (State × M) :=
  match lines[x.1.currentLineNr]? with
  | none => .error .outOfRange
  | some line => do
    let x ← if x.1.ifFlag > 0 then skipLine host lines line x.1 x.2 else runLine host lines line x.1 x.2
    .ok (nextLine x)

end

def execute {M : Type} (host : CheatMemory M) (cheat : CheatLines) (bound : Nat) (m : M) :
    Except CheatFault (State × M) :=
  BoundedLoop.run (finished cheat.lines) (turn host cheat.lines) .exhausted bound ({}, m)

end SweepDSEmu.Cheats
