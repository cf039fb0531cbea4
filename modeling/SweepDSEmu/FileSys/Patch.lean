import SweepDSEmu.Lib.CheckedAccess
import SweepDSEmu.Lib.Outcome

/-!
# IPS and BPS patches

`ApplyIpsPatch` and `ApplyBpsPatch` of `patch.cpp`.

* Bytes are read and written with a check; an access outside an array, and the dereference of an empty `optional`, are
  faults.  A loop has as much fuel as its array has bytes.
* Numbers of a BPS patch are 32-bit, offsets and sizes are `size_t` with 64 bits.
* The CRC of `boost` is a parameter.
-/

namespace SweepDSEmu.FileSys.Patch

abbrev Bytes := List UInt8

inductive ResultStatus where
  | success
  | errorPatches
  | errorPatchesInvalidTitle
  deriving DecidableEq

/-- What undefined behaviour there is, and a loop that does not end. -/
inductive Fault where
  | outOfBounds
  | noValue
  | neverReturns
  deriving DecidableEq

def addU64 (a b : Nat) : Nat := (a + b) % 2 ^ 64

def subU64 (a b : Nat) : Nat := (a + 2 ^ 64 - b) % 2 ^ 64

def byteAt (bytes : Bytes) (i : Nat) : Except Fault UInt8 := checkedGet .outOfBounds bytes i

def slice (bytes : Bytes) (offset length : Nat) : Except Fault Bytes := checkedSlice .outOfBounds bytes offset length

def setByte (bytes : Bytes) (i : Nat) (b : UInt8) : Except Fault Bytes := checkedSet .outOfBounds bytes i b

def splice (bytes : Bytes) (offset : Nat) (part : Bytes) : Except Fault Bytes :=
  checkedSplice .outOfBounds bytes offset part

def ipsHeader : Bytes := [0x50, 0x41, 0x54, 0x43, 0x48]

def ipsEof : Bytes := [0x45, 0x4F, 0x46]

def read16 (bytes : Bytes) (i : Nat) : Except Fault Nat := do
  let high ← byteAt bytes i
  let low ← byteAt bytes (i + 1)
  .ok (high.toNat * 2 ^ 8 + low.toNat)

def read24 (bytes : Bytes) (i : Nat) : Except Fault Nat := do
  let high ← byteAt bytes i
  let low ← read16 bytes (i + 1)
  .ok (high.toNat * 2 ^ 16 + low)

def fillRle (ips : Bytes) (value offset length : Nat) (buffer : Bytes) : Except Fault Bytes :=
  (List.range length).foldlM (fun buffer i => do
    let b ← byteAt ips value
    setByte buffer (offset + i) b) buffer

def ipsLoop (ips : Bytes) (patchLength : Nat) : Nat → Nat → Bytes → Except Fault (ResultStatus × Bytes)
  | 0, _, _ => .error .neverReturns
  | fuel + 1, cursor, buffer =>
    if cursor < patchLength then do
      let eofCheck ← slice ips cursor 3
      if eofCheck = ipsEof then .ok (.success, buffer)
      else do
        let offset ← read24 ips cursor
        let length ← read16 ips (cursor + 3)
        if length = 0 then do
          let length ← read16 ips (cursor + 5)
          if buffer.length < offset + length then .ok (.errorPatches, buffer)
          else do
            let buffer ← fillRle ips (cursor + 7) offset length buffer
            ipsLoop ips patchLength fuel (cursor + 8) buffer
        else if buffer.length < offset + length then .ok (.errorPatches, buffer)
        else do
          let bytes ← slice ips (cursor + 5) length
          let buffer ← splice buffer offset bytes
          ipsLoop ips patchLength fuel (cursor + (length + 5)) buffer
    else .ok (.success, buffer)

def applyIpsPatch (ips buffer : Bytes) : Except Fault (ResultStatus × Bytes) := do
  let header ← slice ips 0 5
  if header = ipsHeader then ipsLoop ips (subU64 ips.length 3) (ips.length + 1) 5 buffer
  else .ok (.errorPatches, buffer)

structure Stream where
  data : Bytes
  offset : Nat := 0
  deriving DecidableEq

namespace Stream

def size (s : Stream) : Nat := s.data.length

def read (s : Stream) (length : Nat) : Except Fault (Option (Bytes × Stream)) :=
  if addU64 s.offset length > s.size then .ok none
  else do
    let bytes ← slice s.data s.offset length
    .ok (some (bytes, { s with offset := addU64 s.offset length }))

def copyFrom (s other : Stream) (length : Nat) : Except Fault (Bool × Stream × Stream) :=
  if addU64 s.offset length > s.size then .ok (false, s, other)
  else do
    match ← other.read length with
    | none => .ok (false, s, other)
    | some (bytes, other) => do
      let data ← splice s.data s.offset bytes
      .ok (true, ⟨data, addU64 s.offset length⟩, other)

def seek (s : Stream) (offset : Nat) : Bool × Stream :=
  if offset > s.size then (false, s) else (true, { s with offset := offset })

/-- The loop of `ReadNumber` over the bytes that are left: the number, and how many bytes have been read. -/
def readNumberLoop : Bytes → Nat → Nat → Nat × Nat
  | [], data, _ => (data, 0)
  | x :: rest, data, shift =>
    let data := (data + x.toNat % 2 ^ 7 * shift) % 2 ^ 32
    if 2 ^ 7 ≤ x.toNat then (data, 1)
    else
      let shift := shift * 2 ^ 7 % 2 ^ 32
      let r := readNumberLoop rest ((data + shift) % 2 ^ 32) shift
      (r.1, r.2 + 1)

def readNumber (s : Stream) : Nat × Stream :=
  let r := readNumberLoop (s.data.drop s.offset) 0 1
  (r.1, { s with offset := s.offset + r.2 })

def littleEndian : Bytes → Nat
  | [] => 0
  | b :: bytes => b.toNat + 2 ^ 8 * littleEndian bytes

/-- `*Read<T>()`: the dereference of an empty `optional` is a fault. -/
def readValue (s : Stream) (length : Nat) : Except Fault (Bytes × Stream) := do
  match ← s.read length with
  | none => .error .noValue
  | some r => .ok r

end Stream

def bpsMagic : Bytes := [0x42, 0x50, 0x53, 0x31]

def magicSize : Nat := 4

def footerSize : Nat := 12

structure PatchApplier where
  source : Stream
  target : Stream
  patch : Stream
  sourceRelativeOffset : Nat := 0
  targetRelativeOffset : Nat := 0
  deriving DecidableEq

namespace PatchApplier

/-- A relative offset moved by a number of the patch, whose lowest bit is the sign. -/
def movedBy (offset data : Nat) : Nat :=
  (((offset : Int) + (if data % 2 = 1 then -1 else 1) * ((data / 2 : Nat) : Int)) % 2 ^ 64).toNat

def sourceRead (a : PatchApplier) (length : Nat) : Except Fault (Bool × PatchApplier) :=
  match a.source.seek a.target.offset with
  | (false, source) => .ok (false, { a with source })
  | (true, source) => do
    let (ok, target, source) ← a.target.copyFrom source length
    .ok (ok, { a with target, source })

def targetRead (a : PatchApplier) (length : Nat) : Except Fault (Bool × PatchApplier) := do
  let (ok, target, patch) ← a.target.copyFrom a.patch length
  .ok (ok, { a with target, patch })

def sourceCopy (a : PatchApplier) (length : Nat) : Except Fault (Bool × PatchApplier) :=
  let (data, patch) := a.patch.readNumber
  let a := { a with patch, sourceRelativeOffset := movedBy a.sourceRelativeOffset data }
  match a.source.seek a.sourceRelativeOffset with
  | (false, source) => .ok (false, { a with source })
  | (true, source) => do
    let (ok, target, source) ← a.target.copyFrom source length
    let a := { a with target, source }
    .ok (ok, if ok then { a with sourceRelativeOffset := addU64 a.sourceRelativeOffset length } else a)

/-- The loop of `TargetCopy`, with the relative offset. -/
def copyBytes (stop : Nat) (length : Nat) (data : Bytes) (relativeOffset : Nat) : Except Fault (Bytes × Nat) :=
  (List.range length).foldlM (fun r i => do
    let b ← byteAt r.1 r.2
    let data ← setByte r.1 (addU64 stop i) b
    .ok (data, addU64 r.2 1)) (data, relativeOffset)

def targetCopy (a : PatchApplier) (length : Nat) : Except Fault (Bool × PatchApplier) :=
  let (data, patch) := a.patch.readNumber
  let a := { a with patch, targetRelativeOffset := movedBy a.targetRelativeOffset data }
  if addU64 a.target.offset length > a.target.size then .ok (false, a)
  else if addU64 a.targetRelativeOffset length > a.target.size then .ok (false, a)
  else do
    let (data, targetRelativeOffset) ← copyBytes a.target.offset length a.target.data a.targetRelativeOffset
    let (_, target) := Stream.seek { a.target with data } (addU64 a.target.offset length)
    .ok (true, { a with target, targetRelativeOffset })

def handleCommand (a : PatchApplier) : Except Fault (Bool × PatchApplier) :=
  let (data, patch) := a.patch.readNumber
  let a := { a with patch }
  let length := data / 4 + 1
  match data % 4 with
  | 0 => a.sourceRead length
  | 1 => a.targetRead length
  | 2 => a.sourceCopy length
  | _ => a.targetCopy length

def commandLoop (stop : Nat) : Nat → PatchApplier → Except Fault (Bool × PatchApplier)
  | 0, _ => .error .neverReturns
  | fuel + 1, a =>
    if a.patch.offset < stop then do
      match ← a.handleCommand with
      | (false, a) => .ok (false, a)
      | (true, a) => commandLoop stop fuel a
    else .ok (true, a)

variable (crc32 : Bytes → UInt32)

/-- `Apply`, after the header: the two hashes at the end of the patch, and the commands. -/
def applyCommands (a : PatchApplier) (sourceSize targetSize : Nat) : Except Fault (ResultStatus × Bytes) := do
  let commandStart := a.patch.offset
  let commandEnd := subU64 a.patch.size footerSize
  let (sourceCrc, patch) ← (a.patch.seek commandEnd).2.readValue 4
  let (targetCrc, patch) ← patch.readValue 4
  let a := { a with patch := (patch.seek commandStart).2 }
  let sourceBytes ← slice a.source.data 0 sourceSize
  if (crc32 sourceBytes).toNat ≠ Stream.littleEndian sourceCrc then .ok (.errorPatchesInvalidTitle, a.target.data)
  else do
    let target := { a.target with data := List.replicate a.target.size 0 }
    match ← commandLoop commandEnd (a.patch.size + 1) { a with target } with
    | (false, a) => .ok (.errorPatches, a.target.data)
    | (true, a) => do
      let targetBytes ← slice a.target.data 0 targetSize
      if (crc32 targetBytes).toNat ≠ Stream.littleEndian targetCrc then .ok (.errorPatches, a.target.data)
      else .ok (.success, a.target.data)

def apply (a : PatchApplier) : Except Fault (ResultStatus × Bytes) := do
  let (magic, patch) ← a.patch.readValue magicSize
  if magic ≠ bpsMagic then .ok (.errorPatches, a.target.data)
  else
    let (sourceSize, patch) := patch.readNumber
    let (targetSize, patch) := patch.readNumber
    let (metadataSize, patch) := patch.readNumber
    if sourceSize > a.source.size ∨ targetSize > a.target.size ∨ metadataSize ≠ 0 then
      .ok (.errorPatches, a.target.data)
    else applyCommands crc32 { a with patch } sourceSize targetSize

end PatchApplier

def resize (bytes : Bytes) (n : Nat) : Bytes := bytes.take n ++ List.replicate (n - bytes.length) 0

/-- The sizes that `ApplyBpsPatch` reads behind the marker. -/
def readSizes (patch : Bytes) : Nat × Nat :=
  let (sourceSize, stream) := (Stream.seek ⟨patch, 0⟩ magicSize).2.readNumber
  (sourceSize, stream.readNumber.1)

def applyBpsPatch (crc32 : Bytes → UInt32) (patch buffer : Bytes) : Except Fault (ResultStatus × Bytes) :=
  let (sourceSize, targetSize) := readSizes patch
  let buffer := if targetSize > sourceSize then resize buffer targetSize else buffer
  PatchApplier.apply crc32 { source := ⟨buffer, 0⟩, target := ⟨buffer, 0⟩, patch := ⟨patch, 0⟩ }

end SweepDSEmu.FileSys.Patch
