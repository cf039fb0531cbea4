import Mathlib.Data.List.Basic

/-!
# Packets of the multiplayer room

`Network::Packet` as a reader of a received message.  A read that does not fit makes the packet invalid; then every
later read fails too, and the variable that is read into keeps what it had.
-/

namespace SweepDSEmu.Network

abbrev Bytes := List UInt8

structure Packet where
  data : Bytes
  readPos : Nat := 0
  isValid : Bool := true

namespace Packet

def checkSize (p : Packet) (size : Nat) : Packet :=
  { p with isValid := p.isValid && decide (p.readPos + size ≤ p.data.length) }

def read (p : Packet) (size : Nat) : Option Bytes × Packet :=
  let p := p.checkSize size
  if p.isValid then (some ((p.data.drop p.readPos).take size), { p with readPos := p.readPos + size })
  else (none, p)

def ignoreBytes (p : Packet) (length : Nat) : Packet := { p with readPos := p.readPos + length }

/-- Reads a `u8` into a variable that holds `uninit`. -/
def readU8 (p : Packet) (uninit : UInt8) : UInt8 × Packet :=
  match p.read 1 with
  | (some bytes, p) => (bytes.headD uninit, p)
  | (none, p) => (uninit, p)

def readNat (p : Packet) (size : Nat) : Nat × Packet :=
  match p.read size with
  | (some bytes, p) => (bytes.foldl (fun n b => n * 256 + b.toNat) 0, p)
  | (none, p) => (0, p)

def readU32 (p : Packet) : Nat × Packet := p.readNat 4

def readU64 (p : Packet) : Nat × Packet := p.readNat 8

def readString (p : Packet) : Bytes × Packet :=
  match p.readU32 with
  | (length, p) =>
    if length = 0 then ([], p)
    else
      match p.read length with
      | (some bytes, p) => (bytes, p)
      | (none, p) => ([], p)

/-- Reads an array of bytes, each into a variable that holds one of `uninit`. -/
def readArray (p : Packet) : List UInt8 → Bytes × Packet
  | [] => ([], p)
  | uninit :: rest =>
    match p.readU8 uninit with
    | (b, p) =>
      match p.readArray rest with
      | (bytes, p) => (b :: bytes, p)

end Packet

end SweepDSEmu.Network
