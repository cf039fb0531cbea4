import SweepDSEmu.Kernel.Errors
import SweepDSEmu.Lib.OrderedMap

/-!
# The address space of a process

The functions of `vm_manager.cpp`.  `vmaMap` covers the address space with areas of equal attributes; every change
splits areas at the ends of its range, edits the areas in between and merges what can be merged.

* A failed assertion, and the use of an iterator that points to no entry, make the result `none`.  A `ResultCode`
  comes with the state in which the function leaves the manager.
* An address and a size are natural numbers; a sum that involves the arguments of a call is taken modulo `2 ^ 32`.
  The areas themselves lie below `maxAddress`.
* A host pointer is a natural number, the null pointer is zero.
* The page table that `UpdatePageTableForVMA` derives from the areas is left out.
-/

namespace SweepDSEmu

def pageSize : Nat := 0x1000

def addU32 (a b : Nat) : Nat := (a + b) % 2 ^ 32

inductive VMAType where
  | free
  | backingMemory
  deriving DecidableEq

abbrev VMAPermission := UInt8

namespace VMAPermission

def none : VMAPermission := 0

def readWrite : VMAPermission := 3

end VMAPermission

inductive MemoryState where
  | free
  | reserved
  | io
  | static
  | code
  | privateMemory
  | shared
  | continuous
  | aliased
  | aliasMemory
  | aliasCode
  | locked
  deriving DecidableEq

structure VirtualMemoryArea where
  base : Nat := 0
  size : Nat := 0
  type : VMAType := .free
  permissions : VMAPermission := VMAPermission.none
  meminfoState : MemoryState := .free
  backingMemory : Nat := 0
  deriving DecidableEq

namespace VirtualMemoryArea

def stop (v : VirtualMemoryArea) : Nat := v.base + v.size

/-- The condition of `CanBeMergedWith` for an area that starts where this one stops. -/
def Mergeable (v next : VirtualMemoryArea) : Prop :=
  v.permissions = next.permissions ∧ v.meminfoState = next.meminfoState ∧ v.type = next.type ∧
    (v.type = .backingMemory → v.backingMemory + v.size = next.backingMemory)

instance (v next : VirtualMemoryArea) : Decidable (v.Mergeable next) :=
  inferInstanceAs (Decidable (_ ∧ _ ∧ _ ∧ (_ → _)))

def canBeMergedWith (v next : VirtualMemoryArea) : Option Bool :=
  if v.stop = next.base then some (decide (v.Mergeable next)) else none

def splitLeft (v : VirtualMemoryArea) (offset : Nat) : VirtualMemoryArea := { v with size := offset }

def splitRight (v : VirtualMemoryArea) (offset : Nat) : VirtualMemoryArea :=
  { v with
    base := v.base + offset
    size := v.size - offset
    backingMemory := match v.type with
      | .free => v.backingMemory
      | .backingMemory => v.backingMemory + offset }

end VirtualMemoryArea

open VirtualMemoryArea

structure VMManager where
  vmaMap : OrderedMap Nat VirtualMemoryArea
  isLocked : Bool := false

abbrev VMAIter := Nat

namespace VMManager

def maxAddress : Nat := 0x40000000

def reset : VMManager := { vmaMap := [(0, { size := maxAddress })] }

def findVMA (m : VMManager) (target : Nat) : Option VMAIter :=
  if target ≥ maxAddress then none else m.vmaMap.prev (m.vmaMap.upperBound target)

def splitVMA (m : VMManager) (vma : VMAIter) (offset : Nat) : Option (VMAIter × VMManager) := do
  let old ← m.vmaMap.get? vma
  guard (offset < old.size)
  guard (offset > 0)
  let newVma := old.splitRight offset
  guard (← (old.splitLeft offset).canBeMergedWith newVma)
  return (newVma.base, { m with
    vmaMap := (m.vmaMap.modify vma fun v => v.splitLeft offset).emplace newVma.base newVma })

def mergeNext (m : VMManager) (vma : VMAIter) : Option VMManager :=
  match m.vmaMap.next vma with
  | none => some m
  | some next => do
    let v ← m.vmaMap.get? vma
    let w ← m.vmaMap.get? next
    if ← v.canBeMergedWith w then
      return { m with vmaMap := (m.vmaMap.modify vma fun v => { v with size := v.size + w.size }).erase next }
    else return m

def mergePrev (m : VMManager) (vma : VMAIter) : Option (VMAIter × VMManager) :=
  match m.vmaMap.prev (some vma) with
  | none => some (vma, m)
  | some prev => do
    let v ← m.vmaMap.get? vma
    let u ← m.vmaMap.get? prev
    if ← u.canBeMergedWith v then
      return (prev, { m with
        vmaMap := (m.vmaMap.modify prev fun u => { u with size := u.size + v.size }).erase vma })
    else return (vma, m)

def mergeAdjacent (m : VMManager) (vma : VMAIter) : Option (VMAIter × VMManager) := do
  let m ← m.mergeNext vma
  m.mergePrev vma

def updateVMA (m : VMManager) (vma : VMAIter) (f : VirtualMemoryArea → VirtualMemoryArea) :
    Option (VMAIter × VMManager) :=
  { m with vmaMap := m.vmaMap.modify vma f }.mergeAdjacent vma

def splitVMAIf (m : VMManager) (cond : Prop) [Decidable cond] (vma : VMAIter) (offset : Nat) :
    Option (VMAIter × VMManager) :=
  if cond then m.splitVMA vma offset else some (vma, m)

def carveVMA (m : VMManager) (base size : Nat) : Option (Except ResultCode VMAIter × VMManager) := do
  guard (size % pageSize = 0)
  guard (base % pageSize = 0)
  match m.findVMA base with
  | none => return (.error .invalidAddress, m)
  | some handle =>
    let vma ← m.vmaMap.get? handle
    if vma.type ≠ .free then return (.error .invalidAddressState, m)
    else
      let startInVMA := base - vma.base
      let endInVMA := addU32 startInVMA size
      if endInVMA > vma.size then return (.error .invalidAddressState, m)
      else
        let (_, m) ← m.splitVMAIf (endInVMA ≠ vma.size) handle endInVMA
        let (handle, m) ← m.splitVMAIf (startInVMA ≠ 0) handle startInVMA
        return (.ok handle, m)

/-- The split at the end of a range in `CarveVMARange`. -/
def splitAtEnd (m : VMManager) (targetEnd : Nat) : Option VMManager :=
  match m.findVMA targetEnd with
  | none => some m
  | some endVMA => do
    let vma ← m.vmaMap.get? endVMA
    let (_, m) ← m.splitVMAIf (targetEnd ≠ vma.base) endVMA (targetEnd - vma.base)
    return m

def carveVMARange (m : VMManager) (target size : Nat) : Option (Except ResultCode VMAIter × VMManager) := do
  guard (size % pageSize = 0)
  guard (target % pageSize = 0)
  let targetEnd := addU32 target size
  guard (targetEnd ≥ target)
  guard (targetEnd ≤ maxAddress)
  guard (size > 0)
  let beginVMA ← m.findVMA target
  let iEnd := m.vmaMap.lowerBound targetEnd
  if (m.vmaMap.range beginVMA iEnd).any fun entry => entry.2.type = .free then
    return (.error .invalidAddressState, m)
  else
    let vma ← m.vmaMap.get? beginVMA
    let (beginVMA, m) ← m.splitVMAIf (target ≠ vma.base) beginVMA (target - vma.base)
    let m ← m.splitAtEnd targetEnd
    return (.ok beginVMA, m)

/-- The loop over the areas of a range that `ChangeMemoryState`, `UnmapRange` and `ReprotectRange` share.  The end is
compared by address, as areas are merged on the way. -/
def updateRange (f : VirtualMemoryArea → VirtualMemoryArea) (targetEnd : Nat) :
    Nat → Option VMAIter → VMManager → Option VMManager
  | _, none, m => some m
  | 0, some _, _ => none
  | fuel + 1, some vma, m => do
    let v ← m.vmaMap.get? vma
    if v.base < targetEnd then
      let (vma, m) ← m.updateVMA vma f
      updateRange f targetEnd fuel (m.vmaMap.next vma) m
    else return m

/-- The attributes that `MapBackingMemory` gives an area. -/
def mapped (memory : Nat) (state : MemoryState) (v : VirtualMemoryArea) : VirtualMemoryArea :=
  { v with
    type := .backingMemory
    permissions := VMAPermission.readWrite
    meminfoState := state
    backingMemory := memory }

/-- The attributes that `Unmap` gives an area. -/
def unmapped (v : VirtualMemoryArea) : VirtualMemoryArea :=
  { v with
    type := .free
    permissions := VMAPermission.none
    meminfoState := .free
    backingMemory := 0 }

/-- The attributes that `Reprotect` gives an area. -/
def reprotected (perms : VMAPermission) (v : VirtualMemoryArea) : VirtualMemoryArea := { v with permissions := perms }

/-- The attributes that `ChangeMemoryState` gives an area. -/
def changed (state : MemoryState) (perms : VMAPermission) (v : VirtualMemoryArea) : VirtualMemoryArea :=
  { v with permissions := perms, meminfoState := state }

def mapBackingMemory (m : VMManager) (target memory size : Nat) (state : MemoryState) :
    Option (Except ResultCode VMAIter × VMManager) := do
  guard (m.isLocked = false)
  guard (memory ≠ 0)
  match ← m.carveVMA target size with
  | (.error e, m) => return (.error e, m)
  | (.ok handle, m) =>
    let finalVMA ← m.vmaMap.get? handle
    guard (finalVMA.size = size)
    let (handle, m) ← m.updateVMA handle (mapped memory state)
    return (.ok handle, m)

/-- `MapBackingMemoryToBase`.  Without a free area that is large enough the iterator points to no entry. -/
def mapBackingMemoryToBase (m : VMManager) (base regionSize memory size : Nat) (state : MemoryState) :
    Option (Except ResultCode Nat × VMManager) := do
  guard (m.isLocked = false)
  let (_, vma) ← m.vmaMap.find? fun entry =>
    entry.2.type = .free ∧ entry.2.stop > base ∧ entry.2.stop ≥ addU32 base size
  let target := max base vma.base
  if addU32 target size > addU32 base regionSize then return (.error .outOfMemory, m)
  else
    match ← m.mapBackingMemory target memory size state with
    | (.error e, m) => return (.error e, m)
    | (.ok _, m) => return (.ok target, m)

/-- The check that `ChangeMemoryState` makes for every area of the range. -/
def unexpected (state : MemoryState) (perms : VMAPermission) (v : VirtualMemoryArea) : Bool :=
  v.meminfoState ≠ state || v.permissions &&& perms ≠ perms

def changeMemoryState (m : VMManager) (target size : Nat) (expectedState : MemoryState)
    (expectedPerms : VMAPermission) (newState : MemoryState) (newPerms : VMAPermission) :
    Option (ResultCode × VMManager) :=
  if m.isLocked then some (.success, m) else
  let targetEnd := addU32 target size
  let iEnd := m.vmaMap.lowerBound targetEnd
  match m.findVMA target with
  | none => some (.invalidAddress, m)
  | some beginVMA =>
    if (m.vmaMap.range beginVMA iEnd).any fun entry => unexpected expectedState expectedPerms entry.2 then
      some (.invalidAddressState, m)
    else do
      match ← m.carveVMARange target size with
      | (.error e, m) => return (e, m)
      | (.ok vma, m) =>
        let m ← updateRange (changed newState newPerms) targetEnd m.vmaMap.length (some vma) m
        return (.success, m)

/-- `UnmapRange`.  Each `Unmap` of the loop repeats the assertion on `isLocked`. -/
def unmapRange (m : VMManager) (target size : Nat) : Option (ResultCode × VMManager) := do
  guard (m.isLocked = false)
  match ← m.carveVMARange target size with
  | (.error e, m) => return (e, m)
  | (.ok vma, m) =>
    let m ← updateRange unmapped (addU32 target size) m.vmaMap.length (some vma) m
    let v ← m.vmaMap.get? (← m.findVMA target)
    guard (v.size ≥ size)
    return (.success, m)

def reprotect (m : VMManager) (vma : VMAIter) (newPerms : VMAPermission) : Option (VMAIter × VMManager) := do
  guard (m.isLocked = false)
  m.updateVMA vma (reprotected newPerms)

/-- `ReprotectRange`.  Each `Reprotect` of the loop repeats the assertion on `isLocked`. -/
def reprotectRange (m : VMManager) (target size : Nat) (newPerms : VMAPermission) :
    Option (ResultCode × VMManager) := do
  guard (m.isLocked = false)
  match ← m.carveVMARange target size with
  | (.error e, m) => return (e, m)
  | (.ok vma, m) =>
    let m ← updateRange (reprotected newPerms) (addU32 target size) m.vmaMap.length (some vma) m
    return (.success, m)

def backingBlocksLoop (m : VMManager) (stop : Nat) :
    Nat → Nat → List (Nat × Nat) → Option (Except ResultCode (List (Nat × Nat)))
  | 0, _, _ => none
  | fuel + 1, intervalTarget, blocks =>
    if intervalTarget = stop then some (.ok blocks) else do
      let vma ← m.vmaMap.get? (← m.findVMA intervalTarget)
      if vma.type ≠ .backingMemory then return .error .invalidAddressState
      else
        let intervalEnd := min stop vma.stop
        let intervalSize := intervalEnd - intervalTarget
        let backingMemory := vma.backingMemory + (intervalTarget - vma.base)
        backingBlocksLoop m stop fuel (intervalTarget + intervalSize) (blocks ++ [(backingMemory, intervalSize)])

def getBackingBlocksForRange (m : VMManager) (address size : Nat) : Option (Except ResultCode (List (Nat × Nat))) :=
  m.backingBlocksLoop (addU32 address size) (m.vmaMap.length + 1) address []

end VMManager

end SweepDSEmu
