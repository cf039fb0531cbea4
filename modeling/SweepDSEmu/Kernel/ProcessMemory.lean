import SweepDSEmu.Kernel.MemoryRegion
import SweepDSEmu.Kernel.VMManagerBacking

/-!
# The memory of a process

The functions by which a process gets and returns memory: those of `process.cpp`, and `svcControlMemory` over them.
They work on the address space of the process, on the allocator of its memory region and on `holdingMemory`, the FCRAM
that the process has to give back.

* A failed assertion ends the emulation.  So does the use of an iterator that points to no area.
* The contents of the memory and the resource limit, whose answer nobody looks at, are left out.
-/

namespace SweepDSEmu

def heapVaddr : Nat := 0x08000000

def heapVaddrEnd : Nat := 0x10000000

def linearHeapVaddr : Nat := 0x14000000

def newLinearHeapVaddr : Nat := 0x30000000

def fcramN3dsSize : Nat := 0x10000000

inductive MemoryRegion where
  | application
  | system
  | base
  deriving DecidableEq

structure Process where
  vmManager : VMManager := VMManager.reset
  holdingMemory : IntervalSet := []
  memoryUsed : Nat := 0
  kernelVersion : Nat
  memoryRegion : MemoryRegion

structure ProcessMemory where
  fcram : Nat
  region : MemoryRegionInfo
  process : Process

def getFCRAMOffset (fcram pointer : Nat) : Except Fault Nat := do
  assert (fcram ≤ pointer ∧ pointer ≤ fcram + fcramN3dsSize)
  return (pointer - fcram) % 2 ^ 32

def getFCRAMRef (fcram offset : Nat) : Except Fault Nat := do
  assert (offset ≤ fcramN3dsSize)
  return fcram + offset

def OutsideHeap (target size : Nat) : Prop :=
  target < heapVaddr ∨ addU32 target size > heapVaddrEnd ∨ addU32 target size < target

instance (target size : Nat) : Decidable (OutsideHeap target size) := inferInstanceAs (Decidable (_ ∨ _ ∨ _))

/-- The ranges overlap, by the test of `Map` and `Unmap`. -/
def Overlapping (target source size : Nat) : Prop := subU32 source target < size ∨ subU32 target source < size

instance (target source size : Nat) : Decidable (Overlapping target source size) :=
  inferInstanceAs (Decidable (_ ∨ _))

namespace VMManager

def occupied (m : VMManager) (target size : Nat) : Except Fault Bool := do
  let vma ← unwrap ((m.findVMA target).bind m.vmaMap.get?)
  return vma.type ≠ .free || addU32 vma.base vma.size < addU32 target size

def mapBlock (m : VMManager) (target memory size : Nat) (state : MemoryState) (perms : VMAPermission) :
    Except Fault VMManager := do
  match ← unwrap (m.mapBackingMemory target memory size state) with
  | (.error _, _) => .error .assertion
  | (.ok vma, m) =>
    let (_, m) ← unwrap (m.reprotect vma perms)
    return m

def mapBlocks (state : MemoryState) (perms : VMAPermission) : List (Nat × Nat) → Nat → VMManager →
    Except Fault VMManager
  | [], _, m => .ok m
  | (memory, size) :: blocks, intervalTarget, m => do
    let m ← m.mapBlock intervalTarget memory size state perms
    mapBlocks state perms blocks (addU32 intervalTarget size) m

def mapIntervals (fcram : Nat) (state : MemoryState) (perms : VMAPermission) : IntervalSet → Nat → VMManager →
    Except Fault VMManager
  | [], _, m => .ok m
  | (lower, upper) :: intervals, intervalTarget, m => do
    let intervalSize := subU32 upper lower
    let memory ← getFCRAMRef fcram lower
    let _ ← getFCRAMRef fcram upper
    let m ← m.mapBlock intervalTarget memory intervalSize state perms
    mapIntervals fcram state perms intervals (addU32 intervalTarget intervalSize) m

end VMManager

namespace ProcessMemory

def getLinearHeapAreaAddress (s : ProcessMemory) : Nat :=
  if s.process.kernelVersion < 0x22C then linearHeapVaddr else newLinearHeapVaddr

def getLinearHeapBase (s : ProcessMemory) : Nat := addU32 s.getLinearHeapAreaAddress s.region.base

def getLinearHeapLimit (s : ProcessMemory) : Nat := addU32 s.getLinearHeapBase s.region.size

def OutsideLinearHeap (s : ProcessMemory) (target size : Nat) : Prop :=
  target < s.getLinearHeapBase ∨ addU32 target size > s.getLinearHeapLimit ∨ addU32 target size < target

instance (s : ProcessMemory) (target size : Nat) : Decidable (s.OutsideLinearHeap target size) :=
  inferInstanceAs (Decidable (_ ∨ _ ∨ _))

/-- The same process with another address space. -/
def setVMManager (s : ProcessMemory) (m : VMManager) : ProcessMemory := { s with process.vmManager := m }

def hold (s : ProcessMemory) (blocks : IntervalSet) (size : Nat) : ProcessMemory :=
  { s with
    process.holdingMemory := s.process.holdingMemory.union blocks
    process.memoryUsed := addU32 s.process.memoryUsed size }

def heapAllocate (s : ProcessMemory) (target size : Nat) (perms : VMAPermission)
    (memoryState : MemoryState) (skipRangeCheck : Bool) : Except Fault (Except ResultCode Nat × ProcessMemory) := do
  if OutsideHeap target size ∧ ¬ skipRangeCheck then return (.error .invalidAddress, s)
  if ← s.process.vmManager.occupied target size then return (.error .invalidAddressState, s)
  let (allocatedFcram, region) ← s.region.heapAllocate size
  let s := { s with region := region }
  if allocatedFcram.isEmpty then return (.error .outOfHeapMemory, s)
  let m ← VMManager.mapIntervals s.fcram memoryState perms allocatedFcram target s.process.vmManager
  return (.ok target, (s.setVMManager m).hold allocatedFcram size)

def freeBlocks : List (Nat × Nat) → ProcessMemory → Except Fault ProcessMemory
  | [], s => .ok s
  | (backingMemory, blockSize) :: blocks, s => do
    let backingOffset ← getFCRAMOffset s.fcram backingMemory
    let region ← s.region.free backingOffset blockSize
    let stop := addU32 backingOffset blockSize
    freeBlocks blocks { s with
      region := region
      process.holdingMemory := s.process.holdingMemory.subtract backingOffset stop }

def unmapFreed (s : ProcessMemory) (target size : Nat) : Except Fault (ResultCode × ProcessMemory) := do
  let (result, m) ← unwrap (s.process.vmManager.unmapRange target size)
  assert (result = .success)
  return (.success, { s.setVMManager m with process.memoryUsed := subU32 s.process.memoryUsed size })

def heapFree (s : ProcessMemory) (target size : Nat) : Except Fault (ResultCode × ProcessMemory) :=
  if OutsideHeap target size then .ok (.invalidAddress, s)
  else if size = 0 then .ok (.success, s)
  else do
    match ← unwrap (s.process.vmManager.getBackingBlocksForRange target size) with
    | .error e => return (e, s)
    | .ok blocks =>
      let s ← freeBlocks blocks s
      s.unmapFreed target size

def mapLinear (s : ProcessMemory) (target physicalOffset size : Nat) (perms : VMAPermission) :
    Except Fault (Except ResultCode Nat × ProcessMemory) := do
  let memory ← getFCRAMRef s.fcram physicalOffset
  let m ← s.process.vmManager.mapBlock target memory size .continuous perms
  return (.ok target, (s.setVMManager m).hold [(physicalOffset, addU32 physicalOffset size)] size)

def linearAllocate (s : ProcessMemory) (target size : Nat) (perms : VMAPermission) :
    Except Fault (Except ResultCode Nat × ProcessMemory) :=
  if target = 0 then do
    let (offset, region) ← s.region.linearAllocate size
    let s := { s with region := region }
    match offset with
    | none => return (.error .outOfHeapMemory, s)
    | some offset => s.mapLinear (addU32 offset s.getLinearHeapAreaAddress) offset size perms
  else if s.OutsideLinearHeap target size then .ok (.error .invalidAddress, s)
  else do
    let physicalOffset := subU32 target s.getLinearHeapAreaAddress
    let (allocated, region) ← s.region.linearAllocateAt physicalOffset size
    let s := { s with region := region }
    if allocated then s.mapLinear target physicalOffset size perms
    else return (.error .invalidAddressState, s)

def freeLinear (s : ProcessMemory) (target size : Nat) : Except Fault (ResultCode × ProcessMemory) := do
  let physicalOffset := subU32 target s.getLinearHeapAreaAddress
  let region ← s.region.free physicalOffset size
  let stop := addU32 physicalOffset size
  return (.success, { s with
    region := region
    process.holdingMemory := s.process.holdingMemory.subtract physicalOffset stop
    process.memoryUsed := subU32 s.process.memoryUsed size })

def linearFree (s : ProcessMemory) (target size : Nat) : Except Fault (ResultCode × ProcessMemory) :=
  if s.OutsideLinearHeap target size then .ok (.invalidAddress, s)
  else if size = 0 then .ok (.success, s)
  else do
    let (result, m) ← unwrap (s.process.vmManager.unmapRange target size)
    let s := s.setVMManager m
    if result ≠ .success then return (result, s) else s.freeLinear target size

def changeMemoryState (s : ProcessMemory) (target size : Nat) (expectedState : MemoryState)
    (expectedPerms : VMAPermission) (newState : MemoryState) (newPerms : VMAPermission) :
    Except Fault (ResultCode × ProcessMemory) := do
  let (result, m) ← unwrap
    (s.process.vmManager.changeMemoryState target size expectedState expectedPerms newState newPerms)
  return (result, s.setVMManager m)

/-- The end of `Map`: the memory behind the source range is mapped at the target. -/
def mapAlias (s : ProcessMemory) (target source size : Nat) (targetState : MemoryState) (perms : VMAPermission) :
    Except Fault (ResultCode × ProcessMemory) := do
  match ← unwrap (s.process.vmManager.getBackingBlocksForRange source size) with
  | .error e => return (e, s)
  | .ok blocks =>
    let m ← VMManager.mapBlocks targetState perms blocks target s.process.vmManager
    return (.success, s.setVMManager m)

def map (s : ProcessMemory) (target source size : Nat) (perms : VMAPermission) (privileged : Bool) :
    Except Fault (ResultCode × ProcessMemory) :=
  if ¬ privileged ∧ OutsideHeap source size then .ok (.invalidAddress, s)
  else if Overlapping target source size then
    if privileged then
      if source = target then
        s.changeMemoryState source size .privateMemory VMAPermission.readWrite .aliasCode perms
      else .ok (.invalidAddress, s)
    else .ok (.invalidAddressState, s)
  else do
    if ← s.process.vmManager.occupied target size then return (.invalidAddressState, s)
    let sourceState := if privileged then .locked else .aliased
    let targetState := if privileged then .aliasCode else .aliasMemory
    let sourcePerm := if privileged then VMAPermission.none else VMAPermission.readWrite
    let (result, s) ← s.changeMemoryState source size .privateMemory VMAPermission.readWrite sourceState sourcePerm
    if result ≠ .success then return (result, s) else s.mapAlias target source size targetState perms

def unmap (s : ProcessMemory) (target source size : Nat) (perms : VMAPermission) (privileged : Bool) :
    Except Fault (ResultCode × ProcessMemory) :=
  if ¬ privileged ∧ OutsideHeap source size then .ok (.invalidAddress, s)
  else if Overlapping target source size then
    if privileged then
      if source = target then
        s.changeMemoryState source size .aliasCode VMAPermission.none .privateMemory perms
      else .ok (.invalidAddress, s)
    else .ok (.invalidAddressState, s)
  else do
    let sourceState := if privileged then .locked else .aliased
    let (result, m) ← unwrap (s.process.vmManager.unmapRange target size)
    let s := s.setVMManager m
    if result ≠ .success then return (result, s)
    else s.changeMemoryState source size sourceState VMAPermission.none .privateMemory perms

def reprotectRange (s : ProcessMemory) (target size : Nat) (perms : VMAPermission) :
    Except Fault (ResultCode × ProcessMemory) := do
  let (result, m) ← unwrap (s.process.vmManager.reprotectRange target size perms)
  return (result, s.setVMManager m)

end ProcessMemory

/-- The arguments of `svcControlMemory`. -/
structure ControlMemoryArgs where
  addr0 : UInt32
  addr1 : UInt32
  size : UInt32
  operation : UInt32
  permissions : UInt32
  deriving DecidableEq

inductive ControlMemoryOperation where
  | free
  | commit (linear : Bool)
  | map
  | unmap
  | protect
  deriving DecidableEq

namespace ControlMemoryArgs

def memopRegionMask : UInt32 := 0xF00

def memopOperationMask : UInt32 := 0xFF

def memopLinear : UInt32 := 0x10000

def citraPageMask : UInt32 := 0xFFF

/-- The checks at the start of `svcControlMemory`. -/
def check (a : ControlMemoryArgs) : Option ResultCode :=
  if a.addr0 &&& citraPageMask ≠ 0 then some .misalignedAddress
  else if a.addr1 &&& citraPageMask ≠ 0 then some .misalignedAddress
  else if a.size &&& citraPageMask ≠ 0 then some .misalignedSize
  else if a.permissions &&& 3 ≠ a.permissions then some .invalidCombination
  else none

/-- The operation that the word asks for.  The region in it is ignored. -/
def decode (a : ControlMemoryArgs) : Option ControlMemoryOperation :=
  let operation := a.operation &&& ~~~memopRegionMask
  match operation &&& memopOperationMask with
  | 1 => some .free
  | 3 => some (.commit (operation &&& memopLinear ≠ 0))
  | 4 => some .map
  | 5 => some .unmap
  | 6 => some .protect
  | _ => none

end ControlMemoryArgs

namespace ProcessMemory

open ControlMemoryArgs

def withAddress (r : Except ResultCode Nat × ProcessMemory) : ResultCode × Option Nat × ProcessMemory :=
  match r with
  | (.ok address, s) => (.success, some address, s)
  | (.error e, s) => (e, none, s)

def withoutAddress (r : ResultCode × ProcessMemory) : ResultCode × Option Nat × ProcessMemory := (r.1, none, r.2)

def controlMemoryFree (s : ProcessMemory) (addr0 size : Nat) : Except Fault (ResultCode × ProcessMemory) :=
  if heapVaddr ≤ addr0 ∧ addr0 < heapVaddrEnd then s.heapFree addr0 size
  else if s.getLinearHeapBase ≤ addr0 ∧ addr0 < s.getLinearHeapLimit then s.linearFree addr0 size
  else .ok (.invalidAddress, s)

def controlMemoryOperation (s : ProcessMemory) (addr0 addr1 size : Nat) (perms : VMAPermission) :
    ControlMemoryOperation → Except Fault (ResultCode × Option Nat × ProcessMemory)
  | .free => do
    let (result, s) ← s.controlMemoryFree addr0 size
    return (result, if result = .success then some addr0 else none, s)
  | .commit true => return withAddress (← s.linearAllocate addr0 size perms)
  | .commit false => return withAddress (← s.heapAllocate addr0 size perms .privateMemory false)
  | .map => return withoutAddress (← s.map addr0 addr1 size perms false)
  | .unmap => return withoutAddress (← s.unmap addr0 addr1 size perms false)
  | .protect => return withoutAddress (← s.reprotectRange addr0 size perms)

/-- `svcControlMemory`: the result, the address that it returns, and the new state. -/
def controlMemory (s : ProcessMemory) (a : ControlMemoryArgs) : Except Fault (ResultCode × Option Nat × ProcessMemory) :=
  match a.check with
  | some e => .ok (e, none, s)
  | none => match a.decode with
    | none => .ok (.invalidCombination, none, s)
    | some op => s.controlMemoryOperation a.addr0.toNat a.addr1.toNat a.size.toNat a.permissions.toUInt8 op

end ProcessMemory

end SweepDSEmu
