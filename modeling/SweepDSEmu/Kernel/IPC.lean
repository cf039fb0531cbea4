import SweepDSEmu.Kernel.HandleTableRun
import SweepDSEmu.Kernel.MemoryRegion

/-!
# Translation of command buffers

`TranslateCommandBuffer` copies a message from one process to another, and `PopulateFromIncomingCommandBuffer` takes a
message for a service that is emulated at a high level.  Behind the plain parameters a message has descriptors: handles
that are moved or copied, the identifier of the sender, and buffers.

* A message is a function from positions to words; a position from `commandBufferLength` on is outside of the array.
* The source and the destination are two processes.  The memory system is a parameter.
* The recorder of messages is left out.
-/

namespace SweepDSEmu

open Handle

namespace IPC

def commandBufferLength : Nat := 64

/-- `DescriptorType`, with the bit pattern that has no name in the source. -/
inductive DescriptorType where
  | copyHandle
  | moveHandle
  | callingPid
  | unnamed
  | staticBuffer
  | pxiBuffer
  | mappedBuffer
  deriving DecidableEq

def moveHandle : UInt32 := 0x10

def getDescriptorType (descriptor : UInt32) : DescriptorType :=
  if descriptor &&& 0xF = 0 then
    match descriptor &&& 0x30 with
    | 0x00 => .copyHandle
    | 0x10 => .moveHandle
    | 0x20 => .callingPid
    | _ => .unnamed
  else if descriptor &&& 8 ≠ 0 then .mappedBuffer
  else if descriptor &&& 4 ≠ 0 then .pxiBuffer
  else .staticBuffer

def handleNumberFromDesc (descriptor : UInt32) : Nat := descriptor.toNat / 2 ^ 26 + 1

def moveHandleDesc (numHandles : Nat) : UInt32 := moveHandle ||| UInt32.ofNat ((numHandles - 1) * 2 ^ 26)

def translateParamsSize (header : UInt32) : Nat := header.toNat % 2 ^ 6

def normalParamsSize (header : UInt32) : Nat := header.toNat / 2 ^ 6 % 2 ^ 6

def staticBufferId (descriptor : UInt32) : Nat := descriptor.toNat / 2 ^ 10 % 2 ^ 4

def staticBufferSize (descriptor : UInt32) : Nat := descriptor.toNat / 2 ^ 14

def mappedBufferPerms (descriptor : UInt32) : Nat := descriptor.toNat / 2 % 2 ^ 2

def mappedBufferSize (descriptor : UInt32) : Nat := descriptor.toNat / 2 ^ 4

def permissionR : Nat := 1

def ipcMappingVaddr : Nat := 0x04000000

def ipcMappingSize : Nat := 0x04000000

abbrev CmdBuf := Nat → UInt32

/-- The number of words before the descriptors. -/
def untranslatedSize (cmdBuf : CmdBuf) : Nat := 1 + normalParamsSize (cmdBuf 0)

def commandSize (cmdBuf : CmdBuf) : Nat := untranslatedSize cmdBuf + translateParamsSize (cmdBuf 0)

def put (cmdBuf : CmdBuf) (i : Nat) (word : UInt32) : Except Fault CmdBuf := do
  assert (i < commandBufferLength)
  return Function.update cmdBuf i word

/-- Closes a handle; the result of `Close` is ignored. -/
def closeIgnored {Obj : Type} (t : HandleTable Obj) (handle : Handle) : HandleTable Obj :=
  match t.close handle with
  | .ok t' => t'
  | .error _ => t

end IPC

open IPC

structure MemorySystem (M Pid : Type) where
  readBlock : M → Pid → Nat → Nat → List UInt8
  writeBlock : M → Pid → Nat → List UInt8 → M
  copyBlock : M → Pid → Pid → Nat → Nat → Nat → M
  newBuffer : M → Nat → Nat × M
  writeBuffer : M → Nat → List UInt8 → M

structure MappedBufferContext where
  permissions : Nat
  size : Nat
  sourceAddress : Nat
  targetAddress : Nat
  buffer : Nat
  deriving DecidableEq

structure Tables (Obj : Type) where
  src : HandleTable Obj
  dst : HandleTable Obj

structure TranslateArgs (Obj M Pid : Type) where
  memory : MemorySystem M Pid
  srcThread : Obj
  srcProcess : Obj
  srcPid : Pid
  dstPid : Pid
  processId : UInt32
  dstAddress : Nat
  reply : Bool
  /-- The running thread and process of the kernel. -/
  current : Current Obj

structure Translation (Obj M : Type) where
  cmdBuf : CmdBuf
  tables : Tables Obj
  srcVM : VMManager
  dstVM : VMManager
  memory : M
  mappedBufferContext : List MappedBufferContext

namespace Translation

variable {Obj M Pid : Type} (args : TranslateArgs Obj M Pid)

/-- The end of a turn: a handle to the object is created in the destination, and null becomes zero. -/
def giveHandle (src dst : HandleTable Obj) : Option Obj → Except Fault (UInt32 × Tables Obj)
  | none => .ok (0, ⟨src, dst⟩)
  | some object =>
    match dst.create object with
    | .ok (handle, dst) => .ok (handle, ⟨src, dst⟩)
    | .error _ => .error .assertion

def handleTurn (tables : Tables Obj) (descriptor : UInt32) (handle : Handle) : Except Fault (UInt32 × Tables Obj) :=
  if handle = currentThread then giveHandle tables.src tables.dst (some args.srcThread)
  else if handle = currentProcess then giveHandle tables.src tables.dst (some args.srcProcess)
  else if handle ≠ 0 then
    let object := tables.src.getGeneric args.current handle
    let src := if descriptor = moveHandle then closeIgnored tables.src handle else tables.src
    giveHandle src tables.dst object
  else giveHandle tables.src tables.dst none

def translateHandles (descriptor : UInt32) : Nat → Nat → Translation Obj M → Except Fault (Translation Obj M)
  | 0, _, t => .ok t
  | numHandles + 1, i, t => do
    let (word, tables) ← handleTurn args t.tables descriptor (t.cmdBuf i)
    let cmdBuf ← put t.cmdBuf i word
    translateHandles descriptor numHandles (i + 1) { t with cmdBuf := cmdBuf, tables := tables }

def wordAt (block : List UInt8) (k : Nat) : Nat :=
  ((block.drop (4 * k)).take 4).foldr (fun byte rest => byte.toNat + 2 ^ 8 * rest) 0

/-- The `StaticBuffer` of `TranslateCommandBuffer`.  The static buffers of the target follow its command buffer. -/
def translateStaticBuffer (descriptor : UInt32) (i : Nat) (t : Translation Obj M) :
    Except Fault (Translation Obj M) := do
  assert (i < commandBufferLength)
  let data := args.memory.readBlock t.memory args.srcPid (t.cmdBuf i).toNat (staticBufferSize descriptor)
  let offset := commandBufferLength * 4 + 8 * staticBufferId descriptor
  let targetBuffer := args.memory.readBlock t.memory args.dstPid (addU32 args.dstAddress offset) 8
  let targetAddress := wordAt targetBuffer 1
  assert (staticBufferSize (UInt32.ofNat (wordAt targetBuffer 0)) ≥ data.length)
  let cmdBuf ← put t.cmdBuf i (UInt32.ofNat targetAddress)
  return { t with
    cmdBuf := cmdBuf
    memory := args.memory.writeBlock t.memory args.dstPid targetAddress data }

/-- The number of pages that a buffer touches. -/
def numPages (address size : Nat) : Nat := (address % pageSize + size + (pageSize - 1)) / pageSize

/-- The `MappedBuffer` of a reply: the pages are copied back and unmapped. -/
def translateMappedReply (permissions size sourceAddress : Nat) (t : Translation Obj M) :
    Except Fault (Translation Obj M) := do
  let pageStart := sourceAddress - sourceAddress % pageSize
  let n := numPages sourceAddress size
  let found ← unwrap (t.mappedBufferContext.find? fun context =>
    context.permissions = permissions ∧ context.size = size ∧ context.targetAddress = sourceAddress)
  let memory := if permissions ≠ permissionR then
      args.memory.copyBlock t.memory args.dstPid args.srcPid found.sourceAddress found.targetAddress size
    else t.memory
  let prevVMA ← unwrap ((t.srcVM.findVMA (subU32 pageStart pageSize)).bind t.srcVM.vmaMap.get?)
  let nextVMA ← unwrap ((t.srcVM.findVMA (addU32 pageStart (n * pageSize))).bind t.srcVM.vmaMap.get?)
  assert (prevVMA.meminfoState = .reserved ∧ nextVMA.meminfoState = .reserved)
  let (result, srcVM) ← unwrap (t.srcVM.unmapRange (subU32 pageStart pageSize) ((n + 2) * pageSize))
  assert (result = .success)
  return { t with
    memory := memory
    srcVM := srcVM
    mappedBufferContext := t.mappedBufferContext.erase found }

def reserveGuardPage (m : VMManager) (address : Nat) : Except Fault VMManager := do
  let (result, m) ← unwrap (m.changeMemoryState address pageSize .shared VMAPermission.readWrite .reserved
    VMAPermission.none)
  assert (result = .success)
  return m

/-- The `MappedBuffer` of a request: the pages are copied to a new buffer, which is mapped with two guard pages. -/
def translateMappedRequest (permissions size sourceAddress i : Nat) (t : Translation Obj M) :
    Except Fault (Translation Obj M) := do
  let pageOffset := sourceAddress % pageSize
  let bufferSize := (numPages sourceAddress size + 2) * pageSize
  let (buffer, memory) := args.memory.newBuffer t.memory bufferSize
  let data := args.memory.readBlock t.memory args.srcPid sourceAddress size
  let memory := args.memory.writeBuffer memory (buffer + pageSize + pageOffset) data
  match ← unwrap (t.dstVM.mapBackingMemoryToBase ipcMappingVaddr ipcMappingSize buffer bufferSize .shared) with
  | (.error _, _) => .error .assertion
  | (.ok lowGuardAddress, dstVM) =>
    let dstVM ← reserveGuardPage dstVM lowGuardAddress
    let dstVM ← reserveGuardPage dstVM (subU32 (addU32 lowGuardAddress bufferSize) pageSize)
    let targetAddress := addU32 (addU32 lowGuardAddress pageSize) pageOffset
    let cmdBuf ← put t.cmdBuf i (UInt32.ofNat targetAddress)
    return { t with
      cmdBuf := cmdBuf
      memory := memory
      dstVM := dstVM
      mappedBufferContext := t.mappedBufferContext ++ [⟨permissions, size, sourceAddress, targetAddress, buffer⟩] }

/-- The `MappedBuffer` of `TranslateCommandBuffer`. -/
def translateMappedBuffer (descriptor : UInt32) (i : Nat) (t : Translation Obj M) :
    Except Fault (Translation Obj M) := do
  assert (i < commandBufferLength)
  let sourceAddress := (t.cmdBuf i).toNat
  let size := mappedBufferSize descriptor
  if size = 0 then
    let cmdBuf ← put t.cmdBuf i 0
    return { t with cmdBuf := cmdBuf }
  else if args.reply then translateMappedReply args (mappedBufferPerms descriptor) size sourceAddress t
  else translateMappedRequest args (mappedBufferPerms descriptor) size sourceAddress i t

def translateCallingPid (i : Nat) (t : Translation Obj M) : Except Fault (Translation Obj M) := do
  let cmdBuf ← put t.cmdBuf i args.processId
  return { t with cmdBuf := cmdBuf }

def translateLoop (commandSize : Nat) : Nat → Nat → Translation Obj M → Except Fault (ResultCode × Translation Obj M)
  | 0, _, t => .ok (.success, t)
  | fuel + 1, i, t =>
    if i < commandSize then
      let descriptor := t.cmdBuf i
      match getDescriptorType descriptor with
      | .copyHandle | .moveHandle =>
        let numHandles := handleNumberFromDesc descriptor
        if i + 1 + numHandles > commandSize then .ok (.commandTooLarge, t)
        else do
          let t ← translateHandles args descriptor numHandles (i + 1) t
          translateLoop commandSize fuel (i + 1 + numHandles) t
      | .callingPid => do
        let t ← translateCallingPid args (i + 1) t
        translateLoop commandSize fuel (i + 2) t
      | .staticBuffer => do
        let t ← translateStaticBuffer args descriptor (i + 1) t
        translateLoop commandSize fuel (i + 2) t
      | .mappedBuffer => do
        let t ← translateMappedBuffer args descriptor (i + 1) t
        translateLoop commandSize fuel (i + 2) t
      | .pxiBuffer | .unnamed => translateLoop commandSize fuel (i + 1) t
    else .ok (.success, t)

def messageBytes (cmdBuf : CmdBuf) (size : Nat) : List UInt8 :=
  (List.range size).flatMap fun i => (List.range 4).map fun k => UInt8.ofNat ((cmdBuf i).toNat / 2 ^ (8 * k))

/-- `TranslateCommandBuffer`.  The words of `t.cmdBuf` are those that the source process has at the address of its
command buffer. -/
def translateCommandBuffer (t : Translation Obj M) : Except Fault (ResultCode × Translation Obj M) := do
  let size := commandSize t.cmdBuf
  assert (size ≤ commandBufferLength)
  match ← translateLoop args size size (untranslatedSize t.cmdBuf) t with
  | (.success, t) =>
    return (.success, { t with
      memory := args.memory.writeBlock t.memory args.dstPid args.dstAddress (messageBytes t.cmdBuf size) })
  | (e, t) => return (e, t)

end Translation

/-- What does not change while a message is taken. -/
structure PopulateArgs (Obj M Pid : Type) where
  memory : MemorySystem M Pid
  memoryState : M
  srcPid : Pid
  processId : UInt32
  srcCmdbuf : CmdBuf
  /-- The running thread and process of the kernel. -/
  current : Current Obj

/-- A `MappedBuffer` of an `HLERequestContext`. -/
structure MappedBuffer where
  descriptor : UInt32
  address : UInt32
  id : Nat
  deriving DecidableEq

/-- The handle table of the sender and the `request_handles` of an `HLERequestContext`. -/
structure Incoming (Obj : Type) where
  src : HandleTable Obj
  requestHandles : List (Option Obj)

/-- The `HLERequestContext` and the handle table of the sender. -/
structure RequestContext (Obj : Type) where
  cmdBuf : CmdBuf
  incoming : Incoming Obj
  staticBuffers : Nat → List UInt8
  requestMappedBuffers : List MappedBuffer

namespace RequestContext

variable {Obj M Pid : Type} (args : PopulateArgs Obj M Pid)

def addOutgoingHandle (src : HandleTable Obj) (requestHandles : List (Option Obj)) (object : Option Obj) :
    UInt32 × Incoming Obj :=
  (UInt32.ofNat requestHandles.length, ⟨src, requestHandles ++ [object]⟩)

def handleTurn (s : Incoming Obj) (descriptor : UInt32) (handle : Handle) : Except Fault (UInt32 × Incoming Obj) :=
  if handle ≠ 0 then
    match s.src.getGeneric args.current handle with
    | none => .error .assertion
    | some object =>
      let src := if descriptor = moveHandle then closeIgnored s.src handle else s.src
      .ok (addOutgoingHandle src s.requestHandles (some object))
  else .ok (addOutgoingHandle s.src s.requestHandles none)

def populateHandles (descriptor : UInt32) : Nat → Nat → RequestContext Obj → Except Fault (RequestContext Obj)
  | 0, _, c => .ok c
  | numHandles + 1, i, c => do
    let (word, incoming) ← handleTurn args c.incoming descriptor (args.srcCmdbuf i)
    let cmdBuf ← put c.cmdBuf i word
    populateHandles descriptor numHandles (i + 1) { c with cmdBuf := cmdBuf, incoming := incoming }

def putWord (c : RequestContext Obj) (i : Nat) (word : UInt32) : Except Fault (RequestContext Obj) := do
  let cmdBuf ← put c.cmdBuf i word
  return { c with cmdBuf := cmdBuf }

/-- The `StaticBuffer` of `PopulateFromIncomingCommandBuffer`. -/
def populateStaticBuffer (descriptor : UInt32) (i : Nat) (c : RequestContext Obj) : Except Fault (RequestContext Obj) :=
  let sourceAddress := args.srcCmdbuf i
  let data := args.memory.readBlock args.memoryState args.srcPid sourceAddress.toNat (staticBufferSize descriptor)
  putWord { c with staticBuffers := Function.update c.staticBuffers (staticBufferId descriptor) data } i sourceAddress

/-- The `MappedBuffer` of `PopulateFromIncomingCommandBuffer`. -/
def populateMappedBuffer (descriptor : UInt32) (i : Nat) (c : RequestContext Obj) : Except Fault (RequestContext Obj) :=
  let nextId := c.requestMappedBuffers.length
  let buffer : MappedBuffer := ⟨descriptor, args.srcCmdbuf i, nextId⟩
  putWord { c with requestMappedBuffers := c.requestMappedBuffers ++ [buffer] } i (UInt32.ofNat nextId)

def populateLoop (commandSize : Nat) : Nat → Nat → RequestContext Obj → Except Fault (RequestContext Obj)
  | 0, _, c => .ok c
  | fuel + 1, i, c =>
    if i < commandSize then do
      let descriptor := args.srcCmdbuf i
      let c ← c.putWord i descriptor
      match getDescriptorType descriptor with
      | .copyHandle | .moveHandle =>
        let numHandles := handleNumberFromDesc descriptor
        assert (i + 1 + numHandles ≤ commandSize)
        let c ← populateHandles args descriptor numHandles (i + 1) c
        populateLoop commandSize fuel (i + 1 + numHandles) c
      | .callingPid =>
        let c ← c.putWord (i + 1) args.processId
        populateLoop commandSize fuel (i + 2) c
      | .staticBuffer =>
        let c ← populateStaticBuffer args descriptor (i + 1) c
        populateLoop commandSize fuel (i + 2) c
      | .mappedBuffer =>
        let c ← populateMappedBuffer args descriptor (i + 1) c
        populateLoop commandSize fuel (i + 2) c
      | .pxiBuffer | .unnamed => populateLoop commandSize fuel (i + 1) c
    else .ok c

def populateFromIncomingCommandBuffer (c : RequestContext Obj) : Except Fault (ResultCode × RequestContext Obj) := do
  let size := commandSize args.srcCmdbuf
  assert (size ≤ commandBufferLength)
  let untranslated := untranslatedSize args.srcCmdbuf
  let cmdBuf : CmdBuf := fun i => if i < untranslated then args.srcCmdbuf i else c.cmdBuf i
  let c ← populateLoop args size size untranslated { c with cmdBuf := cmdBuf }
  return (.success, c)

end RequestContext

structure WriteArgs (Obj M Pid : Type) where
  memory : MemorySystem M Pid
  dstPid : Pid
  context : RequestContext Obj

/-- The words at the command buffer of the client, which the static buffers follow, with its handle table. -/
structure Outgoing (Obj M : Type) where
  dstCmdbuf : CmdBuf
  dst : HandleTable Obj
  memory : M

namespace Outgoing

variable {Obj M Pid : Type} (args : WriteArgs Obj M Pid)

def getIncomingHandle (idFromCmdbuf : UInt32) : Except Fault (Option Obj) :=
  unwrap (args.context.incoming.requestHandles[idFromCmdbuf.toNat]?)

def putWord (o : Outgoing Obj M) (i : Nat) (word : UInt32) : Outgoing Obj M :=
  { o with dstCmdbuf := Function.update o.dstCmdbuf i word }

def handleTurn (o : Outgoing Obj M) (i : Nat) : Except Fault (Outgoing Obj M) := do
  match ← getIncomingHandle args (args.context.cmdBuf i) with
  | none => return o.putWord i 0
  | some object =>
    match o.dst.create object with
    | .ok (handle, dst) => return { o with dst := dst }.putWord i handle
    | .error _ => .error .assertion

def writeHandles : Nat → Nat → Outgoing Obj M → Except Fault (Outgoing Obj M)
  | 0, _, o => .ok o
  | numHandles + 1, i, o => do
    let o ← handleTurn args o i
    writeHandles numHandles (i + 1) o

/-- The `StaticBuffer` of `WriteToOutgoingCommandBuffer`. -/
def writeStaticBuffer (descriptor : UInt32) (i : Nat) (o : Outgoing Obj M) : Except Fault (Outgoing Obj M) := do
  let data := args.context.staticBuffers (staticBufferId descriptor)
  let offset := commandBufferLength + 2 * staticBufferId descriptor
  let targetAddress := o.dstCmdbuf (offset + 1)
  assert (staticBufferSize (o.dstCmdbuf offset) ≥ data.length)
  return { o with memory := args.memory.writeBlock o.memory args.dstPid targetAddress.toNat data }.putWord i targetAddress

/-- The `MappedBuffer` of `WriteToOutgoingCommandBuffer`. -/
def writeMappedBuffer (i : Nat) (o : Outgoing Obj M) : Except Fault (Outgoing Obj M) := do
  assert (i < commandBufferLength)
  let buffer ← unwrap (args.context.requestMappedBuffers[(args.context.cmdBuf i).toNat]?)
  return o.putWord i buffer.address

/-- The loop over the descriptors.  Unknown descriptors, `CallingPid` among them, are skipped. -/
def writeLoop (commandSize : Nat) : Nat → Nat → Outgoing Obj M → Except Fault (Outgoing Obj M)
  | 0, _, o => .ok o
  | fuel + 1, i, o =>
    if i < commandSize then
      let descriptor := args.context.cmdBuf i
      let o := o.putWord i descriptor
      match getDescriptorType descriptor with
      | .copyHandle | .moveHandle => do
        let numHandles := handleNumberFromDesc descriptor
        assert (i + 1 + numHandles ≤ commandSize)
        let o ← writeHandles args numHandles (i + 1) o
        writeLoop commandSize fuel (i + 1 + numHandles) o
      | .staticBuffer => do
        let o ← writeStaticBuffer args descriptor (i + 1) o
        writeLoop commandSize fuel (i + 2) o
      | .mappedBuffer => do
        let o ← writeMappedBuffer args (i + 1) o
        writeLoop commandSize fuel (i + 2) o
      | .callingPid | .pxiBuffer | .unnamed => writeLoop commandSize fuel (i + 1) o
    else .ok o

def writeToOutgoingCommandBuffer (o : Outgoing Obj M) : Except Fault (ResultCode × Outgoing Obj M) := do
  let size := commandSize args.context.cmdBuf
  assert (size ≤ commandBufferLength)
  let untranslated := untranslatedSize args.context.cmdBuf
  let dstCmdbuf : CmdBuf := fun i => if i < untranslated then args.context.cmdBuf i else o.dstCmdbuf i
  let o ← writeLoop args size size untranslated { o with dstCmdbuf := dstCmdbuf }
  return (.success, o)

end Outgoing

end SweepDSEmu
