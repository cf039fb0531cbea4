import SweepDSEmu.Kernel.VMManager

/-!
# Page tables

The page tables of the processes, the marker of rasterizer-cached pages, and the functions of `MemorySystem` that
change them or look a page up.  Arrays over the pages are functions of the page index.

* A pointer is the reference that it was made from; `none` is the null pointer.
* What the rasterizer does when a region is flushed is left out.  It only calls back `rasterizerMarkRegionCached`.
* The address of the framebuffer of a 3GX plugin does not change.
-/

namespace SweepDSEmu.Memory

inductive PageType where
  | unmapped
  | memory
  | rasterizerCachedMemory
  | memoryWatchpoint
  | rasterizerCachedMemoryWatchpoint
  deriving DecidableEq

/-- What ends the emulation, and a loop that does not end. -/
inductive MemoryFault where
  | assertion
  | unreachable
  | neverReturns
  deriving DecidableEq

def vramPaddr : Nat := 0x18000000
def vramSize : Nat := 0x00600000
def fcramPaddr : Nat := 0x20000000
def fcramSize : Nat := 0x08000000
def fcramN3dsSize : Nat := 0x10000000
def ioAreaPaddr : Nat := 0x10100000
def linearHeapVaddr : Nat := 0x14000000
def linearHeapSize : Nat := 0x08000000
def vramVaddr : Nat := 0x1F000000
def newLinearHeapVaddr : Nat := 0x30000000
def newLinearHeapSize : Nat := 0x10000000
def plugin3gxFbVaddr : Nat := 0x06000000
def plugin3gxFbSize : Nat := 0x000A9000

def pageTableNumEntries : Nat := 2 ^ 20

def InRegion (start size addr : Nat) : Prop := start ≤ addr ∧ addr < start + size

instance (start size addr : Nat) : Decidable (InRegion start size addr) := inferInstanceAs (Decidable (_ ∧ _))

inductive BackingMem where
  | fcram
  | vram
  | buffer (id size : Nat)
  deriving DecidableEq

def BackingMem.getSize : BackingMem → Nat
  | .fcram => fcramN3dsSize
  | .vram => vramSize
  | .buffer _ size => size

structure MemoryRef where
  backingMem : BackingMem
  offset : Nat
  deriving DecidableEq

namespace MemoryRef

def getSize (r : MemoryRef) : Nat := r.backingMem.getSize - r.offset

def make (backingMem : BackingMem) (offset : Nat) : Except MemoryFault MemoryRef :=
  if offset ≤ backingMem.getSize then .ok ⟨backingMem, offset⟩ else .error .assertion

end MemoryRef

/-- `RasterizerCacheMarker` has an entry for the page. -/
def HasMarker (vaddr : Nat) : Prop :=
  InRegion vramVaddr vramSize vaddr ∨ InRegion linearHeapVaddr linearHeapSize vaddr ∨
    InRegion newLinearHeapVaddr newLinearHeapSize vaddr ∨ InRegion plugin3gxFbVaddr plugin3gxFbSize vaddr

instance : DecidablePred HasMarker := fun _ => inferInstanceAs (Decidable (_ ∨ _ ∨ _ ∨ _))

structure RasterizerCacheMarker where
  entries : Nat → Bool

namespace RasterizerCacheMarker

def mark (m : RasterizerCacheMarker) (vaddr : Nat) (cached : Bool) : RasterizerCacheMarker :=
  if HasMarker vaddr then ⟨Function.update m.entries (vaddr / pageSize) cached⟩ else m

def isCached (m : RasterizerCacheMarker) (vaddr : Nat) : Bool :=
  if HasMarker vaddr then m.entries (vaddr / pageSize) else false

end RasterizerCacheMarker

structure WatchpointPageInfo where
  watchpointCount : Nat
  memory : Option MemoryRef
  deriving DecidableEq

structure PageTable where
  attributes : Nat → PageType
  pointers : Nat → Option MemoryRef
  watchpointPagesMap : Nat → Option WatchpointPageInfo

def PageTable.clear : PageTable := ⟨fun _ => .unmapped, fun _ => none, fun _ => none⟩

/-- `GetPointerForRasterizerCache`, for a framebuffer of a plugin at `pluginFb`. -/
def getPointerForRasterizerCache (pluginFb addr : Nat) : Except MemoryFault MemoryRef :=
  if InRegion linearHeapVaddr linearHeapSize addr then MemoryRef.make .fcram (addr - linearHeapVaddr)
  else if InRegion newLinearHeapVaddr newLinearHeapSize addr then MemoryRef.make .fcram (addr - newLinearHeapVaddr)
  else if InRegion vramVaddr vramSize addr then MemoryRef.make .vram (addr - vramVaddr)
  else if InRegion plugin3gxFbVaddr plugin3gxFbSize addr ∧ pluginFb ≠ 0 then
    MemoryRef.make .fcram (addr - plugin3gxFbVaddr + pluginFb - fcramPaddr)
  else .error .unreachable

namespace PageTable

def set (t : PageTable) (page : Nat) (type : PageType) (pointer : Option MemoryRef) : PageTable :=
  { t with
    attributes := Function.update t.attributes page type
    pointers := Function.update t.pointers page pointer }

def setWatchpoint (t : PageTable) (page : Nat) (info : Option WatchpointPageInfo) : PageTable :=
  { t with watchpointPagesMap := Function.update t.watchpointPagesMap page info }

/-- A turn of the loop of `RegisterWatchpoint`.  A page that is not mapped is tried again and again. -/
def registerPage (pluginFb page : Nat) (t : PageTable) : Except MemoryFault PageTable :=
  match t.watchpointPagesMap page with
  | some info => .ok (t.setWatchpoint page (some { info with watchpointCount := addU32 info.watchpointCount 1 }))
  | none =>
    match t.attributes page with
    | .memory => .ok ((t.set page .memoryWatchpoint none).setWatchpoint page (some ⟨1, t.pointers page⟩))
    | .rasterizerCachedMemory => do
      let mem ← getPointerForRasterizerCache pluginFb (page * pageSize)
      .ok ((t.set page .rasterizerCachedMemoryWatchpoint (t.pointers page)).setWatchpoint page (some ⟨1, some mem⟩))
    | _ => .error .neverReturns

/-- A turn of the loop of `UnregisterWatchpoint`. -/
def unregisterPage (page : Nat) (t : PageTable) : Except MemoryFault PageTable :=
  match t.watchpointPagesMap page with
  | some info =>
    let watchpointCount := (info.watchpointCount + (2 ^ 32 - 1)) % 2 ^ 32
    if watchpointCount = 0 then
      let t := t.setWatchpoint page none
      match t.attributes page with
      | .memoryWatchpoint => .ok (t.set page .memory info.memory)
      | .rasterizerCachedMemoryWatchpoint => .ok (t.set page .rasterizerCachedMemory (t.pointers page))
      | _ => .ok t
    else .ok (t.setWatchpoint page (some { info with watchpointCount }))
  | none => .ok t

/-- The loop over the pages of `[current, stop)`.  A loop that makes more turns than there are pages has gone round. -/
def watchpointLoop (turn : Nat → PageTable → Except MemoryFault PageTable) (stop : Nat) :
    Nat → Nat → PageTable → Except MemoryFault PageTable
  | 0, _, _ => .error .neverReturns
  | fuel + 1, current, t =>
    if current < stop then do
      let t ← turn (current / pageSize) t
      watchpointLoop turn stop fuel (addU32 (current / pageSize * pageSize) pageSize) t
    else .ok t

def registerWatchpoint (t : PageTable) (pluginFb addr size : Nat) : Except MemoryFault PageTable :=
  watchpointLoop (registerPage pluginFb) (addU32 addr size) (pageTableNumEntries + 1) addr t

def unregisterWatchpoint (t : PageTable) (addr size : Nat) : Except MemoryFault PageTable :=
  watchpointLoop unregisterPage (addU32 addr size) (pageTableNumEntries + 1) addr t

def nextPage (memory : Option MemoryRef) : Option MemoryRef :=
  memory.map fun r => if r.getSize > pageSize then { r with offset := r.offset + pageSize } else r

def mapPages (marker : RasterizerCacheMarker) (type : PageType) :
    Nat → Nat → Option MemoryRef → PageTable → Except MemoryFault PageTable
  | 0, _, _, t => .ok t
  | size + 1, base, memory, t =>
    if base < pageTableNumEntries then
      let t := if type = .memory ∧ marker.isCached (base * pageSize) then t.set base .rasterizerCachedMemory none
        else t.set base type memory
      mapPages marker type size (base + 1) (nextPage memory) t
    else .error .assertion

def mapRegion (marker : RasterizerCacheMarker) (base size : Nat) (memory : Option MemoryRef) (type : PageType)
    (t : PageTable) : Except MemoryFault PageTable :=
  if size % pageSize ≠ 0 ∨ base % pageSize ≠ 0 then .error .assertion
  else mapPages marker type (size / pageSize) (base / pageSize) memory t

def mapMemoryRegion (t : PageTable) (marker : RasterizerCacheMarker) (base size : Nat) (target : Option MemoryRef) :
    Except MemoryFault PageTable :=
  mapRegion marker base size target .memory t

def unmapRegion (t : PageTable) (marker : RasterizerCacheMarker) (base size : Nat) : Except MemoryFault PageTable :=
  mapRegion marker base size none .unmapped t

/-- What `RasterizerMarkRegionCached` does to a page of a page table. -/
def markPage (pluginFb vaddr : Nat) (cached : Bool) (t : PageTable) : Except MemoryFault PageTable :=
  let page := vaddr / pageSize
  match cached, t.attributes page with
  | _, .unmapped => .ok t
  | true, .memory => .ok (t.set page .rasterizerCachedMemory none)
  | true, .memoryWatchpoint => .ok (t.set page .rasterizerCachedMemoryWatchpoint none)
  | false, .rasterizerCachedMemory => do
    let pointer ← getPointerForRasterizerCache pluginFb (page * pageSize)
    .ok (t.set page .memory (some pointer))
  | false, .rasterizerCachedMemoryWatchpoint => .ok (t.set page .memoryWatchpoint (t.pointers page))
  | _, _ => .error .unreachable

inductive Target where
  | memory (pointer : MemoryRef)
  | unmapped
  | fcramAlias (offset : Nat)
  | register (paddr : Nat)
  deriving DecidableEq

/-- The switch over the type of a page without a pointer, in `Read`, `Write` and `WriteExclusive`. -/
def slowAccess (t : PageTable) (pluginFb vaddr : Nat) : Except MemoryFault Target :=
  match t.attributes (vaddr / pageSize) with
  | .unmapped => .ok .unmapped
  | .memory => .error .assertion
  | .memoryWatchpoint =>
    match t.watchpointPagesMap (vaddr / pageSize) with
    | some ⟨_, some memory⟩ => .ok (.memory memory)
    | _ => .error .assertion
  | .rasterizerCachedMemory | .rasterizerCachedMemoryWatchpoint => do
    let pointer ← getPointerForRasterizerCache pluginFb vaddr
    .ok (.memory pointer)

/-- `Read` and `Write`.  Addresses with bit 31 set bypass the page table for FCRAM and the registers. -/
def access (t : PageTable) (pluginFb vaddr : Nat) : Except MemoryFault Target :=
  match t.pointers (vaddr / pageSize) with
  | some pointer => .ok (.memory pointer)
  | none =>
    let paddr := vaddr % 2 ^ 31
    if vaddr / 2 ^ 31 % 2 = 1 ∧ paddr / 2 ^ 28 = 2 then .ok (.fcramAlias (paddr - fcramPaddr))
    else if vaddr / 2 ^ 31 % 2 = 1 ∧ paddr / 2 ^ 28 = 1 ∧ ioAreaPaddr ≤ paddr then .ok (.register paddr)
    else t.slowAccess pluginFb vaddr

def accessExclusive (t : PageTable) (pluginFb vaddr : Nat) : Except MemoryFault Target :=
  match t.pointers (vaddr / pageSize) with
  | some pointer => .ok (.memory pointer)
  | none => t.slowAccess pluginFb vaddr

def accessBlock (t : PageTable) (pluginFb vaddr : Nat) : Except MemoryFault Target :=
  match t.attributes (vaddr / pageSize) with
  | .memory =>
    match t.pointers (vaddr / pageSize) with
    | some pointer => .ok (.memory pointer)
    | none => .error .assertion
  | _ => t.slowAccess pluginFb vaddr

end PageTable

structure MemorySystem where
  pageTableList : List PageTable
  cacheMarker : RasterizerCacheMarker
  pluginFbAddress : Nat

namespace MemorySystem

def physicalToVirtualAddressForRasterizer (pluginFb addr : Nat) : List Nat :=
  if InRegion vramPaddr vramSize addr then [addr - vramPaddr + vramVaddr]
  else if pluginFb ≠ 0 ∧ InRegion pluginFb plugin3gxFbSize addr then [addr - pluginFb + plugin3gxFbVaddr]
  else if InRegion fcramPaddr fcramSize addr then
    [addr - fcramPaddr + linearHeapVaddr, addr - fcramPaddr + newLinearHeapVaddr]
  else if InRegion (fcramPaddr + fcramSize) (fcramN3dsSize - fcramSize) addr then
    [addr - fcramPaddr + newLinearHeapVaddr]
  else []

/-- The virtual addresses that `RasterizerMarkRegionCached` goes through. -/
def cachedVaddrs (pluginFb start size : Nat) : List Nat :=
  let numPages := ((start + size + (2 ^ 32 - 1)) % 2 ^ 32 / pageSize + 2 ^ 32 - start / pageSize + 1) % 2 ^ 32
  if start = 0 then []
  else (List.range numPages).flatMap fun i =>
    physicalToVirtualAddressForRasterizer pluginFb ((start + i * pageSize) % 2 ^ 32)

/-- One turn of the loops of `RasterizerMarkRegionCached`: the marker and every page table. -/
def markVaddr (cached : Bool) (s : MemorySystem) (vaddr : Nat) : Except MemoryFault MemorySystem := do
  let pageTableList ← s.pageTableList.mapM (PageTable.markPage s.pluginFbAddress vaddr cached)
  .ok { s with pageTableList := pageTableList, cacheMarker := s.cacheMarker.mark vaddr cached }

def rasterizerMarkRegionCached (s : MemorySystem) (start size : Nat) (cached : Bool) :
    Except MemoryFault MemorySystem :=
  (cachedVaddrs s.pluginFbAddress start size).foldlM (markVaddr cached) s

/-- The functions that change page tables.  A page table is given by its position in the list. -/
inductive Op where
  | mapMemoryRegion (table base size : Nat) (target : MemoryRef)
  | unmapRegion (table base size : Nat)
  | rasterizerMarkRegionCached (start size : Nat) (cached : Bool)
  | registerWatchpoint (table addr size : Nat)
  | unregisterWatchpoint (table addr size : Nat)

def onTable (s : MemorySystem) (table : Nat) (f : PageTable → Except MemoryFault PageTable) :
    Except MemoryFault MemorySystem :=
  match s.pageTableList[table]? with
  | none => .ok s
  | some t => do
    let t ← f t
    .ok { s with pageTableList := s.pageTableList.set table t }

def exec (s : MemorySystem) : Op → Except MemoryFault MemorySystem
  | .mapMemoryRegion table base size target =>
    s.onTable table fun t => t.mapMemoryRegion s.cacheMarker base size (some target)
  | .unmapRegion table base size => s.onTable table fun t => t.unmapRegion s.cacheMarker base size
  | .rasterizerMarkRegionCached start size cached => s.rasterizerMarkRegionCached start size cached
  | .registerWatchpoint table addr size => s.onTable table fun t => t.registerWatchpoint s.pluginFbAddress addr size
  | .unregisterWatchpoint table addr size => s.onTable table fun t => t.unregisterWatchpoint addr size

end MemorySystem

end SweepDSEmu.Memory
