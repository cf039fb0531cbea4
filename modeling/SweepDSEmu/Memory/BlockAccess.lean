import SweepDSEmu.Memory.PageTableConsistency
import SweepDSEmu.Lib.ByteOrder

/-!
# Accesses to the memory of a process

`Read` and `Write` of one number, which find the page of its first byte, and `ReadBlock`, `WriteBlock`, `ZeroBlock` and
`CopyBlock`, which go page by page.

* The rasterizer has data that it has not written to memory: `rendered`.  A flush writes the data of a region, and an
  invalidation drops it.  What else the rasterizer does then, to page tables among other things, is left out.
* What the registers of the GPU do is a parameter.
-/

namespace SweepDSEmu.Memory

inductive FlushMode where
  | flush
  | invalidate
  deriving DecidableEq

structure HostMemory where
  bytes : BackingMem → Nat → UInt8
  rendered : BackingMem → Nat → Option UInt8

inductive AccessFault where
  | fault (fault : MemoryFault)
  | nullPointer
  | pageIndex
  deriving DecidableEq

structure Gpu where
  readReg : Nat → Nat
  writeReg : Nat → Nat → HostMemory → HostMemory

def MemoryRef.advance (r : MemoryRef) (count : Nat) : MemoryRef := { r with offset := r.offset + count }

namespace HostMemory

def load (m : HostMemory) (start : MemoryRef) (count : Nat) : List UInt8 :=
  (List.range count).map fun i => m.bytes start.backingMem (start.offset + i)

def store (m : HostMemory) (start : MemoryRef) (data : List UInt8) : HostMemory :=
  { m with
    bytes := fun backingMem offset =>
      if backingMem = start.backingMem ∧ start.offset ≤ offset then
        (data[offset - start.offset]?).getD (m.bytes backingMem offset)
      else m.bytes backingMem offset }

def InVirtualRegion (pluginFb start size : Nat) (backingMem : BackingMem) (offset : Nat) : Prop :=
  ∃ i < size, (getPointerForRasterizerCache pluginFb (start + i)).toOption = some ⟨backingMem, offset⟩

instance (pluginFb start size : Nat) (backingMem : BackingMem) (offset : Nat) :
    Decidable (InVirtualRegion pluginFb start size backingMem offset) :=
  inferInstanceAs (Decidable (∃ i < size, _))

def flushVirtualRegion (m : HostMemory) (pluginFb start size : Nat) (mode : FlushMode) : HostMemory where
  bytes backingMem offset :=
    if mode = .flush ∧ InVirtualRegion pluginFb start size backingMem offset then
      (m.rendered backingMem offset).getD (m.bytes backingMem offset)
    else m.bytes backingMem offset
  rendered backingMem offset :=
    if InVirtualRegion pluginFb start size backingMem offset then none else m.rendered backingMem offset

end HostMemory

/-- Where an access finds its first byte. -/
inductive Place where
  | unmapped
  | host (start : MemoryRef) (cached : Bool)
  | register (addr : Nat)
  deriving DecidableEq

namespace PageTable

variable (t : PageTable) (pluginFb : Nat)

/-- The switch over the type of a page in the functions for blocks. -/
def placeBlock (page offset : Nat) : Except AccessFault Place :=
  match t.attributes page with
  | .unmapped => .ok .unmapped
  | .memory =>
    match t.pointers page with
    | some pointer => .ok (.host (pointer.advance offset) false)
    | none => .error .nullPointer
  | .memoryWatchpoint =>
    match t.watchpointPagesMap page with
    | some ⟨_, some memory⟩ => .ok (.host (memory.advance offset) false)
    | some ⟨_, none⟩ => .error .nullPointer
    | none => .error (.fault .assertion)
  | .rasterizerCachedMemory | .rasterizerCachedMemoryWatchpoint =>
    match getPointerForRasterizerCache pluginFb (page * pageSize + offset) with
    | .ok pointer => .ok (.host pointer true)
    | .error e => .error (.fault e)

/-- Where `Read` and `Write` go: to the page's pointer, past the page table, or by the type of the page. -/
def placeScalar (vaddr : Nat) : Except AccessFault Place :=
  match t.pointers (vaddr / pageSize) with
  | some pointer => .ok (.host (pointer.advance (vaddr % pageSize)) false)
  | none =>
    let paddr := vaddr % 2 ^ 31
    if vaddr / 2 ^ 31 % 2 = 1 ∧ paddr / 2 ^ 28 = 2 then .ok (.host ⟨.fcram, paddr - fcramPaddr⟩ false)
    else if vaddr / 2 ^ 31 % 2 = 1 ∧ paddr / 2 ^ 28 = 1 ∧ ioAreaPaddr ≤ paddr then .ok (.register (paddr - ioAreaPaddr + 0x1EC00000))
    else if t.attributes (vaddr / pageSize) = .memory then .error (.fault .assertion)
    else t.placeBlock pluginFb (vaddr / pageSize) (vaddr % pageSize)

def read (gpu : Gpu) (vaddr width : Nat) (m : HostMemory) : Except AccessFault (Nat × HostMemory) :=
  match t.placeScalar pluginFb vaddr with
  | .error e => .error e
  | .ok .unmapped => .ok (0, m)
  | .ok (.host start cached) =>
    let m := if cached then m.flushVirtualRegion pluginFb vaddr width .flush else m
    .ok (ofLittleEndian (m.load start width), m)
  | .ok (.register addr) => .ok (gpu.readReg addr % 256 ^ width, m)

def write (gpu : Gpu) (vaddr width data : Nat) (m : HostMemory) : Except AccessFault HostMemory :=
  match t.placeScalar pluginFb vaddr with
  | .error e => .error e
  | .ok .unmapped => .ok m
  | .ok (.host start cached) =>
    let m := if cached then m.flushVirtualRegion pluginFb vaddr width .invalidate else m
    .ok (m.store start (toLittleEndian width data))
  | .ok (.register addr) => if width = 4 then .ok (gpu.writeReg addr data m) else .error (.fault .assertion)

def overPages {σ : Type*} (turn : Nat → Nat → Nat → σ → Except AccessFault σ) :
    Nat → Nat → Nat → Nat → σ → Except AccessFault σ
  | 0, _, _, _, s => .ok s
  | turns + 1, page, offset, remaining, s =>
    if remaining = 0 then .ok s
    else if pageTableNumEntries ≤ page then .error .pageIndex
    else
      let copyAmount := min (pageSize - offset) remaining
      match turn page offset copyAmount s with
      | .error e => .error e
      | .ok s => overPages turn turns (page + 1) 0 (remaining - copyAmount) s

/-- A page of `ReadBlock`; what was read is in front. -/
def readPage (page offset copyAmount : Nat) (s : List UInt8 × HostMemory) :
    Except AccessFault (List UInt8 × HostMemory) :=
  match t.placeBlock pluginFb page offset with
  | .error e => .error e
  | .ok (.host start cached) =>
    let m := if cached then s.2.flushVirtualRegion pluginFb (page * pageSize + offset) copyAmount .flush else s.2
    .ok (s.1 ++ m.load start copyAmount, m)
  | .ok _ => .ok (s.1 ++ List.replicate copyAmount 0, s.2)

def readBlock (addr size : Nat) (m : HostMemory) : Except AccessFault (List UInt8 × HostMemory) :=
  overPages (t.readPage pluginFb) size (addr / pageSize) (addr % pageSize) size ([], m)

/-- A page of `WriteBlock`, from a source that may be memory of the host; how much was written is in front. -/
def writePage (source : HostMemory → Nat → UInt8) (page offset copyAmount : Nat) (s : Nat × HostMemory) :
    Except AccessFault (Nat × HostMemory) :=
  match t.placeBlock pluginFb page offset with
  | .error e => .error e
  | .ok (.host start cached) =>
    let m :=
      if cached then s.2.flushVirtualRegion pluginFb (page * pageSize + offset) copyAmount .invalidate else s.2
    .ok (s.1 + copyAmount, m.store start ((List.range copyAmount).map fun i => source m (s.1 + i)))
  | .ok _ => .ok (s.1 + copyAmount, s.2)

def writeBlock (addr : Nat) (source : HostMemory → Nat → UInt8) (size : Nat) (m : HostMemory) :
    Except AccessFault HostMemory :=
  (overPages (t.writePage pluginFb source) size (addr / pageSize) (addr % pageSize) size (0, m)).map Prod.snd

/-- `ZeroBlock`, which is `WriteBlock` with zeros. -/
def zeroBlock (addr size : Nat) (m : HostMemory) : Except AccessFault HostMemory :=
  t.writeBlock pluginFb addr (fun _ _ => 0) size m

/-- A page of `CopyBlock`; the address to copy to is in front. -/
def copyPage (dest : PageTable) (page offset copyAmount : Nat) (s : Nat × HostMemory) :
    Except AccessFault (Nat × HostMemory) :=
  match t.placeBlock pluginFb page offset with
  | .error e => .error e
  | .ok (.host start cached) =>
    let m := if cached then s.2.flushVirtualRegion pluginFb (page * pageSize + offset) copyAmount .flush else s.2
    (dest.writeBlock pluginFb s.1 (fun m i => m.bytes start.backingMem (start.offset + i)) copyAmount m).map fun m =>
      ((s.1 + copyAmount) % 2 ^ 32, m)
  | .ok _ => (dest.zeroBlock pluginFb s.1 copyAmount s.2).map fun m => ((s.1 + copyAmount) % 2 ^ 32, m)

def copyBlock (dest : PageTable) (destAddr srcAddr size : Nat) (m : HostMemory) : Except AccessFault HostMemory :=
  (overPages (t.copyPage pluginFb dest) size (srcAddr / pageSize) (srcAddr % pageSize) size (destAddr, m)).map Prod.snd

end PageTable

end SweepDSEmu.Memory
