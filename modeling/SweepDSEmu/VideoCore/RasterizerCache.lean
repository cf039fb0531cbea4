import SweepDSEmu.Lib.IntervalMap
import SweepDSEmu.Lib.IntervalSet
import SweepDSEmu.Lib.SlotVector
import SweepDSEmu.Memory.PageTable

/-!
# The rasterizer cache

The surfaces of the cache and the structures that keep track of them: the slots, the page table, the pages that are
marked in memory, the regions that the GPU has written and the surfaces that wait for their removal.

* Pixel data is left out.  `downloads` lists what was written back to memory.
* Which surface can stand for a rectangle of another one, and in which pieces `ValidateSurface` validates a region,
  depend on the layout of the pixels.  They are arguments here, of any value.
* Texture cubes, custom textures and samplers are left out.
* A hash map is walked in an order that is an argument.
-/

namespace SweepDSEmu.VideoCore

open Memory (RasterizerCacheMarker)

inductive CacheFault where
  /-- A slot without a surface is read. -/
  | freedSurface
  /-- `IsFullyInvalid` reads the end of `invalid_regions`. -/
  | emptyRange
  | alreadyRegistered
  | alreadyUnregistered
  | unregisteredPage
  | unregisteredSurface
  | negativeCount
  /-- The assertions on the owner in `InvalidateRegion`. -/
  | regionOwner
  /-- "Region owner has invalid regions". -/
  | ownerInvalidRegions
  /-- "Attempted to validate a non-valid fill surface". -/
  | invalidFill
  /-- The assertions of `GetSurface` and `UpdateParams`. -/
  | surfaceShape
  /-- "Texture cube face levels are not enough to validate the levels requested". -/
  | faceLevels
  /-- "Surface is not suitable for custom upload, aborting!". -/
  | notCustom
  | neverReturns
  deriving DecidableEq

inductive SurfaceType where
  | color
  | texture
  | depth
  | depthStencil
  | fill
  | invalid
  deriving DecidableEq

inductive TextureType where
  | texture2D
  | cubeMap
  deriving DecidableEq

inductive PixelFormat where
  | rgba8
  | rgb8
  | rgb5a1
  | rgb565
  | rgba4
  | ia8
  | rg8
  | i8
  | a8
  | ia4
  | i4
  | a4
  | etc1
  | etc1a4
  | d16
  | d24
  | d24s8
  | invalid
  deriving DecidableEq

inductive CustomPixelFormat where
  | rgba8
  | bc1
  | bc3
  | bc5
  | bc7
  | astc4
  | astc6
  | astc8
  | invalid
  deriving DecidableEq

/-- An entry of `FORMAT_MAP`: the type and `bits_per_block`.  An invalid format has none. -/
def formatInfo : PixelFormat → Option (SurfaceType × Nat)
  | .rgba8 => some (.color, 32)
  | .rgb8 => some (.color, 24)
  | .rgb5a1 | .rgb565 | .rgba4 => some (.color, 16)
  | .ia8 | .rg8 => some (.texture, 16)
  | .i8 | .a8 | .ia4 | .etc1a4 => some (.texture, 8)
  | .i4 | .a4 | .etc1 => some (.texture, 4)
  | .d16 => some (.depth, 16)
  | .d24 => some (.depth, 24)
  | .d24s8 => some (.depthStencil, 32)
  | .invalid => none

def mulU32 (a b : Nat) : Nat := a * b % 2 ^ 32

def subU32 (a b : Nat) : Nat := (a + 2 ^ 32 - b) % 2 ^ 32

def maxPicaLevels : Nat := 8

structure SurfaceParams where
  addr : Nat := 0
  size : Nat := 0
  width : Nat := 0
  height : Nat := 0
  stride : Nat := 0
  levels : Nat := 1
  resScale : Nat := 1
  isTiled : Bool := false
  textureType : TextureType := .texture2D
  pixelFormat : PixelFormat := .invalid
  customFormat : CustomPixelFormat := .invalid
  type : SurfaceType := .invalid
  deriving DecidableEq

namespace SurfaceParams

/-- The member `end`, which is always `addr + size`. -/
def endAddr (params : SurfaceParams) : Nat := addU32 params.addr params.size

def same (params other : SurfaceParams) : Prop :=
  params.addr = other.addr ∧ params.endAddr = other.endAddr ∧ params.width = other.width ∧
    params.height = other.height ∧ params.stride = other.stride ∧ params.levels = other.levels ∧
    params.isTiled = other.isTiled ∧ params.textureType = other.textureType ∧
    params.pixelFormat = other.pixelFormat ∧ params.customFormat = other.customFormat

instance (params other : SurfaceParams) : Decidable (params.same other) := inferInstanceAs (Decidable (_ ∧ _))

def exactMatch (params other : SurfaceParams) : Prop :=
  other.addr = params.addr ∧ other.width = params.width ∧ other.height = params.height ∧
    other.stride = params.stride ∧ other.pixelFormat = params.pixelFormat ∧ other.isTiled = params.isTiled ∧
    params.pixelFormat ≠ .invalid ∧ params.levels ≥ other.levels

instance (params other : SurfaceParams) : Decidable (params.exactMatch other) := inferInstanceAs (Decidable (_ ∧ _))

def bytesInPixels (bpp pixels : Nat) : Nat := mulU32 pixels bpp / 8

def calculateSurfaceSize (bpp : Nat) : Nat → Nat → Nat → Nat → Nat
  | 0, _, _, size => size
  | levels + 1, width, height, size =>
    calculateSurfaceSize bpp levels (width / 2) (height / 2) (addU32 size (bytesInPixels bpp (mulU32 width height)))

def updateParams (params : SurfaceParams) : Except CacheFault SurfaceParams :=
  let stride := if params.stride = 0 then params.width else params.stride
  match formatInfo params.pixelFormat with
  | none => .error .surfaceShape
  | some (type, bpp) =>
    if params.levels ≠ 1 then
      if stride = params.width ∧ params.levels ≤ maxPicaLevels then
        .ok { params with
          stride := stride
          type := type
          size := calculateSurfaceSize bpp params.levels params.width params.height 0 }
      else .error .surfaceShape
    else
      let size :=
        if !params.isTiled then
          bytesInPixels bpp (addU32 (mulU32 stride (subU32 params.height 1)) params.width)
        else
          bytesInPixels bpp
            (addU32 (mulU32 (mulU32 stride 8) (subU32 (params.height / 8) 1)) (mulU32 params.width 8))
      .ok { params with stride := stride, type := type, size := size }

end SurfaceParams

structure Surface where
  params : SurfaceParams
  registered : Bool := false
  tracked : Bool := false
  custom : Bool := false
  invalidRegions : IntervalSet := []
  modificationTick : Nat := 1
  deriving DecidableEq

namespace Surface

def overlaps (surface : Surface) (addr size : Nat) : Prop :=
  surface.params.addr < addU32 addr size ∧ addr < surface.params.endAddr

instance (surface : Surface) (addr size : Nat) : Decidable (surface.overlaps addr size) :=
  inferInstanceAs (Decidable (_ ∧ _))

def isRegionValid (surface : Surface) (l u : Nat) : Bool := !surface.invalidRegions.intersects l u

def markValid (l u : Nat) (surface : Surface) : Surface :=
  { surface with
    invalidRegions := surface.invalidRegions.subtract l u
    modificationTick := surface.modificationTick + 1 }

def markInvalid (l u : Nat) (surface : Surface) : Surface :=
  { surface with
    invalidRegions := surface.invalidRegions.add l u
    modificationTick := surface.modificationTick + 1 }

def isFullyInvalid (surface : Surface) : Except CacheFault Bool :=
  let l := surface.params.addr
  let u := surface.params.endAddr
  match surface.invalidRegions.filter fun p => max p.1 l < min p.2 u with
  | [] => .error .emptyRange
  | p :: _ => .ok (p = (l, u))

def setRegistered (registered : Bool) (surface : Surface) : Surface := { surface with registered := registered }

/-- The part of `CreateSurface` after the slot is found. -/
def prepare (params : SurfaceParams) (surface : Surface) : Surface :=
  let surface :=
    if params.resScale > surface.params.resScale then
      { surface with params := { surface.params with resScale := params.resScale } }
    else surface
  surface.markInvalid surface.params.addr surface.params.endAddr

end Surface

abbrev SurfaceId := Nat

def citraPageBits : Nat := 18

structure RasterizerCache where
  slotSurfaces : SlotVector Surface
  pageTable : Nat → Option (List SurfaceId)
  sentenced : List (SurfaceId × Nat)
  dirtyRegions : IntervalMap SurfaceId
  cachedPages : IntervalMap Int
  frameTick : Nat
  cacheMarker : RasterizerCacheMarker
  pluginFbAddress : Nat
  downloads : List (Segment SurfaceId)

namespace RasterizerCache

def create (pluginFbAddress : Nat) : RasterizerCache where
  slotSurfaces :=
    let null : SurfaceParams :=
      { width := 1, height := 1, stride := 1, pixelFormat := .rgba8, type := .color }
    (SlotVector.empty.insert { params := null }).insert { params := { null with textureType := .cubeMap } }
  pageTable := fun _ => none
  sentenced := []
  dirtyRegions := .empty
  cachedPages := .empty
  frameTick := 0
  cacheMarker := ⟨fun _ => false⟩
  pluginFbAddress := pluginFbAddress
  downloads := []

def surface (s : RasterizerCache) (id : SurfaceId) : Except CacheFault Surface :=
  match s.slotSurfaces.values id with
  | some surface => .ok surface
  | none => .error .freedSurface

def modifySurface (s : RasterizerCache) (id : SurfaceId) (f : Surface → Surface) : RasterizerCache :=
  { s with slotSurfaces := s.slotSurfaces.modify id f }

def eraseSurface (s : RasterizerCache) (id : SurfaceId) : Except CacheFault RasterizerCache :=
  if h : (s.slotSurfaces.values id).isSome then .ok { s with slotSurfaces := s.slotSurfaces.erase id h }
  else .error .freedSurface

/-- The pages of `ForEachPage`, which computes with 64-bit numbers. -/
def pagesOf (addr size : Nat) : List Nat :=
  let pageEnd := (addr + size + (2 ^ 64 - 1)) % 2 ^ 64 / 2 ^ citraPageBits
  let page := addr / 2 ^ citraPageBits
  List.range' page (pageEnd + 1 - page)

/-- A turn of the inner loop of `ForEachSurfaceInRegion`. -/
def pickSurface (s : RasterizerCache) (addr size : Nat) (surfaces : List SurfaceId) (id : SurfaceId) :
    Except CacheFault (List SurfaceId) := do
  let surface ← s.surface id
  if id ∈ surfaces then .ok surfaces
  else if surface.overlaps addr size then .ok (surfaces ++ [id]) else .ok surfaces

/-- The surfaces that `ForEachSurfaceInRegion` calls its function with. -/
def surfacesInRegion (s : RasterizerCache) (addr size : Nat) : Except CacheFault (List SurfaceId) :=
  (pagesOf addr size).foldlM
    (fun surfaces page => ((s.pageTable page).getD []).foldlM (s.pickSurface addr size) surfaces) []

/-- What `RasterizerMarkRegionCached` does to the marker. -/
def markRegionCached (pluginFb start size : Nat) (cached : Bool) (marker : RasterizerCacheMarker) :
    RasterizerCacheMarker :=
  (Memory.MemorySystem.cachedVaddrs pluginFb start size).foldl (fun m vaddr => m.mark vaddr cached) marker

/-- The call of `RasterizerMarkRegionCached` for the pages of `[l, u)`. -/
def markPages (pluginFb l u : Nat) (cached : Bool) (marker : RasterizerCacheMarker) : RasterizerCacheMarker :=
  let start := mulU32 l pageSize
  markRegionCached pluginFb start (subU32 (mulU32 u pageSize) start) cached marker

/-- A turn of the loop of `UpdatePagesCachedCount`. -/
def updatePages (pluginFb l u : Nat) (delta : Int) (marker : RasterizerCacheMarker) (segment : Segment Int) :
    Except CacheFault RasterizerCacheMarker :=
  let l := max segment.lower l
  let u := min segment.upper u
  if delta > 0 ∧ segment.value = delta then .ok (markPages pluginFb l u true marker)
  else if delta < 0 ∧ segment.value = -delta then .ok (markPages pluginFb l u false marker)
  else if segment.value ≥ 0 then .ok marker else .error .negativeCount

def pageEndOf (addr size : Nat) : Nat :=
  let numPages := addU32 (subU32 (subU32 (addU32 addr size) 1 / pageSize) (addr / pageSize)) 1
  addU32 (addr / pageSize) numPages

def updatePagesCachedCount (s : RasterizerCache) (addr size : Nat) (delta : Int) :
    Except CacheFault RasterizerCache := do
  let pageStart := addr / pageSize
  let pageEnd := pageEndOf addr size
  let cachedPages := if delta > 0 then s.cachedPages.add pageStart pageEnd delta else s.cachedPages
  let cacheMarker ← (cachedPages.range pageStart pageEnd).foldlM
    (updatePages s.pluginFbAddress pageStart pageEnd delta) s.cacheMarker
  .ok { s with
    cacheMarker := cacheMarker
    cachedPages := if delta < 0 then cachedPages.add pageStart pageEnd delta else cachedPages }

def registerPage (id : SurfaceId) (pageTable : Nat → Option (List SurfaceId)) (page : Nat) :
    Nat → Option (List SurfaceId) :=
  Function.update pageTable page (some ((pageTable page).getD [] ++ [id]))

def registerSurface (s : RasterizerCache) (id : SurfaceId) : Except CacheFault RasterizerCache := do
  let surface ← s.surface id
  if surface.registered then .error .alreadyRegistered
  else
    let s := s.modifySurface id (Surface.setRegistered true)
    let s ← s.updatePagesCachedCount surface.params.addr surface.params.size 1
    .ok { s with
      pageTable := (pagesOf surface.params.addr surface.params.size).foldl (registerPage id) s.pageTable }

def unregisterPage (id : SurfaceId) (pageTable : Nat → Option (List SurfaceId)) (page : Nat) :
    Except CacheFault (Nat → Option (List SurfaceId)) :=
  match pageTable page with
  | none => .error .unregisteredPage
  | some surfaces =>
    if id ∈ surfaces then .ok (Function.update pageTable page (some (surfaces.erase id)))
    else .error .unregisteredSurface

def unregisterSurface (s : RasterizerCache) (id : SurfaceId) : Except CacheFault RasterizerCache := do
  let surface ← s.surface id
  if surface.registered then
    let s := s.modifySurface id (Surface.setRegistered false)
    let s ← s.updatePagesCachedCount surface.params.addr surface.params.size (-1)
    let pageTable ← (pagesOf surface.params.addr surface.params.size).foldlM (unregisterPage id) s.pageTable
    let s := { s with pageTable := pageTable }
    if surface.params.type ≠ .fill then .ok { s with sentenced := s.sentenced ++ [(id, s.frameTick)] }
    else s.eraseSurface id
  else .error .alreadyUnregistered

def createSurface (s : RasterizerCache) (params : SurfaceParams) : RasterizerCache × SurfaceId :=
  let equal (entry : SurfaceId × Nat) : Bool :=
    match s.slotSurfaces.values entry.1 with
    | some surface => decide (surface.params.same params)
    | none => false
  match s.sentenced.find? equal with
  | some entry =>
    (RasterizerCache.modifySurface { s with sentenced := s.sentenced.eraseP equal } entry.1 (Surface.prepare params),
      entry.1)
  | none =>
    let id := s.slotSurfaces.freeValueIndex
    ({ s with slotSurfaces := s.slotSurfaces.insert (Surface.prepare params { params := params }) }, id)

/-- The part of a dirty region that `FlushRegion` writes back. -/
def flushInterval (l u size : Nat) (segment : Segment SurfaceId) : Segment SurfaceId :=
  if size ≤ 8 then segment else ⟨max segment.lower l, min segment.upper u, segment.value⟩

def flushSegment (s : RasterizerCache) (l u size : Nat) (segment : Segment SurfaceId) :
    Except CacheFault (Segment SurfaceId) := do
  let interval := flushInterval l u size segment
  let surface ← s.surface segment.value
  if surface.isRegionValid interval.lower interval.upper then .ok interval else .error .ownerInvalidRegions

def flushRegion (s : RasterizerCache) (addr size : Nat) (flushSurface : Option SurfaceId) :
    Except CacheFault RasterizerCache := do
  if size = 0 then .ok s
  else
    let u := addU32 addr size
    let segments := (s.dirtyRegions.range addr u).filter fun segment =>
      flushSurface = none ∨ flushSurface = some segment.value
    let flushed ← segments.mapM (s.flushSegment addr u size)
    .ok { s with
      dirtyRegions := flushed.foldl (fun m segment => m.erase segment.lower segment.upper) s.dirtyRegions
      downloads := s.downloads ++ flushed }

def flushAll (s : RasterizerCache) : Except CacheFault RasterizerCache := s.flushRegion 0 0xFFFFFFFF none

/-- The assertions on the owner in `InvalidateRegion`, and its `MarkValid`. -/
def markOwnerValid (s : RasterizerCache) (addr size : Nat) : Option SurfaceId → Except CacheFault RasterizerCache
  | none => .ok s
  | some id => do
    let owner ← s.surface id
    if owner.params.type ≠ .texture ∧ (owner.params.addr ≤ addr ∧ addU32 addr size ≤ owner.params.endAddr) ∧
        owner.params.width = owner.params.stride then
      .ok (s.modifySurface id (Surface.markValid addr (addU32 addr size)))
    else .error .regionOwner

/-- The dirty regions after `InvalidateRegion`. -/
def setOwner (s : RasterizerCache) (addr size : Nat) : Option SurfaceId → RasterizerCache
  | some id => { s with dirtyRegions := s.dirtyRegions.set addr (addU32 addr size) id }
  | none => { s with dirtyRegions := s.dirtyRegions.erase addr (addU32 addr size) }

/-- A turn of the loop of `InvalidateRegion`.  The second part lists the surfaces to remove. -/
def invalidateSurface (addr size : Nat) (owner : Option SurfaceId) (state : RasterizerCache × List SurfaceId)
    (id : SurfaceId) : Except CacheFault (RasterizerCache × List SurfaceId) := do
  let (s, removeSurfaces) := state
  if owner = some id then .ok (s, removeSurfaces)
  else
    let surface ← s.surface id
    if owner = none ∧ size ≤ 8 then
      let s ← s.flushRegion surface.params.addr surface.params.size (some id)
      .ok (s, removeSurfaces ++ [id])
    else
      let surface := surface.markInvalid (max surface.params.addr addr) (min surface.params.endAddr (addU32 addr size))
      let s := s.modifySurface id fun _ => surface
      let fullyInvalid ← surface.isFullyInvalid
      .ok (s, if fullyInvalid then removeSurfaces ++ [id] else removeSurfaces)

def invalidateRegion (s : RasterizerCache) (addr size : Nat) (owner : Option SurfaceId) :
    Except CacheFault RasterizerCache := do
  if size = 0 then .ok s
  else
    let s ← s.markOwnerValid addr size owner
    let surfaces ← s.surfacesInRegion addr size
    let (s, removeSurfaces) ← surfaces.foldlM (invalidateSurface addr size owner) (s, [])
    removeSurfaces.foldlM unregisterSurface (s.setOwner addr size owner)

def fillParams (startAddr endAddr : Nat) : SurfaceParams :=
  { addr := startAddr, size := subU32 endAddr startAddr, type := .fill, resScale := 2 ^ 16 - 1 }

def accelerateFill (s : RasterizerCache) (startAddr endAddr : Nat) : Except CacheFault RasterizerCache := do
  let params := fillParams startAddr endAddr
  let id := s.slotSurfaces.freeValueIndex
  let s := { s with slotSurfaces := s.slotSurfaces.insert { params := params } }
  let s ← s.registerSurface id
  s.invalidateRegion params.addr params.size (some id)

inductive ScaleMatch where
  | exact
  | upscale
  | ignore
  deriving DecidableEq

/-- The best match that `FindMatch` has seen. -/
structure BestMatch where
  id : Option SurfaceId := none
  valid : Bool := false
  scale : Nat := 0
  length : Nat := 0

/-- `IsMatch_Helper`, for a surface that satisfies the flags or not. -/
def considerMatch (params : SurfaceParams) (scaleMatch : ScaleMatch) (matched : Surface → Bool) (id : SurfaceId)
    (surface : Surface) (best : BestMatch) : BestMatch :=
  let resScaleMatched : Bool :=
    if scaleMatch = .exact then params.resScale = surface.params.resScale
    else params.resScale ≤ surface.params.resScale
  let isValid := surface.isRegionValid params.addr params.endAddr
  let length := surface.params.endAddr - surface.params.addr
  let found : BestMatch := ⟨some id, isValid, surface.params.resScale, length⟩
  if !matched surface then best
  else if !resScaleMatched ∧ scaleMatch ≠ .ignore ∧ surface.params.type ≠ .fill then best
  else if surface.params.resScale > best.scale then found
  else if surface.params.resScale < best.scale then best
  else if isValid ∧ !best.valid then found
  else if isValid ≠ best.valid then best
  else if length > best.length then found else best

def findMatch (s : RasterizerCache) (params : SurfaceParams) (scaleMatch : ScaleMatch) (matched : Surface → Bool) :
    Except CacheFault (Option SurfaceId) := do
  let surfaces ← s.surfacesInRegion params.addr params.size
  let best ← surfaces.foldlM
    (fun best id => do
      let surface ← s.surface id
      .ok (considerMatch params scaleMatch matched id surface best)) ({} : BestMatch)
  .ok best.id

/-- A turn of the loop of `ValidateSurface`: a region is copied from another surface, or it is flushed and then
uploaded. -/
inductive Validation where
  | copied (l u : Nat)
  | uploaded (addr size : Nat)
  deriving DecidableEq

def validate (id : SurfaceId) (s : RasterizerCache) : Validation → Except CacheFault RasterizerCache
  | .copied l u => .ok (s.modifySurface id (Surface.markValid l u))
  | .uploaded addr size => do
    let s ← s.flushRegion addr size none
    .ok (s.modifySurface id (Surface.markValid addr (addU32 addr size)))

def validateSurface (s : RasterizerCache) (id : SurfaceId) (addr size : Nat) (validations : List Validation) :
    Except CacheFault RasterizerCache := do
  if size = 0 then .ok s
  else
    let surface ← s.surface id
    if surface.params.type = .fill then
      if surface.isRegionValid addr (addU32 addr size) then .ok s else .error .invalidFill
    else if surface.isRegionValid addr (addU32 addr size) then .ok s
    else validations.foldlM (validate id) s

def createRegistered (s : RasterizerCache) (params : SurfaceParams) :
    Except CacheFault (RasterizerCache × SurfaceId) := do
  let (s, id) := s.createSurface params
  let s ← s.registerSurface id
  .ok (s, id)

/-- The surface that `FindMatch` has found, or a new one. -/
def foundOrCreated (s : RasterizerCache) (params : SurfaceParams) :
    Option SurfaceId → Except CacheFault (RasterizerCache × SurfaceId)
  | some id => .ok (s, id)
  | none => s.createRegistered params

def getSurface (s : RasterizerCache) (params : SurfaceParams) (scaleMatch : ScaleMatch) (loadIfCreate : Bool)
    (validations : List Validation) : Except CacheFault RasterizerCache := do
  if params.addr = 0 ∨ mulU32 params.height params.width = 0 then .ok s
  else if params.width ≠ params.stride ∨ (params.isTiled ∧ ¬ (params.width % 8 = 0 ∧ params.height % 8 = 0)) then
    .error .surfaceShape
  else
    let found ← s.findMatch params scaleMatch fun surface => surface.params.exactMatch params
    let (s, id) ← s.foundOrCreated params found
    if loadIfCreate then s.validateSurface id params.addr params.size validations else .ok s

def alignUp (value size : Nat) : Nat := if value % size = 0 then value else addU32 (value - value % size) size

def alignedParams (params : SurfaceParams) : Except CacheFault SurfaceParams :=
  if params.isTiled then
    SurfaceParams.updateParams { params with
      height := alignUp params.height 8
      width := alignUp params.width 8
      stride := alignUp params.stride 8 }
  else .ok params

/-- The parameters of the surface that `GetSurfaceSubRect` creates when none is found. -/
def subRectParams (params : SurfaceParams) : Except CacheFault SurfaceParams := do
  let aligned ← alignedParams params
  SurfaceParams.updateParams { aligned with width := aligned.stride }

/-- The part of `GetSurfaceSubRect` that looks for a surface with another scale and copies its parameters. -/
def subRectOfScale (s : RasterizerCache) (params : SurfaceParams) (scaleMatch : ScaleMatch)
    (canSubRect : Surface → Bool) :
    Option SurfaceId → Except CacheFault (RasterizerCache × Option SurfaceId)
  | some id => .ok (s, some id)
  | none => do
    if scaleMatch = .ignore then .ok (s, none)
    else
      let found ← s.findMatch params .ignore canSubRect
      match found with
      | some id =>
        let surface ← s.surface id
        let (s, id) ← s.createRegistered { surface.params with resScale := params.resScale }
        .ok (s, some id)
      | none => .ok (s, none)

/-- The part of `GetSurfaceSubRect` after the search. -/
def finishSubRect (s : RasterizerCache) (params : SurfaceParams) (scaleMatch : ScaleMatch) (loadIfCreate : Bool)
    (validations : List Validation) : Option SurfaceId → Except CacheFault RasterizerCache
  | none => do
    let newParams ← subRectParams params
    s.getSurface newParams scaleMatch loadIfCreate validations
  | some id => do
    let aligned ← alignedParams params
    if loadIfCreate then s.validateSurface id aligned.addr aligned.size validations else .ok s

def getSurfaceSubRect (s : RasterizerCache) (params : SurfaceParams) (scaleMatch : ScaleMatch) (loadIfCreate : Bool)
    (canSubRect : Surface → Bool) (validations : List Validation) : Except CacheFault RasterizerCache := do
  if params.addr = 0 ∨ mulU32 params.height params.width = 0 then .ok s
  else
    let found ← s.findMatch params scaleMatch canSubRect
    let (s, found) ← s.subRectOfScale params scaleMatch canSubRect found
    s.finishSubRect params scaleMatch loadIfCreate validations found

/-- The loop of `RunGarbageCollector` over the sentenced surfaces. -/
def collect (threshold : Nat) : List (SurfaceId × Nat) → RasterizerCache → Except CacheFault RasterizerCache
  | [], s => .ok s
  | entry :: rest, s =>
    if (s.frameTick + 2 ^ 64 - entry.2) % 2 ^ 64 ≤ threshold then collect threshold rest s
    else do
      let s ← s.eraseSurface entry.1
      collect threshold rest { s with sentenced := s.sentenced.erase entry }

def runGarbageCollector (s : RasterizerCache) (threshold : Nat) : Except CacheFault RasterizerCache :=
  let s := { s with frameTick := (s.frameTick + 1) % 2 ^ 64 }
  collect threshold s.sentenced s

/-- The loop of `UnregisterAll` over the surfaces of a page, which are as many as there is fuel at most. -/
def unregisterPageSurfaces (page : Nat) : Nat → RasterizerCache → Except CacheFault RasterizerCache
  | fuel, s =>
    match ((s.pageTable page).getD []).getLast?, fuel with
    | none, _ => .ok s
    | some _, 0 => .error .neverReturns
    | some id, fuel + 1 => do
      let s ← s.unregisterSurface id
      unregisterPageSurfaces page fuel s

/-- `UnregisterAll`, with the page table walked in the order of `pages`. -/
def unregisterAll (s : RasterizerCache) (pages : List Nat) (threshold : Nat) : Except CacheFault RasterizerCache := do
  let s ← s.flushAll
  let s ← pages.foldlM (fun s page => unregisterPageSurfaces page ((s.pageTable page).getD []).length s) s
  runGarbageCollector { s with frameTick := (s.frameTick + threshold) % 2 ^ 64 } threshold

def clear (s : RasterizerCache) : RasterizerCache :=
  let cacheMarker := (s.cachedPages.range 0 0xFFFFFFFF).foldl
    (fun marker segment =>
      markPages s.pluginFbAddress (max segment.lower 0) (min segment.upper 0xFFFFFFFF) false marker) s.cacheMarker
  { s with
    cacheMarker := cacheMarker
    cachedPages := s.cachedPages.erase 0 0xFFFFFFFF
    dirtyRegions := .empty
    pageTable := fun _ => none }

def clearAll (s : RasterizerCache) (flush : Bool) : Except CacheFault RasterizerCache :=
  if flush then do
    let s ← s.flushRegion 0 0xFFFFFFFF none
    .ok s.clear
  else .ok s.clear

inductive Op where
  | createSurface (params : SurfaceParams)
  | registerSurface (id : SurfaceId)
  | unregisterSurface (id : SurfaceId)
  | flushRegion (addr size : Nat) (flushSurface : Option SurfaceId)
  | invalidateRegion (addr size : Nat) (owner : Option SurfaceId)
  | accelerateFill (startAddr endAddr : Nat)
  | getSurface (params : SurfaceParams) (scaleMatch : ScaleMatch) (loadIfCreate : Bool) (validations : List Validation)
  | getSurfaceSubRect (params : SurfaceParams) (scaleMatch : ScaleMatch) (loadIfCreate : Bool)
      (canSubRect : Surface → Bool) (validations : List Validation)
  | validateSurface (id : SurfaceId) (addr size : Nat) (validations : List Validation)
  | unregisterAll (pages : List Nat) (threshold : Nat)
  | clearAll (flush : Bool)
  | runGarbageCollector (threshold : Nat)

def exec (s : RasterizerCache) : Op → Except CacheFault RasterizerCache
  | .createSurface params => .ok (s.createSurface params).1
  | .registerSurface id => s.registerSurface id
  | .unregisterSurface id => s.unregisterSurface id
  | .flushRegion addr size flushSurface => s.flushRegion addr size flushSurface
  | .invalidateRegion addr size owner => s.invalidateRegion addr size owner
  | .accelerateFill startAddr endAddr => s.accelerateFill startAddr endAddr
  | .getSurface params scaleMatch loadIfCreate validations => s.getSurface params scaleMatch loadIfCreate validations
  | .getSurfaceSubRect params scaleMatch loadIfCreate canSubRect validations =>
    s.getSurfaceSubRect params scaleMatch loadIfCreate canSubRect validations
  | .validateSurface id addr size validations => s.validateSurface id addr size validations
  | .unregisterAll pages threshold => s.unregisterAll pages threshold
  | .clearAll flush => s.clearAll flush
  | .runGarbageCollector threshold => s.runGarbageCollector threshold

end RasterizerCache

end SweepDSEmu.VideoCore
