import SweepDSEmu.Lib.BoundedLoop
import SweepDSEmu.VideoCore.CopyableInterval
import SweepDSEmu.VideoCore.DirtyRegions
import SweepDSEmu.VideoCore.SurfaceRounding

/-!
# The loop of `ValidateSurface`

A turn takes the first invalid interval of the level and fills it: from another surface, by a reinterpretation, with a
custom texture or from memory.  Where the turn goes on, the rest of the regions to validate is smaller or a level is
done.

* What a material replaces, what `Reinterpret` can do and where memory is mapped are arguments, and so is the comparison
  of the data of a fill surface.
* `slot_surfaces` moves its surfaces when a custom texture is uploaded to a new slot while no slot is free.  The loop
  has a reference to the surface, which does not follow it.
-/

namespace SweepDSEmu.VideoCore

inductive ValidationFault where
  | layout (fault : LayoutFault)
  /-- `MarkValid` is called by a reference to a surface that was moved. -/
  | danglingReference
  /-- The loop has made more turns than it may. -/
  | neverReturns
  deriving DecidableEq

/-- The emulation ends, but not for a level that the surface does not have. -/
def ValidationFault.IsLayout (fault : ValidationFault) : Prop := ∃ f, fault = .layout f ∧ f ≠ .noLevel

structure ValidationHost where
  /-- The data of a fill surface fills the pixels of the parameters. -/
  fillRepeats : SurfaceId → SurfaceParams → Bool
  /-- The result of `Reinterpret`, for the copied parameters. -/
  reinterprets : RasterizerCache → SurfaceId → SurfaceParams → Bool
  /-- `GetPhysicalRef` finds memory. -/
  mapped : Nat → Bool
  useCustomTextures : Bool
  /-- The format of the material for the contents of memory.  It is invalid if the renderer does not support it. -/
  material : RasterizerCache → SurfaceParams → Option CustomPixelFormat
  skipMipmaps : Bool
  asyncCustomLoading : Bool
  /-- The constructor of a custom surface copies flags, valid regions and ticks. -/
  copiesBase : Bool

namespace SurfaceParams

def canReinterpret (params otherSurface : SurfaceParams) : Except LayoutFault Bool :=
  let tileBytes := bytesInPixels params.formatBpp (if params.isTiled then 64 else 1)
  if ¬ (otherSurface.addr ≥ params.addr ∧ otherSurface.endAddr ≤ params.endAddr ∧ params.pixelFormat ≠ .invalid ∧
      params.pixelFormat ≠ otherSurface.pixelFormat ∧ params.formatBpp = otherSurface.formatBpp ∧
      otherSurface.isTiled = params.isTiled ∧ otherSurface.stride = params.stride) then .ok false
  else if tileBytes = 0 then .error .divisionByZero
  else if subU32 otherSurface.addr params.addr % tileBytes ≠ 0 then .ok false
  else do
    let rect ← params.getSubRect otherSurface
    .ok (rect.right ≤ params.stride)

end SurfaceParams

namespace Surface

def scaleUp (newScale : Nat) (surface : Surface) : Surface :=
  if newScale = 1 then surface else { surface with params := { surface.params with resScale := newScale } }

/-- The surface that takes the place of another one for a custom texture. -/
def toCustom (copiesBase : Bool) (format : CustomPixelFormat) (surface : Surface) : Surface :=
  let params := { surface.params with customFormat := format }
  if copiesBase then { surface with params := params } else { params := params }

end Surface

namespace RasterizerCache

variable (host : ValidationHost) (s : RasterizerCache) (id : SurfaceId) (params : SurfaceParams)
  (interval : Nat × Nat)

def betterMatch (found best : BestMatch) : BestMatch :=
  if found.scale > best.scale then found
  else if found.scale < best.scale then best
  else if found.valid ∧ !best.valid then found
  else if found.valid ≠ best.valid then best
  else if found.length > best.length then found else best

def considerCopy (best : BestMatch) (id : SurfaceId) (surface : Surface) : Except LayoutFault BestMatch := do
  let rect ← params.fromInterval interval.1 interval.2
  let copyInterval ← surface.getCopyableInterval rect
  if intervalLength (meetIntervals copyInterval interval) = 0 then .ok best
  else do
    let matched ← surface.canCopy params copyInterval (host.fillRepeats id params)
    let found : BestMatch := ⟨some id, true, surface.params.resScale, intervalLength copyInterval⟩
    .ok (if matched then betterMatch found best else best)

/-- The test of `FindMatch` for a reinterpretation. -/
def considerReinterpret (best : BestMatch) (id : SurfaceId) (surface : Surface) : Except LayoutFault BestMatch := do
  let rect ← params.fromInterval interval.1 interval.2
  let copyInterval ← surface.getCopyableInterval rect
  if intervalLength (meetIntervals copyInterval interval) = 0 then .ok best
  else do
    let matched ← surface.params.canReinterpret params
    let found : BestMatch :=
      ⟨some id, surface.isRegionValid interval.1 interval.2, surface.params.resScale, intervalLength copyInterval⟩
    .ok (if matched then betterMatch found best else best)

def surfaceOf : Except LayoutFault Surface := (s.surface id).mapError .cache

def findMatchBy (consider : BestMatch → SurfaceId → Surface → Except LayoutFault BestMatch) :
    Except LayoutFault (Option SurfaceId) := do
  let surfaces ← (s.surfacesInRegion params.addr params.size).mapError .cache
  let best ← surfaces.foldlM
    (fun best id => do
      let surface ← s.surfaceOf id
      consider best id surface) ({} : BestMatch)
  .ok best.id

/-- `CopySurface`.  Its rectangles are computed for the assertions only. -/
def copySurface (src dst : SurfaceId) (copyInterval : Nat × Nat) : Except LayoutFault RasterizerCache := do
  let srcSurface ← s.surfaceOf src
  let dstSurface ← s.surfaceOf dst
  let _ ← srcSurface.copySurface dstSurface copyInterval
  if srcSurface.params.type ≠ .fill ∧ srcSurface.params.resScale > dstSurface.params.resScale then
    .ok (s.modifySurface dst (Surface.scaleUp srcSurface.params.resScale))
  else .ok s

/-- The part of `ValidateByReinterpretation` for a surface that was found. -/
def reinterpretFrom (src : SurfaceId) : Except LayoutFault (RasterizerCache × Bool) := do
  let surface ← s.surfaceOf id
  let srcSurface ← s.surfaceOf src
  let copyInterval ← srcSurface.getCopyableInterval params
  if intervalLength (meetIntervals copyInterval interval) = 0 then .ok (s, false)
  else do
    let scaled :=
      if srcSurface.params.resScale > surface.params.resScale then
        s.modifySurface id (Surface.scaleUp srcSurface.params.resScale)
      else s
    let copyParams ← surface.params.fromInterval copyInterval.1 copyInterval.2
    let _ ← srcSurface.params.getSubRect copyParams
    let _ ← surface.params.getSubRect copyParams
    .ok (scaled, host.reinterprets scaled src copyParams)

/-- The part of `ValidateByReinterpretation` without a surface: a surface of another stride owns the interval. -/
def ownedByOtherStride : Except LayoutFault (RasterizerCache × Bool) :=
  match (s.dirtyRegions.range interval.1 interval.2).head? with
  | none => .ok (s, false)
  | some segment => do
    let surface ← s.surfaceOf id
    let owner ← s.surfaceOf segment.value
    .ok (s, owner.params.stride ≠ surface.params.stride)

def validateByReinterpretation : Except LayoutFault (RasterizerCache × Bool) := do
  let found ← s.findMatchBy params (considerReinterpret params interval)
  match found with
  | some src => s.reinterpretFrom host id params interval src
  | none => s.ownedByOtherStride id interval

/-- The part of a turn without memory: it gives the interval that was validated, if there is one. -/
def validateFromSurfaces : Except LayoutFault (RasterizerCache × Option (Nat × Nat)) := do
  let found ← s.findMatchBy params (considerCopy host params interval)
  match found.filter (· ≠ id) with
  | some src => do
    let copySurface ← s.surfaceOf src
    let copyInterval ← copySurface.getCopyableInterval params
    let s ← s.copySurface src id copyInterval
    .ok (s, some copyInterval)
  | none => do
    let (s, reinterpreted) ← s.validateByReinterpretation host id params interval
    .ok (s, if reinterpreted then some interval else none)

def loadInfo : Except LayoutFault SurfaceParams := do
  let surface ← s.surfaceOf id
  let loadInfo ← surface.params.fromInterval interval.1 interval.2
  if loadInfo.addr ≥ surface.params.addr ∧ loadInfo.endAddr ≤ surface.params.endAddr then .ok loadInfo
  else .error .uploadRange

def uploadSurface : Except LayoutFault Unit := do
  let loadInfo ← s.loadInfo id interval
  if host.mapped loadInfo.addr then do
    let surface ← s.surfaceOf id
    let _ ← surface.params.getSubRect loadInfo
    .ok ()
  else .ok ()

def swapAndInsert (surface : Surface) (format : CustomPixelFormat) : RasterizerCache :=
  let swapped := s.modifySurface id (Surface.toCustom host.copiesBase format)
  { swapped with
    slotSurfaces := swapped.slotSurfaces.insert { surface with registered := false }
    sentenced := s.sentenced ++ [(s.slotSurfaces.freeValueIndex, s.frameTick)] }

/-- What `UploadCustomSurface` returns, and whether it has moved the surfaces. -/
structure CustomUpload where
  cache : RasterizerCache
  uploaded : Bool
  moved : Bool

def uploadCustomSurface : Except LayoutFault CustomUpload := do
  let loadInfo ← s.loadInfo id interval
  let surface ← s.surfaceOf id
  if host.mapped loadInfo.addr = false then .ok ⟨s, false, false⟩
  else
    match host.material s loadInfo with
    | none => .ok ⟨s, surface.custom && surface.params.customFormat ≠ .invalid, false⟩
    | some format =>
      if surface.params.levelOf loadInfo.addr ≠ 0 ∧ host.skipMipmaps then .ok ⟨s, true, false⟩
      else
        let flagged := s.modifySurface id fun surface => { surface with custom := true }
        if host.asyncCustomLoading then .ok ⟨flagged, false, false⟩
        else if surface.params.customFormat ≠ .invalid then .ok ⟨flagged, true, false⟩
        else
          .ok {
            cache := flagged.swapAndInsert host id { surface with custom := true } format
            uploaded := true
            moved := flagged.slotSurfaces.freeList = [] }

/-- The part of a turn that fills the interval from memory.  It says whether the surfaces were moved. -/
def validateFromMemory : Except LayoutFault (RasterizerCache × Bool) := do
  let s ← (s.flushRegion params.addr params.size none).mapError .cache
  if host.useCustomTextures then do
    let upload ← s.uploadCustomSurface host id interval
    if upload.uploaded then .ok (upload.cache, upload.moved)
    else do
      upload.cache.uploadSurface host id interval
      .ok (upload.cache, false)
  else do
    s.uploadSurface host id interval
    .ok (s, false)

structure Validating where
  cache : RasterizerCache
  validateRegions : IntervalSet
  level : Nat
  levelInterval : Nat × Nat

def notifyValidated (v : Validating) (cache : RasterizerCache) (validated : Nat × Nat) : Validating :=
  { v with
    cache := cache.modifySurface id (Surface.markValid validated.1 validated.2)
    validateRegions := v.validateRegions.subtract validated.1 validated.2 }

/-- The part of a turn for an interval that is not empty. -/
def validateInterval (v : Validating) : Except ValidationFault Validating := do
  let surface ← (v.cache.surfaceOf id).mapError .layout
  let params ← (surface.params.fromInterval interval.1 interval.2).mapError .layout
  let (cache, validated) ← (v.cache.validateFromSurfaces host id params interval).mapError .layout
  match validated with
  | some validated => .ok (notifyValidated id v cache validated)
  | none => do
    let (cache, moved) ← (cache.validateFromMemory host id params interval).mapError .layout
    if moved then .error .danglingReference else .ok (notifyValidated id v cache params.interval)

def validateTurn (v : Validating) : Except ValidationFault Validating :=
  let interval := meetIntervals (v.validateRegions.headD (0, 0)) v.levelInterval
  if intervalLength interval = 0 then do
    let surface ← (v.cache.surfaceOf id).mapError .layout
    let levelInterval ← (surface.params.levelInterval (v.level + 1)).mapError .layout
    .ok { v with level := v.level + 1, levelInterval := levelInterval }
  else validateInterval host id interval v

def startValidation (surface : Surface) (addr size : Nat) : Except ValidationFault Validating := do
  let level := surface.params.levelOf addr
  let levelInterval ← (surface.params.levelInterval level).mapError .layout
  .ok ⟨s, surface.invalidRegions.intersect addr (addU32 addr size), level, levelInterval⟩

/-- `ValidateSurface`, with a bound on the turns of its loop. -/
def validateSurfaceBy (addr size turns : Nat) : Except ValidationFault RasterizerCache := do
  if size = 0 then .ok s
  else do
    let surface ← (s.surfaceOf id).mapError .layout
    if surface.params.type = .fill then
      if surface.isRegionValid addr (addU32 addr size) then .ok s else .error (.layout (.cache .invalidFill))
    else if surface.invalidRegions.intersect addr (addU32 addr size) = [] then .ok s
    else do
      let v ← s.startValidation surface addr size
      let v ← BoundedLoop.run (fun v => v.validateRegions.isEmpty) (validateTurn host id) .neverReturns turns v
      .ok v.cache

def CustomMoves : Prop :=
  ∃ loadInfo surface format, s.loadInfo id interval = .ok loadInfo ∧ s.surface id = .ok surface ∧
    host.mapped loadInfo.addr = true ∧ host.material s loadInfo = some format ∧
    ¬ (surface.params.levelOf loadInfo.addr ≠ 0 ∧ host.skipMipmaps = true) ∧ host.asyncCustomLoading = false ∧
    surface.params.customFormat = .invalid ∧ s.slotSurfaces.freeList = []

def MemoryMoves : Prop :=
  host.useCustomTextures = true ∧ ∃ flushed, s.flushRegion params.addr params.size none = .ok flushed ∧
    flushed.CustomMoves host id interval

def Validating.MovesSlots (v : Validating) : Prop :=
  ∃ region regions surface params cache, v.validateRegions = region :: regions ∧
    intervalLength (meetIntervals region v.levelInterval) ≠ 0 ∧ v.cache.surface id = .ok surface ∧
    surface.params.fromInterval (meetIntervals region v.levelInterval).1 (meetIntervals region v.levelInterval).2 =
      .ok params ∧
    v.cache.validateFromSurfaces host id params (meetIntervals region v.levelInterval) = .ok (cache, none) ∧
    cache.MemoryMoves host id params (meetIntervals region v.levelInterval)

/-- The computation asks for no level that the surface does not have. -/
abbrev InLevels {α : Type} (Q : α → Prop) (x : Except LayoutFault α) : Prop := Outcome (· ≠ .noLevel) Q x

section Faults

variable {host s id params interval}

theorem inLevels_of_shaped {α : Type} {x : Except LayoutFault α} (h : Surface.Shaped x) :
    InLevels (fun _ => True) x := h.weaken fun _ hfault => hfault.1

theorem inLevels_mapError {α : Type} {Q : α → Prop} {x : Except CacheFault α} (h : Returns Q x) :
    InLevels Q (x.mapError LayoutFault.cache) := h.mapError fun _ _ => LayoutFault.noConfusion

theorem surfaceOf_inLevels (s : RasterizerCache) (id : SurfaceId) :
    InLevels (fun surface => s.surface id = .ok surface) (s.surfaceOf id) :=
  inLevels_mapError (Outcome.intro (fun _ h => h) fun _ _ => trivial)

theorem canReinterpret_shaped (params otherSurface : SurfaceParams) :
    Surface.Shaped (params.canReinterpret otherSurface) := by
  exact Outcome.ite (fun _ => trivial) fun _ => Outcome.ite (fun _ => .error (by decide)) fun _ =>
    Outcome.ite (fun _ => trivial) fun _ => Outcome.bind (Surface.getSubRect_shaped _ _) fun _ _ => trivial

theorem canCopy_inLevels (surface : Surface) (params : SurfaceParams) (copyInterval : Nat × Nat) (repeats : Bool) :
    InLevels (fun _ => True) (surface.canCopy params copyInterval repeats) := by
  refine Outcome.bind (inLevels_of_shaped (Surface.fromInterval_shaped _ _ _)) fun part _ => ?_
  refine Outcome.ite (fun _ => .error (by decide)) fun _ => ?_
  refine Outcome.bind (inLevels_of_shaped (Surface.canSubRect_shaped _ _)) fun isSubRect _ => ?_
  exact Outcome.ite (fun _ => trivial) fun _ => inLevels_of_shaped (Surface.canFill_shaped _ _ _ _)

theorem rects_inLevels (src dst : Surface) (copyInterval : Nat × Nat) :
    InLevels (fun _ => True) (src.copySurface dst copyInterval) := by
  refine Outcome.bind (inLevels_of_shaped (Surface.fromInterval_shaped _ _ _)) fun part _ => ?_
  refine Outcome.ite (fun _ => .error (by decide)) fun _ => Outcome.ite (fun _ => ?_) fun _ => ?_
  · exact Outcome.bind (inLevels_of_shaped (Surface.getSubRect_shaped _ _)) fun _ _ => trivial
  · exact Outcome.bind (inLevels_of_shaped (Surface.getSubRect_shaped _ _)) fun _ _ =>
      Outcome.bind (inLevels_of_shaped (Surface.getSubRect_shaped _ _)) fun _ _ => trivial

/-- The slot has a surface with the layout of the parameters, whose invalid addresses are among the given ones. -/
def HoldsLayout (s : RasterizerCache) (id : SurfaceId) (params : SurfaceParams) (invalid : Set Nat) : Prop :=
  ∃ surface, s.surface id = .ok surface ∧ params.SameLayout surface.params ∧
    surface.invalidRegions.points ⊆ invalid

def KeepsLayout (id : SurfaceId) (s s' : RasterizerCache) : Prop :=
  ∀ params invalid, s.HoldsLayout id params invalid → s'.HoldsLayout id params invalid

theorem KeepsLayout.refl (id : SurfaceId) (s : RasterizerCache) : KeepsLayout id s s := fun _ _ h => h

theorem KeepsLayout.trans {s' s'' : RasterizerCache} (h : KeepsLayout id s s') (h' : KeepsLayout id s' s'') :
    KeepsLayout id s s'' := fun params invalid hs => h' params invalid (h params invalid hs)

theorem surface_eq {surface : Surface} : s.surface id = .ok surface ↔ s.slotSurfaces.values id = some surface := by
  unfold RasterizerCache.surface
  cases s.slotSurfaces.values id with
  | none => simp
  | some other => simp

theorem surface_modifySurface {surface : Surface} (hs : s.surface id = .ok surface) (f : Surface → Surface) :
    (s.modifySurface id f).surface id = .ok (f surface) := by
  rw [surface_eq] at hs ⊢
  show Function.update _ id _ id = _
  rw [Function.update_self, hs]
  rfl

theorem KeepsLayout.modify {f : Surface → Surface}
    (hf : ∀ surface : Surface, surface.params.SameLayout (f surface).params ∧
      (f surface).invalidRegions.points ⊆ surface.invalidRegions.points) : KeepsLayout id s (s.modifySurface id f) := by
  rintro params invalid ⟨surface, hs, hlayout, hinvalid⟩
  exact ⟨f surface, surface_modifySurface hs f, hlayout.trans (hf surface).1, (hf surface).2.trans hinvalid⟩

theorem keepsLayout_of_slots {s' : RasterizerCache} (h : s'.slotSurfaces = s.slotSurfaces) : KeepsLayout id s s' := by
  rintro params invalid ⟨surface, hs, hrest⟩
  rw [surface_eq] at hs
  exact ⟨surface, surface_eq.mpr (by rw [h]; exact hs), hrest⟩

theorem keepsLayout_scaleUp (newScale : Nat) : KeepsLayout id s (s.modifySurface id (Surface.scaleUp newScale)) := by
  refine KeepsLayout.modify fun surface => ?_
  unfold Surface.scaleUp
  split_ifs
  · exact ⟨.refl _, subset_rfl⟩
  · exact ⟨⟨newScale, surface.params.customFormat, rfl⟩, subset_rfl⟩

theorem keepsLayout_swapAndInsert (surface : Surface) (format : CustomPixelFormat) :
    KeepsLayout id s (s.swapAndInsert host id surface format) := by
  have hswapped : KeepsLayout id s (s.modifySurface id (Surface.toCustom host.copiesBase format)) := by
    refine KeepsLayout.modify fun surface => ?_
    unfold Surface.toCustom
    split_ifs
    · exact ⟨⟨surface.params.resScale, format, rfl⟩, subset_rfl⟩
    · exact ⟨⟨surface.params.resScale, format, rfl⟩, by simp⟩
  refine hswapped.trans ?_
  rintro params invalid ⟨custom, hcustom, hrest⟩
  refine ⟨custom, ?_, hrest⟩
  rw [surface_eq] at hcustom ⊢
  have hne : id ≠ (s.modifySurface id (Surface.toCustom host.copiesBase format)).slotSurfaces.freeValueIndex := by
    intro heq
    have hnone := (s.modifySurface id (Surface.toCustom host.copiesBase format)).slotSurfaces.values_freeValueIndex
    rw [← heq, hcustom] at hnone
    cases hnone
  show Function.update _ _ _ id = _
  rw [Function.update_of_ne hne]
  exact hcustom

def Copyable (params : SurfaceParams) (interval : Nat × Nat) (surface : Surface) : Prop :=
  ∃ rect copyInterval, params.fromInterval interval.1 interval.2 = .ok rect ∧
    surface.getCopyableInterval rect = .ok copyInterval ∧ intervalLength (meetIntervals copyInterval interval) ≠ 0

theorem betterMatch_id (found best : BestMatch) :
    (betterMatch found best).id = best.id ∨ (betterMatch found best).id = found.id := by
  unfold betterMatch
  split_ifs <;> first | exact Or.inl rfl | exact Or.inr rfl

theorem considerCopy_inLevels (best : BestMatch) (surface : Surface) :
    InLevels (fun next => next.id = best.id ∨ next.id = some id ∧ Copyable params interval surface)
      (considerCopy host params interval best id surface) := by
  refine Outcome.bind (inLevels_of_shaped (Surface.fromInterval_shaped _ _ _)).value ?_
  rintro rect ⟨hrect, -⟩
  refine Outcome.bind (inLevels_of_shaped (Surface.getCopyableInterval_shaped _ _)).value ?_
  rintro copyInterval ⟨hcopy, -⟩
  refine Outcome.ite (fun _ => Or.inl rfl) fun hmeet => ?_
  refine Outcome.bind (canCopy_inLevels _ _ _ _) ?_
  intro matched _
  show (if matched then _ else _ : BestMatch).id = _ ∨ _
  split_ifs
  · exact (betterMatch_id _ _).imp_right fun heq => ⟨heq, rect, copyInterval, hrect, hcopy, hmeet⟩
  · exact Or.inl rfl

theorem considerReinterpret_inLevels (best : BestMatch) (surface : Surface) :
    InLevels (fun next => next.id = best.id ∨ next.id = some id ∧ True)
      (considerReinterpret params interval best id surface) := by
  refine Outcome.bind (inLevels_of_shaped (Surface.fromInterval_shaped _ _ _)) fun rect _ => ?_
  refine Outcome.bind (inLevels_of_shaped (Surface.getCopyableInterval_shaped _ _)) fun copyInterval _ => ?_
  refine Outcome.ite (fun _ => Or.inl rfl) fun _ => ?_
  refine Outcome.bind (inLevels_of_shaped (canReinterpret_shaped _ _)) ?_
  intro matched _
  show (if matched then _ else _ : BestMatch).id = _ ∨ _
  split_ifs
  · exact (betterMatch_id _ _).imp_right fun heq => ⟨heq, trivial⟩
  · exact Or.inl rfl

theorem findMatchBy_inLevels {Good : Surface → Prop}
    {consider : BestMatch → SurfaceId → Surface → Except LayoutFault BestMatch}
    (hconsider : ∀ best id surface,
      InLevels (fun next => next.id = best.id ∨ next.id = some id ∧ Good surface) (consider best id surface)) :
    InLevels (fun found => ∀ src, found = some src → ∃ surface, s.surface src = .ok surface ∧ Good surface)
      (s.findMatchBy params consider) := by
  refine Outcome.bind (inLevels_mapError (Outcome.intro (fun _ _ => trivial) fun _ _ => trivial)) ?_
  intro surfaces _
  refine Outcome.bind (P := fun best : BestMatch =>
    ∀ src, best.id = some src → ∃ surface, s.surface src = .ok surface ∧ Good surface) ?_ fun best hbest => hbest
  refine Outcome.foldlM (fun src hsrc => nomatch hsrc) ?_
  intro best id _ hbest
  refine Outcome.bind (surfaceOf_inLevels s id) ?_
  intro surface hs
  refine (hconsider best id surface).mono ?_
  rintro next (heq | ⟨heq, hgood⟩) src hsrc
  · exact hbest src (heq.symm.trans hsrc)
  · obtain rfl := Option.some.inj (heq.symm.trans hsrc)
    exact ⟨surface, hs, hgood⟩

theorem copySurface_inLevels (src : SurfaceId) (copyInterval : Nat × Nat) :
    InLevels (KeepsLayout id s) (s.copySurface src id copyInterval) := by
  refine Outcome.bind (surfaceOf_inLevels s src) fun srcSurface _ => ?_
  refine Outcome.bind (surfaceOf_inLevels s id) fun dstSurface _ => ?_
  refine Outcome.bind (rects_inLevels _ _ _) fun _ _ => ?_
  exact Outcome.ite (fun _ => keepsLayout_scaleUp _) fun _ => .refl id s

theorem reinterpretFrom_inLevels (src : SurfaceId) :
    InLevels (fun result => KeepsLayout id s result.1) (s.reinterpretFrom host id params interval src) := by
  refine Outcome.bind (surfaceOf_inLevels s id) fun surface _ => ?_
  refine Outcome.bind (surfaceOf_inLevels s src) fun srcSurface _ => ?_
  refine Outcome.bind (inLevels_of_shaped (Surface.getCopyableInterval_shaped _ _)) fun copyInterval _ => ?_
  refine Outcome.ite (fun _ => KeepsLayout.refl id s) fun _ => ?_
  refine Outcome.bind (inLevels_of_shaped (Surface.fromInterval_shaped _ _ _)) fun copyParams _ => ?_
  refine Outcome.bind (inLevels_of_shaped (Surface.getSubRect_shaped _ _)) fun _ _ => ?_
  refine Outcome.bind (inLevels_of_shaped (Surface.getSubRect_shaped _ _)) fun _ _ => ?_
  show KeepsLayout id s (if _ then _ else _)
  split_ifs
  · exact keepsLayout_scaleUp _
  · exact .refl id s

theorem ownedByOtherStride_inLevels :
    InLevels (fun result => KeepsLayout id s result.1) (s.ownedByOtherStride id interval) := by
  unfold ownedByOtherStride
  cases (s.dirtyRegions.range interval.1 interval.2).head? with
  | none => exact KeepsLayout.refl id s
  | some segment =>
    exact Outcome.bind (surfaceOf_inLevels s id) fun _ _ =>
      Outcome.bind (surfaceOf_inLevels s segment.value) fun _ _ => KeepsLayout.refl id s

theorem validateByReinterpretation_inLevels :
    InLevels (fun result => KeepsLayout id s result.1) (s.validateByReinterpretation host id params interval) := by
  refine Outcome.bind (findMatchBy_inLevels fun best id surface => considerReinterpret_inLevels best surface) ?_
  intro found _
  cases found with
  | none => exact ownedByOtherStride_inLevels
  | some src => exact reinterpretFrom_inLevels src

theorem validateFromSurfaces_inLevels (hround : params.fromInterval interval.1 interval.2 = .ok params)
    (hinterval : intervalLength interval ≠ 0) :
    InLevels (fun result => KeepsLayout id s result.1 ∧ ∀ validated, result.2 = some validated →
        intervalLength (meetIntervals validated interval) ≠ 0)
      (s.validateFromSurfaces host id params interval) := by
  refine Outcome.bind (findMatchBy_inLevels fun best id surface => considerCopy_inLevels best surface) ?_
  intro found hfound
  cases hother : found.filter (· ≠ id) with
  | none =>
    refine Outcome.bind validateByReinterpretation_inLevels ?_
    rintro ⟨s', reinterpreted⟩ hkeeps
    refine ⟨hkeeps, ?_⟩
    intro validated hvalidated
    split_ifs at hvalidated
    obtain rfl := Option.some.inj hvalidated
    unfold meetIntervals
    rwa [max_self, min_self]
  | some src =>
    obtain ⟨surface, hs, rect, copyInterval, hrect, hcopy, hmeet⟩ := hfound src (Option.filter_eq_some_iff.mp hother).1
    obtain rfl := Except.ok.inj (hround.symm.trans hrect)
    refine Outcome.bind (surfaceOf_inLevels s src) ?_
    intro copySurface hcopySurface
    obtain rfl := Except.ok.inj (hs.symm.trans hcopySurface)
    rw [hcopy, ok_bind]
    refine Outcome.bind (copySurface_inLevels src copyInterval) ?_
    intro s' hkeeps
    refine ⟨hkeeps, ?_⟩
    rintro validated heq
    obtain rfl := Option.some.inj heq
    exact hmeet

theorem loadInfo_inLevels : InLevels (fun _ => True) (s.loadInfo id interval) := by
  refine Outcome.bind (surfaceOf_inLevels s id) fun surface _ => ?_
  refine Outcome.bind (inLevels_of_shaped (Surface.fromInterval_shaped _ _ _)) fun part _ => ?_
  exact Outcome.ite (fun _ => trivial) fun _ => .error (by decide)

theorem uploadSurface_inLevels : InLevels (fun _ => True) (s.uploadSurface host id interval) := by
  refine Outcome.bind loadInfo_inLevels fun part _ => ?_
  refine Outcome.ite (fun _ => ?_) fun _ => trivial
  refine Outcome.bind (surfaceOf_inLevels s id) fun surface _ => ?_
  exact Outcome.bind (inLevels_of_shaped (Surface.getSubRect_shaped _ _)) fun _ _ => trivial

theorem keepsLayout_flagCustom : KeepsLayout id s (s.modifySurface id fun surface => { surface with custom := true }) :=
  KeepsLayout.modify fun _ => ⟨.refl _, subset_rfl⟩

theorem uploadCustomSurface_inLevels :
    InLevels (fun upload => KeepsLayout id s upload.cache ∧ (upload.moved = true → s.CustomMoves host id interval))
      (s.uploadCustomSurface host id interval) := by
  refine Outcome.bind loadInfo_inLevels.value ?_
  rintro part ⟨hpart, -⟩
  refine Outcome.bind (surfaceOf_inLevels s id) ?_
  intro surface hs
  refine Outcome.ite (fun _ => ⟨.refl id s, fun hmoved => nomatch hmoved⟩) fun hmapped => ?_
  cases hmaterial : host.material s part with
  | none => exact ⟨.refl id s, fun hmoved => nomatch hmoved⟩
  | some format =>
    refine Outcome.ite (fun _ => ⟨.refl id s, fun hmoved => nomatch hmoved⟩) fun hskip => ?_
    refine Outcome.ite (fun _ => ⟨keepsLayout_flagCustom, fun hmoved => nomatch hmoved⟩) fun hasync => ?_
    refine Outcome.ite (fun _ => ⟨keepsLayout_flagCustom, fun hmoved => nomatch hmoved⟩) fun hcustom => ?_
    refine ⟨keepsLayout_flagCustom.trans (keepsLayout_swapAndInsert _ _), fun hmoved => ?_⟩
    exact ⟨part, surface, format, hpart, hs, Bool.not_eq_false _ ▸ hmapped, hmaterial, hskip,
      Bool.eq_false_iff.mpr hasync, not_not.mp hcustom, of_decide_eq_true hmoved⟩

theorem CustomMoves.uploadCustomSurface (h : s.CustomMoves host id interval) :
    ∃ upload, s.uploadCustomSurface host id interval = .ok upload ∧ upload.uploaded = true ∧ upload.moved = true := by
  obtain ⟨part, surface, format, hpart, hs, hmapped, hmaterial, hskip, hasync, hcustom, hfree⟩ := h
  have hsurface : s.surfaceOf id = .ok surface := by
    unfold surfaceOf
    rw [hs]
    rfl
  unfold RasterizerCache.uploadCustomSurface
  rw [hpart, ok_bind, hsurface, ok_bind, if_neg (by rw [hmapped]; decide), hmaterial]
  dsimp only
  rw [if_neg hskip, if_neg (by rw [hasync]; decide), if_neg (not_not_intro hcustom)]
  exact ⟨_, rfl, rfl, decide_eq_true hfree⟩

private theorem flushRegion_slotSurfaces {s s' : RasterizerCache} {addr size : Nat}
    (h : s.flushRegion addr size none = .ok s') : s'.slotSurfaces = s.slotSurfaces := by
  unfold RasterizerCache.flushRegion at h
  split_ifs at h
  · cases h
    rfl
  · obtain ⟨flushed, -, h⟩ := ok_of_bind h
    cases h
    rfl

theorem flushRegion_inLevels (s : RasterizerCache) (id : SurfaceId) (addr size : Nat) :
    InLevels (fun flushed => s.flushRegion addr size none = .ok flushed ∧ KeepsLayout id s flushed)
      ((s.flushRegion addr size none).mapError LayoutFault.cache) :=
  inLevels_mapError (Outcome.intro (fun _ h => ⟨h, keepsLayout_of_slots (flushRegion_slotSurfaces h)⟩)
    fun _ _ => trivial)

theorem validateFromMemory_inLevels :
    InLevels (fun result => KeepsLayout id s result.1 ∧ (result.2 = true → s.MemoryMoves host id params interval))
      (s.validateFromMemory host id params interval) := by
  refine Outcome.bind (flushRegion_inLevels s id _ _) ?_
  rintro flushed ⟨hflushed, hkeeps⟩
  refine Outcome.ite (fun huse => ?_) fun _ => ?_
  · refine Outcome.bind uploadCustomSurface_inLevels ?_
    rintro upload ⟨hupload, hmoves⟩
    refine Outcome.ite (fun _ => ?_) fun _ => ?_
    · exact ⟨hkeeps.trans hupload, fun hmoved => ⟨huse, flushed, hflushed, hmoves hmoved⟩⟩
    · exact Outcome.bind uploadSurface_inLevels fun _ _ => ⟨hkeeps.trans hupload, fun hmoved => nomatch hmoved⟩
  · exact Outcome.bind uploadSurface_inLevels fun _ _ => ⟨hkeeps, fun hmoved => nomatch hmoved⟩

theorem MemoryMoves.validateFromMemory (h : s.MemoryMoves host id params interval) :
    ∃ s', s.validateFromMemory host id params interval = .ok (s', true) := by
  obtain ⟨huse, flushed, hflushed, hmoves⟩ := h
  obtain ⟨upload, hupload, huploaded, hmoved⟩ := hmoves.uploadCustomSurface
  unfold RasterizerCache.validateFromMemory
  rw [hflushed]
  show ∃ s', ((if host.useCustomTextures then _ else _) : Except LayoutFault _) = .ok (s', true)
  rw [if_pos huse, hupload, ok_bind, if_pos huploaded, hmoved]
  exact ⟨upload.cache, rfl⟩

end Faults

/-- The variables of the loop that validates `[l, u)` in a surface with the layout of the parameters.  What is invalid
there is still to be validated, and the levels before the current one are done. -/
structure Loops (params : SurfaceParams) (l u : Nat) (id : SurfaceId) (v : Validating) : Prop where
  holds : v.cache.HoldsLayout id params {a | l ≤ a → a < u → a ∈ v.validateRegions.points}
  normal : v.validateRegions.Normal
  level_lt : v.level < params.levels
  levelInterval : v.levelInterval = (params.offset v.level, params.offset (v.level + 1))
  regions : ∀ a ∈ v.validateRegions.points, params.offset v.level ≤ a ∧ a < params.endAddr

noncomputable def rank (params : SurfaceParams) (v : Validating) : Nat :=
  v.validateRegions.points.ncard + (params.levels - v.level)

namespace Loops

variable {host : ValidationHost} {id : SurfaceId} {params : SurfaceParams} {l u : Nat} {v : Validating}
  (h : Loops params l u id v)

include h

theorem notifyValidated {cache : RasterizerCache} (hkeeps : KeepsLayout id v.cache cache) {validated : Nat × Nat}
    {a : Nat} (ha : a ∈ v.validateRegions.points) (hvalidated : a ∈ IntervalSet.between validated.1 validated.2) :
    Loops params l u id (notifyValidated id v cache validated) ∧
      rank params (RasterizerCache.notifyValidated id v cache validated) < rank params v := by
  have hpoints : (v.validateRegions.subtract validated.1 validated.2).points =
      v.validateRegions.points \ IntervalSet.between validated.1 validated.2 := IntervalSet.points_subtract _ _ _
  obtain ⟨surface, hs, hlayout, hinvalid⟩ := hkeeps _ _ h.holds
  constructor
  · refine ⟨⟨_, surface_modifySurface hs _, hlayout, ?_⟩, h.normal.subtract _ _, h.level_lt, h.levelInterval, ?_⟩
    · intro b hb hl hu
      have hb' : b ∈ (surface.invalidRegions.subtract validated.1 validated.2).points := hb
      rw [IntervalSet.points_subtract] at hb'
      show b ∈ (v.validateRegions.subtract validated.1 validated.2).points
      rw [hpoints]
      exact ⟨hinvalid hb'.1 hl hu, hb'.2⟩
    · intro b hb
      have hb' : b ∈ (v.validateRegions.subtract validated.1 validated.2).points := hb
      rw [hpoints] at hb'
      exact h.regions b hb'.1
  · have hlt : (v.validateRegions.subtract validated.1 validated.2).points.ncard < v.validateRegions.points.ncard := by
      rw [hpoints]
      refine Set.ncard_lt_ncard ⟨Set.sdiff_subset, fun hsubset => ?_⟩ (IntervalSet.finite_points _)
      exact (hsubset ha).2 hvalidated
    exact Nat.add_lt_add_right hlt _

theorem nextLevel (hsized : params.Sized) {region : Nat × Nat} {regions : IntervalSet}
    (hregions : v.validateRegions = region :: regions)
    (hempty : intervalLength (meetIntervals region v.levelInterval) = 0) :
    v.level + 1 < params.levels ∧
      Loops params l u id { v with
        level := v.level + 1
        levelInterval := (params.offset (v.level + 1), params.offset (v.level + 1 + 1)) } := by
  have hnormal := h.normal
  rw [hregions] at hnormal
  have hne := hnormal.nonempty region List.mem_cons_self
  have hfirst : region.1 ∈ v.validateRegions.points := by
    rw [hregions]
    exact ⟨region, List.mem_cons_self, Nat.le.refl, hne⟩
  obtain ⟨hlower, hupper⟩ := h.regions _ hfirst
  have hbehind : params.offset (v.level + 1) ≤ region.1 := by
    rw [h.levelInterval] at hempty
    unfold intervalLength meetIntervals at hempty
    have := params.offset_mono (Nat.le_succ v.level)
    omega
  rw [hsized.endAddr_eq] at hupper
  have hlt : v.level + 1 < params.levels := by
    have hlevel := h.level_lt
    by_contra hlast
    rw [show v.level + 1 = params.levels by omega] at hbehind
    omega
  refine ⟨hlt, h.holds, h.normal, hlt, rfl, ?_⟩
  intro a ha
  have hhead : region.1 ≤ a := by
    rw [hregions] at ha
    exact hnormal.head_le ha
  exact ⟨hbehind.trans hhead, (h.regions a ha).2⟩

omit h in
theorem layoutFault {α : Type} {P : Prop} {Q : α → Prop} {x : Except LayoutFault α} (hx : InLevels Q x) :
    Outcome (fun fault => fault.IsLayout ∨ fault = .danglingReference ∧ P) Q (x.mapError ValidationFault.layout) :=
  hx.mapError fun f hf => Or.inl ⟨f, rfl, hf⟩

/-- A turn keeps the invariant and lowers the rank, unless it moves the surfaces or an assertion ends the emulation. -/
theorem turn (hshape : params.RegisteredShape) (hunfinished : v.validateRegions.isEmpty = false) :
    Outcome (fun fault => fault.IsLayout ∨ fault = .danglingReference ∧ v.MovesSlots host id)
      (fun t => Loops params l u id t ∧ rank params t < rank params v) (validateTurn host id v) := by
  cases hregions : v.validateRegions with
  | nil =>
    rw [hregions] at hunfinished
    cases hunfinished
  | cons region regions =>
    have hhead : v.validateRegions.headD (0, 0) = region := by rw [hregions, List.headD_cons]
    unfold validateTurn
    rw [hhead]
    refine Outcome.ite (fun hempty => ?_) fun hinterval => ?_
    · -- the next level
      refine Outcome.bind (layoutFault (surfaceOf_inLevels v.cache id)) ?_
      intro surface hs
      obtain ⟨surface', hs', ⟨resScale, customFormat, hlayout⟩, -⟩ := h.holds
      obtain rfl := Except.ok.inj (hs.symm.trans hs')
      obtain ⟨hlt, hnext⟩ := h.nextLevel hshape.sized hregions hempty
      have hsized := (hshape.rescaled resScale customFormat).sized
      have hlevel := hsized.levelInterval_eq (show v.level + 1 < _ from hlt)
      rw [hlayout, hlevel]
      refine ⟨hnext, ?_⟩
      have := h.level_lt
      unfold rank
      dsimp only
      omega
    · unfold validateInterval
      refine Outcome.bind (layoutFault (surfaceOf_inLevels v.cache id)) ?_
      intro surface hs
      refine Outcome.bind (layoutFault (inLevels_of_shaped (Surface.fromInterval_shaped _ _ _)).value) ?_
      rintro part ⟨hpart, -⟩
      obtain ⟨surface', hs', ⟨resScale, customFormat, hlayout⟩, -⟩ := h.holds
      obtain rfl := Except.ok.inj (hs.symm.trans hs')
      have hrescaled := hshape.rescaled resScale customFormat
      have hlevel : (params.rescaled resScale customFormat).levelInterval v.level = .ok v.levelInterval := by
        rw [h.levelInterval]
        exact hrescaled.sized.levelInterval_eq h.level_lt
      have hne : (meetIntervals region v.levelInterval).1 < (meetIntervals region v.levelInterval).2 :=
        Nat.lt_of_sub_ne_zero hinterval
      rw [hlayout] at hpart
      obtain ⟨hcovers, hround⟩ := hrescaled.rounds _ _ _ _ hlevel ⟨le_max_right _ _, min_le_right _ _⟩ hne hpart
      have hinside : ∀ a, (meetIntervals region v.levelInterval).1 ≤ a → a < (meetIntervals region v.levelInterval).2 →
          a ∈ v.validateRegions.points := by
        intro a hlower hupper
        rw [hregions]
        exact ⟨region, List.mem_cons_self, (le_max_left _ _).trans hlower, hupper.trans_le (min_le_left _ _)⟩
      refine Outcome.bind (layoutFault (validateFromSurfaces_inLevels hround hinterval).value) ?_
      rintro ⟨cache, validated⟩ ⟨hfrom, hkeeps, hmeet⟩
      cases validated with
      | some validated =>
        have hboth : max validated.1 (meetIntervals region v.levelInterval).1 <
            min validated.2 (meetIntervals region v.levelInterval).2 := Nat.lt_of_sub_ne_zero (hmeet validated rfl)
        exact h.notifyValidated hkeeps
          (hinside _ (le_max_right _ _) (hboth.trans_le (min_le_right _ _)))
          ⟨le_max_left _ _, hboth.trans_le (min_le_left _ _)⟩
      | none =>
        refine Outcome.bind (layoutFault validateFromMemory_inLevels) ?_
        rintro ⟨filled, moved⟩ ⟨hfilled, hmoves⟩
        refine Outcome.ite (fun hmoved => ?_) fun _ => ?_
        · exact Or.inr ⟨rfl, region, regions, surface, part, cache, hregions, hinterval, hs,
            by rw [hlayout]; exact hpart, hfrom, hmoves hmoved⟩
        · exact h.notifyValidated (hkeeps.trans hfilled) (hinside _ Nat.le.refl hne) ⟨hcovers.1, hne.trans_le hcovers.2⟩

end Loops

section Runs

variable {host : ValidationHost} {id : SurfaceId}

theorem Validating.MovesSlots.turn {v : Validating} (h : v.MovesSlots host id) :
    v.validateRegions.isEmpty = false ∧ validateTurn host id v = .error .danglingReference := by
  obtain ⟨region, regions, surface, params, cache, hregions, hinterval, hs, hparams, hfrom, hmoves⟩ := h
  obtain ⟨filled, hfilled⟩ := hmoves.validateFromMemory
  have hsurface : v.cache.surfaceOf id = .ok surface := by
    unfold surfaceOf
    rw [hs]
    rfl
  have hhead : v.validateRegions.headD (0, 0) = region := by rw [hregions, List.headD_cons]
  refine ⟨by rw [hregions]; rfl, ?_⟩
  unfold validateTurn validateInterval
  rw [hhead, if_neg hinterval, hsurface, mapError_ok, ok_bind, hparams, mapError_ok, ok_bind, hfrom, mapError_ok,
    ok_bind]
  dsimp only
  rw [hfilled, mapError_ok, ok_bind]
  exact if_pos rfl

/-- The states of the loop that validates `size` bytes of a surface. -/
def ReachesValidating (host : ValidationHost) (s : RasterizerCache) (id : SurfaceId) (surface : Surface)
    (addr size : Nat) (v : Validating) : Prop :=
  ∃ start, s.startValidation surface addr size = .ok start ∧
    BoundedLoop.Reaches (fun v : Validating => v.validateRegions.isEmpty) (validateTurn host id) start v

/-- The validation ends.  It asks for no level that the surface does not have, and if it returns, nothing of the
interval is invalid. -/
def Validates (id : SurfaceId) (l u : Nat) (result : Except ValidationFault RasterizerCache) : Prop :=
  Outcome ValidationFault.IsLayout
    (fun s => ∃ surface, s.surface id = .ok surface ∧ ∀ a, l ≤ a → a < u → a ∉ surface.invalidRegions.points) result

theorem startValidation_loops {s : RasterizerCache} {surface : Surface} (hs : s.surface id = .ok surface)
    (hshape : surface.params.RegisteredShape) (hregions : surface.invalidRegions.Normal) {addr size : Nat}
    (haddr : surface.params.addr ≤ addr) (hend : addr + size ≤ surface.params.endAddr) (hsize : size ≠ 0) :
    ∃ start, s.startValidation surface addr size = .ok start ∧
      Loops surface.params addr (addr + size) id start ∧
      start.validateRegions = surface.invalidRegions.intersect addr (addU32 addr size) ∧
      rank surface.params start ≤ size + surface.params.levels := by
  have hsized := hshape.sized
  have hlimit : surface.params.endAddr < 2 ^ 32 := Nat.mod_lt _ (by decide)
  have hwrap : addU32 addr size = addr + size := SurfaceParams.addU32_eq (by omega)
  obtain ⟨level, hlevel, hlower, hupper⟩ := hsized.exists_level haddr (show addr < surface.params.endAddr by omega)
  have hpoints : (surface.invalidRegions.intersect addr (addr + size)).points =
      surface.invalidRegions.points ∩ IntervalSet.between addr (addr + size) := IntervalSet.points_intersect _ _ _
  refine ⟨⟨s, surface.invalidRegions.intersect addr (addr + size), level,
    (surface.params.offset level, surface.params.offset (level + 1))⟩, ?_, ?_, ?_, ?_⟩
  · unfold startValidation
    rw [hsized.levelOf_eq hlevel hlower hupper, hwrap]
    dsimp only
    rw [hsized.levelInterval_eq hlevel]
    rfl
  · refine ⟨⟨surface, hs, .refl _, ?_⟩, hregions.intersect _ _, hlevel, rfl, ?_⟩
    · intro a ha hl hu
      show a ∈ (surface.invalidRegions.intersect addr (addr + size)).points
      rw [hpoints]
      exact ⟨ha, hl, hu⟩
    · intro a ha
      have ha' : a ∈ (surface.invalidRegions.intersect addr (addr + size)).points := ha
      rw [hpoints] at ha'
      obtain ⟨-, hl, hu⟩ := ha'
      exact ⟨hlower.trans hl, by omega⟩
  · rw [hwrap]
  · have hcard : (surface.invalidRegions.intersect addr (addr + size)).points.ncard ≤ size := by
      rw [hpoints]
      refine (Set.ncard_le_ncard Set.inter_subset_right (Set.finite_Ico addr (addr + size))).trans ?_
      exact (IntervalSet.ncard_between _ _).trans_le (Nat.add_sub_cancel_left addr size).le
    exact Nat.add_le_add hcard (Nat.sub_le _ _)

theorem not_movesSlots_of_empty {s : RasterizerCache} {surface : Surface} {addr size : Nat}
    (hempty : surface.invalidRegions.intersect addr (addU32 addr size) = []) {v : Validating}
    (hv : ReachesValidating host s id surface addr size v) : ¬ v.MovesSlots host id := by
  obtain ⟨start, hstart, hreaches⟩ := hv
  have hregions : start.validateRegions = [] := by
    obtain ⟨levelInterval, -, hstart⟩ := ok_of_bind hstart
    obtain rfl := Except.ok.inj hstart
    exact hempty
  intro hmoves
  rcases Relation.ReflTransGen.cases_head hreaches with rfl | ⟨next, hturn, -⟩
  · have hunfinished := hmoves.turn.1
    rw [hregions] at hunfinished
    cases hunfinished
  · have hunfinished := hturn.1
    dsimp only at hunfinished
    rw [hregions] at hunfinished
    cases hunfinished

end Runs

namespace CustomTexture

def texture : Surface where
  params :=
    { addr := 0x1000, size := 0x100, width := 8, height := 8, stride := 8, isTiled := true, pixelFormat := .rgba8,
      type := .color }
  registered := true
  invalidRegions := [(0x1000, 0x1100)]

def cache : RasterizerCache :=
  let empty := RasterizerCache.create 0
  { empty with
    slotSurfaces := (empty.slotSurfaces.insert texture).insert { params := texture.params }
    pageTable := fun page => if page = 0 then some [3] else none }

def pack : ValidationHost where
  fillRepeats := fun _ _ => false
  reinterprets := fun _ _ _ => false
  mapped := fun _ => true
  useCustomTextures := true
  material := fun _ _ => some .rgba8
  skipMipmaps := false
  asyncCustomLoading := false
  copiesBase := true

theorem texture_shape : texture.params.RegisteredShape := by
  refine Or.inl ⟨⟨?_, ?_, ?_, ?_, ?_, ?_, ?_, ?_⟩, ?_, ?_, ?_⟩ <;> decide

theorem texture_regions : texture.invalidRegions.Normal := ⟨by decide, by decide⟩

private def dangles : Except ValidationFault RasterizerCache → Bool
  | .error .danglingReference => true
  | _ => false

end CustomTexture

end RasterizerCache

end SweepDSEmu.VideoCore
