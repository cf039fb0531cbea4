import SweepDSEmu.Lib.Outcome
import SweepDSEmu.VideoCore.SurfaceRects

/-!
# What one surface can copy to another

`GetCopyableInterval` cuts the valid regions of a surface down to rectangles of another one's parameters and gives the
largest.  `CanCopy` and `CopySurface` assert that the interval is such a rectangle.

The comparison of the data of a fill surface in `CanFill` is an argument.
-/

namespace SweepDSEmu.VideoCore

open RasterizerCache (alignUp)

def intervalLength (i : Nat × Nat) : Nat := i.2 - i.1

def meetIntervals (i j : Nat × Nat) : Nat × Nat := (max i.1 j.1, min i.2 j.2)

namespace SurfaceParams

/-- The interval, with its ends rounded inwards to multiples of a size that are counted from `start`. -/
def alignInwards (start : Nat) (i : Nat × Nat) (size : Nat) : Nat × Nat :=
  (addU32 start (alignUp (subU32 i.1 start) size), addU32 start (alignDown (subU32 i.2 start) size))

def largestRect (params : SurfaceParams) (aligned : Nat × Nat) : Except LayoutFault (Nat × Nat) :=
  let strideBytes := mulU32 (bytesInPixels params.formatBpp params.stride) (if params.isTiled then 8 else 1)
  if strideBytes = 0 then .error .divisionByZero
  else
    let rect := alignInwards params.addr aligned strideBytes
    if rect.1 > rect.2 then .ok aligned
    else if intervalLength rect = 0 then
      -- two rows that do not make a rectangle
      let row1 := (aligned.1, rect.1)
      let row2 := (rect.1, aligned.2)
      .ok (if intervalLength row1 > intervalLength row2 then row1 else row2)
    else .ok rect

def tileAlign (params : SurfaceParams) : Nat :=
  bytesInPixels params.formatBpp (if params.isTiled then 8 * 8 else 1)

/-- A turn of the loop of `GetCopyableInterval`. -/
def copyableTurn (params : SurfaceParams) (result validInterval : Nat × Nat) : Except LayoutFault (Nat × Nat) :=
  if params.tileAlign = 0 then .error .divisionByZero
  else
    let aligned := alignInwards params.addr validInterval params.tileAlign
    if params.tileAlign > intervalLength validInterval ∨ intervalLength aligned = 0 then .ok result
    else do
      let rect ← params.largestRect aligned
      .ok (if intervalLength rect > intervalLength result then rect else result)

def canSubRect (params subSurface : SurfaceParams) : Except LayoutFault Bool :=
  let level := params.levelOf subSurface.addr
  let tileBytes := bytesInPixels params.formatBpp (if params.isTiled then 64 else 1)
  if ¬ (subSurface.addr ≥ params.addr ∧ subSurface.endAddr ≤ params.endAddr ∧
      subSurface.pixelFormat = params.pixelFormat ∧ params.pixelFormat ≠ .invalid ∧
      subSurface.isTiled = params.isTiled) then .ok false
  else if tileBytes = 0 then .error .divisionByZero
  else if subU32 subSurface.addr (params.mipmapOffset level) % tileBytes ≠ 0 then .ok false
  else if ¬ (subSurface.stride = params.stride / 2 ^ level ∨
      subSurface.height ≤ (if params.isTiled then 8 else 1)) then .ok false
  else do
    let rect ← params.getSubRect subSurface
    .ok (rect.right ≤ params.stride)

end SurfaceParams

namespace Surface

def validRegions (surface : Surface) (params : SurfaceParams) : IntervalSet :=
  let common := meetIntervals params.interval surface.params.interval
  (IntervalSet.add [] common.1 common.2).difference surface.invalidRegions

def getCopyableInterval (surface : Surface) (params : SurfaceParams) : Except LayoutFault (Nat × Nat) :=
  (surface.validRegions params).foldlM params.copyableTurn (0, 0)

/-- `CanFill`.  `repeats` says whether the data of the surface fills the pixels of the other one. -/
def canFill (surface : Surface) (destSurface : SurfaceParams) (fill : Nat × Nat) (repeats : Bool) :
    Except LayoutFault Bool :=
  if surface.params.type = .fill ∧ surface.isRegionValid fill.1 fill.2 ∧ fill.1 ≥ surface.params.addr ∧
      fill.2 ≤ surface.params.endAddr then do
    let part ← destSurface.fromInterval fill.1 fill.2
    .ok (part.interval = fill ∧ repeats)
  else .ok false

def canCopy (surface : Surface) (destSurface : SurfaceParams) (copy : Nat × Nat) (repeats : Bool) :
    Except LayoutFault Bool := do
  let subrectParams ← destSurface.fromInterval copy.1 copy.2
  if subrectParams.interval ≠ copy then .error .copyInterval
  else
    let isSubRect ← surface.params.canSubRect subrectParams
    if isSubRect then .ok true else surface.canFill destSurface copy repeats

def copySurface (src dst : Surface) (copy : Nat × Nat) : Except LayoutFault (Option Rectangle × Rectangle) := do
  let subrectParams ← dst.params.fromInterval copy.1 copy.2
  if subrectParams.interval ≠ copy then .error .copyInterval
  else if src.params.type = .fill then do
    let dstRect ← dst.params.getSubRect subrectParams
    .ok (none, dstRect)
  else do
    let srcRect ← src.params.getSubRect subrectParams
    let dstRect ← dst.params.getSubRect subrectParams
    .ok (some srcRect, dstRect)

end Surface

namespace SurfaceParams

theorem alignInwards_eq {start x y size : Nat} (hsize : 0 < size) (hx : start + ceilTo size x < 2 ^ 32)
    (hy : start + y < 2 ^ 32) :
    alignInwards start (start + x, start + y) size = (start + ceilTo size x, start + floorTo size y) := by
  have hle := le_ceilTo hsize x
  have hfloor := floorTo_le size y
  unfold alignInwards
  rw [addU32_subU32 (by omega), addU32_subU32 hy, alignUp_eq hsize (by omega), alignDown_eq, addU32_eq hx,
    addU32_eq (by omega)]

namespace Regular

variable {params : SurfaceParams} (h : params.Regular)

include h

/-- A rectangle of a level is the whole of the parameters that `FromInterval` gives for it. -/
theorem fromInterval_of_isRect {level : Nat} (hlevel : level < params.levels)
    (hcolumns : 0 < params.tileColumns level) {x y : Nat} (hrect : (h.levelGrid hcolumns).IsRect x y)
    (hy : y ≤ params.levelBytes level) :
    ∃ part, params.fromInterval (params.offset level + x) (params.offset level + y) = .ok part ∧
      part.interval = (params.offset level + x, params.offset level + y) := by
  obtain ⟨hcolumns', block, henclosing, hupper, hpart⟩ := h.fromInterval_block hlevel hrect.lt hy
  obtain ⟨hx, hy⟩ := Prod.mk.inj (henclosing.trans hrect.enclosing_eq)
  refine ⟨_, hpart, ?_⟩
  rw [blockParams_interval h hlevel block hupper, hx, hy]

/-- A rectangle of the parameters that `FromInterval` gave is a rectangle of the surface that they were taken from. -/
theorem fromInterval_part {part : SurfaceParams} {level : Nat} {i outer j : Nat × Nat}
    (hlevel : params.levelInterval level = .ok outer) (hi : Within i outer) (hne : i.1 < i.2)
    (hpart : params.fromInterval i.1 i.2 = .ok part) (hj : Within j part.interval) (hjne : j.1 < j.2)
    (hrect : ∃ inner, part.fromInterval j.1 j.2 = .ok inner ∧ inner.interval = j) :
    ∃ inner, params.fromInterval j.1 j.2 = .ok inner ∧ inner.interval = j := by
  obtain ⟨hlt, -, hcolumns, block, -, hupper, hblock⟩ := h.fromInterval_level hlevel hi hne
  obtain rfl := Except.ok.inj (hblock.symm.trans hpart)
  have hregular := h.blockParams_regular hlt rfl block hupper
  have hinterval := blockParams_interval h hlt block hupper
  obtain ⟨-, -, hpartColumns, inner, henclosing, hinnerUpper, hinner⟩ :=
    hregular.fromInterval_level (hregular.levelInterval_single rfl) hj hjne
  obtain ⟨inner', hinner', hinnerInterval⟩ := hrect
  obtain rfl := Except.ok.inj (hinner.symm.trans hinner')
  rw [blockParams_interval hregular Nat.one_pos inner hinnerUpper, offset_zero] at hinnerInterval
  have hbytes := h.blockParams_levelBytes hlt rfl block hupper
  have hinnerRect : (hregular.levelGrid hpartColumns).IsRect inner.lower inner.upper := by
    have hjlower := hj.1
    have henclosingRect := (hregular.levelGrid hpartColumns).enclosing_isRect
      (show j.1 - (params.blockParams level block).offset 0 < j.2 - (params.blockParams level block).offset 0 by
        have : (params.blockParams level block).offset 0 ≤ j.1 := hjlower
        omega)
    rwa [← henclosing] at henclosingRect
  have hcell : (hregular.levelGrid hpartColumns).cell = (h.levelGrid hcolumns).cell := rfl
  have hsameColumns : (hregular.levelGrid hpartColumns).columns = block.columns := blockParams_tileColumns block
  have hrect := block.isRect_add hcell hsameColumns hinnerRect (hinnerUpper.trans hbytes.le)
  have hend : block.lower + inner.upper ≤ params.levelBytes level := by
    have hinnerLe := hinnerUpper.trans hbytes.le
    have hblockUpper : block.upper = block.lower + (h.levelGrid hcolumns).cell * (block.rows * block.columns) := rfl
    omega
  have hfrom := h.fromInterval_of_isRect hlt hcolumns hrect hend
  rw [← Nat.add_assoc, ← Nat.add_assoc] at hfrom
  rw [← hinnerInterval]
  exact hfrom

variable (hlevels : params.levels = 1)

include hlevels

theorem interval_single : params.interval = (params.addr, params.addr + params.levelBytes 0) := by
  rw [interval, h.endAddr_eq, hlevels, offset_succ, offset_zero]

theorem single_lt : params.addr + params.levelBytes 0 < 2 ^ 32 := by
  have := h.offset_lt (show 0 + 1 ≤ params.levels by omega)
  rwa [offset_succ, offset_zero] at this

theorem tileAlign_eq (hcolumns : 0 < params.tileColumns 0) (hrows : 0 < params.tileRows 0) :
    params.tileAlign = (h.levelGrid hcolumns).cell := by
  have hbits := h.bits_level_lt 0
  have hle : params.tileBytes ≤ params.levelBytes 0 := by
    rw [h.levelBytes_tiles (show 0 < params.levels by omega)]
    exact (Nat.le_mul_of_pos_right _ hcolumns).trans (Nat.le_mul_of_pos_right _ hrows)
  exact h.bytesInPixels_tile (by omega)

theorem largestRect_eq (hcolumns : 0 < params.tileColumns 0) {x y : Nat} (hxy : x < y)
    (hy : y ≤ params.levelBytes 0) :
    params.largestRect (params.addr + x, params.addr + y) =
      .ok (params.addr + ((h.levelGrid hcolumns).inner x y).1, params.addr + ((h.levelGrid hcolumns).inner x y).2) := by
  have hlevel : 0 < params.levels := by omega
  have hrows := (h.tiles_pos hlevel hxy hy).2
  have hend := h.single_lt hlevels
  have hbits := h.bits_level_lt 0
  have hlevelEq := h.levelBytes_eq hlevel hcolumns
  have hline := h.bytesInPixels_line hlevel hrows
  rw [Nat.pow_zero, Nat.div_one] at hline
  have hrowEq : (h.levelGrid hcolumns).row = params.lineBytes * params.tileColumns 0 * params.tiledSize := by
    show params.tiledSize * params.lineBytes * params.tileColumns 0 = _
    ring
  generalize h.levelGrid hcolumns = g at hlevelEq hrowEq
  have hrowLe : g.row ≤ params.levelBytes 0 := by
    rw [hlevelEq]
    exact Nat.le_mul_of_pos_right _ hrows
  have hstride : mulU32 (bytesInPixels params.formatBpp params.stride) (if params.isTiled then 8 else 1) = g.row := by
    show mulU32 (bytesInPixels params.formatBpp params.stride) params.tiledSize = g.row
    rw [hline, mulU32_eq (by omega), hrowEq]
  have hfirst : ceilTo g.row x ≤ params.levelBytes 0 := by
    refine (ceilTo_le_iff g.row_pos ?_).mpr (by omega)
    rw [hlevelEq]
    exact Nat.dvd_mul_right _ _
  unfold largestRect
  simp only [hstride]
  rw [if_neg g.row_pos.ne', alignInwards_eq g.row_pos (by omega) (by omega)]
  unfold RowGrid.inner intervalLength
  dsimp only
  split_ifs <;> first | rfl | omega

end Regular

end SurfaceParams

structure Surface.ValidRegion (surface : Surface) (params : SurfaceParams) (i : Nat × Nat) : Prop where
  nonempty : i.1 < i.2
  inParams : SurfaceParams.Within i params.interval
  inSurface : SurfaceParams.Within i surface.params.interval
  valid : ∀ a, i.1 ≤ a → a < i.2 → a ∉ surface.invalidRegions.points

structure Surface.Copyable (surface : Surface) (params : SurfaceParams) (i : Nat × Nat) : Prop
    extends surface.ValidRegion params i where
  aligned : params.tileAlign ∣ i.1 - params.addr ∧ params.tileAlign ∣ i.2 - params.addr
  rect : ∃ part, params.fromInterval i.1 i.2 = .ok part ∧ part.interval = i

namespace Surface

variable {surface : Surface} {params : SurfaceParams}

private theorem add_nil {l u : Nat} (h : l < u) : IntervalSet.add [] l u = [(l, u)] := by
  unfold IntervalSet.add
  rw [if_neg (by omega)]
  rfl

variable {i : Nat × Nat}

theorem validRegion_of_mem (hi : i ∈ surface.validRegions params) : surface.ValidRegion params i := by
  have hpoints : ∀ a, i.1 ≤ a → a < i.2 → a ∈ (surface.validRegions params).points := fun a h1 h2 => ⟨i, hi, h1, h2⟩
  have hnonempty : i.1 < i.2 :=
    IntervalSet.nonempty_difference (IntervalSet.add_nonempty (fun _ hp => absurd hp List.not_mem_nil) _ _) _ i hi
  have hcommon : ∀ a, i.1 ≤ a → a < i.2 →
      a ∈ IntervalSet.between (meetIntervals params.interval surface.params.interval).1
        (meetIntervals params.interval surface.params.interval).2 ∧ a ∉ surface.invalidRegions.points := by
    intro a h1 h2
    have ha := hpoints a h1 h2
    unfold validRegions at ha
    rw [IntervalSet.points_difference, IntervalSet.points_add, IntervalSet.points_nil, Set.empty_union] at ha
    exact ha
  obtain ⟨⟨hlower, -⟩, -⟩ := hcommon i.1 Nat.le.refl hnonempty
  obtain ⟨⟨-, hupper⟩, -⟩ := hcommon (i.2 - 1) (by omega) (by omega)
  unfold meetIntervals at hlower hupper
  exact ⟨hnonempty, ⟨by omega, by omega⟩, ⟨by omega, by omega⟩, fun a h1 h2 => (hcommon a h1 h2).2⟩

theorem ValidRegion.exists_region (h : surface.ValidRegion params i) :
    ∃ p ∈ surface.validRegions params, p.1 ≤ i.1 ∧ i.2 ≤ p.2 := by
  obtain ⟨h1, h2⟩ := h.inParams
  obtain ⟨h3, h4⟩ := h.inSurface
  have hnonempty := h.nonempty
  refine IntervalSet.contained_difference hnonempty
    ⟨meetIntervals params.interval surface.params.interval, ?_, max_le h1 h3, le_min h2 h4⟩ ?_
  · rw [add_nil]
    · exact List.mem_singleton_self _
    · unfold meetIntervals
      omega
  · exact fun a ha => h.valid a ha.1 ha.2

def HasTile (params : SurfaceParams) (i : Nat × Nat) : Prop :=
  ∃ a, params.tileAlign ∣ a ∧ i.1 ≤ params.addr + a ∧ params.addr + a + params.tileAlign ≤ i.2

/-- A turn keeps the result or takes a larger rectangle, and takes one where there is a whole tile. -/
theorem copyableTurn_spec (h : params.Regular) (hlevels : params.levels = 1)
    (hi : surface.ValidRegion params i) (result : Nat × Nat) : ∃ next, params.copyableTurn result i = .ok next ∧
      (next = result ∨ surface.Copyable params next ∧ intervalLength result < intervalLength next) ∧
      (HasTile params i → 0 < intervalLength next) := by
  obtain ⟨hlower, hupper⟩ := hi.inParams
  have hnonempty := hi.nonempty
  rw [h.interval_single hlevels] at hlower hupper
  obtain ⟨x, hx⟩ := Nat.exists_eq_add_of_le hlower
  obtain ⟨y, hy⟩ := Nat.exists_eq_add_of_le (hlower.trans hnonempty.le)
  have hlevel : 0 < params.levels := by omega
  obtain ⟨hcolumns, hrows⟩ := h.tiles_pos hlevel (show x < y by omega)
    (show y ≤ params.levelBytes 0 by omega)
  have hend := h.single_lt hlevels
  have htile := h.tileAlign_eq hlevels hcolumns hrows
  have hlargest := fun {a b : Nat} => h.largestRect_eq hlevels hcolumns (x := a) (y := b)
  have hlevelEq := h.levelBytes_eq hlevel hcolumns
  have hfrom := fun {a b : Nat} => h.fromInterval_of_isRect hlevel hcolumns (x := a) (y := b)
  generalize h.levelGrid hcolumns = g at htile hlargest hlevelEq hfrom
  have hlevelCell : g.cell ∣ params.levelBytes 0 := by
    rw [hlevelEq]
    exact g.cell_dvd_row.trans (Nat.dvd_mul_right _ _)
  have hfirst : ceilTo g.cell x ≤ params.levelBytes 0 := (ceilTo_le_iff g.cell_pos hlevelCell).mpr (by omega)
  have hlast := floorTo_le g.cell y
  have halign : SurfaceParams.alignInwards params.addr i params.tileAlign =
      (params.addr + ceilTo g.cell x, params.addr + floorTo g.cell y) := by
    rw [htile, show i = (params.addr + x, params.addr + y) from Prod.ext hx hy]
    exact SurfaceParams.alignInwards_eq g.cell_pos (by omega) (by omega)
  have hceil := le_ceilTo g.cell_pos x
  have hasTile (hsome : HasTile params i) : g.cell ≤ i.2 - i.1 ∧ ceilTo g.cell x < floorTo g.cell y := by
    obtain ⟨a, hdvd, h1, h2⟩ := hsome
    rw [htile] at hdvd h2
    have hstart : ceilTo g.cell x ≤ a := (ceilTo_le_iff g.cell_pos hdvd).mpr (by omega)
    have hstop : a + g.cell ≤ floorTo g.cell y :=
      (le_floorTo_iff g.cell_pos (Nat.dvd_add hdvd (Nat.dvd_refl _))).mpr (by omega)
    have := g.cell_pos
    omega
  unfold SurfaceParams.copyableTurn
  rw [halign, htile, if_neg g.cell_pos.ne']
  by_cases hskip : g.cell > intervalLength i ∨
      intervalLength (params.addr + ceilTo g.cell x, params.addr + floorTo g.cell y) = 0
  · rw [if_pos hskip]
    refine ⟨result, rfl, Or.inl rfl, fun hsome => ?_⟩
    have := hasTile hsome
    unfold intervalLength at hskip
    omega
  · rw [if_neg hskip]
    unfold intervalLength at hskip
    have hlt : ceilTo g.cell x < floorTo g.cell y := by omega
    have hrect := RowGrid.inner_isRect (dvd_ceilTo g.cell x) (dvd_floorTo g.cell y) hlt
    have hinside := g.inner_subset (ceilTo g.cell x) (floorTo g.cell y)
    have hrectLt := hrect.lt
    have hcopyable : surface.Copyable params (params.addr + (g.inner (ceilTo g.cell x) (floorTo g.cell y)).1,
        params.addr + (g.inner (ceilTo g.cell x) (floorTo g.cell y)).2) := by
      refine ⟨⟨Nat.add_lt_add_left hrectLt _, ?_, ?_, ?_⟩, ?_, hfrom hrect (by omega)⟩
      · rw [h.interval_single hlevels]
        exact ⟨Nat.le_add_right _ _, by dsimp only; omega⟩
      · have hin := hi.inSurface
        exact ⟨hin.1.trans (by dsimp only; omega), le_trans (by dsimp only; omega) hin.2⟩
      · exact fun a h1 h2 => hi.valid a (by dsimp only at h1; omega) (by dsimp only at h2; omega)
      · rw [htile, Nat.add_sub_cancel_left, Nat.add_sub_cancel_left]
        exact ⟨hrect.lower, hrect.upper⟩
    rw [hlargest hlt (by omega)]
    by_cases hlarger : intervalLength (params.addr + (g.inner (ceilTo g.cell x) (floorTo g.cell y)).1,
        params.addr + (g.inner (ceilTo g.cell x) (floorTo g.cell y)).2) > intervalLength result
    · refine ⟨_, congrArg Except.ok (if_pos hlarger), Or.inr ⟨hcopyable, hlarger⟩, fun _ => ?_⟩
      exact (Nat.zero_le _).trans_lt hlarger
    · refine ⟨_, congrArg Except.ok (if_neg hlarger), Or.inl rfl, fun _ => ?_⟩
      have := hcopyable.nonempty
      unfold intervalLength at hlarger ⊢
      omega

private theorem copyableLoop_spec (h : params.Regular) (hlevels : params.levels = 1) {regions : IntervalSet}
    (hregions : ∀ i ∈ regions, surface.ValidRegion params i) (result : Nat × Nat) :
    ∃ last, regions.foldlM params.copyableTurn result = .ok last ∧
      (last = result ∨ surface.Copyable params last) ∧ intervalLength result ≤ intervalLength last ∧
      ((∃ i ∈ regions, HasTile params i) → 0 < intervalLength last) := by
  induction regions generalizing result with
  | nil => exact ⟨result, rfl, Or.inl rfl, Nat.le.refl, by simp⟩
  | cons i regions ih =>
    obtain ⟨next, hnext, hkeep, htile⟩ := copyableTurn_spec h hlevels (hregions i List.mem_cons_self) result
    obtain ⟨last, hlast, hlastKeep, hgrows, hlastTile⟩ :=
      ih (fun j hj => hregions j (List.mem_cons_of_mem _ hj)) next
    have hle : intervalLength result ≤ intervalLength next := by
      rcases hkeep with rfl | ⟨-, hlt⟩
      · exact Nat.le.refl
      · exact hlt.le
    refine ⟨last, ?_, ?_, hle.trans hgrows, ?_⟩
    · rw [List.foldlM_cons, hnext]
      exact hlast
    · rcases hlastKeep with rfl | hcopyable
      · exact hkeep.imp_right And.left
      · exact Or.inr hcopyable
    · rintro ⟨j, hj, hsome⟩
      rcases List.mem_cons.mp hj with rfl | hj
      · exact (htile hsome).trans_le hgrows
      · exact hlastTile ⟨j, hj, hsome⟩

/-- `GetCopyableInterval` gives a valid rectangle, or nothing if no whole tile is valid. -/
theorem getCopyableInterval_spec (surface : Surface) (h : params.Regular) (hlevels : params.levels = 1) :
    ∃ result, surface.getCopyableInterval params = .ok result ∧
      (result = (0, 0) ∨ surface.Copyable params result) ∧
      ((∃ i, surface.ValidRegion params i ∧ HasTile params i) → surface.Copyable params result) := by
  obtain ⟨result, hresult, hkeep, -, htile⟩ :=
    copyableLoop_spec h hlevels (fun i (hi : i ∈ surface.validRegions params) => validRegion_of_mem hi) (0, 0)
  refine ⟨result, hresult, hkeep, ?_⟩
  rintro ⟨i, hvalid, a, hdvd, hlower, hupper⟩
  obtain ⟨p, hp, h1, h2⟩ := hvalid.exists_region
  have hpos := htile ⟨p, hp, a, hdvd, h1.trans hlower, hupper.trans h2⟩
  rcases hkeep with rfl | hcopyable
  · exact absurd hpos (by decide)
  · exact hcopyable

def OfShape (fault : LayoutFault) : Prop := fault ≠ .noLevel ∧ fault ≠ .copyInterval ∧ fault ≠ .uploadRange

instance (fault : LayoutFault) : Decidable (OfShape fault) := inferInstanceAs (Decidable (_ ∧ _))

/-- The computation fails for the shape of its arguments only. -/
abbrev Shaped {α : Type} (x : Except LayoutFault α) : Prop := Outcome OfShape (fun _ => True) x

theorem finishParams_shaped (params : SurfaceParams) : Shaped params.finishParams := by
  unfold SurfaceParams.finishParams
  cases hupdate : SurfaceParams.updateParams { params with levels := 1 } with
  | ok updated => trivial
  | error fault => exact ⟨LayoutFault.noConfusion, LayoutFault.noConfusion, LayoutFault.noConfusion⟩

theorem fromInterval_shaped (params : SurfaceParams) (l u : Nat) : Shaped (params.fromInterval l u) := by
  refine Outcome.ite (fun _ => .error (by decide)) fun _ => Outcome.ite (fun _ => .error (by decide)) fun _ =>
    Outcome.ite (fun _ => .error (by decide)) fun _ => Outcome.ite (fun _ => ?_) fun _ => ?_
  · exact Outcome.ite (fun _ => .error (by decide)) fun _ => finishParams_shaped _
  · exact Outcome.ite (fun _ => .error (by decide)) fun _ =>
      Outcome.ite (fun _ => .error (by decide)) fun _ => finishParams_shaped _

theorem getSubRect_shaped (params subSurface : SurfaceParams) : Shaped (params.getSubRect subSurface) := by
  exact Outcome.ite (fun _ => .error (by decide)) fun _ => Outcome.ite (fun _ => .error (by decide)) fun _ =>
    Outcome.ite (fun _ => trivial) fun _ => trivial

theorem canSubRect_shaped (params subSurface : SurfaceParams) : Shaped (params.canSubRect subSurface) := by
  exact Outcome.ite (fun _ => trivial) fun _ => Outcome.ite (fun _ => .error (by decide)) fun _ =>
    Outcome.ite (fun _ => trivial) fun _ => Outcome.ite (fun _ => trivial) fun _ =>
      Outcome.bind (getSubRect_shaped _ _) fun _ _ => trivial

theorem canFill_shaped (surface : Surface) (destSurface : SurfaceParams) (fill : Nat × Nat) (repeats : Bool) :
    Shaped (surface.canFill destSurface fill repeats) := by
  exact Outcome.ite (fun _ => Outcome.bind (fromInterval_shaped _ _ _) fun _ _ => trivial) fun _ => trivial

theorem largestRect_shaped (params : SurfaceParams) (aligned : Nat × Nat) : Shaped (params.largestRect aligned) := by
  exact Outcome.ite (fun _ => .error (by decide)) fun _ => Outcome.ite (fun _ => trivial) fun _ =>
    Outcome.ite (fun _ => trivial) fun _ => trivial

theorem getCopyableInterval_shaped (surface : Surface) (params : SurfaceParams) :
    Shaped (surface.getCopyableInterval params) := by
  refine Outcome.foldlM trivial fun result i _ _ => ?_
  exact Outcome.ite (fun _ => .error (by decide)) fun _ => Outcome.ite (fun _ => trivial) fun _ =>
    Outcome.bind (largestRect_shaped _ _) fun _ _ => trivial

theorem Copyable.canCopy_shaped (h : surface.Copyable params i) (repeats : Bool) :
    Shaped (surface.canCopy params i repeats) := by
  obtain ⟨part, hpart, hinterval⟩ := h.rect
  unfold canCopy
  rw [hpart]
  show Shaped (if part.interval ≠ i then _ else _)
  rw [if_neg (not_not_intro hinterval)]
  exact Outcome.bind (canSubRect_shaped _ _) fun _ _ => Outcome.ite (fun _ => trivial) fun _ => canFill_shaped _ _ _ _

/-- The assertion in `CopySurface` holds for an interval that is a rectangle of the destination. -/
theorem copySurface_shaped {src dst : Surface}
    (h : ∃ part, dst.params.fromInterval i.1 i.2 = .ok part ∧ part.interval = i) :
    Shaped (src.copySurface dst i) := by
  obtain ⟨part, hpart, hinterval⟩ := h
  unfold copySurface
  rw [hpart]
  show Shaped (if part.interval ≠ i then _ else _)
  rw [if_neg (not_not_intro hinterval)]
  exact Outcome.ite (fun _ => Outcome.bind (getSubRect_shaped _ _) fun _ _ => trivial) fun _ =>
    Outcome.bind (getSubRect_shaped _ _) fun _ _ => Outcome.bind (getSubRect_shaped _ _) fun _ _ => trivial

theorem Shaped.ne_copyInterval {α : Type} {x : Except LayoutFault α} (h : Shaped x) : x ≠ .error .copyInterval := by
  rintro rfl
  exact h.2.1 rfl

structure SingleShape (params : SurfaceParams) : Prop where
  supported : formatInfo params.pixelFormat ≠ none
  updated : params.updateParams = .ok params
  levels : params.levels = 1
  stride : params.stride = params.width
  width_dvd : params.tiledSize ∣ params.width
  height_dvd : params.tiledSize ∣ params.height
  addr_lt : params.addr < 2 ^ 32
  width_lt : params.width < 2 ^ 32
  height_lt : params.height < 2 ^ 32

/-- `GetCopyableInterval` gives nothing or a valid rectangle, and a rectangle if a whole tile is valid.  Then the
assertions hold in `CanCopy`, and in `CopySurface` for every surface that the parameters were taken from. -/
def CopiesRectangle (surface : Surface) (params : SurfaceParams) : Prop :=
  ∃ result, surface.getCopyableInterval params = .ok result ∧
    (result = (0, 0) ∨ surface.Copyable params result) ∧
    ((∃ i, surface.ValidRegion params i ∧ HasTile params i) → surface.Copyable params result) ∧
    (surface.Copyable params result →
      (∀ repeats, surface.canCopy params result repeats ≠ .error .copyInterval) ∧
      ∀ dst : Surface, dst.params.Regular → ∀ level (i outer : Nat × Nat),
        dst.params.levelInterval level = .ok outer → SurfaceParams.Within i outer → i.1 < i.2 →
        dst.params.fromInterval i.1 i.2 = .ok params → surface.copySurface dst result ≠ .error .copyInterval)

private theorem validRegions_of_wrap (surface : Surface) {params : SurfaceParams} (h : params.endAddr ≤ params.addr) :
    surface.validRegions params = [] := by
  rw [List.eq_nil_iff_forall_not_mem]
  intro i hi
  have hvalid := validRegion_of_mem hi
  have hnonempty := hvalid.nonempty
  obtain ⟨h1, h2⟩ := hvalid.inParams
  unfold SurfaceParams.interval at h1 h2
  omega

/-- The result of `GetCopyableInterval`, for parameters of less than 2^32 bits with whole bytes in a line of a tile. -/
theorem copiesRectangle_of_shape (surface : Surface) {params : SurfaceParams} (h : SingleShape params)
    (hline : 8 ∣ params.tiledSize * params.formatBpp)
    (hbits : params.width * params.height * params.formatBpp < 2 ^ 32) : surface.CopiesRectangle params := by
  by_cases hend : params.addr + params.size < 2 ^ 32
  · have hregular : params.Regular := {
      supported := h.supported
      tiledSize_dvd := h.height_dvd
      updated := h.updated
      stride := h.stride
      levels_pos := by rw [h.levels]; exact Nat.one_pos
      levels_le := by rw [h.levels]; decide
      width_dvd := by rw [h.levels, Nat.sub_self, Nat.pow_zero, Nat.mul_one]; exact h.width_dvd
      height_dvd := by rw [h.levels, Nat.sub_self, Nat.pow_zero, Nat.mul_one]; exact h.height_dvd
      line_dvd := hline
      bits_lt := hbits
      end_lt := hend }
    obtain ⟨result, hresult, hkeep, htile⟩ := getCopyableInterval_spec surface hregular h.levels
    refine ⟨result, hresult, hkeep, htile, fun hcopyable =>
      ⟨fun repeats => (hcopyable.canCopy_shaped repeats).ne_copyInterval, ?_⟩⟩
    intro dst hdst level i outer hlevel hi hne hpart
    exact (copySurface_shaped (hdst.fromInterval_part hlevel hi hne hpart hcopyable.inParams hcopyable.nonempty
      hcopyable.rect)).ne_copyInterval
  · obtain ⟨type, hinfo⟩ := SurfaceParams.formatInfo_eq h.supported
    have hupdate := SurfaceParams.updateParams_single hinfo h.levels h.stride h.height_dvd hbits
    have hsize := congrArg SurfaceParams.size (Except.ok.inj (hupdate.symm.trans h.updated))
    dsimp only at hsize
    have haddr := h.addr_lt
    have hwrap : params.endAddr ≤ params.addr := by
      unfold SurfaceParams.endAddr addU32
      omega
    refine ⟨(0, 0), ?_, Or.inl rfl, ?_, fun hcopyable => absurd hcopyable.nonempty (by decide)⟩
    · unfold getCopyableInterval
      rw [validRegions_of_wrap surface hwrap]
      rfl
    · rintro ⟨i, hvalid, -⟩
      have hnonempty := hvalid.nonempty
      obtain ⟨h1, h2⟩ := hvalid.inParams
      unfold SurfaceParams.interval at h1 h2
      dsimp only at h1 h2
      omega

namespace CopyExamples

def halfByte : SurfaceParams where
  addr := 0x1000
  size := 1
  width := 2
  height := 1
  stride := 2
  pixelFormat := .i4
  type := .texture

def wide : SurfaceParams where
  addr := 0x1000
  size := 64
  width := 2 ^ 29 + 8
  height := 16
  stride := 2 ^ 29 + 8
  isTiled := true
  pixelFormat := .i4
  type := .texture

def valid : Surface where
  params :=
    { addr := 0x1000, size := 64, width := 16, height := 1, stride := 16, pixelFormat := .rgba8, type := .color }

theorem halfByte_shape : SingleShape halfByte := by constructor <;> decide

theorem wide_shape : SingleShape wide := by constructor <;> decide

/-- The size of a pixel is rounded to no byte at all, and the tiles of rows that wrap around are not rows of the
parameters. -/
theorem not_copiesRectangle :
    (SingleShape halfByte ∧ ¬ valid.CopiesRectangle halfByte) ∧ SingleShape wide ∧ ¬ valid.CopiesRectangle wide := by
  refine ⟨⟨halfByte_shape, ?_⟩, wide_shape, ?_⟩
  · rintro ⟨result, hresult, -⟩
    have hfault : valid.getCopyableInterval halfByte = .error .divisionByZero := by decide +kernel
    rw [hfault] at hresult
    cases hresult
  · rintro ⟨result, hresult, hkeep, -⟩
    have hcopied : valid.getCopyableInterval wide = .ok (0x1000, 0x1040) := by decide +kernel
    obtain rfl := Except.ok.inj (hcopied.symm.trans hresult)
    rcases hkeep with heq | hcopyable
    · exact absurd heq (by decide)
    · obtain ⟨part, hpart, hinterval⟩ := hcopyable.rect
      have hempty : wide.fromInterval 0x1000 0x1040 = .ok { wide with size := 0, height := 0 } := by decide +kernel
      obtain rfl := Except.ok.inj (hempty.symm.trans hpart)
      exact absurd hinterval (by decide)

/-- A row of pixels of four bytes, with two bytes of the second one invalid. -/
theorem torn_copiesRectangle : (valid.markInvalid 0x1005 0x1007).CopiesRectangle valid.params :=
  copiesRectangle_of_shape _ (by constructor <;> decide) (by decide) (by decide)

end CopyExamples

end Surface

end SweepDSEmu.VideoCore
