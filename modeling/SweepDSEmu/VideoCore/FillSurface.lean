import SweepDSEmu.Memory.PhysicalMemory
import SweepDSEmu.VideoCore.CopyableInterval
import SweepDSEmu.Lib.FinNumerals

/-!
# Fill surfaces

A fill surface stands for memory that is filled with a pattern of two, three or four bytes.  `DownloadFillSurface`
writes the pattern to a part of the memory; `CanFill` compares it with the size of a pixel, and `MakeFillBuffer` gives
the bytes of the first pixel.

`patternByte` is the meaning of the surface: the byte at an offset.
-/

namespace SweepDSEmu.VideoCore

open Memory

/-- A surface of type `Fill`, with its pattern. -/
structure FillSurface where
  surface : Surface
  fillData : Fin 4 → UInt8
  fillSize : Nat
  sized : fillSize = 2 ∨ fillSize = 3 ∨ fillSize = 4

namespace FillSurface

variable (fill : FillSurface)

theorem fillSize_pos : 0 < fill.fillSize := by
  have := fill.sized
  omega

theorem fillSize_le : fill.fillSize ≤ 4 := by
  have := fill.sized
  omega

def patternByte (i : Nat) : UInt8 :=
  fill.fillData ⟨i % fill.fillSize, Nat.lt_of_lt_of_le (Nat.mod_lt i fill.fillSize_pos) fill.fillSize_le⟩

def fillLoop (dest : PhysicalRef) (coarseStartOffset endOffset : Nat) (mem : Contents) : Except RefFault Contents :=
  countedLoop coarseStartOffset endOffset fill.fillSize
    (fun mem offset => dest.copyIn offset (min fill.fillSize (endOffset - offset)) fill.patternByte mem) mem

def downloadFillSurface (interval : Nat × Nat) (mem : Contents) : Except RefFault Contents :=
  if ¬ (interval.1 ≥ fill.surface.params.addr ∧ interval.2 ≤ fill.surface.params.endAddr) then .error .assertion
  else
    match getPhysicalRef fill.surface.params.addr with
    | none => .ok mem
    | some dest =>
      let startOffset := subU32 interval.1 fill.surface.params.addr
      let endOffset := min (subU32 interval.2 fill.surface.params.addr) dest.size
      let coarseStartOffset := startOffset - startOffset % fill.fillSize
      let backupBytes := startOffset % fill.fillSize
      if backupBytes = 0 then fill.fillLoop dest coarseStartOffset endOffset mem
      else do
        let backupData ← dest.copyOut coarseStartOffset backupBytes mem
        let mem ← fill.fillLoop dest coarseStartOffset endOffset mem
        dest.copyIn coarseStartOffset backupBytes backupData mem

/-- The comparison of the pattern in `CanFill`.  `fill_test` consists of copies of the pattern. -/
def fillRepeats (bpp : Nat) : Bool :=
  if fill.fillSize * 8 ≠ bpp then
    let destBytesPerPixel := max (bpp / 8) 1
    let fillTest := fill.patternByte
    decide (∀ i < fill.fillSize, ∀ k < destBytesPerPixel, fillTest (destBytesPerPixel * i + k) = fillTest k) &&
      !(bpp == 4 && (fillTest 0 &&& (0xF : UInt8)) != fillTest 0 >>> 4)
  else true

def canFill (destSurface : SurfaceParams) (interval : Nat × Nat) : Except LayoutFault Bool :=
  fill.surface.canFill destSurface interval (fill.fillRepeats destSurface.formatBpp)

def makeFillBuffer (copyAddr : Nat) (i : Fin 4) : UInt8 :=
  fill.patternByte (subU32 copyAddr fill.surface.params.addr % fill.fillSize + i)

end FillSurface

def firstPixelByte (bpp : Nat) (hbpp : bpp ≤ 32) (buffer : Fin 4 → UInt8) (offset : Nat) : UInt8 :=
  if bpp = 4 then let pixel := buffer 0 &&& (0xF : UInt8); pixel ||| pixel <<< 4
  else
    buffer ⟨offset % max (bpp / 8) 1, by
      have := Nat.mod_lt offset (show 0 < max (bpp / 8) 1 by omega)
      omega⟩

namespace FillSurface

variable {fill : FillSurface}

theorem patternByte_congr {i j : Nat} (h : i % fill.fillSize = j % fill.fillSize) :
    fill.patternByte i = fill.patternByte j := by
  exact congrArg fill.fillData (Fin.ext h)

theorem patternByte_add (i k : Nat) : fill.patternByte (fill.fillSize * k + i) = fill.patternByte i :=
  patternByte_congr (by rw [Nat.mul_add_mod])

private theorem fillLoop_eq {dest : PhysicalRef} {coarse stop : Nat} (hcoarse : fill.fillSize ∣ coarse)
    (hstop : stop ≤ dest.size) (mem : Contents) :
    fill.fillLoop dest coarse stop mem =
      .ok (overwrite mem (dest.address + coarse) (stop - coarse) fun i => fill.patternByte (coarse + i)) := by
  obtain ⟨c, hc⟩ := hcoarse
  unfold fillLoop
  by_cases hlt : coarse < stop
  · let Filled (i : Nat) (t : Contents) : Prop :=
      t = overwrite mem (dest.address + coarse) (min i stop - coarse) fun i => fill.patternByte (coarse + i)
    have hstart : Filled coarse mem := by
      show mem = _
      rw [Nat.min_eq_left hlt.le, Nat.sub_self, overwrite_zero]
    refine Outcome.eq_ok ((countedLoop_outcome Filled fill.fillSize_pos hstart ?_).mono ?_)
    · rintro k t hk rfl
      rw [PhysicalRef.copyIn_of_holds (.inr (by omega))]
      show _ = _
      have hwritten : min (coarse + fill.fillSize * k) stop - coarse = fill.fillSize * k := by omega
      have hcount : min (coarse + fill.fillSize * (k + 1)) stop - coarse =
          fill.fillSize * k + min fill.fillSize (stop - (coarse + fill.fillSize * k)) := by
        rw [Nat.mul_succ]
        omega
      rw [hwritten, hcount, ← overwrite_append, ← Nat.add_assoc]
      refine overwrite_congr fun i _ => ?_
      rw [hc, ← Nat.add_assoc, ← Nat.mul_add, patternByte_add]
    · rintro t rfl
      rw [Nat.min_eq_right (le_loopEnd fill.fillSize_pos)]
  · rw [countedLoop_of_le fill.fillSize_pos (by omega), Nat.sub_eq_zero_of_le (by omega), overwrite_zero]

/-- The memory with the bytes from `first` up to `last` as the surface means them. -/
def filled (fill : FillSurface) (first last : Nat) (mem : Contents) : Contents :=
  fun a => if first ≤ a ∧ a < last then fill.patternByte (a - fill.surface.params.addr) else mem a

theorem filled_eq {first last : Nat} (haddr : fill.surface.params.addr ≤ first) (mem : Contents) :
    fill.filled first last mem = overwrite mem first (last - first) fun i =>
      fill.patternByte (first - fill.surface.params.addr + i) := by
  funext a
  unfold filled overwrite
  by_cases ha : first ≤ a ∧ a < last
  · rw [if_pos ha, if_pos (by omega)]
    exact congrArg fill.patternByte (by omega)
  · rw [if_neg ha, if_neg (by omega)]

theorem downloadFillSurface_fills {interval : Nat × Nat} {info : PhysMemRegionInfo}
    (hinfo : getPhysMemRegionInfo fill.surface.params.addr = some info)
    (hstart : fill.surface.params.addr ≤ interval.1) (hle : interval.1 ≤ interval.2)
    (hend : interval.2 ≤ fill.surface.params.endAddr)
    (hregion : interval.1 ≤ info.regionEnd ∨ fill.fillSize ∣ interval.1 - fill.surface.params.addr) (mem : Contents) :
    fill.downloadFillSurface interval mem = .ok (fill.filled interval.1 (min interval.2 info.regionEnd) mem) := by
  have haddr := (getPhysMemRegionInfo_mem hinfo).2.1
  have hlt : interval.2 < 2 ^ 32 := Nat.lt_of_le_of_lt hend (Nat.mod_lt _ (by decide))
  unfold downloadFillSurface
  rw [if_neg (not_not_intro ⟨hstart, hend⟩), getPhysicalRef_eq hinfo, SurfaceParams.subU32_eq hstart (by omega),
    SurfaceParams.subU32_eq (by omega) (by omega), filled_eq hstart]
  dsimp only
  generalize fill.surface.params.addr = addr at *
  have hcoarse : fill.fillSize ∣ interval.1 - addr - (interval.1 - addr) % fill.fillSize := Nat.dvd_sub_mod _
  have hmod := Nat.mod_le (interval.1 - addr) fill.fillSize
  rw [fillLoop_eq hcoarse (Nat.min_le_right _ _)]
  by_cases hbackup : (interval.1 - addr) % fill.fillSize = 0
  · have hfirst : addr + (interval.1 - addr) = interval.1 := Nat.add_sub_of_le hstart
    have hcount : min (interval.2 - addr) (info.regionEnd - addr) - (interval.1 - addr) =
        min interval.2 info.regionEnd - interval.1 := by omega
    rw [if_pos hbackup, hbackup, Nat.sub_zero, hfirst, hcount]
  · -- the bytes of the pattern in front of the interval are put back
    have hin : interval.1 ≤ info.regionEnd := by
      rcases hregion with hin | hdvd
      · exact hin
      · exact absurd (Nat.mod_eq_zero_of_dvd hdvd) hbackup
    have hholds : interval.1 - addr - (interval.1 - addr) % fill.fillSize + (interval.1 - addr) % fill.fillSize ≤
        info.regionEnd - addr := by omega
    rw [if_neg hbackup, PhysicalRef.copyOut_of_holds (.inr hholds)]
    dsimp only [ok_bind]
    rw [PhysicalRef.copyIn_of_holds (.inr hholds), overwrite_restore]
    have hfirst : addr + (interval.1 - addr - (interval.1 - addr) % fill.fillSize) +
        (interval.1 - addr) % fill.fillSize = interval.1 := by omega
    have hcount : min (interval.2 - addr) (info.regionEnd - addr) -
        (interval.1 - addr - (interval.1 - addr) % fill.fillSize) - (interval.1 - addr) % fill.fillSize =
        min interval.2 info.regionEnd - interval.1 := by omega
    rw [hfirst, hcount]
    refine congrArg Except.ok (overwrite_congr fun i _ => congrArg fill.patternByte ?_)
    omega

theorem downloadFillSurface_unmapped {interval : Nat × Nat}
    (hinfo : getPhysMemRegionInfo fill.surface.params.addr = none)
    (hstart : fill.surface.params.addr ≤ interval.1) (hend : interval.2 ≤ fill.surface.params.endAddr)
    (mem : Contents) : fill.downloadFillSurface interval mem = .ok mem := by
  have href : getPhysicalRef fill.surface.params.addr = none := by
    unfold getPhysicalRef
    rw [hinfo]
    rfl
  unfold downloadFillSurface
  rw [if_neg (not_not_intro ⟨hstart, hend⟩), href]

theorem patternByte_periodic : Function.Periodic fill.patternByte fill.fillSize :=
  fun i => patternByte_congr (Nat.add_mod_right i fill.fillSize)

theorem fillRepeats_periodic {bpp : Nat} (h : fill.fillRepeats bpp = true) :
    Function.Periodic fill.patternByte (max (bpp / 8) 1) := by
  unfold fillRepeats at h
  by_cases hsize : fill.fillSize * 8 ≠ bpp
  · rw [if_pos hsize] at h
    rw [Bool.and_eq_true, decide_eq_true_eq] at h
    exact periodic_of_blocks fill.fillSize_pos patternByte_periodic h.1 (by omega)
  · have hb : max (bpp / 8) 1 = fill.fillSize := by
      have := fill.sized
      omega
    rw [hb]
    exact patternByte_periodic

private theorem repeated_nibble (byte : UInt8) (h : byte &&& (0xF : UInt8) = byte >>> 4) :
    (byte &&& (0xF : UInt8)) ||| (byte &&& (0xF : UInt8)) <<< 4 = byte := by
  rcases byte with ⟨byte⟩
  revert byte
  decide +kernel

private theorem fillRepeats_nibble (h : fill.fillRepeats 4 = true) (i : Nat) :
    (fill.patternByte i &&& (0xF : UInt8)) ||| (fill.patternByte i &&& (0xF : UInt8)) <<< 4 = fill.patternByte i := by
  have hconst : fill.patternByte i = fill.patternByte 0 := by
    rw [← (fillRepeats_periodic h).map_mod_nat i]
    exact congrArg fill.patternByte (Nat.mod_one i)
  unfold fillRepeats at h
  have hsize : fill.fillSize * 8 ≠ 4 := by
    have := fill.sized
    omega
  rw [if_pos hsize] at h
  rw [Bool.and_eq_true, decide_eq_true_eq] at h
  rw [hconst]
  refine repeated_nibble _ ?_
  simpa using h.2

theorem canFill_eq_true {destSurface : SurfaceParams} {interval : Nat × Nat}
    (h : fill.canFill destSurface interval = .ok true) :
    fill.surface.params.addr ≤ interval.1 ∧ interval.2 ≤ fill.surface.params.endAddr ∧
      fill.fillRepeats destSurface.formatBpp = true := by
  unfold canFill Surface.canFill at h
  by_cases hinside : fill.surface.params.type = .fill ∧ fill.surface.isRegionValid interval.1 interval.2 ∧
      interval.1 ≥ fill.surface.params.addr ∧ interval.2 ≤ fill.surface.params.endAddr
  · rw [if_pos hinside] at h
    obtain ⟨part, -, h⟩ := ok_of_bind h
    injection h with h
    rw [decide_eq_true_eq] at h
    exact ⟨hinside.2.2.1, hinside.2.2.2, h.2⟩
  · rw [if_neg hinside] at h
    cases h

theorem makeFillBuffer_repeats {bpp : Nat} (hbpp : bpp ≤ 32) (h : fill.fillRepeats bpp = true) {copyAddr a : Nat}
    (hstart : fill.surface.params.addr ≤ copyAddr) (hcopy : copyAddr < 2 ^ 32) (ha : copyAddr ≤ a) :
    firstPixelByte bpp hbpp (fill.makeFillBuffer copyAddr) (a - copyAddr) =
      fill.patternByte (a - fill.surface.params.addr) := by
  have hbuffer (i : Fin 4) : fill.makeFillBuffer copyAddr i =
      fill.patternByte (copyAddr - fill.surface.params.addr + i) := by
    unfold makeFillBuffer
    rw [SurfaceParams.subU32_eq hstart hcopy]
    exact patternByte_congr (Nat.mod_add_mod _ _ _)
  have hsum : copyAddr - fill.surface.params.addr + (a - copyAddr) = a - fill.surface.params.addr := by omega
  unfold firstPixelByte
  by_cases hfour : bpp = 4
  · subst hfour
    rw [hbuffer, fillRepeats_nibble h, ← (fillRepeats_periodic h).map_mod_nat,
      ← (fillRepeats_periodic h).map_mod_nat (a - _)]
    exact congrArg fill.patternByte (by rw [show max (4 / 8) 1 = 1 from rfl, Nat.mod_one, Nat.mod_one])
  · rw [if_neg hfour, hbuffer, ← hsum, ← (fillRepeats_periodic h).map_mod_nat,
      ← (fillRepeats_periodic h).map_mod_nat (_ + (a - _))]
    exact congrArg fill.patternByte (Nat.add_mod_mod _ _ _)

/-- A flush leaves in the region of the surface, and a copy takes from it, the bytes that the surface means. -/
theorem means_same (fill : FillSurface) (interval : Nat × Nat) :
    (∀ info, getPhysMemRegionInfo fill.surface.params.addr = some info → fill.surface.params.addr ≤ interval.1 →
      interval.1 ≤ interval.2 → interval.2 ≤ fill.surface.params.endAddr →
      (interval.1 ≤ info.regionEnd ∨ fill.fillSize ∣ interval.1 - fill.surface.params.addr) →
      ∀ mem, fill.downloadFillSurface interval mem =
        .ok (fill.filled interval.1 (min interval.2 info.regionEnd) mem)) ∧
    (getPhysMemRegionInfo fill.surface.params.addr = none → fill.surface.params.addr ≤ interval.1 →
      interval.2 ≤ fill.surface.params.endAddr → ∀ mem, fill.downloadFillSurface interval mem = .ok mem) ∧
    ∀ destSurface, fill.canFill destSurface interval = .ok true → ∀ a, interval.1 ≤ a → a < interval.2 →
      firstPixelByte destSurface.formatBpp destSurface.formatBpp_le (fill.makeFillBuffer interval.1)
        (a - interval.1) = fill.patternByte (a - fill.surface.params.addr) := by
  refine ⟨?_, ?_, ?_⟩
  · intro info hinfo hstart hle hend hregion mem
    exact downloadFillSurface_fills hinfo hstart hle hend hregion mem
  · intro hinfo hstart hend mem
    exact downloadFillSurface_unmapped hinfo hstart hend mem
  · intro destSurface hfill a ha halt
    obtain ⟨hstart, hend, hrepeats⟩ := canFill_eq_true hfill
    have hlt : fill.surface.params.endAddr < 2 ^ 32 := Nat.mod_lt _ (by decide)
    exact makeFillBuffer_repeats _ hrepeats hstart (by omega) ha

def threeBytes : FillSurface :=
  { surface := { params := { addr := 0x18000000, size := 0x10, type := .fill } }
    fillData := fun i => i.val.toUInt8
    fillSize := 3
    sized := by decide }

/-- The interval starts within a pattern. -/
theorem means_same_threeBytes :
    threeBytes.downloadFillSurface (0x18000004, 0x18000010) (fun _ => 0xFF) =
      .ok (threeBytes.filled 0x18000004 0x18000010 fun _ => 0xFF) :=
  (means_same threeBytes (0x18000004, 0x18000010)).1 ⟨0x18000000, 0x18600000⟩ rfl (by decide) (by decide)
    (by decide) (by decide) _

/-- A surface from the end of VRAM to the start of FCRAM. -/
def twoRegions : FillSurface :=
  { surface := { params := { addr := 0x185FFFF8, size := 0x7A00018, type := .fill } }
    fillData := fun _ => 0xFF
    fillSize := 2
    sized := by decide }

/-- What the surface covers of FCRAM is not written. -/
theorem twoRegions_unchanged :
    twoRegions.downloadFillSurface (0x20000000, 0x20000010) (fun _ => 0) ≠
      .ok (twoRegions.filled 0x20000000 0x20000010 fun _ => 0) := by
  rw [downloadFillSurface_fills (show getPhysMemRegionInfo 0x185FFFF8 = some ⟨0x18000000, 0x18600000⟩ from rfl)
    (by decide) (by decide) (by decide) (.inr (by decide))]
  intro h
  injection h with h
  have hbyte := congrFun h 0x20000000
  revert hbyte
  decide

end FillSurface

end SweepDSEmu.VideoCore
