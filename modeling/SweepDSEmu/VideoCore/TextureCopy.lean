import SweepDSEmu.Lib.BoundedLoop
import SweepDSEmu.Lib.Strided
import SweepDSEmu.VideoCore.MemoryFill

/-!
# Texture copies

`TextureCopy` of the software blitter copies lines with gaps to lines with other gaps, in one loop that moves two
pointers.  The region of a side that the rasterizer flushes or invalidates is computed apart from the loop.

The pointers are those of physical addresses.  They are not checked against the end of a region.
-/

namespace SweepDSEmu.VideoCore

open Memory RasterizerCache

/-- What a texture copy reads of `DisplayTransferConfig`. -/
structure TextureCopyConfig where
  inputAddress : UInt32
  outputAddress : UInt32
  size : UInt32
  inputSize : UInt32
  outputSize : UInt32
  deriving DecidableEq

/-- `input_size` or `output_size`: the width of the lines and the gap behind each. -/
structure Lines where
  width : Nat
  gap : Nat
  deriving DecidableEq

def linesOf (sizeField : UInt32) (remainingSize : Nat) : Lines :=
  let gap := sizeField.toNat / 2 ^ 16 * 16
  { width := if gap = 0 then remainingSize else sizeField.toNat % 2 ^ 16 * 16, gap := gap }

namespace TextureCopyConfig

variable (config : TextureCopyConfig)

def getPhysicalInputAddress : Nat := (decodeAddressRegister config.inputAddress).toNat

def getPhysicalOutputAddress : Nat := (decodeAddressRegister config.outputAddress).toNat

def copiedSize : Nat := alignDown config.size.toNat 16

def input : Lines := linesOf config.inputSize config.copiedSize

def output : Lines := linesOf config.outputSize config.copiedSize

/-- `contiguous_input_size` and `contiguous_output_size`. -/
def contiguousSize (lines : Lines) : Nat := mulU32 (config.size.toNat / lines.width) (addU32 lines.width lines.gap)

end TextureCopyConfig

/-- The variables of the loop, the calls of `memcpy` so far (source, destination and size) and the memory. -/
structure CopyState where
  input : Cursor
  output : Cursor
  remainingSize : Nat
  copies : List (Nat × Nat × Nat) := []
  mem : Contents

inductive CopyFault where
  | outOfTurns
  deriving DecidableEq

namespace SwBlitter

def copyTurn (config : TextureCopyConfig) (s : CopyState) : Except CopyFault CopyState :=
  let copySize := min (min s.input.remaining s.output.remaining) s.remainingSize
  let src := config.getPhysicalInputAddress + s.input.offset
  let dst := config.getPhysicalOutputAddress + s.output.offset
  .ok
    { input := s.input.advance config.input.width config.input.gap copySize
      output := s.output.advance config.output.width config.output.gap copySize
      remainingSize := s.remainingSize - copySize
      copies := s.copies ++ [(src, dst, copySize)]
      mem := overwrite s.mem dst copySize fun i => s.mem (src + i) }

def copyStart (config : TextureCopyConfig) (mem : Contents) : CopyState :=
  { input := { offset := 0, remaining := config.input.width }
    output := { offset := 0, remaining := config.output.width }
    remainingSize := config.copiedSize
    mem := mem }

def copyLoop (bound : Nat) (config : TextureCopyConfig) (mem : Contents) : Except CopyFault CopyState :=
  BoundedLoop.run (fun s => s.remainingSize == 0) (copyTurn config) .outOfTurns bound (copyStart config mem)

end SwBlitter

/-- What a texture copy does: the region for `FlushRegion`, the region for `FlushAndInvalidateRegion` or
`InvalidateRegion`, the calls of `memcpy` and the memory that is left. -/
structure TextureCopied where
  flushed : Option (Nat × Nat) := none
  invalidated : Option (Nat × Nat) := none
  invalidatedFlushes : Bool := false
  copies : List (Nat × Nat × Nat) := []
  mem : Contents

namespace SwBlitter

/-- The announced regions, with what the loop leaves. -/
def copied (config : TextureCopyConfig) (s : CopyState) : TextureCopied :=
  { flushed := some (config.getPhysicalInputAddress, config.contiguousSize config.input)
    invalidated := some (config.getPhysicalOutputAddress, config.contiguousSize config.output)
    invalidatedFlushes := config.output.gap != 0
    copies := s.copies
    mem := s.mem }

/-- `SwBlitter::TextureCopy`, with `bound` turns of the loop at most. -/
def textureCopy (bound : Nat) (config : TextureCopyConfig) (mem : Contents) : Except CopyFault TextureCopied :=
  if ¬ isValidPhysicalAddress config.getPhysicalInputAddress then .ok { mem := mem }
  else if ¬ isValidPhysicalAddress config.getPhysicalOutputAddress then .ok { mem := mem }
  else if config.copiedSize = 0 then .ok { mem := mem }
  else if config.input.width = 0 then .ok { mem := mem }
  else if config.output.width = 0 then .ok { mem := mem }
  else do
    let s ← copyLoop bound config mem
    .ok (copied config s)

end SwBlitter

namespace TextureCopyConfig

variable (config : TextureCopyConfig)

/-- The address of the `n`-th byte that is read. -/
def sourceByte (n : Nat) : Nat := config.getPhysicalInputAddress + strided config.input.width config.input.gap n

/-- The address of the `n`-th byte that is written. -/
def destByte (n : Nat) : Nat := config.getPhysicalOutputAddress + strided config.output.width config.output.gap n

/-- No byte is both read and written. -/
def Apart : Prop := ∀ m < config.copiedSize, ∀ n < config.copiedSize, config.destByte m ≠ config.sourceByte n

end TextureCopyConfig

def byteMoves (copies : List (Nat × Nat × Nat)) : List (Nat × Nat) :=
  copies.flatMap fun c => (List.range c.2.2).map fun i => (c.1 + i, c.2.1 + i)

/-- The memory after `n` bytes. -/
def Moved (config : TextureCopyConfig) (before : Contents) (n : Nat) (mem : Contents) : Prop :=
  (∀ m < n, mem (config.destByte m) = before (config.sourceByte m)) ∧
    ∀ a, (∀ m < n, a ≠ config.destByte m) → mem a = before a

structure CopiedUpTo (config : TextureCopyConfig) (before : Contents) (n : Nat) (s : CopyState) : Prop where
  le : n ≤ config.copiedSize
  input : s.input = .atIndex config.input.width config.input.gap n
  output : s.output = .atIndex config.output.width config.output.gap n
  remainingSize : s.remainingSize = config.copiedSize - n
  moves : byteMoves s.copies = (List.range n).map fun k => (config.sourceByte k, config.destByte k)
  moved : config.Apart → Moved config before n s.mem

private theorem byteMoves_append (copies : List (Nat × Nat × Nat)) (src dst copySize : Nat) :
    byteMoves (copies ++ [(src, dst, copySize)]) =
      byteMoves copies ++ (List.range copySize).map fun i => (src + i, dst + i) := by
  unfold byteMoves
  rw [List.flatMap_append, List.flatMap_singleton]

private theorem Moved.block {config : TextureCopyConfig} {before mem : Contents} {n copySize : Nat}
    (h : Moved config before n mem) (hapart : config.Apart) (hwidth : 0 < config.output.width)
    (hle : n + copySize ≤ config.copiedSize)
    (hsource : ∀ i < copySize, config.sourceByte (n + i) = config.sourceByte n + i)
    (hdest : ∀ i < copySize, config.destByte (n + i) = config.destByte n + i) :
    Moved config before (n + copySize)
      (overwrite mem (config.destByte n) copySize fun i => mem (config.sourceByte n + i)) := by
  have hmono : StrictMono config.destByte := fun a b hab => Nat.add_lt_add_left (strided_strictMono hwidth hab) _
  constructor
  · intro m hm
    rcases Nat.lt_or_ge m n with hmn | hmn
    · have hbefore := hmono hmn
      rw [overwrite_of_not_mem (by omega)]
      exact h.1 m hmn
    · obtain ⟨i, rfl⟩ := Nat.exists_eq_add_of_le hmn
      have hi : i < copySize := by omega
      rw [hdest i hi, overwrite_of_mem (Nat.le_add_right _ _) (by omega), Nat.add_sub_cancel_left, ← hsource i hi]
      exact h.2 _ fun m' hm' => (hapart m' (by omega) (n + i) (by omega)).symm
  · intro a ha
    rw [overwrite_of_not_mem ?_]
    · exact h.2 a fun m hm => ha m (by omega)
    · rintro ⟨hstart, hend⟩
      refine ha (n + (a - config.destByte n)) (by omega) ?_
      rw [hdest _ (by omega)]
      omega

private theorem CopiedUpTo.turn {config : TextureCopyConfig} {before : Contents} {n : Nat} {s : CopyState}
    (h : CopiedUpTo config before n s) (hinput : 0 < config.input.width) (houtput : 0 < config.output.width)
    (hlt : n < config.copiedSize) :
    ∃ m t, n < m ∧ SwBlitter.copyTurn config s = .ok t ∧ CopiedUpTo config before m t := by
  have hle := h.le
  obtain ⟨copySize, hcopySize⟩ : ∃ c, c = min (min s.input.remaining s.output.remaining) s.remainingSize := ⟨_, rfl⟩
  have hin : copySize ≤ (Cursor.atIndex config.input.width config.input.gap n).remaining := by
    rw [← h.input]
    omega
  have hout : copySize ≤ (Cursor.atIndex config.output.width config.output.gap n).remaining := by
    rw [← h.output]
    omega
  have hpos : 0 < copySize := by
    have hinpos := Cursor.remaining_pos config.input.gap n hinput
    have houtpos := Cursor.remaining_pos config.output.gap n houtput
    rw [← h.input] at hinpos
    rw [← h.output] at houtpos
    have := h.remainingSize
    omega
  have hrest := h.remainingSize
  have hline (width gap : Nat) (hle : copySize ≤ (Cursor.atIndex width gap n).remaining) (i : Nat) (hi : i < copySize) :
      strided width gap (n + i) = strided width gap n + i := by
    refine strided_add ?_
    unfold Cursor.atIndex at hle
    dsimp only at hle
    omega
  have hsource (i : Nat) (hi : i < copySize) : config.sourceByte (n + i) = config.sourceByte n + i := by
    unfold TextureCopyConfig.sourceByte
    rw [hline _ _ hin i hi, Nat.add_assoc]
  have hdest (i : Nat) (hi : i < copySize) : config.destByte (n + i) = config.destByte n + i := by
    unfold TextureCopyConfig.destByte
    rw [hline _ _ hout i hi, Nat.add_assoc]
  refine ⟨n + copySize, _, by omega, rfl, ?_⟩
  rw [← hcopySize]
  constructor
  · omega
  · dsimp only
    rw [h.input, Cursor.advance_atIndex hinput hin]
  · dsimp only
    rw [h.output, Cursor.advance_atIndex houtput hout]
  · dsimp only
    omega
  · dsimp only
    rw [byteMoves_append, h.moves, List.range_add, List.map_append, List.map_map, h.input, h.output]
    refine congrArg _ (List.map_congr_left fun i hi => ?_)
    rw [List.mem_range] at hi
    exact (congrArg₂ Prod.mk (hsource i hi) (hdest i hi)).symm
  · intro hapart
    rw [h.input, h.output]
    exact (h.moved hapart).block hapart houtput (by omega) hsource hdest

private theorem copyStart_copiedUpTo (config : TextureCopyConfig) (mem : Contents) :
    CopiedUpTo config mem 0 (SwBlitter.copyStart config mem) where
  le := Nat.zero_le _
  input := (Cursor.atIndex_zero _ _).symm
  output := (Cursor.atIndex_zero _ _).symm
  remainingSize := (Nat.sub_zero _).symm
  moves := rfl
  moved _ := ⟨fun _ hm => absurd hm (Nat.not_lt_zero _), fun _ _ => rfl⟩

private theorem copyLoop_returns {config : TextureCopyConfig} (hinput : 0 < config.input.width)
    (houtput : 0 < config.output.width) (mem : Contents) :
    ∃ s, CopiedUpTo config mem config.copiedSize s ∧
      ∀ bound > config.copiedSize, SwBlitter.copyLoop bound config mem = .ok s := by
  have hunfinished {n : Nat} {s : CopyState} (h : CopiedUpTo config mem n s) (hfinished : (s.remainingSize == 0) = false) :
      n < config.copiedSize := by
    have := h.remainingSize
    rw [beq_eq_false_iff_ne] at hfinished
    omega
  have hranked : BoundedLoop.Ranked (fun s : CopyState => s.remainingSize == 0) (SwBlitter.copyTurn config)
      (fun s => ∃ n, CopiedUpTo config mem n s) CopyState.remainingSize := by
    rintro s ⟨n, h⟩ hfinished
    obtain ⟨m, t, hnm, hturn, ht⟩ := h.turn hinput houtput (hunfinished h hfinished)
    rw [hturn]
    refine ⟨⟨m, ht⟩, ?_⟩
    have := hunfinished h hfinished
    rw [h.remainingSize, ht.remainingSize]
    omega
  have hstart := copyStart_copiedUpTo config mem
  have houtcome (bound : Nat) (hbound : bound > config.copiedSize) : ∃ s,
      SwBlitter.copyLoop bound config mem = .ok s ∧ CopiedUpTo config mem config.copiedSize s := by
    have houtcome := BoundedLoop.run_outcome CopyFault.outOfTurns hranked ⟨0, hstart⟩ hbound
    obtain ⟨s, hs, ⟨n, h⟩, hfinished⟩ := (houtcome.weaken fun fault hfault => by
      obtain ⟨s, -, ⟨n, h⟩, hfinished, hturn⟩ := hfault
      obtain ⟨_, t, -, hturn', -⟩ := h.turn hinput houtput (hunfinished h hfinished)
      exact (nomatch hturn : False)).exists_ok
    have hn : n = config.copiedSize := by
      have := h.remainingSize
      have := h.le
      rw [beq_iff_eq] at hfinished
      omega
    exact ⟨s, hs, hn ▸ h⟩
  obtain ⟨s, hs, h⟩ := houtcome (config.copiedSize + 1) (Nat.lt_succ_self _)
  refine ⟨s, h, fun bound hbound => ?_⟩
  unfold SwBlitter.copyLoop at hs ⊢
  rw [BoundedLoop.run_mono (by rw [hs]; exact nofun) hbound, hs]

namespace TextureCopyConfig

variable {config : TextureCopyConfig}

def WholeLines (config : TextureCopyConfig) (lines : Lines) : Prop :=
  lines.gap = 0 ∨ (lines.width ∣ config.copiedSize ∧
    config.copiedSize / lines.width * (lines.width + lines.gap) < 2 ^ 32)

private theorem copiedSize_eq (config : TextureCopyConfig) : config.copiedSize = 16 * (config.size.toNat / 16) := by
  unfold copiedSize alignDown
  omega

private theorem size_div_width {lines : Lines} (hdvd : 16 ∣ lines.width) :
    config.size.toNat / lines.width = config.copiedSize / lines.width := by
  obtain ⟨w, hw⟩ := hdvd
  rw [hw, copiedSize_eq, Nat.mul_div_mul_left _ _ (by decide), Nat.div_div_eq_div_mul]

private theorem width_dvd {sizeField : UInt32} : 16 ∣ (linesOf sizeField config.copiedSize).width := by
  unfold linesOf
  dsimp only
  split
  · exact ⟨_, copiedSize_eq config⟩
  · exact Nat.dvd_mul_left _ _

private theorem width_add_gap_lt {sizeField : UInt32} :
    (linesOf sizeField config.copiedSize).width + (linesOf sizeField config.copiedSize).gap < 2 ^ 32 := by
  have hfield : sizeField.toNat < 2 ^ 32 := UInt32.toNat_lt _
  have hsize : config.size.toNat < 2 ^ 32 := UInt32.toNat_lt _
  have hcopied := copiedSize_eq config
  unfold linesOf
  dsimp only
  split <;> omega

private theorem strided_lt_contiguousSize {sizeField : UInt32} {n : Nat}
    (hlines : config.WholeLines (linesOf sizeField config.copiedSize)) (hn : n < config.copiedSize) :
    strided (linesOf sizeField config.copiedSize).width (linesOf sizeField config.copiedSize).gap n <
      config.contiguousSize (linesOf sizeField config.copiedSize) := by
  unfold contiguousSize
  rw [size_div_width width_dvd, show addU32 _ _ = _ from Nat.mod_eq_of_lt width_add_gap_lt]
  rcases hlines with hgap | ⟨hdvd, hlt⟩
  · have hwidth : (linesOf sizeField config.copiedSize).width = config.copiedSize := if_pos hgap
    have hlt : config.copiedSize < 2 ^ 32 := by
      have hsum : (linesOf sizeField config.copiedSize).width + (linesOf sizeField config.copiedSize).gap < 2 ^ 32 :=
        width_add_gap_lt
      omega
    rw [hgap, hwidth, strided_zero_gap, Nat.div_self (Nat.zero_lt_of_lt hn), Nat.add_zero,
      SurfaceParams.mulU32_eq (by omega), Nat.one_mul]
    exact hn
  · rw [SurfaceParams.mulU32_eq hlt]
    exact strided_lt_of_dvd hdvd hn

def Copies (config : TextureCopyConfig) : Prop :=
  isValidPhysicalAddress config.getPhysicalInputAddress ∧ isValidPhysicalAddress config.getPhysicalOutputAddress ∧
    config.copiedSize ≠ 0 ∧ config.input.width ≠ 0 ∧ config.output.width ≠ 0

end TextureCopyConfig

/-- The `n`-th byte of the one side goes to the `n`-th byte of the other one, and the regions hold the bytes of sides
with whole lines. -/
structure CopiesAll (config : TextureCopyConfig) (before : Contents) (r : TextureCopied) : Prop where
  moves : byteMoves r.copies =
    (List.range config.copiedSize).map fun n => (config.sourceByte n, config.destByte n)
  moved : config.Apart → Moved config before config.copiedSize r.mem
  flushed : ∃ size, r.flushed = some (config.getPhysicalInputAddress, size) ∧
    (config.WholeLines config.input → ∀ n < config.copiedSize,
      InRegion config.getPhysicalInputAddress size (config.sourceByte n))
  invalidated : ∃ size, r.invalidated = some (config.getPhysicalOutputAddress, size) ∧
    (config.WholeLines config.output → ∀ n < config.copiedSize,
      InRegion config.getPhysicalOutputAddress size (config.destByte n))

def gather (size inputSize : UInt32) : TextureCopyConfig :=
  { inputAddress := 0x03000000
    outputAddress := 0x03000200
    size := size
    inputSize := inputSize
    outputSize := 0 }

end SweepDSEmu.VideoCore
