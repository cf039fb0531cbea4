import SweepDSEmu.VideoCore.FillSurface

/-!
# Memory fills

`MemoryFill` of the software blitter writes a value of two, three or four bytes until it is behind the end; the cache
takes the fill as a surface, which is flushed later.  The first tests the bit for 24-bit values first, the other one the
bit for 32-bit values.

The backing memories of the regions lie anywhere in the memory of the host, as `backing` says.
-/

namespace SweepDSEmu.VideoCore

open Memory

structure MemoryFillConfig where
  addressStart : UInt32
  addressEnd : UInt32
  value32bit : UInt32
  control : UInt32
  deriving DecidableEq

def decodeAddressRegister (registerValue : UInt32) : UInt32 := registerValue * 8

namespace MemoryFillConfig

variable (config : MemoryFillConfig)

def getStartAddress : Nat := (decodeAddressRegister config.addressStart).toNat

def getEndAddress : Nat := (decodeAddressRegister config.addressEnd).toNat

def fill24bit : Bool := config.control.toNat.testBit 8

def fill32bit : Bool := config.control.toNat.testBit 9

def valueByte (i : Nat) : UInt8 := (config.value32bit >>> (8 * i).toUInt32).toUInt8

end MemoryFillConfig

def getPhysicalPointer (backing : PhysMemRegionInfo → Int) (address : Nat) : Option Int :=
  (getPhysMemRegionInfo address).map fun info => backing info + (address - info.regionStart : Int)

namespace SwBlitter

/-- The writes of `MemoryFill`, for a number of bytes between the two pointers. -/
def fillBytes (config : MemoryFillConfig) (start : PhysicalRef) (length : Int) (mem : Contents) :
    Except RefFault Contents :=
  if config.fill24bit then
    countedLoop 0 length.toNat 3 (fun mem ptr => start.copyIn ptr 3 config.valueByte mem) mem
  else if config.fill32bit then
    if length > 0 then
      countedLoop 0 (length.toNat / 4) 1 (fun mem i => start.copyIn (i * 4) 4 config.valueByte mem) mem
    else .ok mem
  else
    countedLoop 0 length.toNat 2 (fun mem ptr => start.copyIn ptr 2 config.valueByte mem) mem

def memoryFill (backing : PhysMemRegionInfo → Int) (config : MemoryFillConfig) (mem : Contents) :
    Except RefFault Contents :=
  if ¬ isValidPhysicalAddress config.getStartAddress then .ok mem
  else if ¬ isValidPhysicalAddress config.getEndAddress then .ok mem
  else if config.getEndAddress ≤ config.getStartAddress then .ok mem
  else
    match getPhysicalRef config.getStartAddress, getPhysicalPointer backing config.getStartAddress,
        getPhysicalPointer backing config.getEndAddress with
    | some start, some startPointer, some endPointer => fillBytes config start (endPointer - startPointer) mem
    | _, _, _ => .ok mem

end SwBlitter

def accelerateFill (config : MemoryFillConfig) : FillSurface where
  surface :=
    { params :=
        { addr := config.getStartAddress
          size := subU32 config.getEndAddress config.getStartAddress
          type := .fill
          resScale := 0xFFFF } }
  fillData i := config.valueByte i
  fillSize := if config.fill32bit then 4 else if config.fill24bit then 3 else 2
  sized := by
    cases config.fill32bit <;> cases config.fill24bit <;> decide

def accelerateFillAndFlush (config : MemoryFillConfig) (mem : Contents) : Except RefFault Contents :=
  (accelerateFill config).downloadFillSurface (accelerateFill config).surface.params.interval mem

private theorem writeLoop_outcome {start : PhysicalRef} {stop step width : Nat} {bytes : Nat → UInt8}
    {body : Contents → Nat → Except RefFault Contents} (hstep : 0 < step)
    (hbody : ∀ k mem, body mem (0 + step * k) = start.copyIn (width * k) width bytes mem) (mem : Contents) :
    Outcome (fun _ => start.size < width * loopTurns 0 stop step)
      (fun t => t = overwrite mem start.address (width * loopTurns 0 stop step) fun i => bytes (i % width))
      (countedLoop 0 stop step body mem) := by
  let Written (i : Nat) (t : Contents) : Prop :=
    t = overwrite mem start.address (width * (i / step)) fun i => bytes (i % width)
  have hstart : Written 0 mem := by
    show mem = _
    rw [Nat.zero_div, Nat.mul_zero, overwrite_zero]
  refine (countedLoop_outcome Written hstep hstart ?_).mono ?_
  · rintro k t hk ht
    have hindex (k : Nat) : (0 + step * k) / step = k := by
      rw [Nat.zero_add, Nat.mul_div_cancel_left k hstep]
    have hle : width * k + width ≤ width * loopTurns 0 stop step :=
      Nat.mul_le_mul_left width (le_loopTurns hstep hk)
    have hvalue : overwrite t (start.address + width * k) width bytes =
        overwrite mem start.address (width * (k + 1)) fun i => bytes (i % width) := by
      have hwritten : t = overwrite mem start.address (width * k) fun i => bytes (i % width) := by
        rw [ht, hindex]
      rw [hwritten, Nat.mul_succ, ← overwrite_append]
      refine overwrite_congr fun i hi => ?_
      rw [Nat.mul_add_mod, Nat.mod_eq_of_lt hi]
    rw [hbody]
    refine Outcome.ite (fun _ => ?_) fun hnot => ?_
    · show _ = _
      rw [hindex, hvalue]
    · unfold PhysicalRef.holds at hnot
      show start.size < _
      omega
  · rintro t ht
    have hend : loopEnd 0 stop step / step = loopTurns 0 stop step := by
      unfold loopEnd
      rw [Nat.zero_add, Nat.mul_div_cancel_left _ hstep]
    rw [ht, hend]

structure FillsRegion (config : MemoryFillConfig) (info : PhysMemRegionInfo) : Prop where
  found : getPhysMemRegionInfo config.getStartAddress = some info
  lt : config.getStartAddress < config.getEndAddress
  le : config.getEndAddress ≤ info.regionEnd

def FillsAgree (backing : PhysMemRegionInfo → Int) (config : MemoryFillConfig) : Prop :=
  ∀ mem, ∃ filled, SwBlitter.memoryFill backing config mem = .ok filled ∧ accelerateFillAndFlush config mem = .ok filled ∧
    ∀ a, ¬ (config.getStartAddress ≤ a ∧ a < config.getEndAddress) → filled a = mem a

namespace MemoryFillConfig

variable {config : MemoryFillConfig}

private theorem decode_dvd (registerValue : UInt32) : 8 ∣ (decodeAddressRegister registerValue).toNat := by
  show 8 ∣ registerValue.toNat * 8 % 2 ^ 32
  omega

private theorem length_dvd (config : MemoryFillConfig) : 8 ∣ config.getEndAddress - config.getStartAddress :=
  Nat.dvd_sub (decode_dvd _) (decode_dvd _)

def softwareWidth (config : MemoryFillConfig) : Nat :=
  if config.fill24bit then 3 else if config.fill32bit then 4 else 2

def softwareLength (config : MemoryFillConfig) : Nat :=
  config.softwareWidth * loopTurns 0 (config.getEndAddress - config.getStartAddress) config.softwareWidth

private theorem softwareLength_eq (h : config.fill24bit → 3 ∣ config.getEndAddress - config.getStartAddress) :
    config.softwareLength = config.getEndAddress - config.getStartAddress := by
  have hdvd := length_dvd config
  unfold softwareLength softwareWidth
  cases h24 : config.fill24bit with
  | true =>
    simp only [↓reduceIte]
    exact loopTurns_of_dvd (by decide) (h h24)
  | false =>
    cases config.fill32bit <;> simp only [↓reduceIte, Bool.false_eq_true] <;>
      exact loopTurns_of_dvd (by decide) (Nat.dvd_trans (by decide) hdvd)

end MemoryFillConfig

open MemoryFillConfig

private theorem fillBytes_outcome (config : MemoryFillConfig) (start : PhysicalRef)
    (hlt : config.getStartAddress < config.getEndAddress) (mem : Contents) :
    Outcome (fun _ => start.size < config.softwareLength)
      (fun t => t = overwrite mem start.address config.softwareLength fun i =>
        config.valueByte (i % config.softwareWidth))
      (SwBlitter.fillBytes config start (config.getEndAddress - config.getStartAddress : Nat) mem) := by
  have hdvd := length_dvd config
  have hpos : 0 < config.getEndAddress - config.getStartAddress := Nat.sub_pos_of_lt hlt
  unfold SwBlitter.fillBytes softwareLength softwareWidth
  generalize config.getEndAddress - config.getStartAddress = length at *
  cases config.fill24bit with
  | true =>
    simp only [↓reduceIte]
    exact writeLoop_outcome (by decide) (fun k t => by rw [Nat.zero_add]) mem
  | false =>
    cases config.fill32bit with
    | true =>
      have hturns : loopTurns 0 length 4 = loopTurns 0 (length / 4) 1 := by
        unfold loopTurns
        omega
      simp only [↓reduceIte, Bool.false_eq_true]
      rw [if_pos (by omega), hturns]
      exact writeLoop_outcome (by decide) (fun k t => by rw [Nat.zero_add, Nat.one_mul, Nat.mul_comm]) mem
    | false =>
      simp only [↓reduceIte, Bool.false_eq_true]
      exact writeLoop_outcome (by decide) (fun k t => by rw [Nat.zero_add]) mem

private theorem memoryFill_eq {config : MemoryFillConfig} {info : PhysMemRegionInfo} (h : FillsRegion config info)
    (backing : PhysMemRegionInfo → Int) (mem : Contents) :
    SwBlitter.memoryFill backing config mem =
      SwBlitter.fillBytes config ⟨config.getStartAddress, info.regionEnd - config.getStartAddress⟩
        (config.getEndAddress - config.getStartAddress : Nat) mem := by
  have hstart := getPhysMemRegionInfo_mem h.found
  have hend := getPhysMemRegionInfo_eq h.found (Nat.le_trans hstart.1 h.lt.le) h.le
  have hvalid : isValidPhysicalAddress config.getStartAddress := by
    unfold isValidPhysicalAddress
    rw [getPhysicalRef_eq h.found]
    rfl
  have hvalid' : isValidPhysicalAddress config.getEndAddress := by
    unfold isValidPhysicalAddress
    rw [getPhysicalRef_eq hend]
    rfl
  unfold SwBlitter.memoryFill getPhysicalPointer
  rw [if_neg (not_not_intro hvalid), if_neg (not_not_intro hvalid'), if_neg (Nat.not_le.mpr h.lt),
    getPhysicalRef_eq h.found, h.found, hend]
  have hlength : backing info + (config.getEndAddress - info.regionStart : Int) -
      (backing info + (config.getStartAddress - info.regionStart : Int)) =
      (config.getEndAddress - config.getStartAddress : Nat) := by
    rw [Nat.cast_sub h.lt.le]
    omega
  exact congrArg (fun length => SwBlitter.fillBytes config _ length mem) hlength

private theorem endAddr_accelerateFill {config : MemoryFillConfig} (hle : config.getStartAddress ≤ config.getEndAddress) :
    (accelerateFill config).surface.params.endAddr = config.getEndAddress := by
  have hlt : config.getEndAddress < 2 ^ 32 := UInt32.toNat_lt _
  have hsize : (accelerateFill config).surface.params.size = config.getEndAddress - config.getStartAddress :=
    SurfaceParams.subU32_eq hle hlt
  show (config.getStartAddress + _) % 2 ^ 32 = _
  rw [hsize, Nat.add_sub_of_le hle, Nat.mod_eq_of_lt hlt]

private theorem accelerateFillAndFlush_eq {config : MemoryFillConfig} {info : PhysMemRegionInfo}
    (h : FillsRegion config info) (mem : Contents) :
    accelerateFillAndFlush config mem =
      .ok ((accelerateFill config).filled config.getStartAddress config.getEndAddress mem) := by
  have hend := endAddr_accelerateFill h.lt.le
  refine (FillSurface.downloadFillSurface_fills h.found le_rfl ?_ le_rfl (.inr ?_) mem).trans ?_
  · exact h.lt.le.trans_eq hend.symm
  · exact (Nat.sub_self _).symm ▸ dvd_zero _
  · have hlast : min (accelerateFill config).surface.params.endAddr info.regionEnd = config.getEndAddress := by
      rw [hend, Nat.min_eq_left h.le]
    exact congrArg (fun last => Except.ok ((accelerateFill config).filled config.getStartAddress last mem)) hlast

private theorem patternByte_accelerateFill (config : MemoryFillConfig) (i : Nat) :
    (accelerateFill config).patternByte i =
      config.valueByte (i % if config.fill32bit then 4 else if config.fill24bit then 3 else 2) := rfl

private theorem valueByte_agree {config : MemoryFillConfig}
    (h : config.fill24bit → config.fill32bit → ∀ i < 4, config.valueByte i = config.valueByte 0) (i : Nat) :
    config.valueByte (i % config.softwareWidth) = (accelerateFill config).patternByte i := by
  rw [patternByte_accelerateFill]
  unfold softwareWidth
  cases h24 : config.fill24bit with
  | false => cases config.fill32bit <;> rfl
  | true =>
    cases h32 : config.fill32bit with
    | false => rfl
    | true =>
      simp only [↓reduceIte]
      rw [h h24 h32 _ (by omega), h h24 h32 (i % 4) (by omega)]

private theorem accelerated_eq (config : MemoryFillConfig) (mem : Contents) :
    (accelerateFill config).filled config.getStartAddress config.getEndAddress mem =
      overwrite mem config.getStartAddress (config.getEndAddress - config.getStartAddress)
        (accelerateFill config).patternByte := by
  refine (FillSurface.filled_eq (le_refl (accelerateFill config).surface.params.addr) mem).trans ?_
  refine overwrite_congr fun i _ => congrArg (accelerateFill config).patternByte ?_
  show config.getStartAddress - config.getStartAddress + i = i
  omega

private theorem add_one_ne (byte : UInt8) : byte ≠ byte + 1 := by
  rcases byte with ⟨byte⟩
  revert byte
  decide +kernel

/-- The two fills agree exactly when a fill with 24-bit values ends with a whole value and, if the bit for 32-bit values
is set as well, the bytes of the value are all the same. -/
theorem memoryFill_agrees_iff (backing : PhysMemRegionInfo → Int) (config : MemoryFillConfig) (info : PhysMemRegionInfo)
    (h : FillsRegion config info) :
    FillsAgree backing config ↔
      (config.fill24bit → 3 ∣ config.getEndAddress - config.getStartAddress ∧
        (config.fill32bit → ∀ i < 4, config.valueByte i = config.valueByte 0)) := by
  have hlt := h.lt
  have hle := h.le
  have hdvd := length_dvd config
  have hsoftware (mem : Contents) := memoryFill_eq h backing mem ▸ fillBytes_outcome config
    ⟨config.getStartAddress, info.regionEnd - config.getStartAddress⟩ h.lt mem
  constructor
  · intro hagree h24
    have hwidth : config.softwareWidth = 3 := if_pos h24
    have hfilled (mem : Contents) : ∃ filled, filled = overwrite mem config.getStartAddress config.softwareLength
          (fun i => config.valueByte (i % 3)) ∧ filled = overwrite mem config.getStartAddress
            (config.getEndAddress - config.getStartAddress) (accelerateFill config).patternByte ∧
        ∀ a, ¬ (config.getStartAddress ≤ a ∧ a < config.getEndAddress) → filled a = mem a := by
      obtain ⟨filled, hsoft, haccelerated, houtside⟩ := hagree mem
      have hvalue := hsoftware mem
      rw [hsoft, hwidth] at hvalue
      rw [accelerateFillAndFlush_eq h, accelerated_eq] at haccelerated
      injection haccelerated with haccelerated
      exact ⟨filled, hvalue, haccelerated.symm, houtside⟩
    constructor
    · by_contra hnot
      -- the last value ends behind the range
      have hlength : config.getEndAddress - config.getStartAddress < config.softwareLength := by
        unfold softwareLength
        rw [hwidth]
        refine Nat.lt_of_le_of_ne ?_ fun heq => hnot ⟨_, heq⟩
        exact (le_loopEnd (by decide)).trans_eq (Nat.zero_add _)
      obtain ⟨filled, hfilled, -, houtside⟩ := hfilled fun _ =>
        config.valueByte ((config.getEndAddress - config.getStartAddress) % 3) + 1
      have hbyte := houtside config.getEndAddress (by omega)
      rw [hfilled, overwrite_of_mem hlt.le (by omega)] at hbyte
      exact add_one_ne _ hbyte
    · intro h32
      obtain ⟨filled, hfilled, hvalue, -⟩ := hfilled fun _ => 0
      have hlong : config.getEndAddress - config.getStartAddress ≤ config.softwareLength := by
        unfold softwareLength
        rw [hwidth]
        exact (le_loopEnd (by decide)).trans_eq (Nat.zero_add _)
      have hvalues (i : Nat) (hi : i < 8) : config.valueByte (i % 3) = config.valueByte (i % 4) := by
        have hbyte := congrFun (hfilled.symm.trans hvalue) (config.getStartAddress + i)
        rw [overwrite_of_mem (by omega) (by omega), overwrite_of_mem (by omega) (by omega), Nat.add_sub_cancel_left,
          patternByte_accelerateFill, if_pos h32] at hbyte
        exact hbyte
      have h3 := hvalues 3 (by decide)
      have h4 := hvalues 4 (by decide)
      have h5 := hvalues 5 (by decide)
      intro i hi
      obtain rfl | rfl | rfl | rfl : i = 0 ∨ i = 1 ∨ i = 2 ∨ i = 3 := by omega
      · rfl
      · exact h4
      · exact h5.trans h4
      · exact h3.symm
  · intro hcond mem
    have hlength := softwareLength_eq fun h24 => (hcond h24).1
    obtain ⟨filled, hfilled, hvalue⟩ := ((hsoftware mem).weaken fun _ hsize =>
      (show False by rw [hlength] at hsize; dsimp only at hsize; omega)).exists_ok
    rw [hlength, overwrite_congr fun i _ => valueByte_agree (fun h24 => (hcond h24).2) i, ← accelerated_eq] at hvalue
    refine ⟨filled, hfilled, ?_, ?_⟩
    · rw [accelerateFillAndFlush_eq h, hvalue]
    · intro a ha
      rw [hvalue]
      exact if_neg ha

def fill24 (length : UInt32) : MemoryFillConfig :=
  { addressStart := 0x03000000
    addressEnd := 0x03000000 + length / 8
    value32bit := 0x332211
    control := 0x101 }

/-- Eight values. -/
theorem memoryFill_agrees_iff_fill24 : FillsAgree (fun _ => 0) (fill24 24) :=
  (memoryFill_agrees_iff (fun _ => 0) (fill24 24) ⟨0x18000000, 0x18600000⟩ ⟨rfl, by decide, by decide⟩).mpr
    fun _ => ⟨by decide, fun h32 => absurd h32 (by decide)⟩

/-- The third value ends behind a range of eight bytes. -/
theorem memoryFill_overruns : ¬ FillsAgree (fun _ => 0) (fill24 8) := by
  intro h
  obtain ⟨filled, hfilled, -, houtside⟩ := h fun _ => 0
  have hbyte : (SwBlitter.memoryFill (fun _ => 0) (fill24 8) fun _ => 0).map (fun mem => mem 0x18000008) =
      .ok 0x33 := by
    decide +kernel
  rw [hfilled] at hbyte
  injection hbyte with hbyte
  dsimp only at hbyte
  rw [houtside 0x18000008 (by decide)] at hbyte
  exact absurd hbyte (by decide)

end SweepDSEmu.VideoCore
