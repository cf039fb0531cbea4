import Mathlib.Tactic.Linarith
import Mathlib.Tactic.Ring

/-!
# Resampling of an audio source

`AudioCore::AudioInterp`: a buffer is stepped over in fixed point with 24 fractional bits, and three adjacent samples
are passed to the interpolating function at each step.  What is left of the buffer, its last two samples and the
position are kept for the next call.
-/

namespace SweepDSEmu.AudioInterp

def scaleFactor : UInt64 := (1 : UInt64) <<< 24

def scaleMask : UInt64 := scaleFactor - 1

structure StereoSample where
  left : Int16
  right : Int16
  deriving DecidableEq

variable {α : Type}

structure State (α : Type) where
  /-- `x[n-1]` -/
  xn1 : α
  /-- `x[n-2]` -/
  xn2 : α
  /-- Current fractional position. -/
  fposition : UInt64

/-- What a call reads and writes: the state, the input buffer and the samples of the output frame, `outputi` in
number. -/
structure Streams (α : Type) where
  state : State α
  input : List α
  output : List α

section StepOverSamples

variable (fn : UInt64 → α → α → α → α)

/-- The loop, with `room` samples left in the frame; `none` is a read out of range. -/
def stepLoop (input : List α) (stepSize : UInt64) : Nat → Nat → UInt64 → List α → Option (Nat × UInt64 × List α)
  | 0, inputi, fposition, output => some (inputi, fposition, output)
  | room + 1, _, fposition, output =>
    let inputi := (fposition / scaleFactor).toNat
    if inputi + 2 ≥ input.length then some (input.length - 2, fposition, output)
    else do
      let fraction := fposition &&& scaleMask
      let x0 ← input[inputi]?
      let x1 ← input[inputi + 1]?
      let x2 ← input[inputi + 2]?
      stepLoop input stepSize room inputi (fposition + stepSize) (output ++ [fn fraction x0 x1 x2])

/-- Steps over the input until it is consumed or the frame of `size` samples is full. -/
def stepOverSamples (size : Nat) (stepSize : UInt64) (s : Streams α) : Option (Streams α) :=
  if s.input.isEmpty then some s
  else do
    let input := s.state.xn2 :: s.state.xn1 :: s.input
    let (inputi, fposition, output) ←
      stepLoop fn input stepSize (size - s.output.length) 0 s.state.fposition s.output
    let xn2 ← input[inputi]?
    let xn1 ← input[inputi + 1]?
    some
      { state :=
          { xn1 := xn1
            xn2 := xn2
            fposition := fposition - inputi.toUInt64 * scaleFactor }
        input := input.drop (inputi + 2)
        output := output }

end StepOverSamples

def clamp (v lo hi : Int) : Int := if v < lo then lo else if hi < v then hi else v

def delta (x0 x1 : Int16) : Int64 := Int64.ofInt (clamp (x1.toInt - x0.toInt) (-32768) 32767)

/-- `static_cast<s16>(x0 + fraction * delta / scale_factor)`, where the signed operands are converted to `u64`. -/
def linearChannel (fraction : UInt64) (x0 x1 : Int16) : Int16 :=
  (x0.toInt64.toUInt64 + fraction * (delta x0 x1).toUInt64 / scaleFactor).toInt64.toInt16

def noneSample (_fraction : UInt64) (x0 _x1 _x2 : StereoSample) : StereoSample := x0

def linearSample (fraction : UInt64) (x0 x1 _x2 : StereoSample) : StereoSample :=
  { left := linearChannel fraction x0.left x1.left
    right := linearChannel fraction x0.right x1.right }

def none (size : Nat) (stepSize : UInt64) (s : Streams StereoSample) : Option (Streams StereoSample) :=
  stepOverSamples noneSample size stepSize s

def linear (size : Nat) (stepSize : UInt64) (s : Streams StereoSample) : Option (Streams StereoSample) :=
  stepOverSamples linearSample size stepSize s

theorem le_clamp {v lo hi : Int} (h : lo ≤ hi) : lo ≤ clamp v lo hi := by
  unfold clamp
  split
  · exact le_rfl
  · split <;> omega

theorem clamp_le {v lo hi : Int} (h : lo ≤ hi) : clamp v lo hi ≤ hi := by
  unfold clamp
  split
  · exact h
  · split <;> omega

theorem clamp_between {v lo hi : Int} (hlo : lo ≤ 0) (hhi : 0 ≤ hi) :
    (0 ≤ v ∧ 0 ≤ clamp v lo hi ∧ clamp v lo hi ≤ v) ∨ (v < 0 ∧ clamp v lo hi ≤ 0 ∧ v ≤ clamp v lo hi) := by
  unfold clamp
  split
  · omega
  · split <;> omega

private theorem fraction_between {f d : Int} (hf : 0 ≤ f) (hlt : f < 2 ^ 24) :
    (0 ≤ d → 0 ≤ f * d / 2 ^ 24 ∧ f * d / 2 ^ 24 ≤ d) ∧ (d ≤ 0 → d ≤ f * d / 2 ^ 24 ∧ f * d / 2 ^ 24 ≤ 0) := by
  constructor
  · intro hd
    have hnonneg : 0 ≤ f * d := Int.mul_nonneg hf hd
    have hle : f * d ≤ 2 ^ 24 * d := Int.mul_le_mul_of_nonneg_right (by omega) hd
    omega
  · intro hd
    have hnonpos : f * d ≤ 0 := Int.mul_nonpos_of_nonneg_of_nonpos hf hd
    have hle : 2 ^ 24 * d ≤ f * d := Int.mul_le_mul_of_nonpos_right (by omega) hd
    omega

private theorem toNat_toUInt64 (x : Int64) : (x.toUInt64.toNat : Int) = x.toInt % 2 ^ 64 := by
  have htoInt : x.toInt = (x.toUInt64.toNat : Int).bmod (2 ^ 64) := BitVec.toInt_eq_toNat_bmod x.toBitVec
  have hlt : x.toUInt64.toNat < 2 ^ 64 := x.toUInt64.toNat_lt
  have hemod := Int.bmod_emod (x := (x.toUInt64.toNat : Int)) (m := 2 ^ 64)
  omega

private theorem delta_toInt (x0 x1 : Int16) :
    (delta x0 x1).toInt = clamp (x1.toInt - x0.toInt) (-32768) 32767 := by
  have hlo := le_clamp (v := x1.toInt - x0.toInt) (show (-32768 : Int) ≤ 32767 by decide)
  have hhi := clamp_le (v := x1.toInt - x0.toInt) (show (-32768 : Int) ≤ 32767 by decide)
  exact Int64.toInt_ofInt_of_le (by omega) (by omega)

private theorem linearChannel_emod (fraction : UInt64) (x0 x1 : Int16) :
    ((x0.toInt64.toUInt64 + fraction * (delta x0 x1).toUInt64 / scaleFactor).toNat : Int) % 2 ^ 16 =
      (x0.toInt + fraction.toNat * (delta x0 x1).toInt / 2 ^ 24) % 2 ^ 16 := by
  have hx0 := toNat_toUInt64 x0.toInt64
  have hd := toNat_toUInt64 (delta x0 x1)
  have hscale : scaleFactor.toNat = 2 ^ 24 := rfl
  rw [Int16.toInt_toInt64] at hx0
  rw [UInt64.toNat_add, UInt64.toNat_div, UInt64.toNat_mul, hscale]
  push_cast
  rw [hx0, hd]
  have hproduct := Int.mul_emod (fraction.toNat : Int) ((delta x0 x1).toInt % 2 ^ 64) (2 ^ 64)
  rw [Int.emod_emod, ← Int.mul_emod] at hproduct
  generalize (fraction.toNat : Int) * (delta x0 x1).toInt = p at *
  omega

def Interpolates (fraction : UInt64) (x0 x1 sample : Int16) : Prop :=
  sample.toInt = x0.toInt + fraction.toNat * clamp (x1.toInt - x0.toInt) (-32768) 32767 / 2 ^ 24 ∧
    min x0.toInt x1.toInt ≤ sample.toInt ∧ sample.toInt ≤ max x0.toInt x1.toInt

private theorem linearChannel_interpolates {fraction : UInt64} (hfraction : fraction.toNat < 2 ^ 24) (x0 x1 : Int16) :
    Interpolates fraction x0 x1 (linearChannel fraction x0 x1) := by
  have hemod := linearChannel_emod fraction x0 x1
  rw [delta_toInt] at hemod
  have hclamp := clamp_between (v := x1.toInt - x0.toInt) (show (-32768 : Int) ≤ 0 by decide)
    (show (0 : Int) ≤ 32767 by decide)
  have hpart := fraction_between (f := fraction.toNat) (d := clamp (x1.toInt - x0.toInt) (-32768) 32767) (by omega)
    (by omega)
  have h0 := x0.le_toInt
  have h0' := x0.toInt_lt
  have h1 := x1.le_toInt
  have h1' := x1.toInt_lt
  unfold Interpolates
  generalize (fraction.toNat : Int) * clamp (x1.toInt - x0.toInt) (-32768) 32767 / 2 ^ 24 = q at *
  have hexact : (linearChannel fraction x0 x1).toInt = x0.toInt + q := by
    unfold linearChannel
    generalize x0.toInt64.toUInt64 + fraction * (delta x0 x1).toUInt64 / scaleFactor = u at *
    have hu := toNat_toUInt64 u.toInt64
    have hcast := Int64.toInt_toInt16 u.toInt64
    have hbmod := Int.bmod_emod (x := u.toInt64.toInt) (m := 2 ^ 16)
    have hle := u.toInt64.toInt16.le_toInt
    have hlt := u.toInt64.toInt16.toInt_lt
    have hsame : u.toInt64.toUInt64 = u := rfl
    rw [hsame] at hu
    omega
  omega

/-- Linear interpolation does not wrap. -/
theorem linearSample_interpolates (fraction : UInt64) (hfraction : fraction.toNat < 2 ^ 24) (x0 x1 x2 : StereoSample) :
    Interpolates fraction x0.left x1.left (linearSample fraction x0 x1 x2).left ∧
      Interpolates fraction x0.right x1.right (linearSample fraction x0 x1 x2).right :=
  ⟨linearChannel_interpolates hfraction _ _, linearChannel_interpolates hfraction _ _⟩

/-- The largest fraction between the two extreme samples, where the difference is saturated. -/
theorem linearSample_interpolates_extremes :
    Interpolates 0xFFFFFF (-32768) 32767 (linearSample 0xFFFFFF ⟨-32768, 32767⟩ ⟨32767, -32768⟩ ⟨0, 0⟩).left ∧
      Interpolates 0xFFFFFF 32767 (-32768) (linearSample 0xFFFFFF ⟨-32768, 32767⟩ ⟨32767, -32768⟩ ⟨0, 0⟩).right :=
  linearSample_interpolates 0xFFFFFF (by decide) _ _ _

end SweepDSEmu.AudioInterp
