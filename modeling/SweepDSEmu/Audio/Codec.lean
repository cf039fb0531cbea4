import Mathlib.Algebra.Order.Ring.Abs
import SweepDSEmu.Audio.Interpolate
import SweepDSEmu.Lib.Transducer
import SweepDSEmu.Lib.FinNumerals

/-!
# Decoding of audio samples

`AudioCore::Codec`.  GC-ADPCM frames are 8 bytes long, a header and 14 samples of one nibble each; a sample is the
output of a second order filter on the nibble and the two samples before it.  The filter is computed in `int`: an
overflow is `none`.
-/

namespace SweepDSEmu.Codec

open AudioInterp (StereoSample clamp le_clamp clamp_le)

def frameLen : Nat := 8

def samplesPerFrame : Nat := 14

structure ADPCMState where
  /-- `y[n-1]` -/
  yn1 : Int16
  /-- `y[n-2]` -/
  yn2 : Int16
  deriving DecidableEq

/-- The two `int` variables of the decoder. -/
structure Feedback where
  yn1 : Int
  yn2 : Int
  deriving DecidableEq

def int (v : Int) : Option Int := if -2 ^ 31 ≤ v ∧ v < 2 ^ 31 then some v else none

def signedNibbles : Vector Int 16 := #v[0, 1, 2, 3, 4, 5, 6, 7, -8, -7, -6, -5, -4, -3, -2, -1]

def signedNibble (nibble : UInt8) : Int := signedNibbles.get (Fin.ofNat 16 nibble.toNat)

def fill (sample : Int16) : StereoSample := { left := sample, right := sample }

def decodeSample (scale coef1 coef2 nibble : Int) (y : Feedback) : Option (StereoSample × Feedback) := do
  let xn ← int (nibble * scale)
  let shifted ← int (xn <<< (11 : Nat))
  let sum ← int (shifted + 0x400)
  let product1 ← int (coef1 * y.yn1)
  let sum ← int (sum + product1)
  let product2 ← int (coef2 * y.yn2)
  let sum ← int (sum + product2)
  let val := clamp (sum >>> (11 : Nat)) (-32768) 32767
  some (fill (Int16.ofInt val), { yn1 := val, yn2 := y.yn1 })

section DecodeADPCM

variable (data : Nat → UInt8) (sampleCount : Nat) (adpcmCoeff : Fin 16 → Int16)

def scale (framei : Nat) : Int := (1 : Int) <<< (data (framei * frameLen) &&& 0xF).toNat

/-- The coefficients that a frame header selects. -/
def idx (framei : Nat) : Fin 8 := Fin.ofNat 8 ((data (framei * frameLen) >>> 4) &&& 0x7).toNat

def coef1 (framei : Nat) : Int := (adpcmCoeff ⟨(idx data framei).val * 2, by omega⟩).toInt

def coef2 (framei : Nat) : Int := (adpcmCoeff ⟨(idx data framei).val * 2 + 1, by omega⟩).toInt

/-- The loop over the bytes of a frame, two samples each, with `turns` bytes left. -/
def decodeBytes (scale coef1 coef2 : Int) : Nat → Nat → Nat → Feedback → Option (List StereoSample × Feedback)
  | 0, _, _, y => some ([], y)
  | turns + 1, outputi, datai, y =>
    if outputi < sampleCount then do
      let (sample1, y) ← decodeSample scale coef1 coef2 (signedNibble (data datai >>> 4)) y
      let (sample2, y) ← decodeSample scale coef1 coef2 (signedNibble (data datai &&& 0xF)) y
      let (samples, y) ← decodeBytes scale coef1 coef2 turns (outputi + 2) (datai + 1) y
      some (sample1 :: sample2 :: samples, y)
    else some ([], y)

def decodeFrame (s : List StereoSample × Feedback) (framei : Nat) : Option (List StereoSample × Feedback) := do
  let (samples, y) ← decodeBytes data sampleCount (scale data framei) (coef1 data adpcmCoeff framei)
    (coef2 data adpcmCoeff framei) (samplesPerFrame / 2) (framei * samplesPerFrame) (framei * frameLen + 1) s.2
  some (s.1 ++ samples, y)

def numFrames : Nat := (sampleCount + (samplesPerFrame - 1)) / samplesPerFrame

def decodeADPCM (state : ADPCMState) : Option (List StereoSample × ADPCMState) := do
  let (ret, y) ← (List.range (numFrames sampleCount)).foldlM (decodeFrame data sampleCount adpcmCoeff)
    ([], { yn1 := state.yn1.toInt, yn2 := state.yn2.toInt })
  some (ret, { yn1 := Int16.ofInt y.yn1, yn2 := Int16.ofInt y.yn2 })

def decodePCM8Sample (sample : UInt8) : Int16 := (sample.toUInt16 <<< 8).toInt16

def decodePCM8 (numChannels : Nat) (data : Nat → UInt8) (sampleCount : Nat) : List StereoSample :=
  (List.range sampleCount).map fun i =>
    if numChannels = 1 then fill (decodePCM8Sample (data i))
    else { left := decodePCM8Sample (data (i * 2)), right := decodePCM8Sample (data (i * 2 + 1)) }

def decodePCM16Sample (low high : UInt8) : Int16 := (low.toUInt16 ||| high.toUInt16 <<< 8).toInt16

def decodePCM16 (numChannels : Nat) (data : Nat → UInt8) (sampleCount : Nat) : List StereoSample :=
  (List.range sampleCount).map fun i =>
    if numChannels = 1 then fill (decodePCM16Sample (data (i * 2)) (data (i * 2 + 1)))
    else
      { left := decodePCM16Sample (data (i * 4)) (data (i * 4 + 1))
        right := decodePCM16Sample (data (i * 4 + 2)) (data (i * 4 + 3)) }

/-- The number of samples in the buffer, a multiple of two. -/
def retSize : Nat := if sampleCount % 2 = 0 then sampleCount else sampleCount + 1

def nibbleAt (j : Nat) : Int :=
  let byte := data (j / samplesPerFrame * frameLen + 1 + j % samplesPerFrame / 2)
  if j % 2 = 0 then signedNibble (byte >>> 4) else signedNibble (byte &&& 0xF)

/-- The sum of the filter, with 11 fractional bits: `x[n] + 0.5 + c1 * y[n-1] + c2 * y[n-2]`. -/
def filterSum (j : Nat) (y : Feedback) : Int :=
  nibbleAt data j * scale data (j / samplesPerFrame) * 2 ^ 11 + 1024 +
    coef1 data adpcmCoeff (j / samplesPerFrame) * y.yn1 + coef2 data adpcmCoeff (j / samplesPerFrame) * y.yn2

def filter (j : Nat) (y : Feedback) : Feedback :=
  { yn1 := clamp (filterSum data adpcmCoeff j y / 2 ^ 11) (-32768) 32767
    yn2 := y.yn1 }

/-- The sum of the filter is an `int`. -/
def Fits (j : Nat) (y : Feedback) : Prop :=
  -2 ^ 31 ≤ filterSum data adpcmCoeff j y ∧ filterSum data adpcmCoeff j y < 2 ^ 31

def decodeAt (j : Nat) (y : Feedback) : Option (StereoSample × Feedback) :=
  decodeSample (scale data (j / samplesPerFrame)) (coef1 data adpcmCoeff (j / samplesPerFrame))
    (coef2 data adpcmCoeff (j / samplesPerFrame)) (nibbleAt data j) y

end DecodeADPCM

/-- Both variables are in the range of a sample. -/
def Feedback.InRange (y : Feedback) : Prop := (-2 ^ 15 ≤ y.yn1 ∧ y.yn1 < 2 ^ 15) ∧ (-2 ^ 15 ≤ y.yn2 ∧ y.yn2 < 2 ^ 15)

theorem int_of_mem {v : Int} (h : -2 ^ 31 ≤ v ∧ v < 2 ^ 31) : int v = some v := if_pos h

theorem int_of_not_mem {v : Int} (h : ¬ (-2 ^ 31 ≤ v ∧ v < 2 ^ 31)) : int v = none := if_neg h

private theorem signedNibbles_mem : ∀ i : Fin 16, -8 ≤ signedNibbles.get i ∧ signedNibbles.get i ≤ 7 := by
  decide

private theorem product_mem {a b : Int} (ha : -2 ^ 15 ≤ a ∧ a < 2 ^ 15) (hb : -2 ^ 15 ≤ b ∧ b < 2 ^ 15) :
    -2 ^ 30 ≤ a * b ∧ a * b ≤ 2 ^ 30 := by
  constructor <;> nlinarith

private theorem scaled_mem {nibble scale : Int} (hnibble : -8 ≤ nibble ∧ nibble ≤ 7)
    (hscale : 1 ≤ scale ∧ scale ≤ 2 ^ 15) : -2 ^ 18 ≤ nibble * scale ∧ nibble * scale ≤ 7 * 2 ^ 15 := by
  constructor <;> nlinarith

private theorem decodeSample_eq {scale c1 c2 nibble : Int} {y : Feedback} (hscale : 1 ≤ scale ∧ scale ≤ 2 ^ 15)
    (hc1 : -2 ^ 15 ≤ c1 ∧ c1 < 2 ^ 15) (hc2 : -2 ^ 15 ≤ c2 ∧ c2 < 2 ^ 15) (hnibble : -8 ≤ nibble ∧ nibble ≤ 7)
    (hy : y.InRange) :
    decodeSample scale c1 c2 nibble y =
      (int (nibble * scale * 2 ^ 11 + 1024 + c1 * y.yn1 + c2 * y.yn2)).map fun sum =>
        (fill (Int16.ofInt (clamp (sum / 2 ^ 11) (-32768) 32767)),
          { yn1 := clamp (sum / 2 ^ 11) (-32768) 32767, yn2 := y.yn1 }) := by
  have hxn := scaled_mem hnibble hscale
  have hp1 := product_mem hc1 hy.1
  have hp2 := product_mem hc2 hy.2
  have hshift : (nibble * scale) <<< (11 : Nat) = nibble * scale * 2 ^ 11 := Int.shiftLeft_eq _ _
  unfold decodeSample
  rw [int_of_mem (by omega), Option.bind_eq_bind, Option.bind_some, hshift, int_of_mem (by omega), Option.bind_some,
    int_of_mem (by omega), Option.bind_some, int_of_mem (by omega), Option.bind_some, int_of_mem (by omega),
    Option.bind_some, int_of_mem (by omega), Option.bind_some]
  cases int (nibble * scale * 2 ^ 11 + 1024 + c1 * y.yn1 + c2 * y.yn2) with
  | none => rfl
  | some sum => rw [Option.bind_some, Option.map_some, Int.shiftRight_eq_div_pow]; rfl

@[simp] theorem length_decodePCM8 (numChannels : Nat) (data : Nat → UInt8) (sampleCount : Nat) :
    (decodePCM8 numChannels data sampleCount).length = sampleCount := by
  simp [decodePCM8]

@[simp] theorem length_decodePCM16 (numChannels : Nat) (data : Nat → UInt8) (sampleCount : Nat) :
    (decodePCM16 numChannels data sampleCount).length = sampleCount := by
  simp [decodePCM16]

variable {data : Nat → UInt8} {sampleCount : Nat} {adpcmCoeff : Fin 16 → Int16}

variable (data) in
private theorem scale_mem (framei : Nat) : 1 ≤ scale data framei ∧ scale data framei ≤ 2 ^ 15 := by
  have hle : (data (framei * frameLen) &&& 0xF).toNat ≤ 15 := by
    exact Nat.and_le_right
  unfold scale
  rw [Int.shiftLeft_eq, Int.one_mul]
  exact ⟨by exact_mod_cast Nat.one_le_two_pow, by exact_mod_cast Nat.pow_le_pow_right (by decide) hle⟩

variable (data) in
private theorem nibbleAt_mem (j : Nat) : -8 ≤ nibbleAt data j ∧ nibbleAt data j ≤ 7 := by
  unfold nibbleAt
  split <;> exact signedNibbles_mem _

private theorem decodeAt_eq (j : Nat) {y : Feedback} (hy : y.InRange) :
    decodeAt data adpcmCoeff j y =
      (int (filterSum data adpcmCoeff j y)).map fun _ =>
        (fill (Int16.ofInt (filter data adpcmCoeff j y).yn1), filter data adpcmCoeff j y) := by
  have hc1 : -2 ^ 15 ≤ coef1 data adpcmCoeff (j / samplesPerFrame) ∧
      coef1 data adpcmCoeff (j / samplesPerFrame) < 2 ^ 15 := ⟨Int16.le_toInt _, Int16.toInt_lt _⟩
  have hc2 : -2 ^ 15 ≤ coef2 data adpcmCoeff (j / samplesPerFrame) ∧
      coef2 data adpcmCoeff (j / samplesPerFrame) < 2 ^ 15 := ⟨Int16.le_toInt _, Int16.toInt_lt _⟩
  unfold decodeAt
  rw [decodeSample_eq (scale_mem _ _) hc1 hc2 (nibbleAt_mem _ j) hy]
  by_cases hsum : -2 ^ 31 ≤ filterSum data adpcmCoeff j y ∧ filterSum data adpcmCoeff j y < 2 ^ 31
  · rw [int_of_mem hsum]
    exact congrArg _ (int_of_mem hsum)
  · rw [int_of_not_mem hsum]
    exact congrArg _ (int_of_not_mem hsum)

private theorem decodeAt_exact :
    Transducer.Exact (decodeAt data adpcmCoeff) Feedback.InRange (Fits data adpcmCoeff) (filter data adpcmCoeff)
      fun y => fill (Int16.ofInt y.yn1) where
  ok := by
    intro j y hy hfits
    rw [decodeAt_eq j hy, int_of_mem hfits]
    rfl
  fails := by
    intro j y hy hfits
    rw [decodeAt_eq j hy, int_of_not_mem hfits]
    rfl
  keeps := by
    intro j y hy
    have hlo := le_clamp (v := filterSum data adpcmCoeff j y / 2 ^ 11) (show (-32768 : Int) ≤ 32767 by decide)
    have hhi := clamp_le (v := filterSum data adpcmCoeff j y / 2 ^ 11) (show (-32768 : Int) ≤ 32767 by decide)
    refine ⟨?_, hy.1⟩
    unfold filter
    dsimp only
    omega

variable (data adpcmCoeff) in
private theorem decodeAt_byte (framei : Nat) {i : Nat} (heven : i % 2 = 0) (hlt : i + 1 < samplesPerFrame) :
    (∀ y, decodeAt data adpcmCoeff (framei * samplesPerFrame + i) y =
      decodeSample (scale data framei) (coef1 data adpcmCoeff framei) (coef2 data adpcmCoeff framei)
        (signedNibble (data (framei * frameLen + 1 + i / 2) >>> 4)) y) ∧
    ∀ y, decodeAt data adpcmCoeff (framei * samplesPerFrame + i + 1) y =
      decodeSample (scale data framei) (coef1 data adpcmCoeff framei) (coef2 data adpcmCoeff framei)
        (signedNibble (data (framei * frameLen + 1 + i / 2) &&& 0xF)) y := by
  unfold decodeAt nibbleAt samplesPerFrame at *
  have hframe : (framei * 14 + i) / 14 = framei := by omega
  have hframe' : (framei * 14 + i + 1) / 14 = framei := by omega
  have hbyte : (framei * 14 + i) % 14 / 2 = i / 2 := by omega
  have hbyte' : (framei * 14 + i + 1) % 14 / 2 = i / 2 := by omega
  rw [hframe, hframe', hbyte, hbyte', if_pos (by omega), if_neg (by omega)]
  exact ⟨fun _ => rfl, fun _ => rfl⟩

variable (data sampleCount adpcmCoeff) in
private theorem decodeBytes_eq (framei : Nat) {turns i : Nat} (hturns : i + 2 * turns = samplesPerFrame) (y : Feedback) :
    decodeBytes data sampleCount (scale data framei) (coef1 data adpcmCoeff framei) (coef2 data adpcmCoeff framei)
        turns (framei * samplesPerFrame + i) (framei * frameLen + 1 + i / 2) y =
      Transducer.run (decodeAt data adpcmCoeff)
        (min (2 * turns) (retSize sampleCount - (framei * samplesPerFrame + i))) (framei * samplesPerFrame + i) y := by
  induction turns generalizing i y with
  | zero => rw [Nat.mul_zero, Nat.zero_min]; rfl
  | succ turns ih =>
    rw [decodeBytes]
    by_cases hlt : framei * samplesPerFrame + i < sampleCount
    · have hcount : min (2 * (turns + 1)) (retSize sampleCount - (framei * samplesPerFrame + i)) =
          min (2 * turns) (retSize sampleCount - (framei * samplesPerFrame + (i + 2))) + 1 + 1 := by
        unfold retSize samplesPerFrame at *
        split <;> omega
      obtain ⟨hhigh, hlow⟩ := decodeAt_byte data adpcmCoeff framei (i := i)
        (by unfold samplesPerFrame at *; omega) (by unfold samplesPerFrame at *; omega)
      have hnext : framei * frameLen + 1 + i / 2 + 1 = framei * frameLen + 1 + (i + 2) / 2 := by omega
      rw [if_pos hlt, hcount, Transducer.run_succ, hhigh]
      cases decodeSample (scale data framei) (coef1 data adpcmCoeff framei) (coef2 data adpcmCoeff framei)
        (signedNibble (data (framei * frameLen + 1 + i / 2) >>> 4)) y with
      | none => rfl
      | some r =>
        rw [Option.bind_some, Transducer.run_succ, hlow]
        dsimp only [Option.bind_eq_bind, Option.bind_some]
        cases decodeSample (scale data framei) (coef1 data adpcmCoeff framei) (coef2 data adpcmCoeff framei)
          (signedNibble (data (framei * frameLen + 1 + i / 2) &&& 0xF)) r.2 with
        | none => rfl
        | some r' =>
          have hrest := ih (i := i + 2) (by omega) r'.2
          rw [← hnext] at hrest
          rw [Nat.add_assoc (framei * samplesPerFrame) i 2]
          simp only [Option.bind_some]
          rw [hrest, Option.bind_assoc]
          rfl
    · have hcount : min (2 * (turns + 1)) (retSize sampleCount - (framei * samplesPerFrame + i)) = 0 := by
        unfold retSize samplesPerFrame at *
        split <;> omega
      rw [if_neg hlt, hcount]
      rfl

private theorem decodeFrames_eq {m : Nat} (hm : m ≤ numFrames sampleCount) (y : Feedback) :
    (List.range m).foldlM (decodeFrame data sampleCount adpcmCoeff) ([], y) =
      Transducer.run (decodeAt data adpcmCoeff) (min (m * samplesPerFrame) (retSize sampleCount)) 0 y := by
  induction m with
  | zero => rw [Nat.zero_mul, Nat.zero_min]; rfl
  | succ m ih =>
    have hframe := @decodeBytes_eq data sampleCount adpcmCoeff m (samplesPerFrame / 2) 0 rfl
    have hbefore : m * samplesPerFrame ≤ retSize sampleCount := by
      unfold numFrames retSize samplesPerFrame at *
      split <;> omega
    have hcount : min ((m + 1) * samplesPerFrame) (retSize sampleCount) =
        m * samplesPerFrame + min (2 * (samplesPerFrame / 2)) (retSize sampleCount - (m * samplesPerFrame + 0)) := by
      unfold samplesPerFrame at *
      omega
    rw [List.range_succ, List.foldlM_append, ih (by omega), hcount, Transducer.run_add, Nat.min_eq_left hbefore]
    cases Transducer.run (decodeAt data adpcmCoeff) (m * samplesPerFrame) 0 y with
    | none => rfl
    | some r =>
      have hrest := hframe r.2
      rw [Nat.add_zero] at hrest ⊢
      simp only [List.foldlM_cons, List.foldlM_nil, Option.bind_some, Option.bind_eq_bind, Option.bind_fun_some,
        Option.pure_def, Nat.zero_add]
      rw [← hrest]
      rfl

variable (data sampleCount adpcmCoeff) in
private theorem decodeADPCM_eq (state : ADPCMState) :
    decodeADPCM data sampleCount adpcmCoeff state =
      (Transducer.run (decodeAt data adpcmCoeff) (retSize sampleCount) 0
        { yn1 := state.yn1.toInt, yn2 := state.yn2.toInt }).map fun r =>
          (r.1, { yn1 := Int16.ofInt r.2.yn1, yn2 := Int16.ofInt r.2.yn2 }) := by
  have hcount : min (numFrames sampleCount * samplesPerFrame) (retSize sampleCount) = retSize sampleCount := by
    unfold numFrames retSize samplesPerFrame
    split <;> omega
  unfold decodeADPCM
  rw [decodeFrames_eq le_rfl, hcount]
  cases Transducer.run (decodeAt data adpcmCoeff) (retSize sampleCount) 0
    { yn1 := state.yn1.toInt, yn2 := state.yn2.toInt } <;> rfl

/-- The two variables over the integers, before the sample at a position. -/
def feedback (data : Nat → UInt8) (adpcmCoeff : Fin 16 → Int16) (state : ADPCMState) (j : Nat) : Feedback :=
  Transducer.stateAt (filter data adpcmCoeff) { yn1 := state.yn1.toInt, yn2 := state.yn2.toInt } j

/-- The samples are those of the filter over the integers, and the state is that behind the last one. -/
def DecodesExactly (data : Nat → UInt8) (sampleCount : Nat) (adpcmCoeff : Fin 16 → Int16) (state : ADPCMState) : Prop :=
  ∃ ret state', decodeADPCM data sampleCount adpcmCoeff state = some (ret, state') ∧
    ret.length = retSize sampleCount ∧
    (∀ j (hj : j < ret.length), ret[j].left.toInt = (feedback data adpcmCoeff state (j + 1)).yn1 ∧
      ret[j].right = ret[j].left) ∧
    state'.yn1.toInt = (feedback data adpcmCoeff state (retSize sampleCount)).yn1 ∧
    state'.yn2.toInt = (feedback data adpcmCoeff state (retSize sampleCount)).yn2

theorem length_decodeADPCM {state : ADPCMState} {r : List StereoSample × ADPCMState}
    (h : decodeADPCM data sampleCount adpcmCoeff state = some r) : r.1.length = retSize sampleCount := by
  rw [decodeADPCM_eq] at h
  obtain ⟨r', hrun, rfl⟩ := Option.map_eq_some_iff.mp h
  exact Transducer.length_of_run (r := r') hrun

/-- Decoding `k` frames, and the rest from the state that they leave, is decoding at once. -/
def DecodesInParts (data : Nat → UInt8) (sampleCount : Nat) (adpcmCoeff : Fin 16 → Int16) (state : ADPCMState)
    (k : Nat) : Prop :=
  decodeADPCM data sampleCount adpcmCoeff state =
    (decodeADPCM data (k * samplesPerFrame) adpcmCoeff state).bind fun first =>
      (decodeADPCM (fun i => data (k * frameLen + i)) (sampleCount - k * samplesPerFrame) adpcmCoeff first.2).map
        fun rest => (first.1 ++ rest.1, rest.2)

private theorem toInt_ofInt {v : Int} (h : -2 ^ 15 ≤ v ∧ v < 2 ^ 15) : (Int16.ofInt v).toInt = v :=
  Int16.toInt_ofInt_of_le h.1 h.2

private theorem state_inRange (state : ADPCMState) :
    Feedback.InRange { yn1 := state.yn1.toInt, yn2 := state.yn2.toInt } :=
  ⟨⟨state.yn1.le_toInt, state.yn1.toInt_lt⟩, state.yn2.le_toInt, state.yn2.toInt_lt⟩

private theorem decodesExactly_iff (state : ADPCMState) :
    DecodesExactly data sampleCount adpcmCoeff state ↔
      ∀ j < retSize sampleCount, Fits data adpcmCoeff j (feedback data adpcmCoeff state j) := by
  have hrange (j : Nat) : (feedback data adpcmCoeff state j).InRange :=
    decodeAt_exact.stateAt (state_inRange state) j
  constructor
  · rintro ⟨ret, state', hdecode, -⟩ j hj
    by_contra hnot
    rw [decodeADPCM_eq, decodeAt_exact.run_eq_none (state_inRange state) ⟨j, hj, hnot⟩] at hdecode
    cases hdecode
  · intro hfits
    have hdecode := decodeADPCM_eq data sampleCount adpcmCoeff state
    rw [decodeAt_exact.run (state_inRange state) hfits, Option.map_some] at hdecode
    refine ⟨_, _, hdecode, ?_, ?_, ?_, ?_⟩
    · rw [List.length_map, List.length_range]
    · intro j hj
      rw [List.getElem_map, List.getElem_range]
      exact ⟨toInt_ofInt (hrange (j + 1)).1, rfl⟩
    · exact toInt_ofInt (hrange _).1
    · exact toInt_ofInt (hrange _).2

private theorem decodeAt_shift (k j : Nat) (y : Feedback) :
    decodeAt (fun i => data (k * frameLen + i)) adpcmCoeff j y = decodeAt data adpcmCoeff (k * samplesPerFrame + j) y := by
  have hframe : (k * samplesPerFrame + j) / samplesPerFrame = k + j / samplesPerFrame := by
    unfold samplesPerFrame
    omega
  have hindex : (k * samplesPerFrame + j) % samplesPerFrame = j % samplesPerFrame := by
    unfold samplesPerFrame
    omega
  have hodd : (k * samplesPerFrame + j) % 2 = j % 2 := by
    unfold samplesPerFrame
    omega
  unfold decodeAt nibbleAt scale coef1 coef2 idx
  rw [hframe, hindex, hodd]
  simp only [Nat.add_mul, Nat.add_assoc]

private theorem decodesInParts {k : Nat} (hk : k * samplesPerFrame ≤ sampleCount) (state : ADPCMState) :
    DecodesInParts data sampleCount adpcmCoeff state k := by
  have hwhole : retSize (k * samplesPerFrame) = k * samplesPerFrame := by
    unfold retSize samplesPerFrame
    split <;> omega
  have hsplit : retSize sampleCount = k * samplesPerFrame + retSize (sampleCount - k * samplesPerFrame) := by
    unfold retSize samplesPerFrame at *
    split <;> split <;> omega
  unfold DecodesInParts
  rw [decodeADPCM_eq, decodeADPCM_eq, hsplit, hwhole, Transducer.run_add]
  cases hfirst : Transducer.run (decodeAt data adpcmCoeff) (k * samplesPerFrame) 0
      { yn1 := state.yn1.toInt, yn2 := state.yn2.toInt } with
  | none => rfl
  | some first =>
    have hrange : first.2.InRange := decodeAt_exact.run_keeps (state_inRange state) hfirst
    rw [Option.bind_some, Option.map_some, Option.bind_some, decodeADPCM_eq]
    have hrest := @Transducer.run_congr _ _ (decodeAt (fun i => data (k * frameLen + i)) adpcmCoeff)
      (decodeAt data adpcmCoeff) (retSize (sampleCount - k * samplesPerFrame)) 0 (k * samplesPerFrame) (fun i _ y => by rw [decodeAt_shift, Nat.zero_add]) first.2
    rw [toInt_ofInt hrange.1, toInt_ofInt hrange.2, Nat.zero_add, hrest]
    cases Transducer.run (decodeAt data adpcmCoeff) (retSize (sampleCount - k * samplesPerFrame)) (k * samplesPerFrame)
      first.2 <;> rfl

/-- The decoder is exact when, at each sample, the sum of the filter over the integers is an `int`. -/
theorem decodeADPCM_exact_iff (data : Nat → UInt8) (sampleCount : Nat) (adpcmCoeff : Fin 16 → Int16)
    (state : ADPCMState) :
    (DecodesExactly data sampleCount adpcmCoeff state ∧
      ∀ k, k * samplesPerFrame ≤ sampleCount → DecodesInParts data sampleCount adpcmCoeff state k) ↔
      ∀ j < retSize sampleCount, Fits data adpcmCoeff j (feedback data adpcmCoeff state j) := by
  rw [← decodesExactly_iff]
  exact and_iff_left fun k hk => decodesInParts hk state

/-- The least coefficients and history. -/
theorem decodeADPCM_overflows :
    ¬ DecodesExactly (fun _ => 0) 1 (fun _ => -32768) { yn1 := -32768, yn2 := -32768 } := by
  have hnone : decodeADPCM (fun _ => 0) 1 (fun _ => -32768) { yn1 := -32768, yn2 := -32768 } = none := by
    decide +kernel
  rintro ⟨ret, state', hdecode, -⟩
  rw [hnone] at hdecode
  cases hdecode

end SweepDSEmu.Codec
