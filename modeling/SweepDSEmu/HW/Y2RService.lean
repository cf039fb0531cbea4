import Mathlib.Data.Fin.VecNotation
import SweepDSEmu.HW.Y2RConversion

/-!
# Configurations that the service accepts

The requests of `Y2R_U` set the configuration.  A width is checked, but enumerators, transfer units and gaps are stored
as they are: `Completes` are the configurations with which `PerformConversion` returns, all pixels sent.
-/

namespace SweepDSEmu.Y2R

def standardCoefficients : List CoefficientSet :=
  [![0x100, 0x166, 0xB6, 0x58, 0x1C5, -0x166F, 0x10EE, -0x1C5B],
   ![0x100, 0x193, 0x77, 0x2F, 0x1DB, -0x1933, 0xA7C, -0x1D51],
   ![0x12A, 0x198, 0xD0, 0x64, 0x204, -0x1BDE, 0x10F2, -0x229B],
   ![0x12A, 0x1CA, 0x88, 0x36, 0x21C, -0x1F04, 0x99C, -0x2421]]

structure ConversionParameters where
  inputFormat : InputFormat
  outputFormat : OutputFormat
  rotation : Rotation
  blockAlignment : BlockAlignment
  inputLineWidth : UInt16
  inputLines : UInt16
  standardCoefficient : UInt8
  alpha : UInt16

structure BufferRequest where
  address : UInt32
  imageSize : UInt32
  transferUnit : UInt32
  gap : UInt32

def BufferRequest.buffer (request : BufferRequest) : ConversionBuffer :=
  { address := request.address
    imageSize := request.imageSize
    transferUnit := request.transferUnit.toUInt16
    gap := request.gap.toUInt16 }

inductive Setter where
  | setInputFormat (inputFormat : InputFormat)
  | setOutputFormat (outputFormat : OutputFormat)
  | setRotation (rotation : Rotation)
  | setBlockAlignment (blockAlignment : BlockAlignment)
  | setSendingY (request : BufferRequest)
  | setSendingU (request : BufferRequest)
  | setSendingV (request : BufferRequest)
  | setSendingYUYV (request : BufferRequest)
  | setReceiving (request : BufferRequest)
  | setInputLineWidth (width : UInt32)
  | setInputLines (lines : UInt32)
  | setCoefficient (coefficients : CoefficientSet)
  | setStandardCoefficient (index : UInt32)
  | setAlpha (alpha : UInt32)
  | setPackageParameter (params : ConversionParameters)
  | driverInitialize

namespace ConversionConfiguration

variable (cvt : ConversionConfiguration)

def setInputLineWidth (width : UInt16) : Option ConversionConfiguration :=
  if width = 0 ∨ 1024 < width ∨ width % 8 ≠ 0 then none else some { cvt with inputLineWidth := width }

def setInputLines (lines : UInt16) : Option ConversionConfiguration :=
  if lines = 0 ∨ 1024 < lines then none
  else some (if lines ≠ 1024 then { cvt with inputLines := lines } else cvt)

def setStandardCoefficient (standardCoefficient : UInt8) : Option ConversionConfiguration :=
  standardCoefficients[standardCoefficient.toNat]?.map fun coefficients => { cvt with coefficients := coefficients }

def setPackageParameter (params : ConversionParameters) : Option ConversionConfiguration := do
  let cvt :=
    { cvt with
      inputFormat := params.inputFormat
      outputFormat := params.outputFormat
      rotation := params.rotation
      blockAlignment := params.blockAlignment }
  let cvt ← cvt.setInputLineWidth params.inputLineWidth
  let cvt ← cvt.setInputLines params.inputLines
  let cvt ← cvt.setStandardCoefficient params.standardCoefficient
  some { cvt with alpha := params.alpha }

/-- The buffer of interleaved samples is left as it is. -/
def driverInitialize : ConversionConfiguration :=
  let cvt :=
    { cvt with
      inputFormat := .yuv422Indiv8
      outputFormat := .rgba8
      rotation := .none
      blockAlignment := .linear
      coefficients := fun _ => 0 }
  let cvt := (cvt.setInputLineWidth 1024).getD cvt
  let cvt := (cvt.setInputLines 1024).getD cvt
  { cvt with alpha := 0, srcY := {}, srcU := {}, srcV := {}, dst := {} }

def perform : Setter → Option ConversionConfiguration
  | .setInputFormat inputFormat => some { cvt with inputFormat := inputFormat }
  | .setOutputFormat outputFormat => some { cvt with outputFormat := outputFormat }
  | .setRotation rotation => some { cvt with rotation := rotation }
  | .setBlockAlignment blockAlignment => some { cvt with blockAlignment := blockAlignment }
  | .setSendingY request => some { cvt with srcY := request.buffer }
  | .setSendingU request => some { cvt with srcU := request.buffer }
  | .setSendingV request => some { cvt with srcV := request.buffer }
  | .setSendingYUYV request => some { cvt with srcYUYV := request.buffer }
  | .setReceiving request => some { cvt with dst := request.buffer }
  | .setInputLineWidth width => cvt.setInputLineWidth width.toUInt16
  | .setInputLines lines => cvt.setInputLines lines.toUInt16
  | .setCoefficient coefficients => some { cvt with coefficients := coefficients }
  | .setStandardCoefficient index => cvt.setStandardCoefficient index.toUInt8
  | .setAlpha alpha => some { cvt with alpha := alpha.toUInt16 }
  | .setPackageParameter params => cvt.setPackageParameter params
  | .driverInitialize => some cvt.driverInitialize

def performs (setters : List Setter) : Option ConversionConfiguration := setters.foldlM perform cvt

end ConversionConfiguration

section

variable {cvt cvt' : ConversionConfiguration}

private def WidthOk (cvt : ConversionConfiguration) : Prop :=
  8 ∣ cvt.inputLineWidth.toNat ∧ cvt.inputLineWidth.toNat ≤ 1024

private theorem setInputLineWidth_ok {width : UInt16} (h : cvt.setInputLineWidth width = some cvt') : WidthOk cvt' := by
  unfold ConversionConfiguration.setInputLineWidth at h
  split at h
  · cases h
  · rename_i hwidth
    cases h
    obtain ⟨-, hle, hmod⟩ := not_or.mp hwidth |>.imp id not_or.mp
    refine ⟨Nat.dvd_of_mod_eq_zero ?_, Nat.le_of_not_lt hle⟩
    exact congrArg UInt16.toNat (not_not.mp hmod)

private theorem setInputLines_width {lines : UInt16} (h : cvt.setInputLines lines = some cvt') :
    cvt'.inputLineWidth = cvt.inputLineWidth := by
  unfold ConversionConfiguration.setInputLines at h
  split at h
  · cases h
  · cases h
    split <;> rfl

private theorem setStandardCoefficient_width {index : UInt8} (h : cvt.setStandardCoefficient index = some cvt') :
    cvt'.inputLineWidth = cvt.inputLineWidth := by
  obtain ⟨c, -, rfl⟩ := Option.map_eq_some_iff.mp h
  rfl

private theorem perform_width {setter : Setter} (hwidth : WidthOk cvt) (h : cvt.perform setter = some cvt') :
    WidthOk cvt' := by
  cases setter with
  | setInputLineWidth width => exact setInputLineWidth_ok h
  | setInputLines lines => rwa [WidthOk, setInputLines_width h]
  | setStandardCoefficient index => rwa [WidthOk, setStandardCoefficient_width h]
  | setPackageParameter params =>
    obtain ⟨cvt₁, hwidth, h⟩ := Option.bind_eq_some_iff.mp h
    obtain ⟨cvt₂, hlines, h⟩ := Option.bind_eq_some_iff.mp h
    obtain ⟨cvt₃, hcoefficient, h⟩ := Option.bind_eq_some_iff.mp h
    cases h
    have hok := setInputLineWidth_ok hwidth
    rwa [WidthOk, ← setInputLines_width hlines, ← setStandardCoefficient_width hcoefficient] at hok
  | driverInitialize =>
    cases h
    have hwidth : cvt.driverInitialize.inputLineWidth = 1024 := rfl
    rw [WidthOk, hwidth]
    exact ⟨by decide, by decide⟩
  | _ =>
    cases h
    exact hwidth

theorem width_of_performs {setters : List Setter} (h : ({} : ConversionConfiguration).performs setters = some cvt) :
    8 ∣ cvt.inputLineWidth.toNat ∧ cvt.inputLineWidth.toNat ≤ 1024 := by
  suffices hall : ∀ start, WidthOk start → start.performs setters = some cvt → WidthOk cvt from
    hall {} ⟨by decide, by decide⟩ h
  clear h
  induction setters with
  | nil =>
    intro start hstart h
    cases h
    exact hstart
  | cons setter setters ih =>
    intro start hstart h
    obtain ⟨next, hnext, h⟩ := Option.bind_eq_some_iff.mp h
    exact ih next (perform_width hstart hnext) h

end

structure StripCompletes (cvt : ConversionConfiguration) (height : Nat) : Prop where
  input : cvt.inputFormat ≠ .unknown
  units : ∀ p ∈ planes cvt (height * cvt.inputLineWidth.toNat), WholeUnits p.n p.amount p.buf
  alignment : cvt.blockAlignment = .unknown → cvt.rotation = .unknown ∨ cvt.inputLineWidth.toNat = 0
  output : cvt.outputFormat ≠ .unknown
  dst : 0 < cvt.inputLineWidth.toNat → 0 < cvt.dst.transferUnit.toNat

instance (n amount : Nat) (buf : ConversionBuffer) : Decidable (WholeUnits n amount buf) :=
  inferInstanceAs (Decidable (_ ∧ _))

structure Completes (cvt : ConversionConfiguration) : Prop where
  blocks : cvt.blockAlignment = .block8x8 → 8 ∣ cvt.inputLines.toNat
  strips : ∀ k, 8 * k < cvt.inputLines.toNat → StripCompletes cvt (min (cvt.inputLines.toNat - 8 * k) 8)

def ConversionBuffer.unit (buf : ConversionBuffer) : ConversionBuffer := { transferUnit := buf.transferUnit }

def ConversionConfiguration.shape (cvt : ConversionConfiguration) : ConversionConfiguration :=
  { cvt with
    srcY := cvt.srcY.unit
    srcU := cvt.srcU.unit
    srcV := cvt.srcV.unit
    srcYUYV := cvt.srcYUYV.unit
    dst := cvt.dst.unit }

theorem StripCompletes.of_shape {cvt cvt' : ConversionConfiguration} {height : Nat} (hshape : cvt'.shape = cvt.shape)
    (h : StripCompletes cvt height) : StripCompletes cvt' height := by
  simp only [ConversionConfiguration.shape, ConversionBuffer.unit, ConversionConfiguration.mk.injEq,
    ConversionBuffer.mk.injEq, true_and, and_true] at hshape
  obtain ⟨hinput, houtput, hrotation, halignment, hwidth, -, -, -, hY, hU, hV, hYUYV, hdst⟩ := hshape
  have hunits := h.units
  constructor
  · exact hinput ▸ h.input
  · unfold planes at hunits ⊢
    rw [hinput, hwidth]
    split at hunits <;> rename_i hformat <;> simp only [hformat, if_true, if_false, List.forall_mem_cons] at hunits ⊢
    · simpa only [WholeUnits, hYUYV] using hunits
    · simpa only [WholeUnits, hY, hU, hV] using hunits
  · rw [halignment, hrotation, hwidth]
    exact h.alignment
  · exact houtput ▸ h.output
  · rw [hwidth, hdst]
    exact h.dst

private theorem shape_fields {cvt cvt' : ConversionConfiguration} (h : cvt'.shape = cvt.shape) :
    cvt'.inputLines = cvt.inputLines ∧ cvt'.inputLineWidth = cvt.inputLineWidth ∧
      cvt'.blockAlignment = cvt.blockAlignment := by
  have hlines := congrArg ConversionConfiguration.inputLines h
  have hwidth := congrArg ConversionConfiguration.inputLineWidth h
  have halignment := congrArg ConversionConfiguration.blockAlignment h
  exact ⟨hlines, hwidth, halignment⟩

section

variable {M : Type} {host : DmaMemory M} {bound size amount height numTiles : Nat} {s s' r : ConversionState M}

private theorem receiveData_unit {mem : M} {n output : Nat} {data : Nat → UInt8} {buf : ConversionBuffer} {result}
    (h : receiveData host mem bound n size data output buf amount = .ok result) : result.2.unit = buf.unit := by
  have hwhole := wholeUnits_of_receiveData host h
  rw [receiveData, if_neg hwhole.1.ne', if_neg (not_not_intro (Nat.mod_eq_zero_of_dvd hwhole.2))] at h
  obtain ⟨t, hrun, h⟩ := ok_of_bind h
  cases h
  refine BoundedLoop.run_keeps (fun r : ReceiveState => r.buf.unit = buf.unit) ?_ rfl hrun
  intro r r' hr hturn
  obtain ⟨data, -, hturn⟩ := ok_of_bind hturn
  cases hturn
  exact hr

private theorem sendUnit_buf {format : OutputFormat} {data : Nat → UInt8} {alpha : UInt8} {unitEnd : Nat}
    {t t' : SendState M} (h : sendUnit host format size data alpha unitEnd amount t = .ok t') : t'.buf = t.buf := by
  induction amount generalizing t with
  | zero =>
    cases h
    rfl
  | succ amount ih =>
    unfold sendUnit at h
    split at h
    · obtain ⟨color, -, h⟩ := ok_of_bind h
      have hbuf := ih h
      exact hbuf
    · cases h
      rfl

private theorem sendData_unit {mem : M} {format : OutputFormat} {data : Nat → UInt8} {buf : ConversionBuffer}
    {alpha : UInt8} {result} (h : sendData host mem bound format size data buf amount alpha = .ok result) :
    result.2.unit = buf.unit := by
  obtain ⟨t, hrun, h⟩ := ok_of_bind h
  cases h
  refine BoundedLoop.run_keeps (fun t : SendState M => t.buf.unit = buf.unit) ?_ rfl hrun
  intro t t' ht hturn
  obtain ⟨u, hunit, hturn⟩ := ok_of_bind hturn
  cases hturn
  exact (congrArg ConversionBuffer.unit (sendUnit_buf hunit)).trans ht

private theorem receiveStrip_units (h : receiveStrip host bound size amount s = .ok r) :
    s.cvt.inputFormat ≠ .unknown ∧ (∀ p ∈ planes s.cvt amount, WholeUnits p.n p.amount p.buf) ∧
      r.cvt.shape = s.cvt.shape := by
  by_cases hinterleaved : s.cvt.inputFormat = .yuyv422Interleaved
  · rw [receiveStrip, hinterleaved] at h
    obtain ⟨p, hp, h⟩ := ok_of_bind h
    cases h
    refine ⟨by rw [hinterleaved]; decide, ?_, ?_⟩
    · rw [planes, if_pos hinterleaved]
      exact List.forall_mem_singleton.mpr (wholeUnits_of_receiveData host hp)
    · simp only [ConversionConfiguration.shape, receiveData_unit hp]
  · have hknown : s.cvt.inputFormat ≠ .unknown := by
      intro hunknown
      rw [receiveStrip, hunknown] at h
      cases h
    rw [receiveStrip_planar hinterleaved hknown] at h
    obtain ⟨pY, hY, h⟩ := ok_of_bind h
    obtain ⟨pU, hU, h⟩ := ok_of_bind h
    obtain ⟨pV, hV, h⟩ := ok_of_bind h
    cases h
    refine ⟨hknown, ?_, ?_⟩
    · rw [planes_planar hinterleaved]
      simp only [List.forall_mem_cons]
      exact ⟨wholeUnits_of_receiveData host hY, wholeUnits_of_receiveData host hU, wholeUnits_of_receiveData host hV,
        List.forall_mem_nil _⟩
    · simp only [ConversionConfiguration.shape, receiveData_unit hY, receiveData_unit hU, receiveData_unit hV]

private theorem tileTurn_unknown {cvt : ConversionConfiguration} {tiles : Nat → ImageTile} {t u : TileState} {i : Nat}
    (halignment : cvt.blockAlignment = .unknown) (hrotation : cvt.rotation ≠ .unknown) (hheight : 0 < height)
    (h : tileTurn cvt size numTiles height tiles t i = .ok u) : False := by
  have hnull (rotation : Rotation) {tile tmpTile tmpTile' : ImageTile}
      (h : rotateTile (Layout.ofRotation rotation height) tile tmpTile none = .ok tmpTile') : False := by
    have hlength := Layout.length_ofRotation rotation height
    cases horder : Layout.ofRotation rotation height with
    | nil =>
      rw [horder, List.length_nil] at hlength
      omega
    | cons o order =>
      rw [horder, rotateTile, List.zipIdx_cons, List.foldlM_cons] at h
      obtain ⟨_, h, -⟩ := ok_of_bind h
      obtain ⟨_, h, -⟩ := ok_of_bind h
      cases h
  rw [tileTurn, halignment] at h
  cases hrot : cvt.rotation with
  | unknown => exact hrotation hrot
  | _ =>
    rw [hrot] at h
    obtain ⟨_, -, h⟩ := ok_of_bind h
    obtain ⟨_, h, -⟩ := ok_of_bind h
    first
      | exact hnull .none h
      | exact hnull .clockwise90 h
      | exact hnull .clockwise180 h
      | exact hnull .clockwise270 h

theorem completes_of_convertStrip {y : Nat} (hwidth : 8 ∣ s.cvt.inputLineWidth.toNat)
    (hy : y < s.cvt.inputLines.toNat) (h : convertStrip host bound s y = .ok s') :
    StripCompletes s.cvt (min (s.cvt.inputLines.toNat - y) 8) ∧ s'.cvt.shape = s.cvt.shape := by
  have hheight : 0 < min (s.cvt.inputLines.toNat - y) 8 := by omega
  unfold convertStrip at h
  generalize min (s.cvt.inputLines.toNat - y) 8 = height at h hheight ⊢
  obtain ⟨r, hreceive, h⟩ := ok_of_bind h
  obtain ⟨hinput, hunits, hshape⟩ := receiveStrip_units hreceive
  obtain ⟨data, srcY, srcU, srcV, srcYUYV, rfl⟩ := receiveStrip_keeps hreceive
  obtain ⟨tiles, -, h⟩ := ok_of_bind h
  obtain ⟨t, hturns, h⟩ := ok_of_bind h
  split at h
  · cases h
  rename_i houtput
  obtain ⟨⟨mem, dst⟩, hsend, h⟩ := ok_of_bind h
  cases h
  refine ⟨⟨hinput, hunits, fun halignment => ?_, houtput, fun hpos => Nat.pos_of_ne_zero fun hdst => ?_⟩, ?_⟩
  · by_contra hknown
    obtain ⟨hrotation, hpos⟩ := not_or.mp hknown
    obtain ⟨numTiles, htiles⟩ := Nat.exists_eq_add_one_of_ne_zero
      (show s.cvt.inputLineWidth.toNat / 8 ≠ 0 by omega)
    rw [htiles, List.range_succ_eq_map, List.foldlM_cons] at hturns
    obtain ⟨u, hturn, -⟩ := ok_of_bind hturns
    exact tileTurn_unknown halignment hrotation hheight hturn
  · rw [sendData_endless host s.mem bound t.data _ hdst (Nat.mul_pos hheight hpos)] at hsend
    cases hsend
  · have hdst := sendData_unit hsend
    simp only [ConversionConfiguration.shape, ConversionConfiguration.mk.injEq] at hshape hdst ⊢
    simp only [hshape, hdst, and_self]

variable (host) in
private theorem receiveStrip_completes (hinput : s.cvt.inputFormat ≠ .unknown)
    (hunits : ∀ p ∈ planes s.cvt amount, WholeUnits p.n p.amount p.buf)
    (hwidth : s.cvt.inputLineWidth.toNat = 8 * numTiles) (hamount : amount ≤ 64 * numTiles)
    (hbound : 2 * amount ≤ bound) : ∃ r, receiveStrip host bound (8 * numTiles * 8 * 4) amount s = .ok r := by
  by_cases hinterleaved : s.cvt.inputFormat = .yuyv422Interleaved
  · rw [planes, if_pos hinterleaved, List.forall_mem_singleton] at hunits
    have hwhole : WholeUnits 1 (amount * 2) s.cvt.srcYUYV := hunits
    rw [receiveStrip, hinterleaved]
    rw [receiveData_eq host s.mem bound s.data hwhole (by omega) (by omega)]
    exact ⟨_, rfl⟩
  · rw [planes_planar hinterleaved] at hunits
    simp only [List.forall_mem_cons] at hunits
    rw [receiveStrip_planar hinterleaved hinput]
    obtain ⟨r, hr, -⟩ := receivePlanes_eq host hwidth (by unfold InputFormat.chromaDivisor; split <;> omega) hamount
      (show amount ≤ bound by omega) hunits.1 hunits.2.1 hunits.2.2.1
    exact ⟨r, hr⟩

private theorem writeTileToOutput_returns (data : Nat → UInt8) (output stride : Nat) {lines : Nat} (tile : ImageTile)
    (hlines : lines ≤ 8) (hsize : 4 * (output + (7 * stride + 7)) + 4 ≤ size) :
    ∃ data', writeTileToOutput size data output tile lines stride = .ok data' := by
  have hloop : Outcome (fun _ => False) (fun _ => True) (writeTileToOutput size data output tile lines stride) := by
    refine Outcome.foldlM trivial ?_
    rintro data ⟨x, y⟩ hp -
    obtain ⟨hx, hy⟩ := mem_pixels.mp hp
    have hrow := Nat.mul_le_mul_right stride (show y ≤ 7 by dsimp only at hy; omega)
    dsimp only at hx hy ⊢
    rw [readAt, if_pos (by unfold TILE_SIZE; omega), ok_bind, writeWord, if_pos (by omega)]
    trivial
  obtain ⟨data', hdata, -⟩ := hloop.exists_ok
  exact ⟨data', hdata⟩

private theorem unrotatedTurn {cvt : ConversionConfiguration} {tiles : Nat → ImageTile} {t : TileState} {i : Nat}
    {rest : List Nat} (hrotation : cvt.rotation = .unknown) (hheight : height ≤ 8)
    (ht : t.outputBuffer + 64 * (i :: rest).length ≤ 64 * numTiles) :
    Outcome (fun _ => False) (fun u => u.outputBuffer + 64 * rest.length ≤ 64 * numTiles)
      (tileTurn cvt (8 * numTiles * 8 * 4) numTiles height tiles t i) := by
  rw [List.length_cons] at ht
  rw [tileTurn, hrotation]
  rw [ok_bind]
  cases cvt.blockAlignment with
  | unknown =>
    show t.outputBuffer + 64 * rest.length ≤ 64 * numTiles
    omega
  | linear =>
    obtain ⟨data', hdata⟩ := writeTileToOutput_returns t.data t.outputBuffer 0 t.tmpTile hheight
      (show 4 * (t.outputBuffer + (7 * 0 + 7)) + 4 ≤ 8 * numTiles * 8 * 4 by omega)
    dsimp only
    rw [hdata]
    show t.outputBuffer + 0 + 64 * rest.length ≤ 64 * numTiles
    omega
  | block8x8 =>
    obtain ⟨data', hdata⟩ := writeTileToOutput_returns t.data t.outputBuffer 8 t.tmpTile (Nat.le_refl 8)
      (show 4 * (t.outputBuffer + (7 * 8 + 7)) + 4 ≤ 8 * numTiles * 8 * 4 by omega)
    dsimp only
    rw [hdata]
    show t.outputBuffer + 64 + 64 * rest.length ≤ 64 * numTiles
    omega

private theorem convertTiles_returns (cvt : ConversionConfiguration) (tiles : Nat → ImageTile) (data : Nat → UInt8)
    (tmpTile : ImageTile) (hwidth : cvt.inputLineWidth.toNat = 8 * numTiles) (hheight : height ≤ 8)
    (hblocks : cvt.blockAlignment = .block8x8 → height = 8)
    (halignment : cvt.blockAlignment = .unknown → cvt.rotation = .unknown ∨ numTiles = 0) :
    ∃ t, (List.range numTiles).foldlM (tileTurn cvt (8 * numTiles * 8 * 4) numTiles height tiles)
      { data, tmpTile, outputBuffer := 0 } = .ok t := by
  rcases Nat.eq_zero_or_pos numTiles with rfl | hpos
  · exact ⟨_, rfl⟩
  by_cases hrotation : cvt.rotation = .unknown
  · have hloop : Outcome (fun _ => False) (fun _ => True) ((List.range numTiles).foldlM
        (tileTurn cvt (8 * numTiles * 8 * 4) numTiles height tiles) { data, tmpTile, outputBuffer := 0 }) := by
      refine (Outcome.foldlM_rest (P := fun rest t => t.outputBuffer + 64 * rest.length ≤ 64 * numTiles)
        (by rw [List.length_range, Nat.zero_add]) ?_).mono fun _ _ => trivial
      exact fun t i rest => unrotatedTurn hrotation hheight
    obtain ⟨t, ht, -⟩ := hloop.exists_ok
    exact ⟨t, ht⟩
  · have hknown : cvt.blockAlignment ≠ .unknown := fun h => by
      rcases halignment h with h | h
      · exact hrotation h
      · omega
    obtain ⟨t, ht, -⟩ := convertTiles_eq cvt ⟨hrotation, hknown, hheight, hblocks⟩ hwidth hpos tiles data tmpTile
    exact ⟨t, ht⟩

variable (host) in
theorem convertStrip_returns (y : Nat) (hwidth : s.cvt.inputLineWidth.toNat = 8 * numTiles)
    (hheight : min (s.cvt.inputLines.toNat - y) 8 = height) (hblocks : s.cvt.blockAlignment = .block8x8 → height = 8)
    (hcompletes : StripCompletes s.cvt height) (hbound : 2 * (height * (8 * numTiles)) ≤ bound) :
    ∃ s', convertStrip host bound s y = .ok s' := by
  have hle : height ≤ 8 := by omega
  have hamount := Nat.mul_le_mul_right (8 * numTiles) hle
  obtain ⟨hinput, hunits, halignment, houtput, hdst⟩ := hcompletes
  rw [hwidth] at hunits halignment hdst
  obtain ⟨r, hreceive⟩ := receiveStrip_completes host hinput hunits hwidth (by omega) hbound
  have hkeeps := receiveStrip_keeps hreceive
  obtain ⟨data, srcY, srcU, srcV, srcYUYV, rfl⟩ := hkeeps
  obtain ⟨tiles, htiles, -⟩ := convertYUVToRGB_eq s.cvt.inputFormat data s.tiles s.cvt.coefficients
    (Nat.mul_mod_right 8 numTiles) hle
  rw [Nat.mul_div_cancel_left numTiles (by decide)] at htiles
  obtain ⟨t, hturns⟩ := convertTiles_returns { s.cvt with srcY, srcU, srcV, srcYUYV } tiles data s.tmpTile
    hwidth hle hblocks fun h => (halignment h).imp id (by omega)
  have hsend : ∃ p, sendData host s.mem bound s.cvt.outputFormat (8 * numTiles * 8 * 4) t.data s.cvt.dst
      (height * (8 * numTiles)) s.cvt.alpha.toUInt8 = .ok p := by
    rcases Nat.eq_zero_or_pos (8 * numTiles) with hzero | hpos
    · rw [sendData, hzero, Nat.mul_zero, BoundedLoop.run_of_finished rfl]
      exact ⟨_, rfl⟩
    · obtain ⟨units, hsend⟩ := sendData_eq host s.mem houtput t.data s.cvt.alpha.toUInt8 (hdst hpos)
        (show height * (8 * numTiles) ≤ bound by omega)
        (show 4 * (height * (8 * numTiles)) ≤ 8 * numTiles * 8 * 4 by omega)
      exact ⟨_, hsend⟩
  obtain ⟨⟨mem, dst⟩, hsend⟩ := hsend
  unfold convertStrip
  dsimp only
  rw [hheight, hwidth, hreceive, ok_bind, Nat.mul_div_cancel_left numTiles (by decide)]
  rw [htiles, ok_bind, hturns, ok_bind, if_neg houtput, hsend]
  exact ⟨_, rfl⟩

end

/-- After requests that were accepted, a conversion returns if the configuration is one that completes. -/
theorem performConversion_returns_iff {M : Type} (host : DmaMemory M) (setters : List Setter) (s : ConversionState M)
    (h : ({} : ConversionConfiguration).performs setters = some s.cvt) :
    (∃ bound s', performConversion host bound s = .ok s') ↔ Completes s.cvt := by
  obtain ⟨hwidth, hle⟩ := width_of_performs h
  have hmod : ¬ s.cvt.inputLineWidth.toNat % 8 ≠ 0 := by omega
  have htiles : s.cvt.inputLineWidth.toNat / 8 ≤ MAX_TILES := by unfold MAX_TILES; omega
  unfold performConversion
  simp only [if_neg hmod, if_neg (not_not_intro htiles)]
  constructor
  · rintro ⟨bound, s', hrun⟩
    split at hrun
    · cases hrun
    rename_i hblocks
    have hloop : Returns (fun _ => ∀ k, 8 * k < s.cvt.inputLines.toNat →
        StripCompletes s.cvt (min (s.cvt.inputLines.toNat - 8 * k) 8))
        (countedLoop 0 s.cvt.inputLines.toNat 8 (convertStrip host bound) s) := by
      refine (countedLoop_outcome (fun n t => t.cvt.shape = s.cvt.shape ∧
          ∀ k, 8 * k < n → 8 * k < s.cvt.inputLines.toNat →
            StripCompletes s.cvt (min (s.cvt.inputLines.toNat - 8 * k) 8))
        (by decide) ⟨rfl, fun k hk => absurd hk (Nat.not_lt_zero _)⟩ ?_).mono fun t ht k hk =>
          ht.2 k (hk.trans_le (le_loopEnd (by decide))) hk
      rintro k t hk ⟨hshape, hdone⟩
      refine Outcome.intro (fun t' ht' => ?_) fun _ _ => trivial
      obtain ⟨hlines, hsame, -⟩ := shape_fields hshape
      obtain ⟨hstrip, hshape'⟩ := completes_of_convertStrip (by rw [hsame]; exact hwidth) (by rw [hlines]; exact hk) ht'
      refine ⟨hshape'.trans hshape, fun k' hk' hlt => ?_⟩
      rcases Nat.lt_or_ge k' k with hbefore | hlast
      · exact hdone k' (by omega) hlt
      · rw [show k' = k by omega]
        rw [hlines, Nat.zero_add] at hstrip
        exact hstrip.of_shape hshape.symm
    rw [hrun] at hloop
    refine ⟨fun hblock => ?_, hloop⟩
    exact Nat.dvd_of_mod_eq_zero ((not_not.mp hblocks).resolve_left (not_not_intro hblock))
  · rintro ⟨hblocks, hstrips⟩
    obtain ⟨numTiles, hnumTiles⟩ := hwidth
    have hloop : Outcome (fun _ => False) (fun t => t.cvt.shape = s.cvt.shape)
        (countedLoop 0 s.cvt.inputLines.toNat 8 (convertStrip host (128 * numTiles)) s) := by
      refine countedLoop_outcome (fun _ (t : ConversionState M) => t.cvt.shape = s.cvt.shape) (by decide) rfl ?_
      rintro k t hk hshape
      rw [Nat.zero_add] at hk ⊢
      obtain ⟨hlines, hsame, halign⟩ := shape_fields hshape
      have hamount := Nat.mul_le_mul_right (8 * numTiles) (Nat.min_le_right (s.cvt.inputLines.toNat - 8 * k) 8)
      obtain ⟨t', ht'⟩ := convertStrip_returns host (8 * k) (by rw [hsame]; exact hnumTiles) (by rw [hlines])
        (fun hblock => by have := hblocks (halign ▸ hblock); omega) ((hstrips k hk).of_shape hshape)
        (show 2 * (min (s.cvt.inputLines.toNat - 8 * k) 8 * (8 * numTiles)) ≤ 128 * numTiles by omega)
      rw [ht']
      exact (completes_of_convertStrip (by rw [hsame]; exact ⟨_, hnumTiles⟩) (by rw [hlines]; exact hk) ht').2.trans
        hshape
    obtain ⟨s', hrun, -⟩ := hloop.exists_ok
    refine ⟨128 * numTiles, s', ?_⟩
    rw [if_neg (not_not_intro ?_)]
    · exact hrun
    · exact (em _).imp id fun hblock => Nat.mod_eq_zero_of_dvd (hblocks (not_not.mp hblock))

def tileRequests (transferUnit : UInt32) : List Setter :=
  [.setInputLineWidth 8, .setInputLines 8, .setSendingY ⟨0, 64, transferUnit, 0⟩, .setSendingU ⟨0, 32, 8, 0⟩,
    .setSendingV ⟨0, 32, 8, 0⟩, .setReceiving ⟨0, 256, 256, 0⟩]

def tileState (transferUnit : UInt16) : ConversionState Unit where
  mem := ()
  cvt :=
    { inputLineWidth := 8
      inputLines := 8
      srcY := { imageSize := 64, transferUnit := transferUnit }
      srcU := { imageSize := 32, transferUnit := 8 }
      srcV := { imageSize := 32, transferUnit := 8 }
      dst := { imageSize := 256, transferUnit := 256 } }
  data := fun _ => 0
  tiles := fun _ _ => 0
  tmpTile := fun _ => 0

theorem performConversion_returns_tile :
    ∃ bound s', performConversion (constantMemory fun _ => 0) bound (tileState 8) = .ok s' := by
  refine (performConversion_returns_iff _ (tileRequests 8) (tileState 8) rfl).mpr ⟨by decide, fun k hk => ?_⟩
  obtain rfl : k = 0 := by
    change 8 * k < 8 at hk
    omega
  exact ⟨by decide, by decide, by decide, by decide, by decide⟩

/-- Transfer units of no bytes are accepted, and the conversion divides by zero. -/
theorem not_performConversion_returns :
    ({} : ConversionConfiguration).performs (tileRequests 0) = some (tileState 0).cvt ∧
      ∀ bound, performConversion (constantMemory fun _ => 0) bound (tileState 0) = .error .divisionByZero :=
  ⟨rfl, fun _ => rfl⟩

end SweepDSEmu.Y2R
