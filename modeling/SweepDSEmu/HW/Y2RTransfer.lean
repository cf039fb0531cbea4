import SweepDSEmu.HW.Y2R
import SweepDSEmu.Lib.Strided

/-!
# Transfers of the Y2R conversion

`ReceiveData` fails if its amount is not a number of whole transfer units; else the buffer gets the amount of samples,
the ones of each unit behind one another.  `SendData` sends as many pixels in a unit as begin there, and does not end if
that is none.
-/

namespace SweepDSEmu.Y2R

variable {M : Type} (host : DmaMemory M)

/-- The pointer to a byte that is received `n` bytes at a time, `outputUnit` times in a transfer unit. -/
def receivedFrom (n outputUnit stride k : Nat) : Nat := k / outputUnit * stride + k % outputUnit * n

private theorem receivedFrom_add {n outputUnit stride k : Nat} (hunit : 0 < outputUnit) :
    receivedFrom n outputUnit stride (outputUnit + k) = stride + receivedFrom n outputUnit stride k := by
  unfold receivedFrom
  rw [Nat.add_div_left k hunit, Nat.add_mod_left, Nat.succ_mul]
  omega

/-- The bytes of a transfer unit are the bytes of the samples, if it has whole samples. -/
theorem receivedFrom_eq_strided {n unit gap k : Nat} (hn : 0 < n) (hunit : n ∣ unit) :
    receivedFrom n (unit / n) (unit + gap) k = strided unit gap (n * k) := by
  obtain ⟨m, rfl⟩ := hunit
  unfold receivedFrom strided
  rw [Nat.mul_div_cancel_left m hn, Nat.mul_div_mul_left k m hn, Nat.mul_mod_mul_left, Nat.mul_comm n (k % m)]

private theorem receiveUnit_eq (mem : M) {n size output outputUnit : Nat} (data : Nat → UInt8) (input : Nat)
    (hsize : output + outputUnit ≤ size) :
    (List.range outputUnit).foldlM
        (fun data i => writeAt size data (output + i) (host.read mem (input + i * n))) data =
      .ok (overwrite data output outputUnit fun i => host.read mem (input + i * n)) := by
  induction outputUnit with
  | zero => rw [overwrite_zero]; rfl
  | succ outputUnit ih =>
    rw [List.range_succ, List.foldlM_append, ih (by omega), ok_bind, List.foldlM_cons, writeAt, if_pos (by omega),
      update_overwrite]
    rfl

private theorem receiveLoop_eq (mem : M) {n size outputUnit : Nat} (hunit : 0 < outputUnit) (units : Nat) {bound : Nat}
    (hbound : units ≤ bound) (data : Nat → UInt8) (output input : Nat) (buf : ConversionBuffer)
    (hsize : output + outputUnit * units ≤ size) :
    BoundedLoop.run ReceiveState.done (receiveTurn host mem n size outputUnit) .exhausted bound
        { data, output, input, buf, amountOfData := outputUnit * units } =
      .ok { data := overwrite data output (outputUnit * units) fun k =>
              host.read mem (input + receivedFrom n outputUnit buf.stride k)
            output := output + outputUnit * units
            input := input + units * buf.stride
            buf := ConversionBuffer.next^[units] buf
            amountOfData := 0 } := by
  induction units generalizing bound data output input buf with
  | zero =>
    rw [Nat.mul_zero, overwrite_zero, BoundedLoop.run_of_finished rfl, Nat.zero_mul]
    rfl
  | succ units ih =>
    obtain ⟨bound, rfl⟩ := Nat.exists_eq_add_one_of_ne_zero (show bound ≠ 0 by omega)
    rw [Nat.mul_succ] at hsize ⊢
    have hturn : receiveTurn host mem n size outputUnit
        { data, output, input, buf, amountOfData := outputUnit * units + outputUnit } =
      .ok { data := overwrite data output outputUnit fun i => host.read mem (input + i * n)
            output := output + outputUnit, input := input + buf.stride, buf := buf.next
            amountOfData := outputUnit * units } := by
      unfold receiveTurn
      dsimp only
      rw [receiveUnit_eq host mem data input (by omega), ok_bind, Nat.add_sub_cancel]
    have hmore : ReceiveState.done { data, output, input, buf, amountOfData := outputUnit * units + outputUnit } =
        false := beq_false_of_ne (by dsimp only; omega)
    have hfirst : (overwrite data output outputUnit fun i => host.read mem (input + i * n)) =
        overwrite data output outputUnit fun k => host.read mem (input + receivedFrom n outputUnit buf.stride k) :=
      overwrite_congr fun i hi => by
        rw [receivedFrom, Nat.div_eq_of_lt hi, Nat.mod_eq_of_lt hi, Nat.zero_mul, Nat.zero_add]
    rw [BoundedLoop.run_succ hmore, hturn, ok_bind, ih (by omega) _ _ _ _ (by omega)]
    have hstride : buf.next.stride = buf.stride := rfl
    have hrest : (fun k => host.read mem (input + buf.stride + receivedFrom n outputUnit buf.next.stride k)) =
        fun k => host.read mem (input + receivedFrom n outputUnit buf.stride (outputUnit + k)) := by
      funext k
      rw [hstride, receivedFrom_add hunit, Nat.add_assoc]
    rw [hrest, hfirst, overwrite_append, Nat.add_comm outputUnit, Nat.succ_mul, hstride]
    simp only [Nat.add_assoc, Nat.add_comm, Nat.add_left_comm]
    rfl

def WholeUnits (n amountOfData : Nat) (buf : ConversionBuffer) : Prop :=
  0 < buf.transferUnit.toNat / n ∧ buf.transferUnit.toNat / n ∣ amountOfData

variable {buf : ConversionBuffer} {format : OutputFormat}

theorem receiveData_eq (mem : M) (bound : Nat) {n size output amountOfData : Nat}
    (data : Nat → UInt8) (hwhole : WholeUnits n amountOfData buf) (hbound : amountOfData ≤ bound)
    (hsize : output + amountOfData ≤ size) : receiveData host mem bound n size data output buf amountOfData =
      .ok (overwrite data output amountOfData fun k =>
          host.read mem (host.getPointer buf.address + receivedFrom n (buf.transferUnit.toNat / n) buf.stride k),
        ConversionBuffer.next^[amountOfData / (buf.transferUnit.toNat / n)] buf) := by
  obtain ⟨hunit, units, rfl⟩ := hwhole
  have hunits : units ≤ bound := (Nat.le_mul_of_pos_left units hunit).trans hbound
  rw [receiveData, if_neg (by omega), if_neg (not_not_intro (Nat.mul_mod_right _ _)),
    receiveLoop_eq host mem hunit units hunits data output _ buf hsize, Nat.mul_div_cancel_left units hunit]
  rfl

theorem wholeUnits_of_receiveData {mem : M} {bound n size output amountOfData : Nat}
    {data : Nat → UInt8} {result} (h : receiveData host mem bound n size data output buf amountOfData = .ok result) :
    WholeUnits n amountOfData buf := by
  unfold receiveData at h
  by_cases hunit : buf.transferUnit.toNat / n = 0
  · rw [if_pos hunit] at h
    cases h
  · rw [if_neg hunit] at h
    by_cases hdvd : amountOfData % (buf.transferUnit.toNat / n) = 0
    · exact ⟨Nat.pos_of_ne_zero hunit, Nat.dvd_of_mod_eq_zero hdvd⟩
    · rw [if_pos hdvd] at h
      cases h

def writePixels (format : OutputFormat) (alpha : UInt8) (place : Nat → Nat) (color : Nat → UInt32) (mem : M) : Nat → M
  | 0 => mem
  | k + 1 =>
    writeBytes host (writePixels format alpha place color mem k) (place k) (encodePixel format (color k) alpha)

theorem writePixels_add (format : OutputFormat) (alpha : UInt8) (place : Nat → Nat) (color : Nat → UInt32) (mem : M)
    (n k : Nat) :
    writePixels host format alpha (fun i => place (n + i)) (fun i => color (n + i))
        (writePixels host format alpha place color mem n) k =
      writePixels host format alpha place color mem (n + k) := by
  induction k with
  | zero => rfl
  | succ k ih => rw [writePixels, ih]; rfl

theorem writePixels_congr {alpha : UInt8} {place place' : Nat → Nat} {color : Nat → UInt32}
    {mem : M} {n : Nat} (h : ∀ k < n, place k = place' k) :
    writePixels host format alpha place color mem n = writePixels host format alpha place' color mem n := by
  induction n with
  | zero => rfl
  | succ n ih => rw [writePixels, ih fun k hk => h k (by omega), h n (by omega)]; rfl

def pixelSize : OutputFormat → Nat
  | .rgba8 => 4
  | .rgb8 => 3
  | .rgb5a1 | .rgb565 => 2
  | .unknown => 0

theorem length_encodePixel (format : OutputFormat) (color : UInt32) (alpha : UInt8) :
    (encodePixel format color alpha).length = pixelSize format := by
  cases format <;> rfl

theorem pixelSize_pos (h : format ≠ .unknown) : 0 < pixelSize format := by
  cases format <;> first | exact absurd rfl h | decide

def unitPixels (format : OutputFormat) (buf : ConversionBuffer) : Nat :=
  (buf.transferUnit.toNat + pixelSize format - 1) / pixelSize format

theorem unitPixels_next (format : OutputFormat) (buf : ConversionBuffer) :
    unitPixels format buf.next = unitPixels format buf := rfl

def pixelPlace (format : OutputFormat) (buf : ConversionBuffer) (k : Nat) : Nat :=
  host.getPointer (ConversionBuffer.next^[k / unitPixels format buf] buf).address +
    k % unitPixels format buf * pixelSize format

private theorem lt_unitPixels (hformat : format ≠ .unknown) (buf : ConversionBuffer) (j : Nat) :
    j * pixelSize format < buf.transferUnit.toNat ↔ j < unitPixels format buf := by
  have hpos := pixelSize_pos hformat
  rw [unitPixels, Nat.lt_iff_add_one_le (n := _ / _), Nat.le_div_iff_mul_le hpos, Nat.succ_mul]
  omega

private theorem sendUnit_eq (hformat : format ≠ .unknown) {size : Nat} (data : Nat → UInt8)
    (alpha : UInt8) (base first : Nat) (amount j : Nat) (mem : M)
    (hj : j ≤ unitPixels format buf) (hsize : 4 * (first + j + amount) ≤ size) :
    sendUnit host format size data alpha (base + buf.transferUnit.toNat) amount
        { mem, input := first + j, output := base + j * pixelSize format, buf, amountOfData := amount } =
      .ok { mem := writePixels host format alpha (fun i => base + (j + i) * pixelSize format)
              (fun i => wordOf data (first + j + i)) mem (min amount (unitPixels format buf - j))
            input := first + j + min amount (unitPixels format buf - j)
            output := base + (j + min amount (unitPixels format buf - j)) * pixelSize format
            buf
            amountOfData := amount - min amount (unitPixels format buf - j) } := by
  induction amount generalizing j mem with
  | zero => rw [sendUnit, Nat.zero_min]; rfl
  | succ amount ih =>
    by_cases hlt : j < unitPixels format buf
    · have hbegins := (lt_unitPixels hformat buf j).mpr hlt
      have hmin : min (amount + 1) (unitPixels format buf - j) = 1 + min amount (unitPixels format buf - (j + 1)) := by
        omega
      have houtput : base + j * pixelSize format + pixelSize format = base + (j + 1) * pixelSize format := by
        rw [Nat.succ_mul, Nat.add_assoc]
      rw [sendUnit, if_pos (by dsimp only; omega), readWord, if_pos (by dsimp only; omega), ok_bind]
      dsimp only
      rw [length_encodePixel, houtput, Nat.add_assoc first j 1, ih (j + 1) _ hlt (by omega), hmin,
        ← writePixels_add host format alpha _ _ mem 1]
      simp only [writePixels, Nat.add_assoc, Nat.add_zero, Nat.sub_add_eq, Nat.add_sub_cancel_left, Nat.add_comm amount]
    · have hends : ¬ base + j * pixelSize format < base + buf.transferUnit.toNat := by
        rw [Nat.add_lt_add_iff_left, lt_unitPixels hformat]
        exact hlt
      have hzero : unitPixels format buf - j = 0 := by omega
      rw [sendUnit, if_neg hends, hzero, Nat.min_zero]
      rfl

private theorem sendLoop_eq (hformat : format ≠ .unknown) (size : Nat) (data : Nat → UInt8)
    (alpha : UInt8) (bound amount : Nat) (hbound : amount ≤ bound) (mem : M) (first : Nat)
    (buf : ConversionBuffer) (hunit : 0 < unitPixels format buf) (hsize : 4 * (first + amount) ≤ size) :
    ∃ s, BoundedLoop.run SendState.done (sendTurn host format size data alpha) .exhausted bound
        { mem, input := first, output := host.getPointer buf.address, buf, amountOfData := amount } = .ok s ∧
      s.mem = writePixels host format alpha (pixelPlace host format buf) (fun k => wordOf data (first + k)) mem amount ∧
      ∃ units, s.buf = ConversionBuffer.next^[units] buf := by
  induction bound generalizing amount mem first buf with
  | zero =>
    obtain rfl : amount = 0 := by omega
    exact ⟨_, BoundedLoop.run_of_finished rfl, rfl, 0, rfl⟩
  | succ bound ih =>
    by_cases hzero : amount = 0
    · subst hzero
      exact ⟨_, BoundedLoop.run_of_finished rfl, rfl, 0, rfl⟩
    have hturn := sendUnit_eq host hformat data alpha (host.getPointer buf.address) first amount 0 mem
      (Nat.zero_le (unitPixels format buf)) hsize
    simp only [Nat.zero_mul, Nat.add_zero, Nat.zero_add, Nat.sub_zero] at hturn
    generalize hsent : min amount (unitPixels format buf) = sent at hturn
    have hmore : SendState.done (SendState.mk mem first (host.getPointer buf.address) buf amount) = false :=
      beq_false_of_ne hzero
    obtain ⟨s, hrun, hmem, units, hbuf⟩ := ih (amount - sent) (by omega)
      (writePixels host format alpha (fun i => host.getPointer buf.address + i * pixelSize format)
        (fun i => wordOf data (first + i)) mem sent) (first + sent) buf.next hunit (by omega)
    refine ⟨s, ?_, ?_, ?_⟩
    · rw [BoundedLoop.run_succ hmore, sendTurn, hturn, ok_bind, ok_bind]
      exact hrun
    · have hfirst : writePixels host format alpha (fun i => host.getPointer buf.address + i * pixelSize format)
            (fun i => wordOf data (first + i)) mem sent =
          writePixels host format alpha (pixelPlace host format buf) (fun i => wordOf data (first + i)) mem sent :=
        writePixels_congr host fun k hk => by
          rw [pixelPlace, Nat.div_eq_of_lt (by omega), Nat.mod_eq_of_lt (by omega)]
          rfl
      have hrest : amount - sent ≠ 0 → sent = unitPixels format buf := by omega
      rw [hmem, hfirst, show amount = sent + (amount - sent) by omega, ← writePixels_add, Nat.add_sub_cancel_left]
      simp only [Nat.add_assoc]
      refine writePixels_congr host fun k hk => ?_
      rw [hrest (by omega), pixelPlace, pixelPlace, Nat.add_div_left k hunit, Nat.add_mod_left,
        Function.iterate_succ_apply, unitPixels_next]
    · exact ⟨units + 1, hbuf⟩

theorem unitPixels_pos (hformat : format ≠ .unknown) (h : 0 < buf.transferUnit.toNat) : 0 < unitPixels format buf :=
  (lt_unitPixels hformat buf 0).mp (by rw [Nat.zero_mul]; exact h)

theorem sendData_eq (mem : M) {bound size amountOfData : Nat} (hformat : format ≠ .unknown)
    (data : Nat → UInt8) (alpha : UInt8) (hunit : 0 < buf.transferUnit.toNat)
    (hbound : amountOfData ≤ bound) (hsize : 4 * amountOfData ≤ size) :
    ∃ units, sendData host mem bound format size data buf amountOfData alpha =
      .ok (writePixels host format alpha (pixelPlace host format buf) (wordOf data) mem amountOfData,
        ConversionBuffer.next^[units] buf) := by
  obtain ⟨s, hrun, hmem, units, hbuf⟩ := sendLoop_eq host hformat size data alpha bound amountOfData hbound mem 0 buf
    (unitPixels_pos hformat hunit) (by omega)
  refine ⟨units, ?_⟩
  rw [sendData, hrun, ok_bind, hmem, hbuf]
  simp only [Nat.zero_add]

theorem sendData_endless (mem : M) (bound : Nat) {size amountOfData : Nat}
    (data : Nat → UInt8) (alpha : UInt8) (hunit : buf.transferUnit.toNat = 0) (hamount : 0 < amountOfData) :
    sendData host mem bound format size data buf amountOfData alpha = .error .exhausted := by
  have hstuck : ∀ s : SendState M, s.amountOfData = amountOfData ∧ s.buf.transferUnit.toNat = 0 →
      s.done = false ∧ ∃ t, sendTurn host format size data alpha s = .ok t ∧
        t.amountOfData = amountOfData ∧ t.buf.transferUnit.toNat = 0 := by
    rintro s ⟨hleft, hzero⟩
    obtain ⟨amount, rfl⟩ := Nat.exists_eq_add_one_of_ne_zero hamount.ne'
    refine ⟨beq_false_of_ne (by omega), { s with buf := s.buf.next, output := host.getPointer s.buf.next.address }, ?_,
      hleft, hzero⟩
    rw [sendTurn, hleft, sendUnit, if_neg (by omega), ok_bind, hleft]
  rw [sendData, BoundedLoop.run_endless _ hstuck ⟨rfl, hunit⟩ bound]
  rfl

end SweepDSEmu.Y2R
