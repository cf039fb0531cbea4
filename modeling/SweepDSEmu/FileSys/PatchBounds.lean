import SweepDSEmu.FileSys.BpsPatch

/-!
# Patches that keep inside their arrays

When `ApplyIpsPatch` and `ApplyBpsPatch` return on an arbitrary file, and that they always end.

An IPS file must be as long as its header, and every record that is reached must be in the file as a whole: the loop
compares only the first three bytes of a record with the end.  A BPS file must hold the marker, and the footer when its
header is accepted; and no copy inside the target may come to a negative offset whose sum with the length wraps around.
-/

namespace SweepDSEmu.FileSys.Patch

/-- Two bytes as a number, the high one first; zero outside. -/
def number16 (bytes : Bytes) (i : Nat) : Nat := (bytes.getD i 0).toNat * 2 ^ 8 + (bytes.getD (i + 1) 0).toNat

def number24 (bytes : Bytes) (i : Nat) : Nat := (bytes.getD i 0).toNat * 2 ^ 16 + number16 bytes (i + 1)

/-- Every record from the cursor on that is reached in a buffer of `size` bytes is in the file. -/
inductive RecordsFit (ips : Bytes) (size : Nat) : Nat → Prop where
  | finished {cursor : Nat} (hend : ips.length ≤ cursor + 3) : RecordsFit ips size cursor
  | eof {cursor : Nat} (heof : (ips.drop cursor).take 3 = ipsEof) : RecordsFit ips size cursor
  | rleOutside {cursor : Nat} (hlength : cursor + 7 ≤ ips.length) (hrle : number16 ips (cursor + 3) = 0)
      (hout : size < number24 ips cursor + number16 ips (cursor + 5)) : RecordsFit ips size cursor
  | rle {cursor : Nat} (hlength : cursor + 7 ≤ ips.length) (hrle : number16 ips (cursor + 3) = 0)
      (hvalue : number16 ips (cursor + 5) = 0 ∨ cursor + 8 ≤ ips.length) (hrest : RecordsFit ips size (cursor + 8)) :
      RecordsFit ips size cursor
  | outside {cursor : Nat} (hlength : cursor + 5 ≤ ips.length) (hdata : number16 ips (cursor + 3) ≠ 0)
      (hout : size < number24 ips cursor + number16 ips (cursor + 3)) : RecordsFit ips size cursor
  | data {cursor : Nat} (hdata : number16 ips (cursor + 3) ≠ 0)
      (hlength : cursor + 5 + number16 ips (cursor + 3) ≤ ips.length)
      (hrest : RecordsFit ips size (cursor + (number16 ips (cursor + 3) + 5))) : RecordsFit ips size cursor

variable {ips bytes part buffer : Bytes} {cursor i n offset length value size fuel : Nat}

/-- The only fault is an access outside an array. -/
abbrev Reads {α : Type} (Q : α → Prop) : Except Fault α → Prop := Outcome (fun e => e = .outOfBounds) Q

private theorem byteAt_of_lt (h : i < bytes.length) : byteAt bytes i = .ok (bytes.getD i 0) := by
  unfold byteAt
  rw [checkedGet_of_lt h, List.getD_eq_getElem?_getD, List.getElem?_eq_getElem h]
  rfl

private theorem read16_of_lt (h : i + 1 < bytes.length) : read16 bytes i = .ok (number16 bytes i) := by
  unfold read16
  rw [byteAt_of_lt (by omega), ok_bind, byteAt_of_lt h, ok_bind]
  rfl

private theorem read24_of_lt (h : i + 2 < bytes.length) : read24 bytes i = .ok (number24 bytes i) := by
  unfold read24
  rw [byteAt_of_lt (by omega), ok_bind, read16_of_lt h, ok_bind]
  rfl

private theorem byteAt_reads : Reads (fun b => i < bytes.length ∧ b = bytes.getD i 0) (byteAt bytes i) := by
  by_cases h : i < bytes.length
  · rw [byteAt_of_lt h]
    exact ⟨h, rfl⟩
  · unfold byteAt
    rw [checkedGet_of_le (by omega)]
    rfl

private theorem read16_reads : Reads (fun n => i + 1 < bytes.length ∧ n = number16 bytes i) (read16 bytes i) := by
  refine Outcome.bind byteAt_reads ?_
  rintro high ⟨-, rfl⟩
  refine Outcome.bind byteAt_reads ?_
  rintro low ⟨hlow, rfl⟩
  exact ⟨hlow, rfl⟩

private theorem read24_reads : Reads (fun n => i + 2 < bytes.length ∧ n = number24 bytes i) (read24 bytes i) := by
  refine Outcome.bind byteAt_reads ?_
  rintro high ⟨-, rfl⟩
  refine Outcome.bind read16_reads ?_
  rintro low ⟨hlow, rfl⟩
  exact ⟨hlow, rfl⟩

private theorem slice_reads :
    Reads (fun b => offset + n ≤ bytes.length ∧ b = (bytes.drop offset).take n) (slice bytes offset n) := by
  unfold slice
  by_cases h : offset + n ≤ bytes.length
  · rw [checkedSlice_of_le h]
    exact ⟨h, rfl⟩
  · rw [checkedSlice_of_lt (by omega)]
    rfl

private theorem fillRle_of_lt (hroom : offset + n ≤ buffer.length) (hvalue : n = 0 ∨ value < ips.length) :
    ∃ b, fillRle ips value offset n buffer = .ok b ∧ b.length = buffer.length := by
  apply Outcome.exists_ok
  refine Outcome.foldlM (P := fun b : Bytes => b.length = buffer.length) rfl ?_
  intro b i hi hb
  rw [List.mem_range] at hi
  have hset : ∀ x, setByte b (offset + i) x = .ok (b.set (offset + i) x) := fun x => checkedSet_of_lt (by omega)
  rw [byteAt_of_lt (by omega), ok_bind, hset]
  show (b.set (offset + i) _).length = buffer.length
  rw [List.length_set, hb]

private theorem fillRle_reads (hroom : offset + n ≤ buffer.length) :
    Reads (fun b => (n = 0 ∨ value < ips.length) ∧ b.length = buffer.length) (fillRle ips value offset n buffer) := by
  by_cases hvalue : n = 0 ∨ value < ips.length
  · obtain ⟨b, hb, hlength⟩ := fillRle_of_lt hroom hvalue
    rw [hb]
    exact ⟨hvalue, hlength⟩
  · obtain ⟨k, rfl⟩ : ∃ k, n = k + 1 := ⟨n - 1, by omega⟩
    have hget : byteAt ips value = .error .outOfBounds := checkedGet_of_le (by omega)
    unfold fillRle
    rw [List.range_succ_eq_map, List.foldlM_cons, hget]
    rfl

private theorem splice_ok {offset : Nat} (buffer part : Bytes) (h : offset + part.length ≤ buffer.length) :
    ∃ b, splice buffer offset part = .ok b ∧ b.length = buffer.length :=
  ⟨_, checkedSplice_of_le h, length_of_checkedSplice (checkedSplice_of_le (e := Fault.outOfBounds) h)⟩

private theorem ipsLoop_reads (hsize : 5 ≤ ips.length) (hpos : 0 < fuel) (hfuel : ips.length ≤ cursor + fuel) :
    Reads (fun _ => RecordsFit ips buffer.length cursor) (ipsLoop ips (ips.length - 3) fuel cursor buffer) := by
  induction fuel generalizing cursor buffer with
  | zero => omega
  | succ fuel ih =>
    unfold ipsLoop
    by_cases hend : cursor < ips.length - 3
    · rw [if_pos hend]
      refine Outcome.bind slice_reads ?_
      rintro eofCheck ⟨-, rfl⟩
      by_cases heof : (ips.drop cursor).take 3 = ipsEof
      · rw [if_pos heof]
        exact .eof heof
      · rw [if_neg heof]
        refine Outcome.bind read24_reads ?_
        rintro offset ⟨-, rfl⟩
        refine Outcome.bind read16_reads ?_
        rintro length ⟨hlength, rfl⟩
        by_cases hrle : number16 ips (cursor + 3) = 0
        · rw [if_pos hrle]
          refine Outcome.bind read16_reads ?_
          rintro length ⟨hlength, rfl⟩
          split
          · rename_i hout
            exact .rleOutside (by omega) hrle hout
          · rename_i hroom
            refine Outcome.bind (fillRle_reads (by omega)) ?_
            rintro b ⟨hvalue, hb⟩
            refine Outcome.mono (ih (by omega) (by omega)) ?_
            intro _ hrest
            rw [hb] at hrest
            exact .rle (by omega) hrle (by omega) hrest
        · rw [if_neg hrle]
          split
          · rename_i hout
            exact .outside (by omega) hrle hout
          · rename_i hroom
            refine Outcome.bind slice_reads ?_
            rintro part ⟨hpart, rfl⟩
            have hroom' := List.length_take_le (number16 ips (cursor + 3)) (ips.drop (cursor + 5))
            obtain ⟨b, hsplice, hb⟩ :=
              splice_ok buffer _ (Nat.le_trans (Nat.add_le_add_left hroom' _) (not_lt.mp hroom))
            rw [hsplice, ok_bind]
            refine Outcome.mono (ih (by omega) (by omega)) ?_
            intro _ hrest
            rw [hb] at hrest
            exact .data hrle (by omega) hrest
    · rw [if_neg hend]
      exact .finished (by omega)

private theorem ipsLoop_turn (hlength : cursor + 5 ≤ ips.length)
    (hrle : number16 ips (cursor + 3) = 0 → ∃ r, (do
      let length ← read16 ips (cursor + 5)
      if buffer.length < number24 ips cursor + length then .ok (.errorPatches, buffer)
      else do
        let buffer ← fillRle ips (cursor + 7) (number24 ips cursor) length buffer
        ipsLoop ips (ips.length - 3) fuel (cursor + 8) buffer : Except Fault (ResultStatus × Bytes)) = .ok r)
    (hdata : number16 ips (cursor + 3) ≠ 0 → ∃ r,
      (if buffer.length < number24 ips cursor + number16 ips (cursor + 3) then .ok (.errorPatches, buffer)
      else do
        let bytes ← slice ips (cursor + 5) (number16 ips (cursor + 3))
        let buffer ← splice buffer (number24 ips cursor) bytes
        ipsLoop ips (ips.length - 3) fuel (cursor + (number16 ips (cursor + 3) + 5)) buffer :
          Except Fault (ResultStatus × Bytes)) = .ok r) :
    ∃ r, ipsLoop ips (ips.length - 3) (fuel + 1) cursor buffer = .ok r := by
  have heof : slice ips cursor 3 = .ok ((ips.drop cursor).take 3) := checkedSlice_of_le (by omega)
  unfold ipsLoop
  rw [heof, ok_bind, read24_of_lt (by omega), ok_bind, read16_of_lt (by omega), ok_bind]
  split
  · split
    · exact ⟨_, rfl⟩
    · split
      · rename_i hzero
        exact hrle hzero
      · rename_i hpos
        exact hdata hpos
  · exact ⟨_, rfl⟩

private theorem ipsLoop_returns (hfit : RecordsFit ips size cursor) (hbuffer : buffer.length = size) (hpos : 0 < fuel)
    (hfuel : ips.length ≤ cursor + fuel) : ∃ r, ipsLoop ips (ips.length - 3) fuel cursor buffer = .ok r := by
  induction hfit generalizing fuel buffer with
  | finished hend =>
    obtain ⟨fuel, rfl⟩ : ∃ k, fuel = k + 1 := ⟨fuel - 1, by omega⟩
    unfold ipsLoop
    rw [if_neg (by omega)]
    exact ⟨_, rfl⟩
  | @eof cursor heof =>
    obtain ⟨fuel, rfl⟩ : ∃ k, fuel = k + 1 := ⟨fuel - 1, by omega⟩
    have hlength := congrArg List.length heof
    have hcursor : cursor + 3 ≤ ips.length := by
      rw [List.length_take, List.length_drop] at hlength
      simp only [ipsEof, List.length_cons, List.length_nil] at hlength
      omega
    have hslice : slice ips cursor 3 = .ok ipsEof := heof ▸ checkedSlice_of_le hcursor
    unfold ipsLoop
    rw [hslice, ok_bind, if_pos rfl]
    split
    · exact ⟨_, rfl⟩
    · exact ⟨_, rfl⟩
  | rleOutside hlength hrle hout =>
    obtain ⟨fuel, rfl⟩ : ∃ k, fuel = k + 1 := ⟨fuel - 1, by omega⟩
    refine ipsLoop_turn (by omega) (fun _ => ?_) (fun h => absurd hrle h)
    rw [read16_of_lt (by omega), ok_bind, if_pos (by omega)]
    exact ⟨_, rfl⟩
  | rle hlength hrle hvalue hrest ih =>
    obtain ⟨fuel, rfl⟩ : ∃ k, fuel = k + 1 := ⟨fuel - 1, by omega⟩
    refine ipsLoop_turn (by omega) (fun _ => ?_) (fun h => absurd hrle h)
    rw [read16_of_lt (by omega), ok_bind]
    split
    · exact ⟨_, rfl⟩
    · rename_i hroom
      obtain ⟨b, hb, hsame⟩ := fillRle_of_lt (not_lt.mp hroom) (hvalue.imp_right fun h => Nat.lt_of_succ_le h)
      rw [hb, ok_bind]
      exact ih (by omega) (by omega) (by omega)
  | outside hlength hdata hout =>
    obtain ⟨fuel, rfl⟩ : ∃ k, fuel = k + 1 := ⟨fuel - 1, by omega⟩
    refine ipsLoop_turn hlength (fun h => absurd h hdata) (fun _ => ?_)
    rw [if_pos (by omega)]
    exact ⟨_, rfl⟩
  | @data cursor hdata hlength hrest ih =>
    obtain ⟨fuel, rfl⟩ : ∃ k, fuel = k + 1 := ⟨fuel - 1, by omega⟩
    refine ipsLoop_turn (by omega) (fun h => absurd h hdata) (fun _ => ?_)
    split
    · exact ⟨_, rfl⟩
    · rename_i hroom
      have hslice : slice ips (cursor + 5) (number16 ips (cursor + 3)) = .ok _ := checkedSlice_of_le hlength
      have hroom' := List.length_take_le (number16 ips (cursor + 3)) (ips.drop (cursor + 5))
      obtain ⟨b, hb, hsame⟩ := splice_ok buffer _ (Nat.le_trans (Nat.add_le_add_left hroom' _) (not_lt.mp hroom))
      rw [hslice, ok_bind, hb, ok_bind]
      exact ih (by omega) (by omega) (by omega)

/-- `ApplyIpsPatch` returns exactly when the header is in the file, and the records of a file with the right header. -/
private theorem applyIpsPatch_returns_iff (buffer : Bytes) (hips : ips.length < 2 ^ 63) :
    ((∃ r, applyIpsPatch ips buffer = .ok r) ↔
      5 ≤ ips.length ∧ (ips.take 5 = ipsHeader → RecordsFit ips buffer.length 5)) ∧
      applyIpsPatch ips buffer ≠ .error .neverReturns := by
  by_cases hsize : 5 ≤ ips.length
  · have hslice : slice ips 0 5 = .ok (ips.take 5) := checkedSlice_of_le (by omega)
    have hsub : subU64 ips.length 3 = ips.length - 3 := by
      unfold subU64
      omega
    unfold applyIpsPatch
    rw [hslice, ok_bind, hsub]
    split
    · rename_i hheader
      have hreads : Reads (fun _ => RecordsFit ips buffer.length 5)
          (ipsLoop ips (ips.length - 3) (ips.length + 1) 5 buffer) :=
        ipsLoop_reads hsize (by omega) (by omega)
      refine ⟨⟨?_, ?_⟩, ?_⟩
      · rintro ⟨r, hr⟩
        rw [hr] at hreads
        exact ⟨hsize, fun _ => hreads⟩
      · rintro ⟨-, hfit⟩
        exact ipsLoop_returns (hfit hheader) rfl (by omega) (by omega)
      · intro herror
        rw [herror] at hreads
        cases hreads
    · rename_i hheader
      exact ⟨⟨fun _ => ⟨hsize, fun h => absurd h hheader⟩, fun _ => ⟨_, rfl⟩⟩, by simp⟩
  · have hslice : slice ips 0 5 = .error .outOfBounds := checkedSlice_of_lt (by omega)
    unfold applyIpsPatch
    rw [hslice]
    refine ⟨⟨?_, fun h => absurd h.1 hsize⟩, ?_⟩
    · rintro ⟨r, hr⟩
      cases hr
    · intro herror
      cases herror

def Stream.Inside (s : Stream) : Prop := s.offset ≤ s.size

variable {s other : Stream}

theorem Stream.readNumberLoop_le (bytes : Bytes) (data shift : Nat) :
    (readNumberLoop bytes data shift).2 ≤ bytes.length ∧
      (bytes ≠ [] → 0 < (readNumberLoop bytes data shift).2) ∧
      (data < 2 ^ 32 → (readNumberLoop bytes data shift).1 < 2 ^ 32) := by
  induction bytes generalizing data shift with
  | nil => exact ⟨le_rfl, fun h => absurd rfl h, fun h => h⟩
  | cons x bytes ih =>
    unfold readNumberLoop
    split
    · refine ⟨by simp, fun _ => by simp, fun _ => Nat.mod_lt _ (by decide)⟩
    · obtain ⟨hle, -, hdata⟩ := ih (((data + x.toNat % 2 ^ 7 * shift) % 2 ^ 32 + shift * 2 ^ 7 % 2 ^ 32) % 2 ^ 32)
        (shift * 2 ^ 7 % 2 ^ 32)
      refine ⟨by simp only [List.length_cons]; omega, fun _ => by simp, fun _ => hdata (Nat.mod_lt _ (by decide))⟩

private theorem readNumber_inside (h : s.Inside) :
    s.readNumber.1 < 2 ^ 32 ∧ s.readNumber.2.Inside ∧ s.readNumber.2.data = s.data ∧
      s.offset ≤ s.readNumber.2.offset ∧ (s.offset < s.size → s.offset < s.readNumber.2.offset) := by
  obtain ⟨hle, hpos, hdata⟩ := Stream.readNumberLoop_le (s.data.drop s.offset) 0 1
  unfold Stream.Inside Stream.size at h
  rw [List.length_drop] at hle
  refine ⟨hdata (by decide), ?_, rfl, ?_, ?_⟩
  · show s.offset + _ ≤ s.data.length
    omega
  · show s.offset ≤ s.offset + _
    omega
  · intro hlt
    have hne : s.data.drop s.offset ≠ [] := by
      intro hnil
      have hlength := congrArg List.length hnil
      rw [List.length_drop, List.length_nil] at hlength
      unfold Stream.size at hlt
      omega
    show s.offset < s.offset + _
    have hpos := hpos hne
    omega

private theorem addU64_small {a b : Nat} (ha : a < 2 ^ 63) (hb : b < 2 ^ 63) : addU64 a b = a + b :=
  Nat.mod_eq_of_lt (by omega)

private theorem read_inside (h : s.Inside) (hsize : s.size < 2 ^ 63) (hlength : length < 2 ^ 63) :
    (s.size < s.offset + length ∧ s.read length = .ok none) ∨
      (s.offset + length ≤ s.size ∧
        s.read length = .ok (some ((s.data.drop s.offset).take length, { s with offset := s.offset + length }))) := by
  unfold Stream.Inside at h
  have hsum : addU64 s.offset length = s.offset + length := addU64_small (by omega) hlength
  unfold Stream.read
  rw [hsum]
  by_cases hroom : s.offset + length > s.size
  · rw [if_pos hroom]
    exact .inl ⟨hroom, rfl⟩
  · rw [if_neg hroom]
    have hslice : slice s.data s.offset length = .ok ((s.data.drop s.offset).take length) :=
      checkedSlice_of_le (not_lt.mp hroom)
    rw [hslice]
    exact .inr ⟨not_lt.mp hroom, rfl⟩

private theorem copyFrom_inside (h : s.Inside) (hsize : s.size < 2 ^ 63) (hother : other.Inside)
    (hsize' : other.size < 2 ^ 63) (hlength : length < 2 ^ 63) :
    ∃ ok s' other', s.copyFrom other length = .ok (ok, s', other') ∧ s'.Inside ∧ s'.size = s.size ∧ other'.Inside ∧
      other'.data = other.data ∧ other.offset ≤ other'.offset := by
  have hoffset : s.offset < 2 ^ 63 := Nat.lt_of_le_of_lt h hsize
  have hsum : addU64 s.offset length = s.offset + length := addU64_small hoffset hlength
  unfold Stream.copyFrom
  rw [hsum]
  split
  · exact ⟨_, _, _, rfl, h, rfl, hother, rfl, le_rfl⟩
  · rename_i hroom
    rcases read_inside hother hsize' hlength with ⟨-, hread⟩ | ⟨hle, hread⟩
    · rw [hread]
      exact ⟨_, _, _, rfl, h, rfl, hother, rfl, le_rfl⟩
    · rw [hread, ok_bind]
      unfold Stream.size at hroom
      have hpart := List.length_take_le length (other.data.drop other.offset)
      obtain ⟨data, hdata, hsame⟩ := splice_ok s.data _ (Nat.le_trans (Nat.add_le_add_left hpart _) (not_lt.mp hroom))
      dsimp only
      rw [hdata, ok_bind]
      refine ⟨_, _, _, rfl, ?_, hsame, hle, rfl, Nat.le_add_right _ _⟩
      show s.offset + length ≤ data.length
      omega

namespace PatchApplier

variable {a : PatchApplier} {patch data : Bytes} {stop relativeOffset : Nat}

/-- The next command is a copy inside the target from a negative offset, and the sum of the offset and the length wraps
around to one that is accepted. -/
def NegativeCopy (a : PatchApplier) : Prop :=
  let (data, patch) := a.patch.readNumber
  let length := data / 4 + 1
  let offset := movedBy a.targetRelativeOffset patch.readNumber.1
  data % 4 = 3 ∧ a.target.offset + length ≤ a.target.size ∧ 2 ^ 64 ≤ offset + length ∧
    offset + length ≤ a.target.size + 2 ^ 64

instance : DecidablePred NegativeCopy := fun _ => inferInstanceAs (Decidable (_ ∧ _ ∧ _ ∧ _))

structure Bounded (patch : Bytes) (size : Nat) (a : PatchApplier) : Prop where
  source : a.source.Inside
  target : a.target.Inside
  inside : a.patch.Inside
  sourceSize : a.source.size = size
  targetSize : a.target.size = size
  data : a.patch.data = patch

/-- The command has been carried out or refused, and the streams are still inside their arrays. -/
def Moves (patch : Bytes) (size : Nat) (a : PatchApplier) (x : Except Fault (Bool × PatchApplier)) : Prop :=
  ∃ ok a', x = .ok (ok, a') ∧ Bounded patch size a' ∧ a.patch.offset ≤ a'.patch.offset

private theorem movedBy_lt (offset data : Nat) : movedBy offset data < 2 ^ 64 := by
  unfold movedBy
  have hlt := Int.emod_lt_of_pos ((offset : Int) + (if data % 2 = 1 then -1 else 1) * ((data / 2 : Nat) : Int))
    (show (0 : Int) < 2 ^ 64 by decide)
  have hnonneg := Int.emod_nonneg ((offset : Int) + (if data % 2 = 1 then -1 else 1) * ((data / 2 : Nat) : Int))
    (show (2 ^ 64 : Int) ≠ 0 by decide)
  omega

private theorem copyBytes_inside (hsize : data.length < 2 ^ 63) (hto : stop + length ≤ data.length)
    (hfrom : relativeOffset + length ≤ data.length) :
    ∃ d, copyBytes stop length data relativeOffset = .ok (d, relativeOffset + length) ∧ d.length = data.length := by
  induction length with
  | zero => exact ⟨data, rfl, rfl⟩
  | succ n ih =>
    obtain ⟨d, hd, hlength⟩ := ih (by omega) (by omega)
    have hnext : addU64 (relativeOffset + n) 1 = relativeOffset + (n + 1) := addU64_small (by omega) (by omega)
    have hstop : addU64 stop n = stop + n := addU64_small (by omega) (by omega)
    have hset : ∀ b, setByte d (stop + n) b = .ok (d.set (stop + n) b) := fun b => checkedSet_of_lt (by omega)
    unfold copyBytes at hd ⊢
    rw [List.range_succ, List.foldlM_append, hd, ok_bind, List.foldlM_cons]
    dsimp only
    rw [byteAt_of_lt (by omega), ok_bind, hstop, hset, ok_bind, hnext]
    exact ⟨_, rfl, by rw [List.length_set, hlength]⟩

private theorem copyBytes_outside (hpos : 0 < length) (hfrom : data.length ≤ relativeOffset) :
    copyBytes stop length data relativeOffset = .error .outOfBounds := by
  obtain ⟨n, rfl⟩ : ∃ n, length = n + 1 := ⟨length - 1, by omega⟩
  have hget : byteAt data relativeOffset = .error .outOfBounds := checkedGet_of_le hfrom
  unfold copyBytes
  rw [List.range_succ_eq_map, List.foldlM_cons]
  rw [hget]
  rfl

private theorem seek_inside (h : s.Inside) (offset : Nat) :
    (s.seek offset).2.Inside ∧ (s.seek offset).2.size = s.size := by
  unfold Stream.seek
  split
  · exact ⟨h, rfl⟩
  · rename_i hle
    exact ⟨not_lt.mp hle, rfl⟩

section

variable (h : Bounded patch size a)

include h

private theorem sourceRead_moves (hsize : size < 2 ^ 63) (hlength : length < 2 ^ 63) :
    Moves patch size a (a.sourceRead length) := by
  obtain ⟨hinside, hsame⟩ := seek_inside h.source a.target.offset
  have hsource := h.sourceSize
  have htarget := h.targetSize
  unfold sourceRead
  split
  · rename_i source hseek
    rw [hseek] at hinside hsame
    exact ⟨_, _, rfl, ⟨hinside, h.target, h.inside, hsame.trans hsource, htarget, h.data⟩, le_rfl⟩
  · rename_i source hseek
    rw [hseek] at hinside hsame
    obtain ⟨ok, t, s', hcopy, ht, htsize, hs, hsdata, -⟩ := copyFrom_inside h.target (by omega) hinside
      (by rw [hsame]; omega) hlength
    rw [hcopy, ok_bind]
    refine ⟨_, _, rfl, ⟨hs, ht, h.inside, ?_, htsize.trans htarget, h.data⟩, le_rfl⟩
    exact (congrArg List.length hsdata).trans (hsame.trans hsource)

private theorem targetRead_moves (hsize : size < 2 ^ 63) (hpatch : patch.length < 2 ^ 63)
    (hlength : length < 2 ^ 63) : Moves patch size a (a.targetRead length) := by
  have htarget := h.targetSize
  have hsmall : a.patch.size < 2 ^ 63 := by
    unfold Stream.size
    rw [h.data]
    exact hpatch
  obtain ⟨ok, t, s', hcopy, ht, htsize, hs, hsdata, hle⟩ := copyFrom_inside h.target (by omega) h.inside hsmall hlength
  unfold targetRead
  rw [hcopy, ok_bind]
  exact ⟨_, _, rfl, ⟨h.source, ht, hs, h.sourceSize, htsize.trans htarget, hsdata.trans h.data⟩, hle⟩

private theorem sourceCopy_moves (hsize : size < 2 ^ 63) (hlength : length < 2 ^ 63) :
    Moves patch size a (a.sourceCopy length) := by
  obtain ⟨-, hp, hpdata, hple, -⟩ := readNumber_inside h.inside
  obtain ⟨hinside, hsame⟩ := seek_inside h.source (movedBy a.sourceRelativeOffset a.patch.readNumber.1)
  have hsource := h.sourceSize
  have htarget := h.targetSize
  have hdata := hpdata.trans h.data
  unfold sourceCopy
  dsimp only
  split
  · rename_i source hseek
    rw [hseek] at hinside hsame
    exact ⟨_, _, rfl, ⟨hinside, h.target, hp, hsame.trans hsource, htarget, hdata⟩, hple⟩
  · rename_i source hseek
    rw [hseek] at hinside hsame
    obtain ⟨ok, t, s', hcopy, ht, htsize, hs, hsdata, -⟩ := copyFrom_inside h.target (by omega) hinside
      (by rw [hsame]; omega) hlength
    have hs'size : s'.size = size := (congrArg List.length hsdata).trans (hsame.trans hsource)
    rw [hcopy, ok_bind]
    split
    · exact ⟨_, _, rfl, ⟨hs, ht, hp, hs'size, htsize.trans htarget, hdata⟩, hple⟩
    · exact ⟨_, _, rfl, ⟨hs, ht, hp, hs'size, htsize.trans htarget, hdata⟩, hple⟩

private theorem targetCopy_moves (hsize : size < 2 ^ 63) (hpos : 0 < length) (hlength : length < 2 ^ 63)
    (hwrap : ¬ (a.target.offset + length ≤ size ∧
      2 ^ 64 ≤ movedBy a.targetRelativeOffset a.patch.readNumber.1 + length ∧
      movedBy a.targetRelativeOffset a.patch.readNumber.1 + length ≤ size + 2 ^ 64)) :
    Moves patch size a (a.targetCopy length) := by
  obtain ⟨-, hp, hpdata, hple, -⟩ := readNumber_inside h.inside
  have hoffset := movedBy_lt a.targetRelativeOffset a.patch.readNumber.1
  have hdata := hpdata.trans h.data
  have htarget := h.targetSize
  have hinside := h.target
  unfold Stream.Inside at hinside
  have hsum : addU64 a.target.offset length = a.target.offset + length := addU64_small (by omega) hlength
  unfold targetCopy
  dsimp only
  rw [hsum, htarget]
  generalize movedBy a.targetRelativeOffset a.patch.readNumber.1 = offset at hoffset hwrap ⊢
  split
  · exact ⟨_, _, rfl, ⟨h.source, h.target, hp, h.sourceSize, htarget, hdata⟩, hple⟩
  · rename_i hroom
    split
    · exact ⟨_, _, rfl, ⟨h.source, h.target, hp, h.sourceSize, htarget, hdata⟩, hple⟩
    · rename_i hfrom
      have hfits : offset + length ≤ size := by
        unfold addU64 at hfrom
        omega
      unfold Stream.size at htarget
      obtain ⟨d, hcopy, hsame⟩ := copyBytes_inside (by omega)
        (show a.target.offset + length ≤ a.target.data.length by omega)
        (show offset + length ≤ a.target.data.length by omega)
      have hseek : Stream.seek ⟨d, a.target.offset⟩ (a.target.offset + length) =
          (true, ⟨d, a.target.offset + length⟩) := if_neg (show ¬ a.target.offset + length > d.length by omega)
      rw [hcopy, ok_bind]
      rw [hseek]
      refine ⟨_, _, rfl, ⟨h.source, ?_, hp, h.sourceSize, hsame.trans htarget, hdata⟩, hple⟩
      show a.target.offset + length ≤ d.length
      omega

private theorem targetCopy_fails (hsize : size < 2 ^ 63) (hpos : 0 < length)
    (hlength : length < 2 ^ 63) (hroom : a.target.offset + length ≤ size)
    (hwrap : 2 ^ 64 ≤ movedBy a.targetRelativeOffset a.patch.readNumber.1 + length)
    (hfits : movedBy a.targetRelativeOffset a.patch.readNumber.1 + length ≤ size + 2 ^ 64) :
    a.targetCopy length = .error .outOfBounds := by
  have hoffset := movedBy_lt a.targetRelativeOffset a.patch.readNumber.1
  have htarget := h.targetSize
  have hsum : addU64 a.target.offset length = a.target.offset + length := addU64_small (by omega) hlength
  unfold targetCopy
  dsimp only
  rw [hsum, htarget]
  generalize movedBy a.targetRelativeOffset a.patch.readNumber.1 = offset at hoffset hwrap hfits ⊢
  have hsum' : ¬ addU64 offset length > size := by
    unfold addU64
    omega
  unfold Stream.size at htarget
  rw [if_neg (by omega), if_neg hsum', copyBytes_outside hpos (by omega)]
  rfl

private theorem handleCommand_moves (hsize : size < 2 ^ 63) (hpatch : patch.length < 2 ^ 63)
    (hmore : a.patch.offset < patch.length) (hneg : ¬ NegativeCopy a) :
    ∃ ok a', a.handleCommand = .ok (ok, a') ∧ Bounded patch size a' ∧ a.patch.offset < a'.patch.offset := by
  obtain ⟨hdata, hp, hpdata, -, hlt⟩ := readNumber_inside h.inside
  have hlt := hlt (by unfold Stream.size; rw [h.data]; exact hmore)
  have h' : Bounded patch size { a with patch := a.patch.readNumber.2 } :=
    ⟨h.source, h.target, hp, h.sourceSize, h.targetSize, hpdata.trans h.data⟩
  have hlength : a.patch.readNumber.1 / 4 + 1 < 2 ^ 63 := by omega
  have hcase : ∀ x, Moves patch size { a with patch := a.patch.readNumber.2 } x →
      ∃ ok a', x = .ok (ok, a') ∧ Bounded patch size a' ∧ a.patch.offset < a'.patch.offset := by
    rintro x ⟨ok, a', hx, hb, hle⟩
    exact ⟨ok, a', hx, hb, Nat.lt_of_lt_of_le hlt hle⟩
  unfold handleCommand
  dsimp only at hneg ⊢
  apply hcase
  split
  · exact sourceRead_moves h' hsize hlength
  · exact targetRead_moves h' hsize hpatch hlength
  · exact sourceCopy_moves h' hsize hlength
  · rename_i h0 h1 h2
    refine targetCopy_moves h' hsize (Nat.succ_pos _) hlength ?_
    rintro ⟨hroom, hwrap, hfits⟩
    have htarget := h.targetSize
    have hkind : a.patch.readNumber.1 % 4 = 3 := by
      have hlt := Nat.mod_lt a.patch.readNumber.1 (show 4 > 0 by decide)
      have h0 : a.patch.readNumber.1 % 4 ≠ 0 := h0
      have h1 : a.patch.readNumber.1 % 4 ≠ 1 := h1
      have h2 : a.patch.readNumber.1 % 4 ≠ 2 := h2
      omega
    exact hneg ⟨hkind, by rw [htarget]; exact hroom, hwrap, by rw [htarget]; exact hfits⟩

private theorem handleCommand_fails (hsize : size < 2 ^ 63) (hneg : NegativeCopy a) :
    a.handleCommand = .error .outOfBounds := by
  obtain ⟨hdata, hp, hpdata, -⟩ := readNumber_inside h.inside
  have htarget := h.targetSize
  have h' : Bounded patch size { a with patch := a.patch.readNumber.2 } :=
    ⟨h.source, h.target, hp, h.sourceSize, htarget, hpdata.trans h.data⟩
  unfold NegativeCopy at hneg
  dsimp only at hneg
  rw [htarget] at hneg
  obtain ⟨hkind, hroom, hwrap, hfits⟩ := hneg
  unfold handleCommand
  dsimp only
  rw [hkind]
  exact targetCopy_fails h' hsize (Nat.succ_pos _) (by omega) hroom hwrap hfits

end

/-- The states before the commands that are carried out one after another. -/
inductive Reached (stop : Nat) : PatchApplier → PatchApplier → Prop where
  | refl {a : PatchApplier} : Reached stop a a
  | step {a a' b : PatchApplier} (hmore : a.patch.offset < stop) (hcommand : a.handleCommand = .ok (true, a'))
      (hrest : Reached stop a' b) : Reached stop a b

def CopiesFit (stop : Nat) (a : PatchApplier) : Prop :=
  ∀ b, Reached stop a b → b.patch.offset < stop → ¬ NegativeCopy b

private theorem commandLoop_inside (h : Bounded patch size a) (hsize : size < 2 ^ 63) (hpatch : patch.length < 2 ^ 63)
    (hstop : stop ≤ patch.length) {fuel : Nat} (hfuel : patch.length < a.patch.offset + fuel) :
    (CopiesFit stop a ∧ ∃ ok a', a.commandLoop stop fuel = .ok (ok, a') ∧ Bounded patch size a') ∨
      (¬ CopiesFit stop a ∧ a.commandLoop stop fuel = .error .outOfBounds) := by
  induction fuel generalizing a with
  | zero =>
    have hinside := h.inside
    unfold Stream.Inside Stream.size at hinside
    rw [h.data] at hinside
    omega
  | succ fuel ih =>
    unfold commandLoop
    by_cases hmore : a.patch.offset < stop
    · rw [if_pos hmore]
      by_cases hneg : NegativeCopy a
      · refine .inr ⟨fun hfit => hfit a .refl hmore hneg, ?_⟩
        rw [handleCommand_fails h hsize hneg]
        rfl
      · obtain ⟨ok, a', hcommand, h', hlt⟩ := handleCommand_moves h hsize hpatch (by omega) hneg
        rw [hcommand, ok_bind]
        cases ok with
        | false =>
          refine .inl ⟨?_, _, _, rfl, h'⟩
          intro b hb
          cases hb with
          | refl => exact fun _ => hneg
          | step _ hcommand' _ =>
            rw [hcommand] at hcommand'
            cases hcommand'
        | true =>
          have hiff : CopiesFit stop a ↔ CopiesFit stop a' := by
            constructor
            · exact fun hfit b hb => hfit b (.step hmore hcommand hb)
            · intro hfit b hb
              cases hb with
              | refl => exact fun _ => hneg
              | step _ hcommand' hrest =>
                rw [hcommand] at hcommand'
                cases hcommand'
                exact hfit b hrest
          rw [hiff]
          exact ih h' (by omega)
    · rw [if_neg hmore]
      refine .inl ⟨?_, _, _, rfl, h⟩
      intro b hb
      cases hb with
      | refl => exact fun hmore' => absurd hmore' hmore
      | step hmore' _ _ => exact absurd hmore' hmore

end PatchApplier

def readHeader (patch : Bytes) : Nat × Nat × Nat × Stream :=
  let (sourceSize, s) := Stream.readNumber ⟨patch, magicSize⟩
  let (targetSize, s) := s.readNumber
  let (metadataSize, s) := s.readNumber
  (sourceSize, targetSize, metadataSize, s)

/-- `Apply` accepts the marker and the sizes. -/
def HeaderAccepted (patch buffer : Bytes) : Prop :=
  let (sourceSize, targetSize, metadataSize, _) := readHeader patch
  patch.take magicSize = bpsMagic ∧ sourceSize ≤ (startBuffer patch buffer).length ∧
    targetSize ≤ (startBuffer patch buffer).length ∧ metadataSize = 0

def startState (patch buffer : Bytes) : PatchApplier where
  source := ⟨startBuffer patch buffer, 0⟩
  target := ⟨List.replicate (startBuffer patch buffer).length 0, 0⟩
  patch := (readHeader patch).2.2.2

variable {crc32 : Bytes → UInt32} {patch start : Bytes} {sourceSize targetSize : Nat}

private theorem readValue_inside (length : Nat) (h : s.Inside) (hsize : s.size < 2 ^ 63) (hlength : length < 2 ^ 63) :
    (s.size < s.offset + length ∧ s.readValue length = .error .noValue) ∨
      (s.offset + length ≤ s.size ∧
        s.readValue length = .ok ((s.data.drop s.offset).take length, { s with offset := s.offset + length })) := by
  unfold Stream.readValue
  rcases read_inside h hsize hlength with ⟨hlt, hread⟩ | ⟨hle, hread⟩
  · rw [hread]
    exact .inl ⟨hlt, rfl⟩
  · rw [hread]
    exact .inr ⟨hle, rfl⟩

private theorem applyCommands_short (h : s.Inside) (hmagic : 4 ≤ s.offset) (hshort : s.size < 12) :
    PatchApplier.applyCommands crc32 ⟨⟨start, 0⟩, ⟨start, 0⟩, s, 0, 0⟩ sourceSize targetSize = .error .noValue := by
  have hseek : s.seek (subU64 s.size footerSize) = (false, s) := by
    have hend : subU64 s.size footerSize > s.size := by
      unfold subU64 footerSize
      omega
    unfold Stream.seek
    rw [if_pos hend]
  unfold PatchApplier.applyCommands
  dsimp only
  rw [hseek]
  rcases readValue_inside 4 h (by omega) (by decide) with ⟨-, hread⟩ | ⟨hle, hread⟩
  · rw [hread]
    rfl
  · rw [hread, ok_bind]
    have hsize : Stream.size ⟨s.data, s.offset + 4⟩ = s.size := rfl
    rcases readValue_inside (s := ⟨s.data, s.offset + 4⟩) 4 hle (by omega) (by decide) with
      ⟨-, hread'⟩ | ⟨hle', -⟩
    · rw [hread']
      rfl
    · dsimp only at hle'
      omega

private theorem applyCommands_returns_iff (crc32 : Bytes → UInt32) (h : s.Inside) (hsize : s.size < 2 ^ 63)
    (hfooter : 12 ≤ s.size) (hstart : start.length < 2 ^ 63) (hsource : sourceSize ≤ start.length)
    (htarget : targetSize ≤ start.length) :
    ((∃ r, PatchApplier.applyCommands crc32 ⟨⟨start, 0⟩, ⟨start, 0⟩, s, 0, 0⟩ sourceSize targetSize = .ok r) ↔
      ((crc32 (start.take sourceSize)).toNat =
          Stream.littleEndian (((s.seek (subU64 s.size footerSize)).2.rest).take 4) →
        PatchApplier.CopiesFit (s.size - footerSize)
          ⟨⟨start, 0⟩, ⟨List.replicate start.length 0, 0⟩, s, 0, 0⟩)) ∧
      PatchApplier.applyCommands crc32 ⟨⟨start, 0⟩, ⟨start, 0⟩, s, 0, 0⟩ sourceSize targetSize ≠
        .error .neverReturns := by
  have hend : subU64 s.size footerSize = s.size - footerSize := by
    unfold subU64 footerSize
    omega
  have hfooter' : s.size - footerSize + 12 = s.size := Nat.sub_add_cancel hfooter
  generalize hstop : s.size - footerSize = stop at hfooter' hend ⊢
  have hseek : s.seek stop = (true, ⟨s.data, stop⟩) := by
    unfold Stream.seek
    rw [if_neg (by omega)]
  have hread : Stream.readValue ⟨s.data, stop⟩ 4 = .ok ((s.data.drop stop).take 4, ⟨s.data, stop + 4⟩) := by
    rcases readValue_inside (s := ⟨s.data, stop⟩) 4 (show stop ≤ s.size by omega) hsize (by decide) with
      ⟨hlt, -⟩ | ⟨-, hread⟩
    · exact absurd hlt (show ¬ s.size < stop + 4 by omega)
    · exact hread
  have hread' : Stream.readValue ⟨s.data, stop + 4⟩ 4 = .ok ((s.data.drop (stop + 4)).take 4, ⟨s.data, stop + 8⟩) := by
    rcases readValue_inside (s := ⟨s.data, stop + 4⟩) 4 (show stop + 4 ≤ s.size by omega) hsize (by decide)
      with ⟨hlt, -⟩ | ⟨-, hread⟩
    · exact absurd hlt (show ¬ s.size < stop + 4 + 4 by omega)
    · exact hread
  have hback : Stream.seek ⟨s.data, stop + 8⟩ s.offset = (true, s) := if_neg (not_lt.mpr h)
  have hbytes : slice start 0 sourceSize = .ok (start.take sourceSize) := checkedSlice_of_le (by omega)
  have hzero : Stream.size ⟨start, 0⟩ = start.length := rfl
  unfold PatchApplier.applyCommands
  simp only [hend, hseek, hread, hread', hback, hbytes, ok_bind, hzero]
  show (_ ↔ ((crc32 (start.take sourceSize)).toNat = Stream.littleEndian ((s.data.drop stop).take 4) → _)) ∧ _
  split
  · rename_i hhash
    refine ⟨⟨fun _ hsame => absurd hsame hhash, fun _ => ⟨_, rfl⟩⟩, ?_⟩
    intro herror
    cases herror
  · rename_i hhash
    have hbounded : PatchApplier.Bounded s.data start.length
        ⟨⟨start, 0⟩, ⟨List.replicate start.length 0, 0⟩, s, 0, 0⟩ :=
      ⟨Nat.zero_le _, Nat.zero_le _, h, rfl, List.length_replicate, rfl⟩
    rcases PatchApplier.commandLoop_inside hbounded hstart hsize (show stop ≤ s.size by omega)
      (show s.size < s.offset + (s.size + 1) by omega) with ⟨hfit, ok, a', hloop, h'⟩ | ⟨hfit, hloop⟩
    · rw [hloop, ok_bind]
      have hsame := h'.targetSize
      have hslice : slice a'.target.data 0 targetSize = .ok (a'.target.data.take targetSize) :=
        checkedSlice_of_le (by show 0 + targetSize ≤ a'.target.size; omega)
      cases ok with
      | false =>
        refine ⟨⟨fun _ _ => hfit, fun _ => ⟨_, rfl⟩⟩, ?_⟩
        intro herror
        cases herror
      | true =>
        simp only [hslice, ok_bind]
        refine ⟨⟨fun _ _ => hfit, fun _ => ?_⟩, ?_⟩
        · split
          · exact ⟨_, rfl⟩
          · exact ⟨_, rfl⟩
        · split
          · intro herror
            cases herror
          · intro herror
            cases herror
    · rw [hloop]
      refine ⟨⟨?_, fun himp => absurd (himp (not_not.mp hhash)) hfit⟩, ?_⟩
      · rintro ⟨r, hr⟩
        cases hr
      · intro herror
        cases herror

private theorem readHeader_inside (h : 4 ≤ patch.length) :
    (readHeader patch).2.2.2.Inside ∧ (readHeader patch).2.2.2.data = patch ∧ 4 ≤ (readHeader patch).2.2.2.offset ∧
      (readHeader patch).2.1 < 2 ^ 32 := by
  have h₀ : Stream.Inside ⟨patch, magicSize⟩ := h
  obtain ⟨-, h₁, hdata₁, hle₁, -⟩ := readNumber_inside h₀
  obtain ⟨hlt, h₂, hdata₂, hle₂, -⟩ := readNumber_inside h₁
  obtain ⟨-, h₃, hdata₃, hle₃, -⟩ := readNumber_inside h₂
  exact ⟨h₃, hdata₃.trans (hdata₂.trans hdata₁), hle₁.trans (hle₂.trans hle₃), hlt⟩

private theorem startBuffer_length_lt (hpatch : 4 ≤ patch.length) (hbuffer : buffer.length < 2 ^ 63) :
    (startBuffer patch buffer).length < 2 ^ 63 := by
  obtain ⟨-, -, -, hlt⟩ := readHeader_inside hpatch
  have hseek : (Stream.seek ⟨patch, 0⟩ magicSize).2 = ⟨patch, magicSize⟩ :=
    congrArg Prod.snd (if_neg (show ¬ magicSize > patch.length from not_lt.mpr hpatch))
  have hsize : (readSizes patch).2 = (readHeader patch).2.1 := by
    unfold readSizes readHeader
    rw [hseek]
  unfold startBuffer
  split
  · unfold resize
    rw [List.length_append, List.length_take, List.length_replicate]
    omega
  · exact hbuffer

private theorem apply_eq (hlong : 4 ≤ patch.length) (hpatch : patch.length < 2 ^ 63) :
    PatchApplier.apply crc32 ⟨⟨start, 0⟩, ⟨start, 0⟩, ⟨patch, 0⟩, 0, 0⟩ =
      if patch.take magicSize ≠ bpsMagic then .ok (.errorPatches, start)
      else if (readHeader patch).1 > start.length ∨ (readHeader patch).2.1 > start.length ∨
          (readHeader patch).2.2.1 ≠ 0 then
        .ok (.errorPatches, start)
      else PatchApplier.applyCommands crc32 ⟨⟨start, 0⟩, ⟨start, 0⟩, (readHeader patch).2.2.2, 0, 0⟩
        (readHeader patch).1 (readHeader patch).2.1 := by
  have hread : Stream.readValue ⟨patch, 0⟩ magicSize = .ok (patch.take magicSize, ⟨patch, magicSize⟩) := by
    rcases readValue_inside (s := ⟨patch, 0⟩) magicSize (Nat.zero_le _) hpatch (by decide) with
      ⟨hlt, -⟩ | ⟨-, hread⟩
    · exact absurd hlt (show ¬ patch.length < 0 + 4 by omega)
    · exact hread
  unfold PatchApplier.apply
  rw [hread]
  rfl

/-- `ApplyBpsPatch` returns exactly when the marker is in the file, the footer of a file with a good header too, and no
copy from a negative offset is let through. -/
private theorem applyBpsPatch_returns_iff (crc32 : Bytes → UInt32) (hpatch : patch.length < 2 ^ 63)
    (hbuffer : buffer.length < 2 ^ 63) :
    ((∃ r, applyBpsPatch crc32 patch buffer = .ok r) ↔
      4 ≤ patch.length ∧ (HeaderAccepted patch buffer → 12 ≤ patch.length) ∧
        (reachesCommands crc32 patch buffer = true →
          PatchApplier.CopiesFit (patch.length - footerSize) (startState patch buffer))) ∧
      applyBpsPatch crc32 patch buffer ≠ .error .neverReturns := by
  have happly : applyBpsPatch crc32 patch buffer = PatchApplier.apply crc32
      ⟨⟨startBuffer patch buffer, 0⟩, ⟨startBuffer patch buffer, 0⟩, ⟨patch, 0⟩, 0, 0⟩ := rfl
  have hreaches : reachesCommands crc32 patch buffer = true ↔ HeaderAccepted patch buffer ∧
      (crc32 ((startBuffer patch buffer).take (readHeader patch).1)).toNat = Stream.littleEndian
        ((((readHeader patch).2.2.2.seek (subU64 patch.length footerSize)).2.rest).take 4) := by
    refine (decide_eq_true_iff).trans ?_
    unfold HeaderAccepted
    simp only [and_assoc]
    rfl
  rw [happly, hreaches]
  by_cases hlong : 4 ≤ patch.length
  · have hstart := startBuffer_length_lt hlong hbuffer
    obtain ⟨hinside, hdata, hoffset, -⟩ := readHeader_inside hlong
    rw [apply_eq hlong hpatch]
    unfold startState
    have haccepted : HeaderAccepted patch buffer ↔ patch.take magicSize = bpsMagic ∧
        ¬ ((readHeader patch).1 > (startBuffer patch buffer).length ∨
          (readHeader patch).2.1 > (startBuffer patch buffer).length ∨ (readHeader patch).2.2.1 ≠ 0) := by
      unfold HeaderAccepted
      simp only [not_or, not_lt, not_not, gt_iff_lt]
    rw [haccepted]
    generalize startBuffer patch buffer = start at hstart ⊢
    split
    · rename_i hmagic
      refine ⟨⟨fun _ => ⟨hlong, fun h => absurd h.1 hmagic, fun h => absurd h.1.1 hmagic⟩, fun _ => ⟨_, rfl⟩⟩, ?_⟩
      intro herror
      cases herror
    · rename_i hmagic
      split
      · rename_i hsizes
        refine ⟨⟨fun _ => ⟨hlong, fun h => absurd hsizes h.2, fun h => absurd hsizes h.1.2⟩, fun _ => ⟨_, rfl⟩⟩, ?_⟩
        intro herror
        cases herror
      · rename_i hsizes
        have hvalid := hsizes
        simp only [not_or, not_lt, gt_iff_lt] at hvalid
        generalize hs : (readHeader patch).2.2.2 = s at hinside hdata hoffset ⊢
        have hsize : s.size = patch.length := congrArg List.length hdata
        by_cases hfooter : 12 ≤ patch.length
        · have hiff := applyCommands_returns_iff crc32 hinside (by omega) (by omega) hstart hvalid.1 hvalid.2.1
          rw [hsize] at hiff
          refine ⟨hiff.1.trans ⟨?_, ?_⟩, hiff.2⟩
          · exact fun h => ⟨hlong, fun _ => hfooter, fun hreached => h hreached.2⟩
          · exact fun h hhash => h.2.2 ⟨⟨not_not.mp hmagic, hsizes⟩, hhash⟩
        · rw [applyCommands_short hinside hoffset (by omega)]
          refine ⟨⟨?_, ?_⟩, ?_⟩
          · rintro ⟨r, hr⟩
            cases hr
          · exact fun h => absurd (h.2.1 ⟨not_not.mp hmagic, hsizes⟩) hfooter
          · intro herror
            cases herror
  · have hread : Stream.readValue ⟨patch, 0⟩ magicSize = .error .noValue := by
      rcases readValue_inside (s := ⟨patch, 0⟩) magicSize (Nat.zero_le _) hpatch (by decide) with
        ⟨-, hread⟩ | ⟨hle, -⟩
      · exact hread
      · exact absurd hle (show ¬ 0 + 4 ≤ patch.length by omega)
    unfold PatchApplier.apply
    rw [hread]
    refine ⟨⟨?_, fun h => absurd h.1 hlong⟩, ?_⟩
    · rintro ⟨r, hr⟩
      cases hr
    · intro herror
      cases herror

/-- When the two functions return on an arbitrary file; when they do not, it is no loop that does not end. -/
theorem applyPatches_return_iff (crc32 : Bytes → UInt32) (patch buffer : Bytes) (hpatch : patch.length < 2 ^ 63)
    (hbuffer : buffer.length < 2 ^ 63) :
    ((∃ r, applyIpsPatch patch buffer = .ok r) ↔
      5 ≤ patch.length ∧ (patch.take 5 = ipsHeader → RecordsFit patch buffer.length 5)) ∧
    ((∃ r, applyBpsPatch crc32 patch buffer = .ok r) ↔
      4 ≤ patch.length ∧ (HeaderAccepted patch buffer → 12 ≤ patch.length) ∧
        (reachesCommands crc32 patch buffer = true →
          PatchApplier.CopiesFit (patch.length - footerSize) (startState patch buffer))) ∧
    applyIpsPatch patch buffer ≠ .error .neverReturns ∧ applyBpsPatch crc32 patch buffer ≠ .error .neverReturns := by
  obtain ⟨hips, hends⟩ := applyIpsPatch_returns_iff buffer hpatch
  obtain ⟨hbps, hends'⟩ := applyBpsPatch_returns_iff crc32 hpatch hbuffer
  exact ⟨hips, hbps, hends, hends'⟩

theorem applyPatches_return_iff_record :
    ∃ r, applyIpsPatch (ipsHeader ++ [0, 0, 1, 0, 1, 7] ++ ipsEof) [1, 2] = .ok r := by
  have hiff := applyPatches_return_iff boostCrc32 (ipsHeader ++ [0, 0, 1, 0, 1, 7] ++ ipsEof) [1, 2] (by decide)
    (by decide)
  exact hiff.1.mpr ⟨by decide, fun _ => .data (by decide) (by decide) (.eof rfl)⟩

/-- Files that are read outside: an IPS file without a header and one with a part of a record, a BPS file of the marker
alone, and one with a copy from offset `-1`. -/
theorem applyPatches_read_outside :
    applyIpsPatch [0x50] [] = .error .outOfBounds ∧
      applyIpsPatch (ipsHeader ++ [0, 0, 0, 0]) [] = .error .outOfBounds ∧
      applyBpsPatch boostCrc32 bpsMagic [] = .error .noValue ∧
      applyBpsPatch boostCrc32 (bpsMagic ++ [0x80, 0x81, 0x80, 0x83, 0x83] ++ List.replicate 12 0) [] =
        .error .outOfBounds := by
  refine ⟨by decide, by decide, by decide +kernel, by decide +kernel⟩

end SweepDSEmu.FileSys.Patch
