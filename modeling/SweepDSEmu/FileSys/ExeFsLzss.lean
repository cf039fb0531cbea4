import SweepDSEmu.Lib.BackReferences
import SweepDSEmu.Lib.ByteOrder
import SweepDSEmu.Lib.CheckedAccess
import SweepDSEmu.Lib.Outcome

/-!
# Compressed sections of an ExeFS

`LZSS_GetDecompressedSize` and `LZSS_Decompress`.  The decoder works backwards from indices that it computes from a footer.
An access outside a buffer is the fault `outOfBounds`.

* The footer is not checked against the size of the data: `decompressSection_reads_iff`.
* Where the accesses stay inside, the decoder ends, and what it makes is the expansion of the tokens before the footer over
  a copy of the data: `decompressSection_eq`.
-/

namespace SweepDSEmu.FileSys.ExeFs

abbrev Bytes := List UInt8

inductive Fault where
  | outOfBounds
  | outOfFuel
  deriving DecidableEq

def subSize (a b : Nat) : Nat := if b ≤ a then a - b else 2 ^ 64 + a - b

def lzssGetDecompressedSize (buffer : Bytes) : Except Fault Nat := do
  let offsetSize ← checkedSlice .outOfBounds buffer (subSize buffer.length 4) 4
  return ofLittleEndian offsetSize + buffer.length

structure Cursor where
  index : Nat
  out : Nat
  decompressed : Bytes
  deriving DecidableEq

/-- The loop that copies a segment; `none` stands for `false`. -/
def copySegment (segmentOffset : Nat) : Nat → Cursor → Except Fault (Option Cursor)
  | 0, c => .ok (some c)
  | size + 1, c =>
    if c.decompressed.length ≤ c.out + segmentOffset then .ok none
    else do
      let data ← checkedGet .outOfBounds c.decompressed (c.out + segmentOffset)
      let out := subSize c.out 1
      let decompressed ← checkedSet .outOfBounds c.decompressed out data
      copySegment segmentOffset size { c with out, decompressed }

def decompressSegment (compressed : Bytes) (c : Cursor) : Except Fault (Option Cursor) :=
  if c.index < 2 then .ok none
  else do
    let index := c.index - 2
    let low ← checkedGet .outOfBounds compressed index
    let high ← checkedGet .outOfBounds compressed (index + 1)
    let segment := low.toNat ||| high.toNat <<< 8
    let segmentSize := (segment >>> 12 &&& 15) + 3
    let segmentOffset := (segment &&& 0x0FFF) + 2
    if c.out < segmentSize then .ok none else copySegment segmentOffset segmentSize { c with index }

def copyLiteral (compressed : Bytes) (c : Cursor) : Except Fault (Option Cursor) :=
  if c.out < 1 then .ok none
  else do
    let index := subSize c.index 1
    let data ← checkedGet .outOfBounds compressed index
    let out := subSize c.out 1
    let decompressed ← checkedSet .outOfBounds c.decompressed out data
    return some { index, out, decompressed }

def decompressGroup (compressed : Bytes) (stopIndex : Nat) : Nat → UInt8 → Cursor → Except Fault (Option Cursor)
  | 0, _, c => .ok (some c)
  | bits + 1, control, c =>
    if c.index ≤ stopIndex then .ok (some c)
    else if c.index = 0 then .ok (some c)
    else if c.out = 0 then .ok (some c)
    else do
      match ← if control &&& 0x80 ≠ 0 then decompressSegment compressed c else copyLiteral compressed c with
      | none => return none
      | some c => decompressGroup compressed stopIndex bits (control <<< 1) c

def decompressLoop (compressed : Bytes) (stopIndex : Nat) : Nat → Cursor → Except Fault (Option Cursor)
  | 0, _ => .error .outOfFuel
  | fuel + 1, c =>
    if c.index ≤ stopIndex then .ok (some c)
    else do
      let index := subSize c.index 1
      let control ← checkedGet .outOfBounds compressed index
      match ← decompressGroup compressed stopIndex 8 control { c with index } with
      | none => return none
      | some c => decompressLoop compressed stopIndex fuel c

/-- `LZSS_Decompress`, and the decompressed bytes when it returns `true`. -/
def lzssDecompress (fuel : Nat) (compressed decompressed : Bytes) : Except Fault (Option Bytes) := do
  let footer ← checkedSlice .outOfBounds compressed (subSize compressed.length 8) 4
  let bufferTopAndBottom := ofLittleEndian footer
  let out := decompressed.length
  let index := subSize compressed.length (bufferTopAndBottom >>> 24 &&& 0xFF)
  let stopIndex := subSize compressed.length (bufferTopAndBottom &&& 0xFFFFFF)
  let decompressed ← checkedSplice .outOfBounds (List.replicate decompressed.length 0) 0 compressed
  match ← decompressLoop compressed stopIndex fuel { index, out, decompressed } with
  | none => return none
  | some c => return some c.decompressed

/-- The part of `LoadSectionExeFS` that decompresses a section. -/
def decompressSection (fuel : Nat) (tempBuffer : Bytes) : Except Fault (Option Bytes) := do
  let size ← lzssGetDecompressedSize tempBuffer
  lzssDecompress fuel tempBuffer (List.replicate size 0)

def segmentToken (high low : UInt8) : Token UInt8 :=
  let segment := low.toNat ||| high.toNat <<< 8
  .copy ((segment &&& 0x0FFF) + 2) ((segment >>> 12 &&& 15) + 3)

/-- The tokens of bytes that are read from the end, when `bits` bits of a control byte and `left` bytes are left. -/
def tokenize : Nat → UInt8 → Nat → Bytes → List (Token UInt8)
  | _, _, 0, _ => []
  | _, _, _ + 1, [] => [.truncated]
  | 0, _, left + 1, control :: rest => tokenize 8 control left rest
  | bits + 1, control, left + 1, b :: rest =>
    if control &&& 0x80 ≠ 0 then
      match rest with
      | [] => [.truncated]
      | low :: rest => segmentToken b low :: tokenize bits (control <<< 1) (left - 1) rest
    else .literal b :: tokenize bits (control <<< 1) left rest

def footer (compressed : Bytes) : Nat := ofLittleEndian ((compressed.drop (compressed.length - 8)).take 4)

/-- How far the compressed data ends before the end of the section. -/
def top (compressed : Bytes) : Nat := footer compressed >>> 24 &&& 0xFF

/-- How far it begins before the end of the section. -/
def bottom (compressed : Bytes) : Nat := footer compressed &&& 0xFFFFFF

def offsetSize (compressed : Bytes) : Nat := ofLittleEndian ((compressed.drop (compressed.length - 4)).take 4)

/-- The section at its beginning, with zeros up to the decompressed size. -/
def copied (compressed : Bytes) : Bytes := compressed ++ List.replicate (offsetSize compressed) 0

def overlay (bytes written : Bytes) : Bytes := bytes.take (bytes.length - written.length) ++ written

def before (compressed : Bytes) (index : Nat) : Bytes := (compressed.take index).reverse

/-- The length of the compressed data; there is none when the footer points outside the section. -/
def streamLength (compressed : Bytes) : Nat :=
  if top compressed ≤ compressed.length ∧ bottom compressed ≤ compressed.length then bottom compressed - top compressed
  else 0

def expansion (compressed : Bytes) : Option Bytes :=
  let tokens := tokenize 0 0 (streamLength compressed) (before compressed (compressed.length - top compressed))
  (expand (copied compressed).length [] tokens).map (overlay (copied compressed))

variable {compressed bytes written : Bytes} {index stopIndex : Nat}

theorem subSize_of_le {a b : Nat} (h : b ≤ a) : subSize a b = a - b := if_pos h

/-- The cursor at `index` when `written` was written over the end of `bytes`. -/
def cursorAt (bytes : Bytes) (index : Nat) (written : Bytes) : Cursor where
  index
  out := bytes.length - written.length
  decompressed := overlay bytes written

theorem length_overlay (h : written.length ≤ bytes.length) : (overlay bytes written).length = bytes.length := by
  simp [overlay]
  omega

theorem getElem?_overlay (i : Nat) :
    (overlay bytes written)[bytes.length - written.length + i]? = written[i]? := by
  have hlength : (bytes.take (bytes.length - written.length)).length = bytes.length - written.length := by simp
  rw [overlay, List.getElem?_append_right (by omega), hlength, Nat.add_sub_cancel_left]

theorem set_overlay (h : written.length < bytes.length) (b : UInt8) :
    (overlay bytes written).set (bytes.length - written.length - 1) b = overlay bytes (b :: written) := by
  have hlt : bytes.length - written.length - 1 < bytes.length := by omega
  have htake : bytes.take (bytes.length - written.length) =
      bytes.take (bytes.length - written.length - 1) ++ [bytes[bytes.length - written.length - 1]] := by
    have hsucc := List.take_append_getElem hlt
    rwa [show bytes.length - written.length - 1 + 1 = bytes.length - written.length by omega, eq_comm] at hsucc
  have hlength : (bytes.take (bytes.length - written.length - 1)).length = bytes.length - written.length - 1 := by
    rw [List.length_take]
    omega
  rw [overlay, htake, List.append_assoc, List.set_append_right _ _ hlength.le, hlength, Nat.sub_self, overlay, List.length_cons,
    show bytes.length - (written.length + 1) = bytes.length - written.length - 1 by omega]
  rfl

theorem copySegment_cursorAt {offset size : Nat} (h : written.length + size ≤ bytes.length) :
    copySegment offset size (cursorAt bytes index written) =
      .ok ((copyBack offset size written).map (cursorAt bytes index)) := by
  induction size generalizing written with
  | zero => rfl
  | succ size ih =>
    have hle : written.length ≤ bytes.length := by omega
    have hlength : (cursorAt bytes index written).decompressed.length = bytes.length := length_overlay hle
    have hout : (cursorAt bytes index written).out = bytes.length - written.length := rfl
    rw [copySegment, copyBack, hlength, hout]
    by_cases hoffset : written.length ≤ offset
    · rw [if_pos (by omega), List.getElem?_eq_none hoffset]
      rfl
    · rw [if_neg (by omega)]
      have hget : written[offset]? = some written[offset] := List.getElem?_eq_getElem (by omega)
      have hdata : checkedGet Fault.outOfBounds (cursorAt bytes index written).decompressed
          (bytes.length - written.length + offset) = .ok written[offset] :=
        checkedGet_of_getElem? ((getElem?_overlay offset).trans hget)
      have hset : checkedSet Fault.outOfBounds (cursorAt bytes index written).decompressed
          (bytes.length - written.length - 1) written[offset] = .ok (overlay bytes (written[offset] :: written)) := by
        rw [checkedSet_of_lt (by omega)]
        exact congrArg Except.ok (set_overlay (by omega) _)
      have hcursor : cursorAt bytes index (written[offset] :: written) =
          { cursorAt bytes index written with
            out := bytes.length - written.length - 1
            decompressed := overlay bytes (written[offset] :: written) } := by
        simp only [cursorAt, List.length_cons, Cursor.mk.injEq, true_and, and_true]
        omega
      rw [hdata, hget, ok_bind, subSize_of_le (by omega)]
      dsimp only
      rw [hset, ok_bind, ← hcursor]
      exact ih (by simp only [List.length_cons]; omega)

theorem before_succ (h : index < compressed.length) :
    before compressed (index + 1) = compressed[index] :: before compressed index := by
  rw [before, ← List.take_append_getElem h, List.reverse_append]
  rfl

theorem copyLiteral_cursorAt (hindex : index < compressed.length) (h : written.length < bytes.length) :
    copyLiteral compressed (cursorAt bytes (index + 1) written) =
      .ok (some (cursorAt bytes index (compressed[index] :: written))) := by
  have hlength : (cursorAt bytes (index + 1) written).decompressed.length = bytes.length := length_overlay h.le
  have hset : checkedSet Fault.outOfBounds (cursorAt bytes (index + 1) written).decompressed
      (bytes.length - written.length - 1) compressed[index] = .ok (overlay bytes (compressed[index] :: written)) := by
    rw [checkedSet_of_lt (by omega)]
    exact congrArg Except.ok (set_overlay h _)
  have hout : (cursorAt bytes (index + 1) written).out = bytes.length - written.length := rfl
  have hcursor : (cursorAt bytes (index + 1) written).index = index + 1 := rfl
  rw [copyLiteral, hout, hcursor, if_neg (by omega), subSize_of_le (by omega), subSize_of_le (by omega)]
  dsimp only
  rw [Nat.add_sub_cancel, checkedGet_of_lt hindex, ok_bind, hset, ok_bind, cursorAt, List.length_cons,
    show bytes.length - (written.length + 1) = bytes.length - written.length - 1 by omega]
  rfl

theorem decompressSegment_cursorAt (hindex : index + 1 < compressed.length) (h : written.length ≤ bytes.length) :
    ∃ offset size, segmentToken compressed[index + 1] compressed[index] = .copy offset size ∧
      decompressSegment compressed (cursorAt bytes (index + 2) written) =
        .ok (if bytes.length < written.length + size then none
          else (copyBack offset size written).map (cursorAt bytes index)) := by
  refine ⟨_, _, rfl, ?_⟩
  have hcursor : (cursorAt bytes (index + 2) written).index = index + 2 := rfl
  have hout : (cursorAt bytes (index + 2) written).out = bytes.length - written.length := rfl
  rw [decompressSegment, hcursor, hout, if_neg (by omega), Nat.add_sub_cancel]
  dsimp only
  have hlow : index < compressed.length := by omega
  rw [checkedGet_of_lt hlow, ok_bind, checkedGet_of_lt hindex, ok_bind]
  generalize (compressed[index].toNat ||| compressed[index + 1].toNat <<< 8) = segment
  by_cases hsize : bytes.length < written.length + ((segment >>> 12 &&& 15) + 3)
  · rw [if_pos (by omega), if_pos hsize]
  · rw [if_neg (by omega), if_neg hsize]
    exact copySegment_cursorAt (by omega)

theorem tokenize_zero (control : UInt8) (left : Nat) (input : Bytes) :
    tokenize 0 control left input = tokenize 0 0 left input := by
  cases left with
  | zero => rw [tokenize, tokenize]
  | succ left =>
    cases input with
    | nil => rw [tokenize, tokenize]
    | cons b input => rw [tokenize, tokenize]

/-- What the rest of the compressed data makes of what is written. -/
def remaining (compressed bytes : Bytes) (stopIndex bits : Nat) (control : UInt8) (index : Nat) (written : Bytes) :
    Option Bytes :=
  expand bytes.length written (tokenize bits control (index - stopIndex) (before compressed index))

section Tokens

variable {bits : Nat} {control : UInt8}

theorem tokenize_literal (hbit : control &&& 0x80 = 0) (left : Nat) (b : UInt8) (rest : Bytes) :
    tokenize (bits + 1) control (left + 1) (b :: rest) = .literal b :: tokenize bits (control <<< 1) left rest := by
  cases rest with
  | nil => rw [tokenize, if_neg (by simpa using hbit)]
  | cons low rest => rw [tokenize, if_neg (by simpa using hbit)]

theorem remaining_literal (hbit : control &&& 0x80 = 0) (hstop : stopIndex < index + 1)
    (hindex : index < compressed.length) (h : written.length < bytes.length) :
    remaining compressed bytes stopIndex (bits + 1) control (index + 1) written =
      remaining compressed bytes stopIndex bits (control <<< 1) index (compressed[index] :: written) := by
  have hleft : index + 1 - stopIndex = index - stopIndex + 1 := by omega
  rw [remaining, hleft, before_succ hindex, tokenize_literal hbit, expand, if_neg (by omega)]
  rfl

theorem remaining_segment {offset size : Nat} (hbit : control &&& 0x80 ≠ 0) (hstop : stopIndex < index + 2)
    (hindex : index + 1 < compressed.length) (h : written.length < bytes.length)
    (htoken : segmentToken compressed[index + 1] compressed[index] = .copy offset size) :
    remaining compressed bytes stopIndex (bits + 1) control (index + 2) written =
      if bytes.length < written.length + size then none
      else (copyBack offset size written).bind fun written =>
        remaining compressed bytes stopIndex bits (control <<< 1) index written := by
  have hleft : index + 2 - stopIndex = index + 1 - stopIndex + 1 := by omega
  have hrest : index + 1 - stopIndex - 1 = index - stopIndex := by omega
  rw [remaining, hleft, before_succ hindex, before_succ (by omega : index < compressed.length), tokenize, if_pos hbit,
    htoken, expand, if_neg (by omega), hrest]
  cases copyBack offset size written with
  | none => rfl
  | some written => rfl

theorem remaining_truncated (hbit : control &&& 0x80 ≠ 0) (hlength : 0 < compressed.length)
    (h : written.length < bytes.length) :
    remaining compressed bytes 0 (bits + 1) control 1 written = none := by
  have hnil : before compressed 0 = [] := by simp [before]
  rw [remaining, before_succ hlength, hnil, tokenize, if_pos hbit, expand, if_neg (by omega)]

end Tokens

theorem decompressGroup_cursorAt (bits : Nat) (control : UInt8) (hindex : index ≤ compressed.length)
    (h : written.length ≤ bytes.length) :
    (decompressGroup compressed stopIndex bits control (cursorAt bytes index written) = .ok none ∧
      remaining compressed bytes stopIndex bits control index written = none) ∨
    ∃ index' written', decompressGroup compressed stopIndex bits control (cursorAt bytes index written) =
        .ok (some (cursorAt bytes index' written')) ∧
      index' ≤ index ∧ written'.length ≤ bytes.length ∧
      remaining compressed bytes stopIndex bits control index written =
        remaining compressed bytes stopIndex 0 0 index' written' := by
  induction bits generalizing control index written with
  | zero =>
    right
    exact ⟨index, written, rfl, le_rfl, h, by rw [remaining, tokenize_zero]; rfl⟩
  | succ bits ih =>
    have hcursor : (cursorAt bytes index written).index = index := rfl
    have hout : (cursorAt bytes index written).out = bytes.length - written.length := rfl
    rw [decompressGroup, hcursor, hout]
    by_cases hstop : index ≤ stopIndex
    · right
      refine ⟨index, written, if_pos hstop, le_rfl, h, ?_⟩
      rw [remaining, remaining, Nat.sub_eq_zero_of_le hstop, tokenize, tokenize]
    rw [if_neg hstop, if_neg (by omega)]
    by_cases hfull : bytes.length - written.length = 0
    · right
      refine ⟨index, written, if_pos hfull, le_rfl, h, ?_⟩
      rw [remaining, remaining, expand_of_length_eq (by omega), expand_of_length_eq (by omega)]
    rw [if_neg hfull]
    have hroom : written.length < bytes.length := by omega
    by_cases hbit : control &&& 0x80 ≠ 0
    · rw [if_pos hbit]
      match index with
      | 0 => omega
      | 1 =>
        left
        have hstopIndex : stopIndex = 0 := by omega
        subst hstopIndex
        exact ⟨rfl, remaining_truncated hbit (by omega) hroom⟩
      | index + 2 =>
        obtain ⟨offset, size, htoken, hsegment⟩ := decompressSegment_cursorAt (by omega : index + 1 < compressed.length) h
        rw [hsegment, ok_bind, remaining_segment hbit (by omega) (by omega) hroom htoken]
        by_cases hsize : bytes.length < written.length + size
        · left
          rw [if_pos hsize, if_pos hsize]
          exact ⟨rfl, rfl⟩
        · rw [if_neg hsize, if_neg hsize]
          cases hcopy : copyBack offset size written with
          | none =>
            left
            exact ⟨rfl, rfl⟩
          | some written' =>
            have hwritten := length_copyBack hcopy
            rcases ih (control <<< 1) (by omega : index ≤ compressed.length) (by omega : written'.length ≤ bytes.length) with
              ⟨hgroup, hnone⟩ | ⟨index', written'', hgroup, hle, hlength, hrest⟩
            · exact .inl ⟨hgroup, hnone⟩
            · exact .inr ⟨index', written'', hgroup, by omega, hlength, hrest⟩
    · rw [if_neg hbit]
      match index with
      | 0 => omega
      | index + 1 =>
        have hlt : index < compressed.length := by omega
        rw [copyLiteral_cursorAt hlt hroom, ok_bind, remaining_literal (by simpa using hbit) (by omega) hlt hroom]
        rcases ih (control <<< 1) hlt.le (by simp; omega : (compressed[index] :: written).length ≤ bytes.length) with
          ⟨hgroup, hnone⟩ | ⟨index', written', hgroup, hle, hlength, hrest⟩
        · exact .inl ⟨hgroup, hnone⟩
        · exact .inr ⟨index', written', hgroup, by omega, hlength, hrest⟩

theorem decompressLoop_cursorAt (bytes written : Bytes) (stopIndex fuel : Nat) (hfuel : index < fuel) (hindex : index ≤ compressed.length)
    (h : written.length ≤ bytes.length) :
    (decompressLoop compressed stopIndex fuel (cursorAt bytes index written) = .ok none ∧
      remaining compressed bytes stopIndex 0 0 index written = none) ∨
    ∃ index' written', decompressLoop compressed stopIndex fuel (cursorAt bytes index written) =
        .ok (some (cursorAt bytes index' written')) ∧
      remaining compressed bytes stopIndex 0 0 index written = some written' := by
  induction fuel generalizing index written with
  | zero => omega
  | succ fuel ih =>
    have hcursor : (cursorAt bytes index written).index = index := rfl
    rw [decompressLoop, hcursor]
    by_cases hstop : index ≤ stopIndex
    · right
      refine ⟨index, written, if_pos hstop, ?_⟩
      rw [remaining, Nat.sub_eq_zero_of_le hstop, tokenize, expand]
    rw [if_neg hstop]
    cases index with
    | zero => omega
    | succ index =>
      have hlt : index < compressed.length := by omega
      have hleft : index + 1 - stopIndex = index - stopIndex + 1 := by omega
      have hcontrol : remaining compressed bytes stopIndex 0 0 (index + 1) written =
          remaining compressed bytes stopIndex 8 compressed[index] index written := by
        rw [remaining, hleft, before_succ hlt, tokenize]
        rfl
      rw [hcontrol, subSize_of_le (by omega), Nat.add_sub_cancel]
      dsimp only
      rw [checkedGet_of_lt hlt, ok_bind]
      change (decompressGroup compressed stopIndex 8 compressed[index] (cursorAt bytes index written) >>= _ = _ ∧ _) ∨
        ∃ index' written', (decompressGroup compressed stopIndex 8 compressed[index] (cursorAt bytes index written) >>= _ = _)
          ∧ _
      rcases decompressGroup_cursorAt 8 compressed[index] hlt.le h with
        ⟨hgroup, hnone⟩ | ⟨index', written', hgroup, hle, hlength, hrest⟩
      · left
        rw [hgroup]
        exact ⟨rfl, hnone⟩
      · rw [hgroup, hrest]
        exact ih written' (by omega) (by omega) hlength

theorem top_lt (compressed : Bytes) : top compressed < 2 ^ 8 := Nat.and_lt_two_pow _ (by decide)

theorem bottom_lt (compressed : Bytes) : bottom compressed < 2 ^ 24 := Nat.and_lt_two_pow _ (by decide)

/-- The footer is there, and it does not make the decoder read at an index that went below zero. -/
def Reads (compressed : Bytes) : Prop :=
  8 ≤ compressed.length ∧
    (top compressed ≤ compressed.length ∨
      compressed.length < bottom compressed ∧ bottom compressed ≤ top compressed)

theorem cursorAt_nil (bytes : Bytes) (index : Nat) :
    cursorAt bytes index [] = { index, out := bytes.length, decompressed := bytes } := by
  simp [cursorAt, overlay]

theorem decompressSection_eq_loop (fuel : Nat) (h : 8 ≤ compressed.length) :
    decompressSection fuel compressed =
      decompressLoop compressed (subSize compressed.length (bottom compressed)) fuel
          (cursorAt (copied compressed) (subSize compressed.length (top compressed)) []) >>=
        fun r => .ok (r.map Cursor.decompressed) := by
  have hsize : checkedSlice Fault.outOfBounds compressed (subSize compressed.length 4) 4 =
      .ok ((compressed.drop (compressed.length - 4)).take 4) := by
    rw [subSize_of_le (by omega), checkedSlice_of_le (by omega)]
  have hfooter : checkedSlice Fault.outOfBounds compressed (subSize compressed.length 8) 4 =
      .ok ((compressed.drop (compressed.length - 8)).take 4) := by
    rw [subSize_of_le h, checkedSlice_of_le (by omega)]
  have hcopy : checkedSplice Fault.outOfBounds
      (List.replicate (List.replicate (offsetSize compressed + compressed.length) (0 : UInt8)).length 0) 0 compressed =
      .ok (copied compressed) := by
    rw [checkedSplice_of_le (by simp), copied]
    simp
  have hlength : (List.replicate (offsetSize compressed + compressed.length) (0 : UInt8)).length =
      (copied compressed).length := by
    simp [copied]
    omega
  rw [decompressSection, lzssGetDecompressedSize, hsize, ok_bind]
  change lzssDecompress fuel compressed (List.replicate (offsetSize compressed + compressed.length) 0) = _
  rw [lzssDecompress, hfooter, ok_bind, cursorAt_nil, ← hlength]
  rw [hcopy, ok_bind]
  change decompressLoop compressed (subSize compressed.length (bottom compressed)) fuel
    { index := subSize compressed.length (top compressed), out := _, decompressed := copied compressed } >>= _ = _
  congr 1
  funext r
  cases r with
  | none => rfl
  | some c => rfl

/-- Where the accesses stay inside, the decoder ends, and makes the expansion of the section. -/
theorem decompressSection_eq {fuel : Nat} (h : Reads compressed) (hfuel : compressed.length < fuel) :
    decompressSection fuel compressed = .ok (expansion compressed) := by
  obtain ⟨hlength, hindex⟩ := h
  have htop := top_lt compressed
  have hbottom := bottom_lt compressed
  rw [decompressSection_eq_loop fuel hlength]
  by_cases hle : top compressed ≤ compressed.length
  · have hleft : compressed.length - top compressed - subSize compressed.length (bottom compressed) =
        streamLength compressed := by
      unfold streamLength subSize
      split <;> split <;> omega
    have hrest : remaining compressed (copied compressed) (subSize compressed.length (bottom compressed)) 0 0
        (compressed.length - top compressed) [] = expand (copied compressed).length []
          (tokenize 0 0 (streamLength compressed) (before compressed (compressed.length - top compressed))) := by
      rw [remaining, hleft]
    rw [subSize_of_le hle, expansion, ← hrest]
    rcases decompressLoop_cursorAt (copied compressed) [] (subSize compressed.length (bottom compressed)) fuel
        (by omega : compressed.length - top compressed < fuel) (Nat.sub_le _ _) (Nat.zero_le _) with ⟨hloop, hnone⟩ | ⟨index', written', hloop, hsome⟩
    · rw [hloop, hnone]
      rfl
    · rw [hloop, hsome]
      rfl
  · have hstop : subSize compressed.length (top compressed) ≤ subSize compressed.length (bottom compressed) := by
      unfold subSize
      rw [if_neg hle, if_neg (by omega)]
      omega
    have hnone : streamLength compressed = 0 := if_neg (by omega)
    cases fuel with
    | zero => omega
    | succ fuel =>
      have hcursor : (cursorAt (copied compressed) (subSize compressed.length (top compressed)) []).index =
          subSize compressed.length (top compressed) := rfl
      rw [decompressLoop, expansion, hnone, tokenize, hcursor, if_pos hstop]
      rfl

theorem decompressSection_of_not_reads (fuel : Nat) (h : ¬ Reads compressed) :
    decompressSection (fuel + 1) compressed = .error .outOfBounds := by
  have htop := top_lt compressed
  have hbottom := bottom_lt compressed
  by_cases hlength : 8 ≤ compressed.length
  · have hgt : compressed.length < top compressed := by
      by_contra hle
      exact h ⟨hlength, .inl (by omega)⟩
    have hloop : ¬ (compressed.length < bottom compressed ∧ bottom compressed ≤ top compressed) := by
      intro hboth
      exact h ⟨hlength, .inr hboth⟩
    have hindex : subSize compressed.length (top compressed) = 2 ^ 64 + compressed.length - top compressed :=
      if_neg (by omega)
    have hrun : ¬ subSize compressed.length (top compressed) ≤ subSize compressed.length (bottom compressed) := by
      unfold subSize
      split <;> split <;> omega
    have hout : checkedGet Fault.outOfBounds compressed (subSize (subSize compressed.length (top compressed)) 1) =
        .error .outOfBounds := by
      apply checkedGet_of_le
      rw [hindex, subSize_of_le (by omega)]
      omega
    have hcursor : (cursorAt (copied compressed) (subSize compressed.length (top compressed)) []).index =
        subSize compressed.length (top compressed) := rfl
    rw [decompressSection_eq_loop _ hlength, decompressLoop, hcursor, if_neg hrun]
    dsimp only
    rw [hout]
    rfl
  · have hfooter : checkedSlice Fault.outOfBounds compressed (subSize compressed.length 8) 4 = .error .outOfBounds := by
      apply checkedSlice_of_lt
      unfold subSize
      rw [if_neg hlength]
      omega
    rw [decompressSection]
    cases hsize : lzssGetDecompressedSize compressed with
    | error e =>
      obtain rfl : e = .outOfBounds := by
        rw [lzssGetDecompressedSize] at hsize
        unfold checkedSlice at hsize
        split at hsize
        · cases hsize
        · cases hsize
          rfl
      rfl
    | ok size =>
      rw [ok_bind, lzssDecompress, hfooter]
      rfl

/-- A section is decompressed to its end, inside the buffers, and to its expansion when the result is `true`, if and only if
its footer is there and points inside it or makes the decoder stop at once. -/
theorem decompressSection_reads_iff (compressed : Bytes) :
    (∀ fuel, compressed.length < fuel → ∃ result, decompressSection fuel compressed = .ok result ∧
      ∀ decompressed, result = some decompressed → expansion compressed = some decompressed) ↔ Reads compressed := by
  constructor
  · intro h
    by_contra hreads
    obtain ⟨result, hresult, -⟩ := h (compressed.length + 1) (Nat.lt_succ_self _)
    rw [decompressSection_of_not_reads _ hreads] at hresult
    cases hresult
  · intro h fuel hfuel
    refine ⟨expansion compressed, decompressSection_eq h hfuel, ?_⟩
    intro decompressed hsome
    exact hsome

/-- A section of eight bytes whose data ends nine bytes before its end. -/
theorem decompressSection_underflows :
    ¬ ∀ fuel, 8 < fuel → ∃ result, decompressSection fuel [0, 0, 0, 9, 0, 0, 0, 0] = .ok result := by
  intro h
  obtain ⟨result, hresult⟩ := h 9 (by decide)
  have herror : decompressSection 9 [0, 0, 0, 9, 0, 0, 0, 0] = .error .outOfBounds := by decide
  rw [herror] at hresult
  cases hresult

end SweepDSEmu.FileSys.ExeFs
