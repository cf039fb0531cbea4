import Mathlib.Data.Nat.ModEq
import Mathlib.Tactic.Ring
import SweepDSEmu.FileSys.Patch

/-!
# BPS patches that are well formed

The meaning of the commands of a BPS patch as functions on the output written so far, the bytes that encode them, and
what `ApplyBpsPatch` does with a patch that encodes a target from its source.

The buffer is never made shorter than the source, so the result is the target exactly when the target is at least as
long as the source, and the target followed by zeros otherwise.
-/

namespace SweepDSEmu.FileSys.Patch

/-- The bytes of a number: seven bits in a byte, the low ones first, and the last byte marked. -/
def encodeNumber (n : Nat) : Bytes :=
  if n < 2 ^ 7 then [UInt8.ofNat (n + 2 ^ 7)]
  else UInt8.ofNat (n % 2 ^ 7) :: encodeNumber (n / 2 ^ 7 - 1)
termination_by n
decreasing_by omega

theorem encodeNumber_length_pos (n : Nat) : 0 < (encodeNumber n).length := by
  unfold encodeNumber
  split <;> simp

namespace Stream

/-- Reading a number gives back the one that was encoded, modulo `2 ^ 32`. -/
theorem readNumberLoop_encodeNumber (n data shift : Nat) (rest : Bytes) :
    readNumberLoop (encodeNumber n ++ rest) data shift = ((data + n * shift) % 2 ^ 32, (encodeNumber n).length) := by
  induction n using Nat.strong_induction_on generalizing data shift with
  | _ n ih =>
    unfold encodeNumber
    by_cases hn : n < 2 ^ 7
    · have hx : (UInt8.ofNat (n + 2 ^ 7)).toNat = n + 2 ^ 7 := by
        rw [UInt8.toNat_ofNat']
        omega
      have hlow : (n + 2 ^ 7) % 2 ^ 7 = n := by omega
      rw [if_pos hn]
      simp only [List.singleton_append, readNumberLoop, hx, hlow]
      rfl
    · have hx : (UInt8.ofNat (n % 2 ^ 7)).toNat = n % 2 ^ 7 := by
        rw [UInt8.toNat_ofNat']
        omega
      rw [if_neg hn]
      simp only [List.cons_append, readNumberLoop, hx, Nat.mod_mod]
      rw [if_neg (by omega), ih _ (by omega)]
      obtain ⟨k, hk⟩ : ∃ k, n / 2 ^ 7 = k + 1 := ⟨n / 2 ^ 7 - 1, by omega⟩
      have hsplit : n = n % 2 ^ 7 + 2 ^ 7 * (k + 1) := by omega
      refine Prod.ext ?_ rfl
      show _ % _ = _ % _
      rw [hk, Nat.add_sub_cancel]
      -- Reducing the intermediate results does not change the residue.
      have hshift : shift * 2 ^ 7 % 2 ^ 32 ≡ shift * 2 ^ 7 [MOD 2 ^ 32] := Nat.mod_modEq _ _
      have hdata : (data + n % 2 ^ 7 * shift) % 2 ^ 32 ≡ data + n % 2 ^ 7 * shift [MOD 2 ^ 32] := Nat.mod_modEq _ _
      have hsum : ((data + n % 2 ^ 7 * shift) % 2 ^ 32 + shift * 2 ^ 7 % 2 ^ 32) % 2 ^ 32 ≡
          data + n % 2 ^ 7 * shift + shift * 2 ^ 7 [MOD 2 ^ 32] :=
        (Nat.mod_modEq _ _).trans (hdata.add hshift)
      have hall := hsum.add (hshift.mul_left k)
      have hval : data + n % 2 ^ 7 * shift + shift * 2 ^ 7 + k * (shift * 2 ^ 7) = data + n * shift := by
        conv_rhs => rw [hsplit]
        ring
      rw [hval] at hall
      exact hall

def rest (s : Stream) : Bytes := s.data.drop s.offset

theorem readNumber_of_rest {s : Stream} {n : Nat} {bytes : Bytes} (hn : n < 2 ^ 32)
    (h : s.rest = encodeNumber n ++ bytes) :
    s.readNumber = (n, { s with offset := s.offset + (encodeNumber n).length }) ∧
      rest { s with offset := s.offset + (encodeNumber n).length } = bytes := by
  unfold rest at h
  constructor
  · unfold readNumber
    rw [h, readNumberLoop_encodeNumber]
    have hval : (0 + n * 1) % 2 ^ 32 = n := by omega
    simp only [hval]
  · unfold rest
    rw [← List.drop_drop, h, List.drop_left]

theorem read_of_rest {s : Stream} {part bytes : Bytes} (hsize : s.size < 2 ^ 64) (hpart : 0 < part.length)
    (h : s.rest = part ++ bytes) :
    s.read part.length = .ok (some (part, { s with offset := s.offset + part.length })) ∧
      rest { s with offset := s.offset + part.length } = bytes := by
  unfold rest at h
  have hlength := congrArg List.length h
  rw [List.length_drop, List.length_append] at hlength
  unfold size at hsize
  have hsum : addU64 s.offset part.length = s.offset + part.length := Nat.mod_eq_of_lt (by omega)
  constructor
  · unfold read size
    rw [hsum, if_neg (by omega)]
    unfold slice
    rw [checkedSlice_of_le (by omega), h, List.take_left]
    rfl
  · unfold rest
    rw [← List.drop_drop, h, List.drop_left]

end Stream

/-- A number of the patch as a signed one; its lowest bit is the sign. -/
def signed (data : Nat) : Int := (if data % 2 = 1 then -1 else 1) * ((data / 2 : Nat) : Int)

/-- The commands, with the numbers that move a relative offset. -/
inductive Command where
  | sourceRead (length : Nat)
  | targetRead (bytes : Bytes)
  | sourceCopy (length data : Nat)
  | targetCopy (length data : Nat)

structure Output where
  bytes : Bytes := []
  sourceRelativeOffset : Int := 0
  targetRelativeOffset : Int := 0

/-- Appends `length` bytes of the output to itself, from a position on. -/
def repeatFrom (bytes : Bytes) (position : Nat) : Nat → Bytes
  | 0 => bytes
  | length + 1 =>
    let bytes := repeatFrom bytes position length
    bytes ++ [bytes.getD (position + length) 0]

namespace Command

/-- What a command appends to the output.  It must stay inside the source, or inside what has been written. -/
def run (source : Bytes) (o : Output) : Command → Option Output
  | sourceRead length =>
    if o.bytes.length + length ≤ source.length then
      some { o with bytes := o.bytes ++ (source.drop o.bytes.length).take length }
    else none
  | targetRead bytes => some { o with bytes := o.bytes ++ bytes }
  | sourceCopy length data =>
    let offset := o.sourceRelativeOffset + signed data
    if 0 ≤ offset ∧ offset.toNat + length ≤ source.length then
      some { o with
        bytes := o.bytes ++ (source.drop offset.toNat).take length
        sourceRelativeOffset := offset + length }
    else none
  | targetCopy length data =>
    let offset := o.targetRelativeOffset + signed data
    if 0 ≤ offset ∧ offset.toNat < o.bytes.length then
      some { o with
        bytes := repeatFrom o.bytes offset.toNat length
        targetRelativeOffset := offset + length }
    else none

def runAll (source : Bytes) (o : Output) : List Command → Option Output
  | [] => some o
  | c :: cs => (c.run source o).bind fun o => runAll source o cs

def length : Command → Nat
  | sourceRead length => length
  | targetRead bytes => bytes.length
  | sourceCopy length _ => length
  | targetCopy length _ => length

def kind : Command → Nat
  | sourceRead _ => 0
  | targetRead _ => 1
  | sourceCopy _ _ => 2
  | targetCopy _ _ => 3

def operand : Command → Bytes
  | sourceRead _ => []
  | targetRead bytes => bytes
  | sourceCopy _ data => encodeNumber data
  | targetCopy _ data => encodeNumber data

def encode (c : Command) : Bytes := encodeNumber ((c.length - 1) * 4 + c.kind) ++ c.operand

def data : Command → Nat
  | sourceRead _ => 0
  | targetRead _ => 0
  | sourceCopy _ data => data
  | targetCopy _ data => data

/-- The command is not empty, and its numbers are 32-bit numbers. -/
def Fits (c : Command) : Prop := 0 < c.length ∧ (c.length - 1) * 4 + c.kind < 2 ^ 32 ∧ c.data < 2 ^ 32

instance : DecidablePred Fits := fun _ => inferInstanceAs (Decidable (_ ∧ _ ∧ _))

theorem encode_length_pos (c : Command) : 0 < c.encode.length := by
  have hpos := encodeNumber_length_pos ((c.length - 1) * 4 + c.kind)
  unfold encode
  rw [List.length_append]
  omega

theorem repeatFrom_length (bytes : Bytes) (position n : Nat) :
    (repeatFrom bytes position n).length = bytes.length + n := by
  induction n with
  | zero => rfl
  | succ n ih =>
    simp only [repeatFrom, List.length_append, List.length_singleton, ih]
    omega

theorem length_of_run {source : Bytes} {o o' : Output} {c : Command} (h : c.run source o = some o') :
    o'.bytes.length = o.bytes.length + c.length := by
  cases c with
  | sourceRead length =>
    simp only [run, Option.ite_none_right_eq_some, Option.some.injEq] at h
    obtain ⟨hle, rfl⟩ := h
    simp only [List.length_append, List.length_take, List.length_drop, Command.length]
    omega
  | targetRead bytes =>
    cases h
    simp [Command.length]
  | sourceCopy length data =>
    simp only [run, Option.ite_none_right_eq_some, Option.some.injEq] at h
    obtain ⟨⟨-, hle⟩, rfl⟩ := h
    simp only [List.length_append, List.length_take, List.length_drop, Command.length]
    omega
  | targetCopy length data =>
    simp only [run, Option.ite_none_right_eq_some, Option.some.injEq] at h
    obtain ⟨-, rfl⟩ := h
    exact repeatFrom_length _ _ _

theorem length_le_of_runAll {source : Bytes} {cs : List Command} {o o' : Output} (h : runAll source o cs = some o') :
    o.bytes.length ≤ o'.bytes.length := by
  induction cs generalizing o with
  | nil =>
    cases h
    exact le_rfl
  | cons c cs ih =>
    obtain ⟨o₁, hc, h⟩ := Option.bind_eq_some_iff.mp h
    have hlength := length_of_run hc
    have hrest := ih h
    omega

end Command

/-- The target stream of a buffer of `size` bytes when `bytes` have been written: the rest is zero. -/
def written (size : Nat) (bytes : Bytes) : Stream := ⟨bytes ++ List.replicate (size - bytes.length) 0, bytes.length⟩

/-- The state of the applier when `o` has been written and the buffer has `size` bytes. -/
structure Simulates (source : Bytes) (size : Nat) (a : PatchApplier) (o : Output) : Prop where
  target : a.target = written size o.bytes
  room : o.bytes.length ≤ size
  source : source <+: a.source.data
  sourceSize : a.source.data.length = size
  sourceRelative : (a.sourceRelativeOffset : Int) = o.sourceRelativeOffset
  targetRelative : (a.targetRelativeOffset : Int) = o.targetRelativeOffset

namespace PatchApplier

variable {source part : Bytes} {size length : Nat} {a : PatchApplier} {o : Output}

private theorem addU64_of_lt {m n : Nat} (h : m + n < 2 ^ 64) : addU64 m n = m + n := Nat.mod_eq_of_lt h

/-- A relative offset that does not become negative is moved without wrapping around. -/
theorem movedBy_eq (offset data : Nat) (h0 : 0 ≤ (offset : Int) + signed data)
    (h1 : (offset : Int) + signed data < 2 ^ 64) : (movedBy offset data : Int) = offset + signed data := by
  unfold movedBy
  rw [Int.toNat_of_nonneg (Int.emod_nonneg _ (by decide))]
  exact Int.emod_eq_of_lt h0 h1

private theorem written_length (h : part.length ≤ size) : (written size part).data.length = size := by
  unfold written
  rw [List.length_append, List.length_replicate]
  omega

private theorem copyFrom_written (bytes : Bytes) (hsize : size < 2 ^ 32) {other : Stream} {rest : Bytes}
    (hother : other.size < 2 ^ 63) (hpart : 0 < part.length) (hroom : bytes.length + part.length ≤ size)
    (hrest : other.rest = part ++ rest) :
    (written size bytes).copyFrom other part.length =
      .ok (true, written size (bytes ++ part), { other with offset := other.offset + part.length }) := by
  have hsplit : (written size bytes).data = bytes ++ List.replicate part.length 0 ++
      List.replicate (size - (bytes ++ part).length) 0 := by
    have hrest : size - bytes.length = part.length + (size - (bytes.length + part.length)) := by omega
    unfold written
    rw [List.append_assoc, List.replicate_append_replicate, List.length_append, ← hrest]
  have hsum : addU64 (written size bytes).offset part.length = (bytes ++ part).length := by
    rw [List.length_append]
    exact addU64_of_lt (by show bytes.length + part.length < 2 ^ 64; omega)
  obtain ⟨hread, -⟩ := Stream.read_of_rest (by omega) hpart hrest
  unfold Stream.copyFrom Stream.size
  rw [hsum, written_length (by omega), if_neg (by rw [List.length_append]; omega), hread, ok_bind]
  unfold splice
  have hsplice : checkedSplice Fault.outOfBounds (written size bytes).data (written size bytes).offset part =
      .ok (written size (bytes ++ part)).data := by
    rw [hsplit]
    exact checkedSplice_append (by simp)
  simp only [hsplice, ok_bind]
  rfl

private theorem drop_of_prefix {l d : Bytes} (h : l <+: d) {k n : Nat} (hkn : k + n ≤ l.length) :
    ∃ bytes, d.drop k = (l.drop k).take n ++ bytes ∧ ((l.drop k).take n).length = n := by
  obtain ⟨pad, rfl⟩ := h
  refine ⟨(l.drop k).drop n ++ pad, ?_, ?_⟩
  · rw [← List.append_assoc, List.take_append_drop, List.drop_append_of_le_length (by omega)]
  · simp only [List.length_take, List.length_drop]
    omega

private theorem copyFrom_source (h : Simulates source size a o) (hsize : size < 2 ^ 32) (hpos : 0 < length)
    (hroom : o.bytes.length + length ≤ size) {offset : Nat} (hle : offset + length ≤ source.length) :
    a.source.seek offset = (true, ⟨a.source.data, offset⟩) ∧
      a.target.copyFrom ⟨a.source.data, offset⟩ length =
        .ok (true, written size (o.bytes ++ (source.drop offset).take length), ⟨a.source.data, offset + length⟩) := by
  obtain ⟨bytes, hdrop, hlength⟩ := drop_of_prefix h.source hle
  have hprefix := h.source.length_le
  have hsourceSize := h.sourceSize
  constructor
  · unfold Stream.seek Stream.size
    rw [if_neg (by omega)]
  · have hother : Stream.size ⟨a.source.data, offset⟩ < 2 ^ 63 := by
      show a.source.data.length < 2 ^ 63
      omega
    have hcopy := copyFrom_written o.bytes hsize hother (by omega) (by omega) hdrop
    rw [hlength] at hcopy
    rw [h.target, hcopy]

private theorem sourceRead_written (h : Simulates source size a o) (hsize : size < 2 ^ 32) (hpos : 0 < length)
    (hroom : o.bytes.length + length ≤ size) (hle : o.bytes.length + length ≤ source.length) :
    a.sourceRead length = .ok (true, { a with
      target := written size (o.bytes ++ (source.drop o.bytes.length).take length)
      source := ⟨a.source.data, o.bytes.length + length⟩ }) := by
  obtain ⟨hseek, hcopy⟩ := copyFrom_source h hsize hpos hroom hle
  have hoffset : a.target.offset = o.bytes.length := by rw [h.target]; rfl
  unfold sourceRead
  rw [hoffset, hseek]
  simp only [hcopy, ok_bind]

private theorem targetRead_written (h : Simulates source size a o) (hsize : size < 2 ^ 32)
    (hpatch : a.patch.size < 2 ^ 63) (hpart : 0 < part.length) (hroom : o.bytes.length + part.length ≤ size)
    {rest : Bytes} (hrest : a.patch.rest = part ++ rest) :
    a.targetRead part.length = .ok (true, { a with
      target := written size (o.bytes ++ part)
      patch := { a.patch with offset := a.patch.offset + part.length } }) := by
  unfold targetRead
  rw [h.target, copyFrom_written o.bytes hsize hpatch hpart hroom hrest, ok_bind]

private theorem sourceCopy_written (h : Simulates source size a o) (hsize : size < 2 ^ 32) (hpos : 0 < length)
    (hroom : o.bytes.length + length ≤ size) {data offset : Nat} {patch : Stream}
    (hnumber : a.patch.readNumber = (data, patch))
    (hoffset : o.sourceRelativeOffset + signed data = offset) (hle : offset + length ≤ source.length) :
    a.sourceCopy length = .ok (true, { a with
      target := written size (o.bytes ++ (source.drop offset).take length)
      source := ⟨a.source.data, offset + length⟩
      patch := patch
      sourceRelativeOffset := offset + length }) := by
  obtain ⟨hseek, hcopy⟩ := copyFrom_source h hsize hpos hroom hle
  have hprefix := h.source.length_le
  have hsourceSize := h.sourceSize
  have hsum : (a.sourceRelativeOffset : Int) + signed data = offset := by rw [h.sourceRelative, hoffset]
  have hmoved : movedBy a.sourceRelativeOffset data = offset := by
    have h := movedBy_eq a.sourceRelativeOffset data (by omega) (by omega)
    omega
  have hnext : addU64 offset length = offset + length := addU64_of_lt (by omega)
  unfold sourceCopy
  simp only [hnumber, hmoved, hseek, hcopy, ok_bind, hnext, if_true]

private theorem copyBytes_written (bytes : Bytes) (hsize : size < 2 ^ 32) {position : Nat}
    (hposition : position < bytes.length) (hroom : bytes.length + length ≤ size) :
    copyBytes bytes.length length (written size bytes).data position =
      .ok ((written size (repeatFrom bytes position length)).data, position + length) := by
  unfold copyBytes
  induction length with
  | zero => rfl
  | succ n ih =>
    have hlength := Command.repeatFrom_length bytes position n
    obtain ⟨k, hk⟩ : ∃ k, size - (bytes.length + n) = k + 1 := ⟨size - (bytes.length + n) - 1, by omega⟩
    have hdata : (written size (repeatFrom bytes position n)).data =
        repeatFrom bytes position n ++ 0 :: List.replicate k 0 := by
      unfold written
      rw [hlength, hk, List.replicate_succ]
    have hdata' : (written size (repeatFrom bytes position (n + 1))).data =
        repeatFrom bytes position n ++
          (repeatFrom bytes position n).getD (position + n) 0 :: List.replicate k 0 := by
      have hk' : size - (bytes.length + (n + 1)) = k := by omega
      unfold written
      rw [Command.repeatFrom_length, hk', repeatFrom, List.append_assoc, List.singleton_append]
    have hget : byteAt (repeatFrom bytes position n ++ 0 :: List.replicate k 0) (position + n) =
        .ok ((repeatFrom bytes position n).getD (position + n) 0) := by
      unfold byteAt
      rw [checkedGet_of_lt (by simp; omega), List.getElem_append_left (by omega), List.getD_eq_getElem?_getD,
        List.getElem?_eq_getElem (by omega)]
      rfl
    have hset : ∀ b, setByte (repeatFrom bytes position n ++ 0 :: List.replicate k 0) (bytes.length + n) b =
        .ok (repeatFrom bytes position n ++ b :: List.replicate k 0) := by
      intro b
      unfold setByte
      rw [checkedSet_of_lt (by simp; omega), ← hlength, List.set_append_right _ _ le_rfl, Nat.sub_self,
        List.set_cons_zero]
    have hstop : addU64 bytes.length n = bytes.length + n := addU64_of_lt (by omega)
    have hnext : addU64 (position + n) 1 = position + n + 1 := addU64_of_lt (by omega)
    rw [List.range_succ, List.foldlM_append, ih (by omega), ok_bind]
    simp only [List.foldlM_cons, List.foldlM_nil, hdata, hget, ok_bind, hstop, hset, hnext]
    rw [hdata']
    rfl

private theorem targetCopy_written (h : Simulates source size a o) (hsize : size < 2 ^ 32)
    (hroom : o.bytes.length + length ≤ size) {data offset : Nat} {patch : Stream}
    (hnumber : a.patch.readNumber = (data, patch))
    (hoffset : o.targetRelativeOffset + signed data = offset) (hlt : offset < o.bytes.length) :
    a.targetCopy length = .ok (true, { a with
      target := written size (repeatFrom o.bytes offset length)
      patch := patch
      targetRelativeOffset := offset + length }) := by
  have hsum : (a.targetRelativeOffset : Int) + signed data = offset := by rw [h.targetRelative, hoffset]
  have hmoved : movedBy a.targetRelativeOffset data = offset := by
    have h := movedBy_eq a.targetRelativeOffset data (by omega) (by omega)
    omega
  have hstart : (written size o.bytes).offset = o.bytes.length := rfl
  have hlength : (written size o.bytes).data.length = size := written_length h.room
  have hlength' : (written size (repeatFrom o.bytes offset length)).data.length = size :=
    written_length (by rw [Command.repeatFrom_length]; exact hroom)
  have hnext : addU64 o.bytes.length length = o.bytes.length + length := addU64_of_lt (by omega)
  have hnext' : addU64 offset length = offset + length := addU64_of_lt (by omega)
  have hcopy := copyBytes_written o.bytes hsize hlt hroom
  have hseek : Stream.seek ⟨(written size (repeatFrom o.bytes offset length)).data, o.bytes.length⟩
      (o.bytes.length + length) = (true, written size (repeatFrom o.bytes offset length)) := by
    unfold Stream.seek Stream.size
    rw [hlength', if_neg (by omega)]
    unfold written
    rw [Command.repeatFrom_length]
  unfold targetCopy
  simp only [hnumber, hmoved, h.target, hstart, Stream.size, hlength, hnext, hnext']
  rw [if_neg (by omega), if_neg (by omega), hcopy, ok_bind]
  simp only [hseek]

private theorem simulates_written (h : Simulates source size a o) {o' : Output} (hroom : o'.bytes.length ≤ size)
    {a' : PatchApplier} (htarget : a'.target = written size o'.bytes) (hdata : a'.source.data = a.source.data)
    (hs : (a'.sourceRelativeOffset : Int) = o'.sourceRelativeOffset)
    (ht : (a'.targetRelativeOffset : Int) = o'.targetRelativeOffset) : Simulates source size a' o' where
  target := htarget
  room := hroom
  source := by rw [hdata]; exact h.source
  sourceSize := by rw [hdata]; exact h.sourceSize
  sourceRelative := hs
  targetRelative := ht

theorem handleCommand_simulates (h : Simulates source size a o) (hsize : size < 2 ^ 32) (hpatch : a.patch.size < 2 ^ 63)
    {c : Command} (hc : c.Fits) {o' : Output} (hrun : c.run source o = some o') (hroom : o'.bytes.length ≤ size)
    {rest : Bytes} (hrest : a.patch.rest = c.encode ++ rest) :
    ∃ a', a.handleCommand = .ok (true, a') ∧ Simulates source size a' o' ∧
      a'.patch = { a.patch with offset := a.patch.offset + c.encode.length } := by
  obtain ⟨hpos, hnumber, hdata⟩ := hc
  have hlength := Command.length_of_run hrun
  have hspace : o.bytes.length + c.length ≤ size := by omega
  have hkind : ((c.length - 1) * 4 + c.kind) % 4 = c.kind ∧ ((c.length - 1) * 4 + c.kind) / 4 + 1 = c.length := by
    have hlt : c.kind < 4 := by cases c <;> simp [Command.kind]
    omega
  have hencode : c.encode.length = (encodeNumber ((c.length - 1) * 4 + c.kind)).length + c.operand.length := by
    simp [Command.encode]
  rw [Command.encode, List.append_assoc] at hrest
  obtain ⟨hread, hoperand⟩ := Stream.readNumber_of_rest hnumber hrest
  generalize hp : ({ a.patch with
    offset := a.patch.offset + (encodeNumber ((c.length - 1) * 4 + c.kind)).length } : Stream) = patch at hread hoperand
  have hend : ({ a.patch with offset := a.patch.offset + c.encode.length } : Stream) =
      { patch with offset := patch.offset + c.operand.length } := by
    rw [← hp, hencode, Nat.add_assoc]
  have hpatch' : patch.size < 2 ^ 63 := by
    rw [← hp]
    exact hpatch
  have h' : Simulates source size { a with patch } o :=
    ⟨h.target, h.room, h.source, h.sourceSize, h.sourceRelative, h.targetRelative⟩
  unfold handleCommand
  rw [hread, hend]
  simp only [hkind.1, hkind.2]
  cases c with
  | sourceRead length =>
    simp only [Command.run, Option.ite_none_right_eq_some, Option.some.injEq] at hrun
    obtain ⟨hle, rfl⟩ := hrun
    have hstep := sourceRead_written h' hsize hpos hspace hle
    exact ⟨_, hstep, simulates_written h hroom rfl rfl h.sourceRelative h.targetRelative, rfl⟩
  | targetRead bytes =>
    cases hrun
    have hstep := targetRead_written h' hsize hpatch' hpos hspace hoperand
    exact ⟨_, hstep, simulates_written h hroom rfl rfl h.sourceRelative h.targetRelative, rfl⟩
  | sourceCopy length data =>
    simp only [Command.run, Option.ite_none_right_eq_some, Option.some.injEq] at hrun
    obtain ⟨⟨hnonneg, hle⟩, rfl⟩ := hrun
    obtain ⟨offset, hoffset⟩ := Int.eq_ofNat_of_zero_le hnonneg
    have hnat : (o.sourceRelativeOffset + signed data).toNat = offset := by rw [hoffset, Int.toNat_natCast]
    rw [hnat] at hle
    obtain ⟨hread', -⟩ := Stream.readNumber_of_rest hdata hoperand
    have hstep := sourceCopy_written h' hsize hpos hspace hread' hoffset hle
    refine ⟨_, hstep, simulates_written h hroom ?_ rfl ?_ h.targetRelative, rfl⟩
    · simp only [hnat]
      rfl
    · simp only [hoffset]
      rfl
  | targetCopy length data =>
    simp only [Command.run, Option.ite_none_right_eq_some, Option.some.injEq] at hrun
    obtain ⟨⟨hnonneg, hlt⟩, rfl⟩ := hrun
    obtain ⟨offset, hoffset⟩ := Int.eq_ofNat_of_zero_le hnonneg
    have hnat : (o.targetRelativeOffset + signed data).toNat = offset := by rw [hoffset, Int.toNat_natCast]
    rw [hnat] at hlt
    obtain ⟨hread', -⟩ := Stream.readNumber_of_rest hdata hoperand
    have hstep := targetCopy_written h' hsize hspace hread' hoffset hlt
    refine ⟨_, hstep, simulates_written h hroom ?_ rfl h.sourceRelative ?_, rfl⟩
    · simp only [hnat]
      rfl
    · simp only [hoffset]
      rfl

theorem commandLoop_simulates (hsize : size < 2 ^ 32) {cs : List Command} (hcs : ∀ c ∈ cs, c.Fits) {stop fuel : Nat}
    {rest : Bytes} {o' : Output} (h : Simulates source size a o) (hpatch : a.patch.size < 2 ^ 63)
    (hrun : Command.runAll source o cs = some o') (hroom : o'.bytes.length ≤ size)
    (hrest : a.patch.rest = cs.flatMap Command.encode ++ rest)
    (hstop : stop = a.patch.offset + (cs.flatMap Command.encode).length) (hfuel : cs.length < fuel) :
    ∃ a', a.commandLoop stop fuel = .ok (true, a') ∧ Simulates source size a' o' := by
  induction cs generalizing a o fuel with
  | nil =>
    cases hrun
    obtain ⟨fuel, rfl⟩ : ∃ n, fuel = n + 1 := ⟨fuel - 1, by simp at hfuel; omega⟩
    refine ⟨a, ?_, h⟩
    unfold commandLoop
    rw [if_neg (by simp at hstop; omega)]
  | cons c cs ih =>
    obtain ⟨fuel, rfl⟩ : ∃ n, fuel = n + 1 := ⟨fuel - 1, by simp at hfuel; omega⟩
    obtain ⟨o₁, hc, hrun⟩ := Option.bind_eq_some_iff.mp hrun
    have hlength := Command.length_le_of_runAll hrun
    rw [List.flatMap_cons, List.append_assoc] at hrest
    rw [List.flatMap_cons, List.length_append] at hstop
    obtain ⟨a₁, hstep, h₁, hpatch₁⟩ := handleCommand_simulates h hsize hpatch (hcs c List.mem_cons_self) hc
      (by omega) hrest
    have hdone : a₁.patch.rest = cs.flatMap Command.encode ++ rest := by
      unfold Stream.rest at hrest ⊢
      rw [hpatch₁, ← List.drop_drop, hrest, List.drop_left]
    have hpos := Command.encode_length_pos c
    obtain ⟨a', hloop, h'⟩ := ih (fun c hc => hcs c (List.mem_cons_of_mem _ hc)) h₁ (by rw [hpatch₁]; exact hpatch)
      hrun hdone (by rw [hpatch₁]; simp only; omega) (by simp at hfuel; omega)
    refine ⟨a', ?_, h'⟩
    unfold commandLoop
    rw [if_pos (by omega), hstep, ok_bind]
    exact hloop

end PatchApplier

def encodeU32 (n : Nat) : Bytes :=
  [UInt8.ofNat n, UInt8.ofNat (n / 2 ^ 8), UInt8.ofNat (n / 2 ^ 16), UInt8.ofNat (n / 2 ^ 24)]

theorem littleEndian_encodeU32 {n : Nat} (h : n < 2 ^ 32) : Stream.littleEndian (encodeU32 n) = n := by
  simp only [encodeU32, Stream.littleEndian, UInt8.toNat_ofNat']
  omega

def encodeFooter (crc32 : Bytes → UInt32) (source target patchCrc : Bytes) : Bytes :=
  encodeU32 (crc32 source).toNat ++ (encodeU32 (crc32 target).toNat ++ patchCrc)

def encodePatch (crc32 : Bytes → UInt32) (source target : Bytes) (cs : List Command) (patchCrc : Bytes) : Bytes :=
  bpsMagic ++ (encodeNumber source.length ++ (encodeNumber target.length ++ (encodeNumber 0 ++
    (cs.flatMap Command.encode ++ encodeFooter crc32 source target patchCrc))))

structure Encodes (crc32 : Bytes → UInt32) (source target patch : Bytes) (cs : List Command) : Prop where
  bytes : ∃ patchCrc, patchCrc.length = 4 ∧ patch = encodePatch crc32 source target cs patchCrc
  run : ∃ o, Command.runAll source {} cs = some o ∧ o.bytes = target
  commands : ∀ c ∈ cs, c.Fits
  sourceSize : source.length < 2 ^ 32
  targetSize : target.length < 2 ^ 32
  patchSize : patch.length < 2 ^ 63

variable {crc32 : Bytes → UInt32} {source target patch : Bytes} {cs : List Command}

private theorem Encodes.header (h : Encodes crc32 source target patch cs) :
    ∃ s₁ s₂ s₃ patchCrc, Stream.readNumber ⟨patch, 4⟩ = (source.length, s₁) ∧ s₁.readNumber = (target.length, s₂) ∧
      s₂.readNumber = (0, s₃) ∧ s₃.data = patch ∧ patchCrc.length = 4 ∧
      s₃.rest = cs.flatMap Command.encode ++ encodeFooter crc32 source target patchCrc := by
  obtain ⟨patchCrc, hcrc, hpatch⟩ := h.bytes
  have hrest : Stream.rest ⟨patch, 4⟩ = encodeNumber source.length ++ (encodeNumber target.length ++ (encodeNumber 0 ++
      (cs.flatMap Command.encode ++ encodeFooter crc32 source target patchCrc))) := by
    rw [hpatch]
    rfl
  obtain ⟨h₁, hrest⟩ := Stream.readNumber_of_rest h.sourceSize hrest
  obtain ⟨h₂, hrest⟩ := Stream.readNumber_of_rest h.targetSize hrest
  obtain ⟨h₃, hrest⟩ := Stream.readNumber_of_rest (by decide) hrest
  exact ⟨_, _, _, patchCrc, h₁, h₂, h₃, rfl, hcrc, hrest⟩

private theorem Encodes.buffer (h : Encodes crc32 source target patch cs) :
    (if (readSizes patch).2 > (readSizes patch).1 then resize source (readSizes patch).2 else source) =
      source ++ List.replicate (target.length - source.length) 0 := by
  obtain ⟨s₁, s₂, s₃, patchCrc, h₁, h₂, -⟩ := h.header
  obtain ⟨patchCrc', -, hpatch⟩ := h.bytes
  have hseek : (Stream.seek ⟨patch, 0⟩ magicSize).2 = ⟨patch, 4⟩ := by
    have hlength : ¬ magicSize > patch.length := by
      rw [hpatch]
      simp [encodePatch, bpsMagic, magicSize]
    unfold Stream.seek Stream.size
    rw [if_neg hlength]
    rfl
  have hsizes : readSizes patch = (source.length, target.length) := by
    unfold readSizes
    rw [hseek, h₁]
    simp only [h₂]
  rw [hsizes]
  simp only
  split
  · unfold resize
    rw [List.take_of_length_le (by omega)]
  · have hzero : target.length - source.length = 0 := by omega
    rw [hzero, List.replicate_zero, List.append_nil]

private theorem readValue_of_rest {s : Stream} {part bytes : Bytes} (hsize : s.size < 2 ^ 64) (hpart : part.length = 4)
    (h : s.rest = part ++ bytes) :
    s.readValue 4 = .ok (part, { s with offset := s.offset + 4 }) ∧
      Stream.rest { s with offset := s.offset + 4 } = bytes := by
  obtain ⟨hread, hrest⟩ := Stream.read_of_rest hsize (by omega) h
  rw [hpart] at hread hrest
  refine ⟨?_, hrest⟩
  unfold Stream.readValue
  rw [hread, ok_bind]

private theorem encodeFooter_length {patchCrc : Bytes} (hcrc : patchCrc.length = 4) :
    (encodeFooter crc32 source target patchCrc).length = 12 := by
  simp [encodeFooter, encodeU32, hcrc]

private theorem commandEnd_eq {s : Stream} {patchCrc commands : Bytes} (hcrc : patchCrc.length = 4)
    (hsize : s.size < 2 ^ 63) (hrest : s.rest = commands ++ encodeFooter crc32 source target patchCrc) :
    subU64 s.size footerSize = s.offset + commands.length ∧ s.offset + commands.length + 12 = s.size := by
  have hlength := congrArg List.length hrest
  unfold Stream.rest at hlength
  rw [List.length_drop, List.length_append, encodeFooter_length hcrc] at hlength
  unfold Stream.size at hsize ⊢
  unfold subU64 footerSize
  omega

private theorem footer_reads {s : Stream} {patchCrc commands : Bytes} (hcrc : patchCrc.length = 4)
    (hsize : s.size < 2 ^ 63) (hrest : s.rest = commands ++ encodeFooter crc32 source target patchCrc) :
    ∃ s₁ s₂, (s.seek (s.offset + commands.length)).2.readValue 4 = .ok (encodeU32 (crc32 source).toNat, s₁) ∧
      s₁.readValue 4 = .ok (encodeU32 (crc32 target).toNat, s₂) ∧ (s₂.seek s.offset).2 = s := by
  obtain ⟨-, hend⟩ := commandEnd_eq hcrc hsize hrest
  have hseek : (s.seek (s.offset + commands.length)).2 = ⟨s.data, s.offset + commands.length⟩ := by
    unfold Stream.seek
    rw [if_neg (by omega)]
  have hfooter : Stream.rest ⟨s.data, s.offset + commands.length⟩ =
      encodeU32 (crc32 source).toNat ++ (encodeU32 (crc32 target).toNat ++ patchCrc) := by
    unfold Stream.rest at hrest ⊢
    rw [← List.drop_drop, hrest, List.drop_left]
    rfl
  have hsize' : ∀ offset, Stream.size ⟨s.data, offset⟩ < 2 ^ 64 := by
    intro offset
    show s.size < 2 ^ 64
    omega
  obtain ⟨hread₁, hfooter⟩ := readValue_of_rest (hsize' _) rfl hfooter
  obtain ⟨hread₂, -⟩ := readValue_of_rest (hsize' _) rfl hfooter
  refine ⟨_, _, by rw [hseek]; exact hread₁, hread₂, ?_⟩
  unfold Stream.seek
  rw [if_neg (by show ¬ s.offset > s.size; omega)]

private theorem length_le_flatMap (cs : List Command) : cs.length ≤ (cs.flatMap Command.encode).length := by
  induction cs with
  | nil => simp
  | cons c cs ih =>
    have hpos := Command.encode_length_pos c
    rw [List.flatMap_cons, List.length_append, List.length_cons]
    omega

private theorem simulates_start {buffer : Bytes} {s : Stream} (hsource : source <+: buffer) :
    Simulates source buffer.length ⟨⟨buffer, 0⟩, ⟨List.replicate buffer.length 0, 0⟩, s, 0, 0⟩ {} where
  target := rfl
  room := Nat.zero_le _
  source := hsource
  sourceSize := rfl
  sourceRelative := rfl
  targetRelative := rfl

private theorem applyCommands_encodes (h : Encodes crc32 source target patch cs) {buffer patchCrc : Bytes} {s : Stream}
    (hbuffer : buffer = source ++ List.replicate (target.length - source.length) 0) (hdata : s.data = patch)
    (hcrc : patchCrc.length = 4)
    (hrest : s.rest = cs.flatMap Command.encode ++ encodeFooter crc32 source target patchCrc) :
    PatchApplier.applyCommands crc32 ⟨⟨buffer, 0⟩, ⟨buffer, 0⟩, s, 0, 0⟩ source.length target.length =
      .ok (.success, target ++ List.replicate (source.length - target.length) 0) := by
  have hsize : s.size < 2 ^ 63 := by
    unfold Stream.size
    rw [hdata]
    exact h.patchSize
  have hlength : buffer.length = max source.length target.length := by
    rw [hbuffer, List.length_append, List.length_replicate]
    omega
  have hsource32 := h.sourceSize
  have htarget32 := h.targetSize
  obtain ⟨o, hrun, ho⟩ := h.run
  obtain ⟨s₁, s₂, hread₁, hread₂, hback⟩ := footer_reads hcrc hsize hrest
  obtain ⟨hend, hstop⟩ := commandEnd_eq hcrc hsize hrest
  have hprefix : source <+: buffer := ⟨_, hbuffer.symm⟩
  have hfuel := length_le_flatMap cs
  obtain ⟨a', hloop, h'⟩ := PatchApplier.commandLoop_simulates (by omega) h.commands (simulates_start hprefix) hsize
    hrun (by rw [ho]; omega) hrest rfl (show cs.length < s.size + 1 by omega)
  have htarget : a'.target.data = target ++ List.replicate (source.length - target.length) 0 := by
    rw [h'.target, ho]
    unfold written
    have hpad : buffer.length - target.length = source.length - target.length := by omega
    rw [hpad]
  have hsourceBytes : slice buffer 0 source.length = .ok source := by
    unfold slice
    rw [checkedSlice_of_le (by omega), hbuffer, List.drop_zero, List.take_left]
  have htargetBytes : slice (target ++ List.replicate (source.length - target.length) 0) 0 target.length =
      .ok target := by
    unfold slice
    rw [checkedSlice_of_le (by simp), List.drop_zero, List.take_left]
  have hhash : ∀ bytes, (crc32 bytes).toNat = Stream.littleEndian (encodeU32 (crc32 bytes).toNat) :=
    fun bytes => (littleEndian_encodeU32 (crc32 bytes).toNat_lt).symm
  have hsize₀ : Stream.size ⟨buffer, 0⟩ = buffer.length := rfl
  unfold PatchApplier.applyCommands
  simp only [hend, hread₁, hread₂, hback, ok_bind, hsourceBytes, ← hhash, ne_eq, not_true_eq_false, if_false, hsize₀,
    hloop, htarget, htargetBytes]

theorem applyBpsPatch_encodes (h : Encodes crc32 source target patch cs) :
    applyBpsPatch crc32 patch source =
      .ok (.success, target ++ List.replicate (source.length - target.length) 0) := by
  obtain ⟨s₁, s₂, s₃, patchCrc, h₁, h₂, h₃, hdata, hcrc, hrest⟩ := h.header
  obtain ⟨patchCrc', -, hpatch⟩ := h.bytes
  have hsize : Stream.size ⟨patch, 0⟩ < 2 ^ 64 := by
    have hlt := h.patchSize
    show patch.length < 2 ^ 64
    omega
  have hmagic : Stream.readValue ⟨patch, 0⟩ magicSize = .ok (bpsMagic, ⟨patch, 4⟩) :=
    (readValue_of_rest hsize rfl (by rw [hpatch]; rfl)).1
  generalize hbuffer : source ++ List.replicate (target.length - source.length) 0 = buffer
  have hlength : source.length ≤ buffer.length ∧ target.length ≤ buffer.length := by
    rw [← hbuffer, List.length_append, List.length_replicate]
    omega
  have hvalid : ¬ (source.length > Stream.size ⟨buffer, 0⟩ ∨ target.length > Stream.size ⟨buffer, 0⟩) := by
    show ¬ (source.length > buffer.length ∨ target.length > buffer.length)
    omega
  have happly := applyCommands_encodes h hbuffer.symm hdata hcrc hrest
  unfold applyBpsPatch
  dsimp only
  rw [h.buffer, hbuffer]
  unfold PatchApplier.apply
  simp only [hmagic, ok_bind, ne_eq, not_true_eq_false, if_false, h₁, h₂, h₃, or_false]
  rw [if_neg hvalid]
  exact happly

def startBuffer (patch buffer : Bytes) : Bytes :=
  if (readSizes patch).2 > (readSizes patch).1 then resize buffer (readSizes patch).2 else buffer

/-- Whether `Apply` gets to the commands of the patch. -/
def reachesCommands (crc32 : Bytes → UInt32) (patch buffer : Bytes) : Bool :=
  let (sourceSize, s) := Stream.readNumber ⟨patch, magicSize⟩
  let (targetSize, s) := s.readNumber
  let (metadataSize, s) := s.readNumber
  let buffer := startBuffer patch buffer
  patch.take magicSize = bpsMagic ∧ sourceSize ≤ buffer.length ∧ targetSize ≤ buffer.length ∧ metadataSize = 0 ∧
    (crc32 (buffer.take sourceSize)).toNat =
      Stream.littleEndian (((s.seek (subU64 patch.length footerSize)).2.rest).take 4)

private theorem of_readValue {s s' : Stream} {n : Nat} {bytes : Bytes} (h : s.readValue n = .ok (bytes, s')) :
    bytes = s.rest.take n ∧ s' = { s with offset := addU64 s.offset n } := by
  obtain ⟨r, hread, h⟩ := ok_of_bind h
  unfold Stream.read at hread
  split at hread
  · cases hread
    cases h
  · obtain ⟨bytes', hslice, hread⟩ := ok_of_bind hread
    cases hread
    cases h
    unfold slice checkedSlice at hslice
    split at hslice
    · cases hslice
      exact ⟨rfl, rfl⟩
    · cases hslice

private theorem applyCommands_refused {a : PatchApplier} {sourceSize targetSize : Nat} {status : ResultStatus}
    {b : Bytes} (h : a.applyCommands crc32 sourceSize targetSize = .ok (status, b))
    (hcrc : (crc32 (a.source.data.take sourceSize)).toNat ≠
      Stream.littleEndian (((a.patch.seek (subU64 a.patch.size footerSize)).2.rest).take 4)) :
    status = .errorPatchesInvalidTitle ∧ b = a.target.data := by
  unfold PatchApplier.applyCommands at h
  generalize subU64 a.patch.size footerSize = stop at h hcrc
  obtain ⟨⟨sourceCrc, s₁⟩, hread, h⟩ := ok_of_bind h
  obtain ⟨⟨targetCrc, s₂⟩, -, h⟩ := ok_of_bind h
  obtain ⟨sourceBytes, hslice, h⟩ := ok_of_bind h
  obtain ⟨rfl, -⟩ := of_readValue hread
  unfold slice checkedSlice at hslice
  split at hslice
  · cases hslice
    rw [List.drop_zero, if_pos hcrc] at h
    cases h
    exact ⟨rfl, rfl⟩
  · cases hslice

theorem applyBpsPatch_refused {buffer b : Bytes} {status : ResultStatus}
    (h : applyBpsPatch crc32 patch buffer = .ok (status, b)) (hrefused : reachesCommands crc32 patch buffer = false) :
    status ≠ .success ∧ b = startBuffer patch buffer := by
  replace h : PatchApplier.apply crc32
    ⟨⟨startBuffer patch buffer, 0⟩, ⟨startBuffer patch buffer, 0⟩, ⟨patch, 0⟩, 0, 0⟩ = .ok (status, b) := h
  unfold reachesCommands at hrefused
  generalize startBuffer patch buffer = start at h hrefused ⊢
  obtain ⟨⟨magic, s⟩, hread, h⟩ := ok_of_bind h
  obtain ⟨rfl, rfl⟩ := of_readValue hread
  have hoffset : addU64 0 magicSize = magicSize := by decide
  simp only [hoffset] at h
  split at h
  · cases h
    exact ⟨by decide, rfl⟩
  · rename_i hmagic
    split at h
    · cases h
      exact ⟨by decide, rfl⟩
    · rename_i hsizes
      simp only [not_or, not_lt, not_not, gt_iff_lt] at hmagic hsizes
      obtain ⟨hsource, htarget, hmetadata⟩ := hsizes
      obtain ⟨rfl, rfl⟩ := applyCommands_refused h fun hcrc => by
        have hreached := of_decide_eq_false hrefused
        exact hreached ⟨hmagic, hsource, htarget, hmetadata, hcrc⟩
      exact ⟨by decide, rfl⟩

theorem startBuffer_eq_iff {buffer : Bytes} :
    startBuffer patch buffer = buffer ↔
      (readSizes patch).2 ≤ (readSizes patch).1 ∨ (readSizes patch).2 = buffer.length := by
  generalize hsizes : readSizes patch = sizes
  unfold startBuffer
  rw [hsizes]
  constructor
  · intro h
    split at h
    · have hlength := congrArg List.length h
      unfold resize at hlength
      rw [List.length_append, List.length_take, List.length_replicate] at hlength
      omega
    · omega
  · intro h
    split
    · have hlength : sizes.2 = buffer.length := by omega
      unfold resize
      rw [hlength, List.take_length, Nat.sub_self, List.replicate_zero, List.append_nil]
    · rfl

def boostCrc32 (bytes : Bytes) : UInt32 :=
  let turn (crc : UInt32) : UInt32 := if crc % 2 = 1 then crc / 2 ^^^ 0xEDB88320 else crc / 2
  bytes.foldl (fun crc b => turn^[8] (crc ^^^ b.toUInt32)) 0xFFFFFFFF ^^^ 0xFFFFFFFF

/-- A well-formed patch gives back its target exactly when the source is not longer than the target; and an error that
is found before the commands run leaves the buffer alone exactly when the header asks for no other size. -/
theorem applyBpsPatch_exact_iff (crc32 : Bytes → UInt32) (source target patch : Bytes) (cs : List Command)
    (h : Encodes crc32 source target patch cs) :
    (∃ buffer, applyBpsPatch crc32 patch source = .ok (.success, buffer)) ∧
      (applyBpsPatch crc32 patch source = .ok (.success, target) ↔ source.length ≤ target.length) ∧
      ∀ patch buffer status b, applyBpsPatch crc32 patch buffer = .ok (status, b) →
        reachesCommands crc32 patch buffer = false → status ≠ .success ∧
          (b = buffer ↔ (readSizes patch).2 ≤ (readSizes patch).1 ∨ (readSizes patch).2 = buffer.length) := by
  have happly := applyBpsPatch_encodes h
  refine ⟨⟨_, happly⟩, ?_, ?_⟩
  · rw [happly]
    simp only [Except.ok.injEq, Prod.mk.injEq, true_and]
    constructor
    · intro h
      have hlength := congrArg List.length h
      rw [List.length_append, List.length_replicate] at hlength
      omega
    · intro hle
      rw [Nat.sub_eq_zero_of_le hle, List.replicate_zero, List.append_nil]
  · intro patch buffer status b hresult hrefused
    obtain ⟨hstatus, rfl⟩ := applyBpsPatch_refused hresult hrefused
    exact ⟨hstatus, startBuffer_eq_iff⟩

private theorem encodes_longer : Encodes boostCrc32 [1] [1, 2]
    (encodePatch boostCrc32 [1] [1, 2] [.sourceRead 1, .targetRead [2]] [0, 0, 0, 0])
    [.sourceRead 1, .targetRead [2]] where
  bytes := ⟨[0, 0, 0, 0], rfl, rfl⟩
  run := ⟨_, rfl, rfl⟩
  commands := by decide
  sourceSize := by decide
  targetSize := by decide
  patchSize := by simp [encodePatch, encodeFooter, Command.encode, Command.length, Command.kind, Command.operand,
    encodeNumber, encodeU32, bpsMagic]

theorem applyBpsPatch_exact_iff_longer :
    applyBpsPatch boostCrc32 (encodePatch boostCrc32 [1] [1, 2] [.sourceRead 1, .targetRead [2]] [0, 0, 0, 0]) [1] =
      .ok (.success, [1, 2]) :=
  (applyBpsPatch_exact_iff boostCrc32 [1] [1, 2] _ _ encodes_longer).2.1.mpr (by decide)

private theorem encodes_shorter : Encodes boostCrc32 [1, 2] [1]
    (encodePatch boostCrc32 [1, 2] [1] [.sourceRead 1] [0, 0, 0, 0]) [.sourceRead 1] where
  bytes := ⟨[0, 0, 0, 0], rfl, rfl⟩
  run := ⟨_, rfl, rfl⟩
  commands := by decide
  sourceSize := by decide
  targetSize := by decide
  patchSize := by simp [encodePatch, encodeFooter, Command.encode, Command.length, Command.kind, Command.operand,
    encodeNumber, encodeU32, bpsMagic]

/-- A target that is shorter than its source comes with the zeros that are left of the source's length, and an error
that is found after the commands leaves what they have written. -/
theorem applyBpsPatch_keeps_length :
    Encodes boostCrc32 [1, 2] [1] (encodePatch boostCrc32 [1, 2] [1] [.sourceRead 1] [0, 0, 0, 0]) [.sourceRead 1] ∧
      applyBpsPatch boostCrc32 (encodePatch boostCrc32 [1, 2] [1] [.sourceRead 1] [0, 0, 0, 0]) [1, 2] =
        .ok (.success, [1, 0]) ∧
      applyBpsPatch boostCrc32
        (bpsMagic ++ [0x82, 0x82, 0x80, 0x80, 0x92, 0x42, 0xCC, 0xB6] ++ List.replicate 8 0) [1, 2] =
        .ok (.errorPatches, [1, 0]) :=
  ⟨encodes_shorter, applyBpsPatch_encodes encodes_shorter, by decide +kernel⟩

end SweepDSEmu.FileSys.Patch
