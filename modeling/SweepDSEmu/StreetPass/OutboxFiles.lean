import Mathlib.Data.List.Perm.Basic
import SweepDSEmu.StreetPass.CecBounds

/-!
# Outbox files

`BoxInfo_____` and `OBIndex_____` describe the outbox after an update when the messages are counted from zero.  Box
information that an earlier update has written is trusted, and its messages are counted again.
-/

namespace SweepDSEmu.StreetPass

variable {outbox files : List (Name × Bytes)} {file out : Bytes} {garbage : Nat → UInt8}

structure IsOutbox (outbox files : List (Name × Bytes)) : Prop where
  lists : ∃ box index, outbox.Perm ((boxInfoName, box) :: (obIndexName, index) :: files)
  named : ∀ f ∈ files, f.1 ≠ boxInfoName ∧ f.1 ≠ obIndexName
  long : ∀ f ∈ files, messageHeaderSize ≤ f.2.length
  few : files.length ≤ 6

def ListsParts (slot offset : Nat) (files : List (Name × Bytes)) (bytes : Bytes) : Prop :=
  ∃ order : List (Name × Bytes), order.Perm files ∧ bytes = order.flatMap fun f => part slot offset f.2

structure DescribesInfo (files : List (Name × Bytes)) (out : Bytes) : Prop where
  messageNum : (CecBoxInfoHeader.read out).messageNum = files.length
  boxInfoSize : (CecBoxInfoHeader.read out).boxInfoSize = boxHeaderSize + messageHeaderSize * files.length
  length : out.length = boxHeaderSize + messageHeaderSize * files.length
  headers : ListsParts messageHeaderSize 0 files (out.drop boxHeaderSize)

structure DescribesIndex (files : List (Name × Bytes)) (out : Bytes) : Prop where
  messageNum : (CecOBIndexHeader.read out).messageNum = files.length
  length : out.length = obIndexHeaderSize + 8 * files.length
  ids : ListsParts 8 0x20 files (out.drop obIndexHeaderSize)

/-- The sizes of the messages, which have 32 bits, are enough for what is copied. -/
def LongMessages (size : Nat) (outbox : List (Name × Bytes)) : Prop := ∀ m ∈ messages outbox, size ≤ m.length

/-- All messages are in the part of the directory that is read, and are counted from zero, into a file that is resized
or has the right size already. -/
structure InfoOk (outbox files : List (Name × Bytes)) (file : Bytes) : Prop where
  long : LongMessages (0 + messageHeaderSize) outbox
  all : readMessages (CecBoxInfoHeader.read (file.take boxHeaderSize)) outbox = messages outbox
  start : outboxStart file.length (CecBoxInfoHeader.read (file.take boxHeaderSize)) = 0
  resized : (CecBoxInfoHeader.read (file.take boxHeaderSize)).boxInfoSize = file.length → file.length = boxHeaderSize
  none : files = [] → file.length = boxHeaderSize

structure IndexOk (outbox files : List (Name × Bytes)) (file : Bytes) : Prop where
  long : LongMessages (0x20 + 8) outbox
  start : indexStart (file.length % 2 ^ 32) (CecOBIndexHeader.read (file.take obIndexHeaderSize)).messageNum = 0
  none : files = [] → file.length = obIndexHeaderSize

/-! ### The messages of the directory -/

def messageFiles (outbox : List (Name × Bytes)) : List (Name × Bytes) :=
  outbox.filter fun e => e.1 ≠ boxInfoName ∧ e.1 ≠ obIndexName

theorem IsOutbox.perm (h : IsOutbox outbox files) : (messageFiles outbox).Perm files := by
  obtain ⟨box, index, hperm⟩ := h.lists
  have hfilter : messageFiles ((boxInfoName, box) :: (obIndexName, index) :: files) = files := by
    rw [messageFiles, List.filter_cons_of_neg (by simp), List.filter_cons_of_neg (by simp)]
    exact List.filter_eq_self.mpr fun f hf => by simpa using h.named f hf
  exact hfilter ▸ hperm.filter _

theorem IsOutbox.length_messages (h : IsOutbox outbox files) : (messages outbox).length = files.length := by
  rw [messages, List.length_map]
  exact h.perm.length_eq

theorem IsOutbox.take_eight (h : IsOutbox outbox files) : outbox.take 8 = outbox := by
  obtain ⟨box, index, hperm⟩ := h.lists
  have hlength := hperm.length_eq
  have hfew := h.few
  simp only [List.length_cons] at hlength
  exact List.take_of_length_le (by omega)

theorem listsParts_messages (h : IsOutbox outbox files) {slot offset : Nat}
    (hlong : ∀ m ∈ messages outbox, offset + slot ≤ m.length) :
    ListsParts slot offset files ((messages outbox).flatMap (part slot offset)) := by
  refine ⟨messageFiles outbox, h.perm, ?_⟩
  rw [messages, List.flatMap_map]
  refine List.flatMap_congr fun f hf => ?_
  have hf := hlong (f.2.take (f.2.length % 2 ^ 32)) (List.mem_map_of_mem hf)
  rw [List.length_take] at hf
  rw [part, part, List.drop_take, List.take_take, Nat.min_eq_left (by omega)]

theorem slotsInside_zero (h : IsOutbox outbox files) {slot offset : Nat}
    (hlong : LongMessages (offset + slot) outbox) : SlotsInside slot offset 0 (messages outbox) := by
  have hlength := h.length_messages
  have hfew := h.few
  refine ⟨hlong, ?_⟩
  split_ifs
  · rw [Nat.zero_mul]
    exact Nat.zero_le _
  · omega

theorem readMessages_front (h : CecBoxInfoHeader) (outbox : List (Name × Bytes)) :
    readMessages h outbox <+: messages outbox := ((List.take_prefix _ _).filter _).map _

/-- Messages that are counted from zero stand in front of the array. -/
theorem listed_zero {headerSize slot offset : Nat} {texts : List Bytes} (hslot : slot < 2 ^ 16)
    (hinside : SlotsInside slot offset 0 texts) (hfew : texts.length ≤ 8)
    (hnone : texts = [] → file.length = headerSize) :
    listed headerSize slot offset (uninitialized garbage slot) 0 texts file = texts.flatMap (part slot offset) := by
  have hparts := length_parts hinside.1
  unfold listed
  split_ifs with hzero
  · have hnil : texts = [] := List.length_eq_zero_iff.mp (by omega)
    rw [hnil, List.drop_eq_nil_of_le (hnone hnil).le]
    rfl
  · have hsmall : texts.length * slot ≤ 8 * slot := Nat.mul_le_mul_right slot hfew
    rw [Nat.zero_add, Nat.mod_eq_of_lt (by omega), Nat.zero_mul, place_zero, ← hparts, List.take_left]

theorem head?_listed {headerSize slot offset num : Nat} {texts : List Bytes} (hslot : 0 < slot) (hsmall : slot < 2 ^ 16)
    (hnum : 0 < num) (hfew : num + texts.length ≤ 8) :
    (listed headerSize slot offset (uninitialized garbage slot) num texts file).head? = some (garbage 0) := by
  have hpos : 0 < (num + texts.length) * slot := Nat.mul_pos (by omega) hslot
  have hsize : (num + texts.length) * slot ≤ 8 * slot := Nat.mul_le_mul_right slot hfew
  have hfront : 0 < num * slot := Nat.mul_pos hnum hslot
  have hall : (uninitialized garbage slot).head? = some (garbage 0) := by
    obtain ⟨k, hk⟩ := Nat.exists_eq_succ_of_ne_zero (show 8 * slot ≠ 0 by omega)
    rw [uninitialized, hk, List.range_succ_eq_map]
    rfl
  rw [listed, if_neg (by omega), Nat.mod_eq_of_lt (by omega), List.head?_take, if_neg (by omega), place,
    List.append_assoc, List.head?_append, List.head?_take, if_neg (by omega), hall]
  rfl

/-! ### Box information -/

theorem boxInfoSize_checkOutboxInfo (size : Nat) (h : CecBoxInfoHeader) :
    (checkOutboxInfo size h).boxInfoSize = if h.boxInfoSize = size then size else boxHeaderSize := by
  unfold checkOutboxInfo checkBoxInfo
  split_ifs <;> simp_all

theorem fits_outboxHeader (size : Nat) {h : CecBoxInfoHeader} (hh : h.Fits) {num : Nat} (hnum : num < 2 ^ 32) :
    (outboxHeader size h num).Fits := by
  have hmod : ∀ n, n % 2 ^ 32 < 2 ^ 32 := fun n => Nat.mod_lt _ (by decide)
  have hbatch : (if h.maxBatchSize = 0 then h.maxMessageNum else h.maxBatchSize) < 2 ^ 32 := by
    split_ifs
    · exact hh.maxMessageNum
    · exact hh.maxBatchSize
  unfold outboxHeader checkOutboxInfo checkBoxInfo
  by_cases hsize : h.boxInfoSize ≠ size
  · simp only [if_pos hsize]
    exact ⟨show 0x6262 < 2 ^ 16 by decide, hh.padding, hmod _, hh.maxBoxSize, hh.boxSize, hh.maxMessageNum, hnum, hbatch,
      hh.maxMessageSize⟩
  · simp only [if_neg hsize]
    exact ⟨show 0x6262 < 2 ^ 16 by decide, hh.padding, hmod _, hh.maxBoxSize, hh.boxSize, hh.maxMessageNum, hnum, hbatch,
      hh.maxMessageSize⟩

theorem InfoOk.describes (h : IsOutbox outbox files) (hok : InfoOk outbox files file)
    (hfile : boxHeaderSize ≤ file.length) :
    ∃ out, ∀ garbage, updateOutboxInfo garbage outbox file = some out ∧ DescribesInfo files out := by
  have hlength := h.length_messages
  have hfew := h.few
  have hinside := slotsInside_zero h hok.long
  have hnone : messages outbox = [] → file.length = boxHeaderSize := by
    intro hnil
    rw [hnil, List.length_nil] at hlength
    exact hok.none (List.length_eq_zero_iff.mp hlength.symm)
  refine ⟨(outboxHeader file.length (CecBoxInfoHeader.read (file.take boxHeaderSize)) files.length).write ++
    (messages outbox).flatMap (part messageHeaderSize 0), fun garbage => ⟨?_, ?_, ?_, ?_, ?_⟩⟩
  · rw [updateOutboxInfo_eq garbage outbox rfl hfile, hok.start, hok.all, if_pos hinside, Nat.zero_add, hlength,
      listed_zero (by decide) hinside (by omega) hnone]
  · rw [CecBoxInfoHeader.read_write (fits_outboxHeader _ (CecBoxInfoHeader.read_fits _) (by omega))]
    rfl
  · have hbase := boxInfoSize_checkOutboxInfo file.length (CecBoxInfoHeader.read (file.take boxHeaderSize))
    have hresized := hok.resized
    rw [CecBoxInfoHeader.read_write (fits_outboxHeader _ (CecBoxInfoHeader.read_fits _) (by omega)), outboxHeader]
    dsimp only
    rw [hbase]
    unfold messageHeaderSize boxHeaderSize at *
    split_ifs with hsize
    · omega
    · omega
  · rw [List.length_append, CecBoxInfoHeader.length_write, length_parts hinside.1, hlength, Nat.mul_comm]
  · exact listsParts_messages h hinside.1

theorem infoOk_of_describes (h : IsOutbox outbox files) (hfile : boxHeaderSize ≤ file.length)
    (hout : ∀ garbage, updateOutboxInfo garbage outbox file = some out ∧ DescribesInfo files out) :
    InfoOk outbox files file := by
  obtain ⟨header, hread⟩ : ∃ header, CecBoxInfoHeader.read (file.take boxHeaderSize) = header := ⟨_, rfl⟩
  have hlength := h.length_messages
  have hfew := h.few
  have hh : header.Fits := hread ▸ CecBoxInfoHeader.read_fits _
  have hbase := boxInfoSize_checkOutboxInfo file.length header
  obtain ⟨num, hnum⟩ : ∃ num, outboxStart file.length header = num := ⟨_, rfl⟩
  obtain ⟨texts, htexts⟩ : ∃ texts, readMessages header outbox = texts := ⟨_, rfl⟩
  have hupdate := fun garbage => (updateOutboxInfo_eq garbage outbox hread hfile).symm.trans (hout garbage).1
  simp only [hnum, htexts] at hupdate
  have hinside : SlotsInside messageHeaderSize 0 num texts := by
    by_contra hnot
    have hnone := hupdate fun _ => 0
    rw [if_neg hnot] at hnone
    cases hnone
  simp only [if_pos hinside, Option.some.injEq] at hupdate
  have hnumlt : num + texts.length < 2 ^ 32 := by
    obtain ⟨-, hcount⟩ := hinside
    split_ifs at hcount with hnil
    · rw [hnil, ← hnum, outboxStart]
      split_ifs
      · exact hh.messageNum
      · decide
    · omega
  obtain ⟨hmessageNum, hboxInfoSize, houtlength, -⟩ := (hout fun _ => 0).2
  rw [← hupdate fun _ => 0] at hmessageNum hboxInfoSize houtlength
  rw [CecBoxInfoHeader.read_write (fits_outboxHeader _ hh hnumlt)] at hmessageNum hboxInfoSize
  have hcount : num + texts.length = files.length := hmessageNum
  -- two arrays with other contents give the same file
  have hzero : num = 0 := by
    by_contra hne
    have hfirst := congrArg (fun bytes => (bytes.drop boxHeaderSize).head?)
      ((hupdate fun _ => 0).trans (hupdate fun _ => 1).symm)
    rw [List.drop_left' (CecBoxInfoHeader.length_write _), List.drop_left' (CecBoxInfoHeader.length_write _),
      head?_listed (by decide) (by decide) (by omega) (by omega),
      head?_listed (by decide) (by decide) (by omega) (by omega)] at hfirst
    exact absurd hfirst (by decide)
  subst hzero
  have hall : texts = messages outbox := by
    rw [← htexts]
    refine (readMessages_front header outbox).eq_of_length ?_
    rw [htexts]
    omega
  subst hall
  refine ⟨hinside.1, ?_, ?_, ?_, ?_⟩
  · rw [hread, htexts]
  · rw [hread, hnum]
  · intro hsize
    rw [hread] at hsize
    rw [outboxHeader] at hboxInfoSize
    dsimp only at hboxInfoSize
    rw [hbase, if_pos hsize, hcount] at hboxInfoSize
    have hlt := hh.boxInfoSize
    unfold boxHeaderSize messageHeaderSize at *
    omega
  · intro hnil
    rw [hnil, List.length_nil] at hcount houtlength
    rw [List.length_append, CecBoxInfoHeader.length_write, listed, if_pos hcount, List.length_drop] at houtlength
    omega

/-! ### Indices -/

theorem CecOBIndexHeader.read_write {h : CecOBIndexHeader} (hmagic : h.magic < 2 ^ 16) (hpadding : h.padding < 2 ^ 16)
    (hnum : h.messageNum < 2 ^ 32) (rest : Bytes) : CecOBIndexHeader.read (h.write ++ rest) = h := by
  have h1 : readLE (h.write ++ rest) 0 2 = h.magic % 2 ^ 16 := fromLE_writeLE 2 h.magic
  have h2 : readLE (h.write ++ rest) 2 2 = h.padding % 2 ^ 16 := fromLE_writeLE 2 h.padding
  have h3 : readLE (h.write ++ rest) 4 4 = h.messageNum % 2 ^ 32 := fromLE_writeLE 4 h.messageNum
  rw [CecOBIndexHeader.read, h1, h2, h3, Nat.mod_eq_of_lt hmagic, Nat.mod_eq_of_lt hpadding, Nat.mod_eq_of_lt hnum]

def indexOf (padding : Nat) (outbox files : List (Name × Bytes)) : Bytes :=
  CecOBIndexHeader.write ⟨0x6767, padding, files.length⟩ ++ (messages outbox).flatMap (part 8 0x20)

theorem IndexOk.update (h : IsOutbox outbox files) (hok : IndexOk outbox files file)
    (hfile : obIndexHeaderSize ≤ file.length) (garbage : Nat → UInt8) :
    updateOutboxIndex garbage outbox file = some (indexOf (readLE (file.take obIndexHeaderSize) 2 2) outbox files) := by
  have hlength := h.length_messages
  have hfew := h.few
  have hinside := slotsInside_zero h hok.long
  have hnone : messages outbox = [] → file.length = obIndexHeaderSize := by
    intro hnil
    rw [hnil, List.length_nil] at hlength
    exact hok.none (List.length_eq_zero_iff.mp hlength.symm)
  rw [updateOutboxIndex_eq garbage outbox rfl hfile, hok.start, h.take_eight, if_pos hinside, Nat.zero_add, hlength,
    listed_zero (by decide) hinside (by omega) hnone]
  rfl

theorem describes_indexOf (h : IsOutbox outbox files) (hlong : LongMessages (0x20 + 8) outbox) {padding : Nat}
    (hpadding : padding < 2 ^ 16) : DescribesIndex files (indexOf padding outbox files) := by
  have hfew := h.few
  have hinside := slotsInside_zero h hlong
  refine ⟨?_, ?_, ?_⟩
  · rw [indexOf, CecOBIndexHeader.read_write (show 0x6767 < 2 ^ 16 by decide) hpadding (by dsimp only; omega)]
  · rw [indexOf, List.length_append, CecOBIndexHeader.length_write, length_parts hinside.1, h.length_messages,
      Nat.mul_comm]
  · exact listsParts_messages h hinside.1

/-- An index that an update has written is counted from zero again. -/
theorem indexOk_indexOf (h : IsOutbox outbox files) (hlong : LongMessages (0x20 + 8) outbox) {padding : Nat}
    (hpadding : padding < 2 ^ 16) : IndexOk outbox files (indexOf padding outbox files) := by
  have hfew := h.few
  obtain ⟨-, hlength, -⟩ := describes_indexOf h hlong hpadding
  refine ⟨hlong, ?_, ?_⟩
  · rw [hlength, indexOf, List.take_left' (CecOBIndexHeader.length_write _), ← List.append_nil (CecOBIndexHeader.write _),
      CecOBIndexHeader.read_write (show 0x6767 < 2 ^ 16 by decide) hpadding (by dsimp only; omega)]
    have hrem : indexRemainder ((obIndexHeaderSize + 8 * files.length) % 2 ^ 32) = 0xFFFFFFFF := by
      have hsize : (obIndexHeaderSize + 8 * files.length) % 2 ^ 32 % 8 = 0 := by
        unfold obIndexHeaderSize
        omega
      rw [indexRemainder, hsize]
      rfl
    rw [indexStart, hrem]
    rcases Nat.eq_zero_or_pos files.length with hzero | hpos
    · rw [hzero, if_pos rfl]
      rfl
    · rw [if_neg (by dsimp only; omega), if_pos (by dsimp only; omega)]
  · intro hnil
    rw [hlength, hnil]
    rfl

theorem indexOk_of_describes (h : IsOutbox outbox files) (hfile : obIndexHeaderSize ≤ file.length)
    (hout : updateOutboxIndex garbage outbox file = some out) (hdescribes : DescribesIndex files out) :
    IndexOk outbox files file := by
  have hlength := h.length_messages
  have hfew := h.few
  obtain ⟨num, hnum⟩ : ∃ num, indexStart (file.length % 2 ^ 32)
    (CecOBIndexHeader.read (file.take obIndexHeaderSize)).messageNum = num := ⟨_, rfl⟩
  have hnumlt : num < 2 ^ 32 := by
    have hread : (CecOBIndexHeader.read (file.take obIndexHeaderSize)).messageNum < 2 ^ 32 := readLE_lt _ 4 4
    rw [← hnum, indexStart, indexRemainder]
    split_ifs <;> omega
  rw [updateOutboxIndex_eq garbage outbox rfl hfile, h.take_eight, hnum] at hout
  split_ifs at hout with hinside
  obtain ⟨hmessageNum, houtlength, -⟩ := hdescribes
  have hsum : num + (messages outbox).length < 2 ^ 32 := by
    obtain ⟨-, hcount⟩ := hinside
    split_ifs at hcount with hnil
    · rwa [hnil]
    · omega
  rw [← Option.some.inj hout] at hmessageNum houtlength
  rw [CecOBIndexHeader.read_write (show 0x6767 < 2 ^ 16 by decide) (readLE_lt _ 2 2) hsum] at hmessageNum
  have hzero : num = 0 := by
    have hcount : num + (messages outbox).length = files.length := hmessageNum
    omega
  refine ⟨hinside.1, hnum.trans hzero, ?_⟩
  intro hnil
  rw [hnil, List.length_nil] at hlength houtlength
  rw [List.length_append, CecOBIndexHeader.length_write, listed, if_pos (by omega), List.length_drop] at houtlength
  omega

/-! ### Both updates -/

/-- An update makes a file, whatever the arrays hold, that describes the outbox. -/
def Updates (update : (Nat → UInt8) → Option Bytes) (describes : Bytes → Prop) : Prop :=
  ∃ out, ∀ garbage, update garbage = some out ∧ describes out

/-- The files describe the outbox exactly when the messages are counted from zero.  A second update leaves an index as
it is, and never box information that lists messages. -/
theorem updates_describe_iff (h : IsOutbox outbox files) (file : Bytes) :
    (boxHeaderSize ≤ file.length →
      (Updates (updateOutboxInfo · outbox file) (DescribesInfo files) ↔ InfoOk outbox files file)) ∧
    (obIndexHeaderSize ≤ file.length →
      (Updates (updateOutboxIndex · outbox file) (DescribesIndex files) ↔ IndexOk outbox files file)) ∧
    (∀ out, DescribesInfo files out → files ≠ [] → ¬ Updates (updateOutboxInfo · outbox out) (DescribesInfo files)) ∧
    (obIndexHeaderSize ≤ file.length → IndexOk outbox files file →
      ∃ out, ∀ garbage, updateOutboxIndex garbage outbox file = some out ∧
        updateOutboxIndex garbage outbox out = some out) := by
  have hpadding : readLE (file.take obIndexHeaderSize) 2 2 < 2 ^ 16 := readLE_lt _ 2 2
  refine ⟨fun hfile => ⟨?_, fun hok => hok.describes h hfile⟩, fun hfile => ⟨?_, ?_⟩, ?_, ?_⟩
  · rintro ⟨out, hout⟩
    exact infoOk_of_describes h hfile hout
  · rintro ⟨out, hout⟩
    exact indexOk_of_describes h hfile (hout fun _ => 0).1 (hout fun _ => 0).2
  · intro hok
    exact ⟨_, fun garbage => ⟨hok.update h hfile garbage, describes_indexOf h hok.long hpadding⟩⟩
  · rintro out ⟨hmessageNum, hboxInfoSize, hlength, -⟩ hne ⟨out', hout'⟩
    have hpos := List.length_pos_iff.mpr hne
    have hok := infoOk_of_describes h (by omega) hout'
    have hread : (CecBoxInfoHeader.read (out.take boxHeaderSize)).boxInfoSize = out.length := by
      refine Eq.trans ?_ (hboxInfoSize.trans hlength.symm)
      show readLE (out.take boxHeaderSize) 4 4 = readLE out 4 4
      rw [readLE, readLE, List.drop_take, List.take_take]
      rfl
    have := hok.resized hread
    unfold messageHeaderSize at hlength
    omega
  · intro hfile hok
    have hsecond := indexOk_indexOf h hok.long hpadding
    refine ⟨_, fun garbage => ⟨hok.update h hfile garbage, (hsecond.update h ?_ garbage).trans ?_⟩⟩
    · rw [(describes_indexOf h hok.long hpadding).length]
      omega
    · obtain ⟨padding, hread⟩ : ∃ padding, readLE (file.take obIndexHeaderSize) 2 2 = padding := ⟨_, rfl⟩
      rw [hread] at hpadding ⊢
      have hkept : readLE ((indexOf padding outbox files).take obIndexHeaderSize) 2 2 = padding := by
        rw [indexOf, List.take_left' (CecOBIndexHeader.length_write _)]
        exact (fromLE_writeLE 2 _).trans (Nat.mod_eq_of_lt hpadding)
      rw [hkept]

/-- One message, and a file that has been cleared. -/
theorem updates_describe_one_message :
    Updates (updateOutboxInfo · [(boxInfoName, []), (obIndexName, []), ("_m".toList, List.replicate 0x70 1)]
        (CecBoxInfoHeader.write ⟨0x6262, 0, 0x20, 0, 0, 6, 0, 0, 0⟩))
      (DescribesInfo [("_m".toList, List.replicate 0x70 1)]) := by
  refine ((updates_describe_iff ⟨⟨[], [], .refl _⟩, by decide, by decide, by decide⟩ _).1 (by decide)).mpr
    ⟨?_, by decide +kernel, by decide +kernel, fun _ => by decide, by decide⟩
  unfold LongMessages
  decide +kernel

/-- A file that an update has written is not updated to describe the same outbox. -/
theorem not_updates_written :
    IsOutbox [(boxInfoName, []), (obIndexName, []), ("_m".toList, List.replicate 0x70 1)]
        [("_m".toList, List.replicate 0x70 1)] ∧
      updateOutboxInfo (fun _ => 0) [(boxInfoName, []), (obIndexName, []), ("_m".toList, List.replicate 0x70 1)]
          (CecBoxInfoHeader.write ⟨0x6262, 0, 0x20, 0, 0, 6, 0, 0, 0⟩) =
        some (CecBoxInfoHeader.write ⟨0x6262, 0, 0x90, 0, 0, 6, 1, 6, 0⟩ ++ List.replicate 0x70 1) ∧
      ¬ Updates (updateOutboxInfo · [(boxInfoName, []), (obIndexName, []), ("_m".toList, List.replicate 0x70 1)]
          (CecBoxInfoHeader.write ⟨0x6262, 0, 0x90, 0, 0, 6, 1, 6, 0⟩ ++ List.replicate 0x70 1))
        (DescribesInfo [("_m".toList, List.replicate 0x70 1)]) := by
  have houtbox : IsOutbox [(boxInfoName, []), (obIndexName, []), ("_m".toList, List.replicate 0x70 1)]
      [("_m".toList, List.replicate 0x70 1)] := ⟨⟨[], [], .refl _⟩, by decide, by decide, by decide⟩
  refine ⟨houtbox, by decide +kernel, ?_⟩
  rintro ⟨out, hout⟩
  have hok := infoOk_of_describes houtbox (by decide +kernel) hout
  exact absurd (hok.resized (by decide +kernel)) (by decide +kernel)

end SweepDSEmu.StreetPass
