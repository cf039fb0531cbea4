import SweepDSEmu.StreetPass.ZipPass
import Mathlib.Data.List.Nodup
import Mathlib.Tactic.Ring

/-!
# Consistent inboxes

The headers in `BoxInfo_____` are those of the messages of the inbox.  Adding a message keeps an inbox consistent, as
long as the 32 bits of the fields are enough.
-/

namespace SweepDSEmu.StreetPass

@[simp]
theorem length_writeLE (width value : Nat) : (writeLE width value).length = width := by
  induction width generalizing value with
  | zero => rfl
  | succ width ih => simp [writeLE, ih]

theorem fromLE_writeLE (width value : Nat) : fromLE (writeLE width value) = value % 256 ^ width := by
  induction width generalizing value with
  | zero => simp [writeLE, fromLE, Nat.mod_one]
  | succ width ih =>
    have hcons : fromLE (writeLE (width + 1) value) =
        (UInt8.ofNat value).toNat + 256 * fromLE (writeLE width (value / 256)) := rfl
    have hpow : 256 ^ (width + 1) = 256 * 256 ^ width := by rw [pow_succ, Nat.mul_comm]
    rw [hcons, ih, UInt8.toNat_ofNat', hpow, Nat.mod_mul]

theorem fromLE_lt (bytes : Bytes) : fromLE bytes < 256 ^ bytes.length := by
  induction bytes with
  | nil => exact Nat.one_pos
  | cons b bytes ih =>
    have hcons : fromLE (b :: bytes) = b.toNat + 256 * fromLE bytes := rfl
    have hb : b.toNat < 256 := b.toNat_lt
    rw [hcons, List.length_cons, pow_succ]
    omega

theorem readLE_lt (bytes : Bytes) (offset width : Nat) : readLE bytes offset width < 256 ^ width := by
  have hlen : ((bytes.drop offset).take width).length ≤ width := List.length_take_le ..
  exact Nat.lt_of_lt_of_le (fromLE_lt _) (Nat.pow_le_pow_right (by decide) hlen)

structure CecBoxInfoHeader.Fits (h : CecBoxInfoHeader) : Prop where
  magic : h.magic < 2 ^ 16
  padding : h.padding < 2 ^ 16
  boxInfoSize : h.boxInfoSize < 2 ^ 32
  maxBoxSize : h.maxBoxSize < 2 ^ 32
  boxSize : h.boxSize < 2 ^ 32
  maxMessageNum : h.maxMessageNum < 2 ^ 32
  messageNum : h.messageNum < 2 ^ 32
  maxBatchSize : h.maxBatchSize < 2 ^ 32
  maxMessageSize : h.maxMessageSize < 2 ^ 32

theorem CecBoxInfoHeader.read_fits (file : Bytes) : (CecBoxInfoHeader.read file).Fits where
  magic := readLE_lt file 0 2
  padding := readLE_lt file 2 2
  boxInfoSize := readLE_lt file 4 4
  maxBoxSize := readLE_lt file 8 4
  boxSize := readLE_lt file 12 4
  maxMessageNum := readLE_lt file 16 4
  messageNum := readLE_lt file 20 4
  maxBatchSize := readLE_lt file 24 4
  maxMessageSize := readLE_lt file 28 4

theorem CecBoxInfoHeader.Fits.add {h : CecBoxInfoHeader} (hfits : h.Fits) (size : Nat) : (h.add size).Fits where
  magic := hfits.magic
  padding := hfits.padding
  boxInfoSize := Nat.mod_lt _ (by decide)
  maxBoxSize := hfits.maxBoxSize
  boxSize := Nat.mod_lt _ (by decide)
  maxMessageNum := hfits.maxMessageNum
  messageNum := Nat.mod_lt _ (by decide)
  maxBatchSize := hfits.maxBatchSize
  maxMessageSize := hfits.maxMessageSize

@[simp]
theorem CecBoxInfoHeader.length_write (h : CecBoxInfoHeader) : h.write.length = boxHeaderSize := by
  simp [CecBoxInfoHeader.write, boxHeaderSize]

theorem CecBoxInfoHeader.read_write {h : CecBoxInfoHeader} (hfits : h.Fits) (rest : Bytes) :
    CecBoxInfoHeader.read (h.write ++ rest) = h := by
  have hmagic : readLE (h.write ++ rest) 0 2 = h.magic % 2 ^ 16 := fromLE_writeLE 2 h.magic
  have hpadding : readLE (h.write ++ rest) 2 2 = h.padding % 2 ^ 16 := fromLE_writeLE 2 h.padding
  have hboxInfoSize : readLE (h.write ++ rest) 4 4 = h.boxInfoSize % 2 ^ 32 := fromLE_writeLE 4 h.boxInfoSize
  have hmaxBoxSize : readLE (h.write ++ rest) 8 4 = h.maxBoxSize % 2 ^ 32 := fromLE_writeLE 4 h.maxBoxSize
  have hboxSize : readLE (h.write ++ rest) 12 4 = h.boxSize % 2 ^ 32 := fromLE_writeLE 4 h.boxSize
  have hmaxMessageNum : readLE (h.write ++ rest) 16 4 = h.maxMessageNum % 2 ^ 32 := fromLE_writeLE 4 h.maxMessageNum
  have hmessageNum : readLE (h.write ++ rest) 20 4 = h.messageNum % 2 ^ 32 := fromLE_writeLE 4 h.messageNum
  have hmaxBatchSize : readLE (h.write ++ rest) 24 4 = h.maxBatchSize % 2 ^ 32 := fromLE_writeLE 4 h.maxBatchSize
  have hmaxMessageSize : readLE (h.write ++ rest) 28 4 = h.maxMessageSize % 2 ^ 32 :=
    fromLE_writeLE 4 h.maxMessageSize
  unfold CecBoxInfoHeader.read
  rw [hmagic, hpadding, hboxInfoSize, hmaxBoxSize, hboxSize, hmaxMessageNum, hmessageNum, hmaxBatchSize,
    hmaxMessageSize, Nat.mod_eq_of_lt hfits.magic, Nat.mod_eq_of_lt hfits.padding, Nat.mod_eq_of_lt hfits.boxInfoSize,
    Nat.mod_eq_of_lt hfits.maxBoxSize, Nat.mod_eq_of_lt hfits.boxSize, Nat.mod_eq_of_lt hfits.maxMessageNum,
    Nat.mod_eq_of_lt hfits.messageNum, Nat.mod_eq_of_lt hfits.maxBatchSize, Nat.mod_eq_of_lt hfits.maxMessageSize]

/-- `BoxInfo_____` lists the messages: files of the inbox with distinct names, which are named by their identifiers. -/
structure Lists (files : Files) (boxFile : Bytes) (messages : List (Name × Bytes)) : Prop where
  header : boxHeaderSize ≤ boxFile.length
  headers : boxFile.drop boxHeaderSize = (messages.map fun m => m.2.take messageHeaderSize).flatten
  boxInfoSize : (CecBoxInfoHeader.read boxFile).boxInfoSize = boxFile.length
  messageNum : (CecBoxInfoHeader.read boxFile).messageNum = messages.length
  maxMessageNum : (CecBoxInfoHeader.read boxFile).messageNum ≤ (CecBoxInfoHeader.read boxFile).maxMessageNum
  distinct : (messages.map Prod.fst).Nodup
  stored : ∀ m ∈ messages, files m.1 = some m.2 ∧ m.1 = messageName m.2 ∧ messageHeaderSize ≤ m.2.length

/-- An inbox whose headers are those of its messages. -/
def Consistent (files : Files) : Prop :=
  ∃ boxFile messages, files boxInfoName = some boxFile ∧ Lists files boxFile messages

theorem messageName_ne_boxInfoName (message : Bytes) : messageName message ≠ boxInfoName := by
  intro h
  have hhead : some '_' = some 'B' := congrArg List.head? h
  exact absurd hhead (by decide)

section AddMessage

variable {files : Files} {boxFile : Bytes} {name : Name} {contents : Bytes}

theorem read_addMessage (files : Files) (boxFile : Bytes) (name : Name) (contents : Bytes) :
    ∃ boxFile', addMessage files boxFile name contents boxInfoName = some boxFile' ∧
      boxFile' = ((CecBoxInfoHeader.read boxFile).add contents.length).write ++
        (boxFile.drop boxHeaderSize ++ contents.take messageHeaderSize) ∧
      CecBoxInfoHeader.read boxFile' = (CecBoxInfoHeader.read boxFile).add contents.length := by
  refine ⟨_, Function.update_self .., ?_, ?_⟩
  · rw [List.append_assoc]
  · exact CecBoxInfoHeader.read_write ((CecBoxInfoHeader.read_fits boxFile).add contents.length) _

theorem addMessage_of_ne {other : Name} (hbox : other ≠ boxInfoName) (hname : other ≠ name) :
    addMessage files boxFile name contents other = files other := by
  unfold addMessage
  rw [Function.update_of_ne hbox, Function.update_of_ne hname]

theorem addMessage_self (hbox : name ≠ boxInfoName) :
    addMessage files boxFile name contents name = some contents := by
  unfold addMessage
  rw [Function.update_of_ne hbox, Function.update_self]

theorem Lists.addMessage {messages : List (Name × Bytes)} (h : Lists files boxFile messages)
    (hfresh : files name = none) (hname : name = messageName contents) (hlen : messageHeaderSize ≤ contents.length)
    (hroom : (CecBoxInfoHeader.read boxFile).messageNum < (CecBoxInfoHeader.read boxFile).maxMessageNum)
    (hsize : (CecBoxInfoHeader.read boxFile).boxInfoSize + messageHeaderSize < 2 ^ 32) :
    ∃ boxFile', StreetPass.addMessage files boxFile name contents boxInfoName = some boxFile' ∧
      Lists (StreetPass.addMessage files boxFile name contents) boxFile' (messages ++ [(name, contents)]) := by
  obtain ⟨boxFile', hfile, heq, hread⟩ := read_addMessage files boxFile name contents
  refine ⟨boxFile', hfile, ?_⟩
  have hfits := CecBoxInfoHeader.read_fits boxFile
  have hdrop : boxFile'.drop boxHeaderSize = boxFile.drop boxHeaderSize ++ contents.take messageHeaderSize := by
    rw [heq, List.drop_append_of_le_length (by simp), List.drop_of_length_le (by simp), List.nil_append]
  have hlength : boxFile'.length = boxFile.length + messageHeaderSize := by
    have htake : (contents.take messageHeaderSize).length = messageHeaderSize := by
      rw [List.length_take]
      exact Nat.min_eq_left hlen
    have hheader := h.header
    rw [heq, List.length_append, List.length_append, CecBoxInfoHeader.length_write, List.length_drop, htake]
    omega
  have hnum : (CecBoxInfoHeader.read boxFile').messageNum = (CecBoxInfoHeader.read boxFile).messageNum + 1 := by
    rw [hread]
    refine Nat.mod_eq_of_lt (Nat.lt_of_le_of_lt ?_ hfits.maxMessageNum)
    exact hroom
  have hbox : name ≠ boxInfoName := by
    rw [hname]
    exact messageName_ne_boxInfoName contents
  -- the messages that were listed before have other names
  have hne : ∀ m ∈ messages, m.1 ≠ name ∧ m.1 ≠ boxInfoName := by
    intro m hm
    obtain ⟨hstored, hm1, -⟩ := h.stored m hm
    constructor
    · rintro rfl
      rw [hfresh] at hstored
      cases hstored
    · rw [hm1]
      exact messageName_ne_boxInfoName m.2
  constructor
  case header =>
    have hheader := h.header
    omega
  case headers => rw [hdrop, h.headers, List.map_append, List.flatten_append, List.map_singleton, List.flatten_singleton]
  case boxInfoSize =>
    rw [hread, hlength, ← h.boxInfoSize]
    exact Nat.mod_eq_of_lt hsize
  case messageNum => rw [hnum, h.messageNum, List.length_append, List.length_singleton]
  case maxMessageNum =>
    rw [hnum, hread]
    exact hroom
  case distinct =>
    rw [List.map_append, List.map_singleton]
    refine List.nodup_append.mpr ⟨h.distinct, List.nodup_singleton name, ?_⟩
    intro n hn n' hn'
    obtain ⟨m, hm, rfl⟩ := List.mem_map.mp hn
    rw [List.mem_singleton.mp hn']
    exact (hne m hm).1
  case stored =>
    intro m hm
    rcases List.mem_append.mp hm with hm | hm
    · rw [addMessage_of_ne (hne m hm).2 (hne m hm).1]
      exact h.stored m hm
    · rw [List.mem_singleton.mp hm]
      exact ⟨addMessage_self hbox, hname, hlen⟩

end AddMessage

end SweepDSEmu.StreetPass
