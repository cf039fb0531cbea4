import SweepDSEmu.StreetPass.InboxConsistency

/-!
# Checks of StreetPass files

`CheckAndUpdateFile` of the CECD service: it corrects the header of a file that a program writes, and lists boxes or
messages behind it.  A copy that would leave a buffer or an array is `none`.  The arrays are not initialized.
-/

namespace SweepDSEmu.StreetPass

inductive CecDataPathType where
  | mboxList
  | mboxInfo
  | inboxInfo
  | outboxInfo
  | outboxIndex
  | other (type : UInt32)

/-- The names in `/CEC`, and the files of `OutBox__` of the title, as their directories list them. -/
structure CecDirectories where
  root : List Bytes
  outbox : List (Name × Bytes)

/-! ### Copies -/

/-- `std::memcpy` from a buffer. -/
def copyOut (buffer : Bytes) (offset size : Nat) : Option Bytes :=
  if offset + size ≤ buffer.length then some ((buffer.drop offset).take size) else none

def place (buffer : Bytes) (offset : Nat) (bytes : Bytes) : Bytes :=
  buffer.take offset ++ bytes ++ buffer.drop (offset + bytes.length)

/-- `std::memcpy` to a buffer. -/
def copyIn (buffer : Bytes) (offset : Nat) (bytes : Bytes) : Option Bytes :=
  if offset + bytes.length ≤ buffer.length then some (place buffer offset bytes) else none

def resize (buffer : Bytes) (size : Nat) : Bytes := buffer.take size ++ List.replicate (size - buffer.length) 0

theorem length_place {buffer bytes : Bytes} {offset : Nat} (h : offset + bytes.length ≤ buffer.length) :
    (place buffer offset bytes).length = buffer.length := by
  simp only [place, List.length_append, List.length_take, List.length_drop]
  omega

theorem place_nil (buffer : Bytes) (offset : Nat) : place buffer offset [] = buffer := by simp [place]

theorem place_place {buffer bytes more : Bytes} {offset : Nat} (h : offset + bytes.length ≤ buffer.length) :
    place (place buffer offset bytes) (offset + bytes.length) more = place buffer offset (bytes ++ more) := by
  have hfront : (buffer.take offset ++ bytes).length = offset + bytes.length := by
    rw [List.length_append, List.length_take]
    omega
  unfold place
  rw [List.take_left' hfront, ← List.drop_drop, List.drop_left' hfront, List.drop_drop, List.length_append,
    Nat.add_assoc]
  simp only [List.append_assoc]

theorem place_zero {buffer bytes : Bytes} : place buffer 0 bytes = bytes ++ buffer.drop bytes.length := by
  simp [place]

theorem length_resize (buffer : Bytes) (size : Nat) : (resize buffer size).length = size := by
  simp only [resize, List.length_append, List.length_take, List.length_replicate]
  omega

/-! ### The list of the boxes -/

structure CecMBoxListHeader where
  magic : Nat
  padding : Nat
  version : Nat
  padding2 : Nat
  numBoxes : Nat
  padding3 : Nat
  boxNames : Bytes

def mboxListSize : Nat := 0x18C

/-- The 24 names, of 16 bytes. -/
def boxNamesSize : Nat := 0x180

def CecMBoxListHeader.read (file : Bytes) : CecMBoxListHeader where
  magic := readLE file 0 2
  padding := readLE file 2 2
  version := readLE file 4 2
  padding2 := readLE file 6 2
  numBoxes := readLE file 8 2
  padding3 := readLE file 10 2
  boxNames := file.drop 12

def CecMBoxListHeader.write (h : CecMBoxListHeader) : Bytes :=
  writeLE 2 h.magic ++ writeLE 2 h.padding ++ writeLE 2 h.version ++ writeLE 2 h.padding2 ++ writeLE 2 h.numBoxes ++
    writeLE 2 h.padding3 ++ h.boxNames

def checkMboxList (h : CecMBoxListHeader) : CecMBoxListHeader :=
  { if h.magic ≠ 0x6868 then ⟨0x6868, 0, 0, 0, 0, 0, List.replicate boxNamesSize 0⟩ else h with version := 1 }

def addBox (h : CecMBoxListHeader) (name : Bytes) : Option CecMBoxListHeader := do
  let boxNames ← copyIn h.boxNames (0x10 * h.numBoxes) name
  return { h with boxNames := boxNames, numBoxes := h.numBoxes + 1 }

/-- `{:08x}` -/
def hexName (programId : UInt32) : Bytes :=
  (List.range 8).reverse.map fun i => UInt8.ofNat (Nat.digitChar (programId.toNat / 16 ^ i % 16)).toNat

def activateTitle (programId : UInt32) (h : CecMBoxListHeader) : Option CecMBoxListHeader := do
  let alreadyActivated ← (List.range h.numBoxes).foldlM
    (fun found i => do return found || (← copyOut h.boxNames (0x10 * i) 8) = hexName programId) false
  if alreadyActivated = false ∧ h.numBoxes < 24 then addBox h (hexName programId ++ List.replicate 8 0)
  else return h

def mboxListName : Bytes := "MBoxList____".toList.map fun c => UInt8.ofNat c.toNat

/-- The names are strings with a null character behind them. -/
def addEntry (h : CecMBoxListHeader) (name : Bytes) : Option CecMBoxListHeader :=
  if name = mboxListName then some h
  else do addBox h (← copyOut (name ++ [0]) 0 8)

def updateMboxList (programId : UInt32) (root : List Bytes) (file : Bytes) : Option Bytes := do
  let h := checkMboxList (CecMBoxListHeader.read (← copyOut file 0 mboxListSize))
  let h ←
    if 24 < h.numBoxes then some h
    else if programId ≠ 0 then activateTitle programId h
    else (root.take 25).foldlM addEntry h
  copyIn file 0 h.write

/-! ### Headers of boxes -/

def updateMboxInfo (file : Bytes) : Option Bytes := do
  let header ← copyOut file 0 0x60
  copyIn file 0 (if readLE header 0 2 ≠ 0x6363 then place header 0 (writeLE 2 0x6363) else header)

/-- The magic number and the batch size, which every box header gets. -/
def checkBoxInfo (h : CecBoxInfoHeader) : CecBoxInfoHeader :=
  { h with magic := 0x6262, maxBatchSize := if h.maxBatchSize = 0 then h.maxMessageNum else h.maxBatchSize }

def updateInboxInfo (file : Bytes) : Option Bytes := do
  let h := CecBoxInfoHeader.read (← copyOut file 0 boxHeaderSize)
  let h := if h.boxInfoSize ≠ file.length % 2 ^ 32 then { h with boxInfoSize := boxHeaderSize } else h
  copyIn file 0 (checkBoxInfo h).write

/-! ### Lists of the messages -/

def obIndexName : Name := "OBIndex_____".toList

/-- What is read of the message files: their sizes have 32 bits. -/
def messages (entries : List (Name × Bytes)) : List Bytes :=
  (entries.filter fun e => e.1 ≠ boxInfoName ∧ e.1 ≠ obIndexName).map fun e => e.2.take (e.2.length % 2 ^ 32)

/-- Copies a part of each message to the array, behind `num` others. -/
def collect (slot offset : Nat) (slots : Bytes) (num : Nat) : List Bytes → Option (Bytes × Nat)
  | [] => some (slots, num)
  | message :: rest => do
    let part ← copyOut message offset slot
    collect slot offset (← copyIn slots (num * slot) part) ((num + 1) % 2 ^ 32) rest

/-- Resizes the file and copies the array behind its header. -/
def putSlots (headerSize slot : Nat) (slots : Bytes) (num : Nat) (file : Bytes) : Option Bytes :=
  if 0 < num then do
    let size := num * slot % 2 ^ 32
    copyIn (resize file (headerSize + size)) headerSize (← copyOut slots 0 size)
  else some file

/-- An array with eight elements. -/
def uninitialized (garbage : Nat → UInt8) (slot : Nat) : Bytes := (List.range (8 * slot)).map garbage

def checkOutboxInfo (size : Nat) (h : CecBoxInfoHeader) : CecBoxInfoHeader :=
  checkBoxInfo (if h.boxInfoSize ≠ size then { h with boxInfoSize := boxHeaderSize, messageNum := 0 } else h)

def updateOutboxInfo (garbage : Nat → UInt8) (outbox : List (Name × Bytes)) (file : Bytes) : Option Bytes := do
  let h := checkOutboxInfo file.length (CecBoxInfoHeader.read (← copyOut file 0 boxHeaderSize))
  let entries := outbox.take ((h.maxMessageNum + 2) % 2 ^ 32)
  let (headers, num) ← collect messageHeaderSize 0 (uninitialized garbage messageHeaderSize) h.messageNum
    (messages entries)
  let file ← putSlots boxHeaderSize messageHeaderSize headers num file
  -- without messages, the size stays as it is
  copyIn file 0 { h with
    messageNum := num
    boxInfoSize := (h.boxInfoSize + num * messageHeaderSize % 2 ^ 32) % 2 ^ 32 }.write

structure CecOBIndexHeader where
  magic : Nat
  padding : Nat
  messageNum : Nat

def obIndexHeaderSize : Nat := 8

def CecOBIndexHeader.read (file : Bytes) : CecOBIndexHeader := ⟨readLE file 0 2, readLE file 2 2, readLE file 4 4⟩

def CecOBIndexHeader.write (h : CecOBIndexHeader) : Bytes :=
  writeLE 2 h.magic ++ writeLE 2 h.padding ++ writeLE 4 h.messageNum

/-- `(file_size % 8) - 1` -/
def indexRemainder (fileSize : Nat) : Nat := (fileSize % 8 + 2 ^ 32 - 1) % 2 ^ 32

/-- The number from which the messages are counted. -/
def indexStart (fileSize num : Nat) : Nat :=
  if num = 0 then if obIndexHeaderSize < fileSize then indexRemainder fileSize else 0
  else if num ≠ indexRemainder fileSize then 0
  else num

def updateOutboxIndex (garbage : Nat → UInt8) (outbox : List (Name × Bytes)) (file : Bytes) : Option Bytes := do
  let h := CecOBIndexHeader.read (← copyOut file 0 obIndexHeaderSize)
  let (ids, num) ← collect 8 0x20 (uninitialized garbage 8) (indexStart (file.length % 2 ^ 32) h.messageNum)
    (messages (outbox.take 8))
  let file ← putSlots obIndexHeaderSize 8 ids num file
  copyIn file 0 { h with magic := 0x6767, messageNum := num }.write

def checkAndUpdateFile (type : CecDataPathType) (programId : UInt32) (dirs : CecDirectories) (garbage : Nat → UInt8)
    (file : Bytes) : Option Bytes :=
  match type with
  | .mboxList => updateMboxList programId dirs.root file
  | .mboxInfo => updateMboxInfo file
  | .inboxInfo => updateInboxInfo file
  | .outboxInfo => updateOutboxInfo garbage dirs.outbox file
  | .outboxIndex => updateOutboxIndex garbage dirs.outbox file
  | .other _ => some file

end SweepDSEmu.StreetPass
