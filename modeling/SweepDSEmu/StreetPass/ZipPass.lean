import SweepDSEmu.Lib.SplitString

/-!
# The import of StreetPass messages

`importZipPass` puts the entries of a zip file into the inboxes of their titles, and into an external inbox when an
inbox is full.  `importQueuedZipPass` moves messages from the external inboxes to the inboxes and then imports the zip
files of a queue.

* An inbox is a directory with a file `BoxInfo_____`: a header, and behind it the headers of the messages.
* Files of the host and zip files are read and written without errors.  The order in which the files of the external
  inboxes are found is an argument.
* The clock and the generator of message identifiers are arguments: every entry comes with a time and an identifier.
* What a call does is also returned as a list of events.
-/

namespace SweepDSEmu.StreetPass

abbrev Bytes := List UInt8

abbrev Name := List Char

def fromLE (bytes : Bytes) : Nat := bytes.foldr (fun b n => b.toNat + 256 * n) 0

def readLE (bytes : Bytes) (offset width : Nat) : Nat := fromLE ((bytes.drop offset).take width)

def writeLE : Nat → Nat → Bytes
  | 0, _ => []
  | width + 1, value => UInt8.ofNat value :: writeLE width (value / 256)

def boxHeaderSize : Nat := 0x20

def messageHeaderSize : Nat := 0x70

structure CecBoxInfoHeader where
  magic : Nat
  padding : Nat
  boxInfoSize : Nat
  maxBoxSize : Nat
  boxSize : Nat
  maxMessageNum : Nat
  messageNum : Nat
  maxBatchSize : Nat
  maxMessageSize : Nat
  deriving DecidableEq

def CecBoxInfoHeader.read (file : Bytes) : CecBoxInfoHeader where
  magic := readLE file 0 2
  padding := readLE file 2 2
  boxInfoSize := readLE file 4 4
  maxBoxSize := readLE file 8 4
  boxSize := readLE file 12 4
  maxMessageNum := readLE file 16 4
  messageNum := readLE file 20 4
  maxBatchSize := readLE file 24 4
  maxMessageSize := readLE file 28 4

def CecBoxInfoHeader.write (h : CecBoxInfoHeader) : Bytes :=
  writeLE 2 h.magic ++ writeLE 2 h.padding ++ writeLE 4 h.boxInfoSize ++ writeLE 4 h.maxBoxSize ++
    writeLE 4 h.boxSize ++ writeLE 4 h.maxMessageNum ++ writeLE 4 h.messageNum ++ writeLE 4 h.maxBatchSize ++
    writeLE 4 h.maxMessageSize

/-- The header of an inbox that gets another message of a size.  The fields have 32 bits. -/
def CecBoxInfoHeader.add (h : CecBoxInfoHeader) (size : Nat) : CecBoxInfoHeader :=
  { h with
    messageNum := (h.messageNum + 1) % 2 ^ 32
    boxInfoSize := (h.boxInfoSize + messageHeaderSize) % 2 ^ 32
    boxSize := (h.boxSize + size) % 2 ^ 32 }

def base64Dict : List Char := "ABCDEFGHIJKLMNOPQRSTUVWXYZabcdefghijklmnopqrstuvwxyz0123456789+-".toList

def base64Char (n : Nat) : Char := base64Dict.getD (n % 64) 'A'

def encodeBase64 : Bytes → Name
  | a :: b :: c :: rest =>
    let n := a.toNat * 0x10000 + b.toNat * 0x100 + c.toNat
    base64Char (n / 0x40000) :: base64Char (n / 0x1000) :: base64Char (n / 0x40) :: base64Char n :: encodeBase64 rest
  | [a, b] =>
    let n := a.toNat * 0x100 + b.toNat
    [base64Char (n / 0x400), base64Char (n / 0x10), base64Char (n * 4)]
  | [a] => [base64Char (a.toNat / 4), base64Char (a.toNat * 16)]
  | [] => []

def hexDigits : List Char := "0123456789abcdef".toList

def hexByte (b : UInt8) : Name := [hexDigits.getD (b.toNat / 16) '0', hexDigits.getD (b.toNat % 16) '0']

def messageMagic (message : Bytes) : Nat := readLE message 0 2

def messageSize (message : Bytes) : Nat := readLE message 4 4

def titleName (message : Bytes) : Name := ((message.drop 16).take 4).reverse.flatMap hexByte

def messageId (message : Bytes) : Bytes := (message.drop 32).take 8

def messageName (message : Bytes) : Name := '_' :: encodeBase64 (messageId message)

/-- A message with another identifier, and with other times of sending and receiving. -/
def stamp (message newId time : Bytes) : Bytes :=
  message.take 32 ++ newId ++ (message.drop 40).take 32 ++ time ++ time ++ message.drop 96

def boxInfoName : Name := "BoxInfo_____".toList

abbrev Files := Name → Option Bytes

/-- A message in the external inbox of a title. -/
structure External where
  id : Name
  name : Name
  contents : Bytes
  deriving DecidableEq

structure Boxes where
  inbox : Name → Option Files
  external : List External

inductive Event where
  /-- An entry is put into the inbox. -/
  | added (message : External)
  /-- An entry is put into the external inbox. -/
  | queued (message : External)
  /-- A message goes from the external inbox to the inbox. -/
  | moved (message : External)
  /-- A message is deleted from the external inbox. -/
  | dropped (message : External)
  deriving DecidableEq

/-- The end of both importers: the message is in the inbox, and its header is appended to the headers. -/
def addMessage (files : Files) (boxFile : Bytes) (name : Name) (contents : Bytes) : Files :=
  Function.update (Function.update files name (some contents)) boxInfoName
    (some (((CecBoxInfoHeader.read boxFile).add contents.length).write ++ boxFile.drop boxHeaderSize ++
      contents.take messageHeaderSize))

structure ZipEntry where
  name : Option Name
  sizeValid : Bool := true
  data : Bytes
  newId : Bytes
  time : Bytes

def splitPathComponents (path : Name) : List Name := splitString '/' (path.map fun c => if c = '\\' then '/' else c)

/-- The files of the external inbox of a title. -/
def Boxes.externalCount (s : Boxes) (id : Name) : Nat := (s.external.filter fun x => x.id = id).length

def Boxes.writeExternal (s : Boxes) (x : External) : Boxes :=
  { s with external := s.external.filter (fun y => ¬ (y.id = x.id ∧ y.name = x.name)) ++ [x] }

def goodHeader (data : Bytes) (id filename : Name) : Bool :=
  messageMagic data = 0x6060 && messageSize data = data.length && titleName data = id && messageName data = filename

inductive EntryResult where
  | skipped
  | stored (event : Event)
  /-- The number of bytes that were written is not the expected one. -/
  | failed

def ZipEntry.message (e : ZipEntry) : Bytes := stamp e.data e.newId e.time

def ZipEntry.fileName (e : ZipEntry) : Name := '_' :: encodeBase64 e.newId

/-- The number of written bytes, as an `int`, is the size of the entry. -/
def ZipEntry.writtenOk (e : ZipEntry) : Bool := e.data.length < 2 ^ 31

def storeEntry (s : Boxes) (e : ZipEntry) (id : Name) (files : Files) (boxFile : Bytes) : Boxes × EntryResult :=
  let x : External := { id := id, name := e.fileName, contents := e.message }
  let box := CecBoxInfoHeader.read boxFile
  if box.maxMessageNum ≤ box.messageNum then
    (s.writeExternal x, if e.writtenOk then .stored (.queued x) else .failed)
  else if e.writtenOk then
    ({ s with inbox := Function.update s.inbox id (some (addMessage files boxFile e.fileName e.message)) },
      .stored (.added x))
  else
    ({ s with inbox := Function.update s.inbox id (some (Function.update files e.fileName (some e.message))) }, .failed)

def ZipEntry.target (e : ZipEntry) : Option (Name × Name) :=
  match e.name with
  | none => none
  | some path =>
    if e.sizeValid && messageHeaderSize ≤ e.data.length then
      match splitPathComponents path with
      | [id, filename] => if filename.head? = some '_' && filename.length = 12 then some (id, filename) else none
      | _ => none
    else none

def importEntry (s : Boxes) (e : ZipEntry) : Boxes × EntryResult :=
  match e.target with
  | none => (s, .skipped)
  | some (id, filename) =>
    match s.inbox id with
    | none => (s, .skipped)
    | some files =>
      match files boxInfoName with
      | none => (s, .skipped)
      | some boxFile =>
        let box := CecBoxInfoHeader.read boxFile
        if box.maxMessageSize < e.data.length then (s, .skipped)
        else if box.maxMessageNum ≤ box.messageNum ∧ 99 < s.externalCount id then (s, .skipped)
        else if goodHeader e.data id filename then storeEntry s e id files boxFile
        else (s, .skipped)

/-- The loop of `importZipPass`.  The last component tells whether it went to the end. -/
def importEntries (s : Boxes) : List ZipEntry → Boxes × List Event × Bool
  | [] => (s, [], true)
  | e :: entries =>
    match importEntry s e with
    | (s, .skipped) => importEntries s entries
    | (s, .stored event) =>
      let (s, events, done) := importEntries s entries
      (s, event :: events, done)
    | (s, .failed) => (s, [], false)

/-- `importZipPass`, with the result of `zipPassChecks`. -/
def importZipPass (s : Boxes) (checks : Int) (entries : List ZipEntry) : Boxes × List Event × Int :=
  if checks ≠ 0 then (s, [], checks)
  else
    let (s, events, done) := importEntries s entries
    (s, events, if done then events.length else -1)

/-- One turn of the first loop of `importQueuedZipPass`, for a file of an external inbox. -/
def importExternal (s : Boxes) (x : External) : Boxes × List Event :=
  let without := s.external.filter (· ≠ x)
  match (s.inbox x.id).bind fun files => (files boxInfoName).map fun boxFile => (files, boxFile) with
  | none => ({ s with external := without }, [.dropped x])
  | some (files, boxFile) =>
    let box := CecBoxInfoHeader.read boxFile
    if box.maxMessageNum ≤ box.messageNum then (s, [])
    else
      ({ inbox := Function.update s.inbox x.id (some (addMessage files boxFile x.name x.contents))
         external := without }, [.moved x])

def importExternals (s : Boxes) : List External → Boxes × List Event
  | [] => (s, [])
  | x :: xs =>
    let (s, events) := importExternal s x
    let (s, events') := importExternals s xs
    (s, events ++ events')

/-- The second loop of `importQueuedZipPass`, over the files of the queue.  Those that are no zip files are deleted. -/
def importQueue (s : Boxes) (checks : Int) : List (Option (List ZipEntry)) → Boxes × List Event × Int
  | [] => (s, [], 0)
  | none :: queue => importQueue s checks queue
  | some entries :: queue =>
    let (s, events, ret) := importZipPass s checks entries
    if ret < 0 then (s, events, ret)
    else
      let (s, events', ret) := importQueue s checks queue
      (s, events ++ events', ret)

def importQueuedZipPass (s : Boxes) (checks : Int) (order : List External → List External)
    (queue : List (Option (List ZipEntry))) : Boxes × List Event × Int :=
  if checks ≠ 0 then (s, [], checks)
  else
    let (s, events) := importExternals s (order s.external)
    let (s, events', ret) := importQueue s checks queue
    (s, events ++ events', ret)

end SweepDSEmu.StreetPass
